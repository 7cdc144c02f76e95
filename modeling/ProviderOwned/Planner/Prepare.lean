import ProviderOwned.Planner.Disk

/-!
# Preparing the model file of a stage

`prepare_range_model` of `range_model.cpp` as a program of file operations. A cache that is complete
is reused, one that is not is continued where its sidecar says, and a file that is neither is left
alone.
-/

namespace ProviderOwned.Gguf

open Interrupted Spans Text
open Sha256 (sha256)

/-- A part of `prepare_range_model`, which may fail with an error. -/
abbrev Action (α : Type) := Fallible Command Command.Answer String α

def ask (c : Command) : Action c.Answer := ExceptT.lift (Program.give c)

/-- Goes on only if the condition holds. -/
def require (c : Prop) [Decidable c] (error : String) : Action Unit :=
  if c then pure () else throw error

/-- Goes on only if the condition holds, and cleans up if it does not. -/
def requireOr (c : Prop) [Decidable c] (error : String) (cleanup : Action Unit) : Action Unit :=
  if c then pure () else do
    cleanup
    throw error

def fromExcept {α : Type} : Except String α → Action α
  | .ok a => pure a
  | .error error => throw error

/-! ### The sidecars -/

def writeSidecarFile (target magic : List Char) (r : RangeModelRequest) (stats : RangeModelStats)
    (ranges : List Range) : Action Unit := do
  let opened ← ask (.truncate (writingPath target))
  require opened "could not create range-cache metadata"
  let written ← ask (.fill (writingPath target) (encode (sidecarText magic r stats ranges)))
  requireOr written "could not write range-cache metadata" (ask (.remove (writingPath target)))
  let published ← ask (.rename (writingPath target) target)
  requireOr published "could not publish range-cache metadata" (ask (.remove (writingPath target)))

/-- `read_sidecar_file`. There is no error text for a file that cannot be opened. -/
def readSidecarFile (path magic : List Char) (r : RangeModelRequest) (allowEmpty : Bool) :
    Action (RangeModelStats × List Range) := do
  match ← ask (.read path) with
  | none => throw ""
  | some bytes => fromExcept (parseSidecar magic r allowEmpty (decode bytes))

/-- The first line of a file, if `std::getline` finds one. -/
def firstLine (file : Option (List UInt8)) : Option (List Char) :=
  file.bind fun bytes => (pieces '\n' (decode bytes)).head?

/-- One range of the loop of `reuse_cache`. -/
def checkCached (r : RangeModelRequest) (logicalBytes : Nat) (range : Range) : Action Unit := do
  require (range.span.finish ≤ logicalBytes) "cached range SHA-256 mismatch"
  match ← ask (.readSpan r.path range.span) with
  | .error error => throw (if error = "" then "cached range SHA-256 mismatch" else error)
  | .ok bytes =>
    require (lowercase (sha256 bytes) = lowercase range.sha256) "cached range SHA-256 mismatch"

def reuseCache (r : RangeModelRequest) : Action RangeModelStats := do
  let (stats, ranges) ← readSidecarFile (sidecarPath r.path) cacheMagic r false
  let size ← ask (.size r.path)
  require (size = some stats.logicalBytes) "partial model cache is missing or truncated"
  ranges.foldlM (fun _ range => checkCached r stats.logicalBytes range) ()
  let physicalBytes ← ask (.physicalSize r.path)
  return { stats with physicalBytes, cacheReused := true }

/-- Whether there is data or the sidecar of a complete cache. -/
def isKnown (r : RangeModelRequest) : Action Bool := do
  if ← ask (.present r.path) then return true else ask (.present (sidecarPath r.path))

/-- Whether there is data with the sidecar of an incomplete cache only. -/
def isCandidate (r : RangeModelRequest) : Action Bool := do
  if ← ask (.present (sidecarPath r.path)) then return false
  else if ← ask (.present r.path) then ask (.present (partialPath r.path))
  else return false

/-- A sidecar of an incomplete cache without data is removed. -/
def tidy (r : RangeModelRequest) : Action Unit := do
  if ← ask (.present (partialPath r.path)) then
    if ← ask (.present r.path) then pure () else ask (.remove (partialPath r.path))
  else pure ()

/-- The next part of `prepare_range_model`: a complete cache is reused, and an incomplete one is a
candidate to be continued. What has no sidecar of this program is not touched. -/
def takeStock (r : RangeModelRequest) : Action (Option RangeModelStats × Bool) := do
  if ← isKnown r then
    match ← ExceptT.lift (reuseCache r).run with
    | .ok stats => return (some stats, false)
    | .error error =>
      if ← isCandidate r then
        let marker ← ask (.read (partialPath r.path))
        require (firstLine marker = some partialMagic) "unrecognized partial range cache"
        return (none, true)
      else
        let marker ← ask (.read (sidecarPath r.path))
        require (firstLine marker = some cacheMagic) error
        ask (.remove r.path)
        ask (.remove (sidecarPath r.path))
        ask (.remove (partialPath r.path))
        return (none, false)
  else return (none, false)

/-! ### The header -/

/-- `fetch_range`. -/
def fetchSpan (r : RangeModelRequest) (span : Span) : Action Nat := do
  require (span.size ≠ 0 ∧ span.finish < 2 ^ 64) "invalid HTTP range"
  match ← ask (.fetch r.source span (temporaryPath r.path)) with
  | .ok logicalBytes => return logicalBytes
  | .error error => throw error

/-- The loop that reads the header of the file, with its index, the size of the file and the bytes
that were transferred. -/
def fetchHeader (r : RangeModelRequest) :
    Nat → Nat → UInt64 → List Char → List UInt8 → Nat → Action (Index × Nat × Nat)
  | 0, _, _, _, _, _ => throw "GGUF metadata exceeds range parser limit"
  | left + 1, offset, logicalSize, architecture, metadata, transferred => do
    require (wantedSize logicalSize offset ≠ 0) ""
    let reported ← fetchSpan r ⟨offset, wantedSize logicalSize offset⟩
    requireOr (logicalSize = 0 ∨ reported = logicalSize.toNat) "remote model size changed"
      (ask (.remove (temporaryPath r.path)))
    match ← ask (.read (temporaryPath r.path)) with
    | none =>
      ask (.remove (temporaryPath r.path))
      throw "could not open downloaded range"
    | some bytes =>
      ask (.remove (temporaryPath r.path))
      match parseIndexInto architecture (metadata ++ bytes) (.ofNat reported) with
      | .ok index => return (index, reported, transferred + wantedSize logicalSize offset)
      | .error (.invalid error) => throw error
      | .error .incomplete =>
        fetchHeader r left (offset + metadataChunk) (.ofNat reported)
          (architectureLeft architecture (metadata ++ bytes)) (metadata ++ bytes)
          (transferred + wantedSize logicalSize offset)

structure Plan where
  logicalBytes : Nat
  headerBytes : Nat
  transferred : Nat
  tensorsPresent : Nat
  sharedBytes : Nat
  layers : Nat
  pieces : List Span
  deriving DecidableEq, Repr

/-- The ranges of the stage in a file with this index. -/
def planOf (r : RangeModelRequest) (index : Index) (logicalBytes transferred : Nat) :
    Except String Plan :=
  if index.blockCount < r.stageEnd then .error "stage exceeds GGUF layer count"
  else
    let required := requiredRanges index r.stageStart.toNat r.stageEnd.toNat
    if required.tensorCount = 0 then .error "stage owns no GGUF tensors"
    else .ok ⟨logicalBytes, index.dataOffset, transferred, required.tensorCount,
      required.sharedBytes, index.blockCount, boundedRanges required.ranges⟩

/-- The numbers of a run that has downloaded this much, in a 64-bit number. -/
def Plan.stats (plan : Plan) (downloadedBytes : Nat) : RangeModelStats where
  logicalBytes := plan.logicalBytes
  downloadedBytes := downloadedBytes % 2 ^ 64
  sharedBytes := plan.sharedBytes
  headerBytes := plan.headerBytes
  tensorsPresent := plan.tensorsPresent

/-! ### The data -/

/-- One range of the loop over a partial sidecar. -/
def checkCompleted (r : RangeModelRequest) (range : Range) (piece : Span) : Action Unit := do
  require (range.span = piece) ""
  match ← ask (.readSpan r.path range.span) with
  | .error error => throw error
  | .ok bytes => require (lowercase (sha256 bytes) = lowercase range.sha256) ""

/-- The ranges of a partial sidecar, if it goes with the size of the file and there are not too
many. -/
def readPartial (r : RangeModelRequest) (plan : Plan) : Action (List Range) := do
  let (stats, completed) ← readSidecarFile (partialPath r.path) partialMagic r true
  require (stats.logicalBytes = plan.logicalBytes) ""
  let size ← ask (.size r.path)
  require (size = some plan.logicalBytes) ""
  require (completed.length ≤ plan.pieces.length) ""
  return completed

/-- The loop over the ranges of a partial sidecar: the bytes that are completed, and whether all
ranges were as they should be. -/
def checkRanges (r : RangeModelRequest) : List (Range × Span) → Nat → Action (Nat × Bool)
  | [], completedBytes => return (completedBytes, true)
  | (range, piece) :: rest, completedBytes => do
    match ← ExceptT.lift (checkCompleted r range piece).run with
    | .ok () => checkRanges r rest (completedBytes + range.span.size)
    | .error _ => return (completedBytes, false)

/-- Removes a candidate that does not fit. -/
def discard (r : RangeModelRequest) : Action Unit := do
  ask (.remove r.path)
  ask (.remove (partialPath r.path))

/-- Continues a candidate, with the bytes that are completed. One that does not fit is removed and
the run begins anew, but the bytes of the ranges before the one that was wrong stay counted. -/
def resume (r : RangeModelRequest) (plan : Plan) (candidate : Bool) :
    Action (Option (List Range) × Nat) := do
  if candidate then
    match ← ExceptT.lift (readPartial r plan).run with
    | .error _ =>
      discard r
      return (none, 0)
    | .ok completed =>
      let (completedBytes, fits) ← checkRanges r (completed.zip plan.pieces) 0
      if fits then return (some completed, completedBytes)
      else
        discard r
        return (none, completedBytes)
  else return (none, 0)

def sparseCreate (path : List Char) (size : Nat) : Action Unit := do
  let created ← ask (.create path size)
  requireOr created "could not initialize sparse model file" (ask (.remove path))

/-- `copy_into`, of which a write that counts as done may be short of some last bytes. -/
def copyInto (source target : List Char) (start : Nat) : Action Unit := do
  match ← ask (.read source) with
  | none => throw "could not open sparse range files"
  | some bytes =>
    let written ← ask (.write target start bytes)
    require written "could not write sparse model range"

/-- The temporary file is removed before the first range of the file is fetched. -/
def clearTemporary (r : RangeModelRequest) (piece : Span) : Action Unit :=
  if piece.start = 0 then ask (.remove (temporaryPath r.path)) else pure ()

/-- One range of the download, after the ranges `done.1` and with `done.2` bytes downloaded. -/
def downloadPiece (r : RangeModelRequest) (plan : Plan) (done : List Range × Nat) (piece : Span) :
    Action (List Range × Nat) := do
  clearTemporary r piece
  let reported ← fetchSpan r piece
  require (reported = plan.logicalBytes) ""
  match ← ask (.read (temporaryPath r.path)) with
  | none => throw "could not calculate SHA-256"
  | some bytes =>
    copyInto (temporaryPath r.path) r.path piece.start
    ask (.remove (temporaryPath r.path))
    writeSidecarFile (partialPath r.path) partialMagic r (plan.stats (done.2 + piece.size))
      (done.1 ++ [⟨piece, sha256 bytes⟩])
    return (done.1 ++ [⟨piece, sha256 bytes⟩], done.2 + piece.size)

/-- There is room for what is missing, and for one more download beside it. -/
def Plan.roomy (plan : Plan) (completedBytes : Nat) (available : Option Nat) : Bool :=
  available.any fun available =>
    total plan.pieces - completedBytes + min downloadChunk (total plan.pieces - completedBytes) ≤
      available

/-- A file with only a part of the layers takes less room than all of it. -/
def Plan.sparse (plan : Plan) (r : RangeModelRequest) (physicalBytes : Nat) : Bool :=
  physicalBytes ≠ 0 &&
    ((r.stageStart = 0 && r.stageEnd = plan.layers) || physicalBytes < plan.logicalBytes)

/-- The end of `prepare_range_model`: the sidecar of the complete cache takes the place of the other
one. -/
def publish (r : RangeModelRequest) (plan : Plan) (done : List Range × Nat) :
    Action RangeModelStats := do
  let physicalBytes ← ask (.physicalSize r.path)
  require (plan.sparse r physicalBytes) "model file is not sparse"
  writeSidecarFile (sidecarPath r.path) cacheMagic r { plan.stats done.2 with physicalBytes } done.1
  ask (.remove (partialPath r.path))
  return { plan.stats done.2 with physicalBytes }

/-- Downloads what is missing after the ranges in `completed`. -/
def complete (r : RangeModelRequest) (plan : Plan) (completed : List Range) (completedBytes : Nat) :
    Action RangeModelStats := do
  writeSidecarFile (partialPath r.path) partialMagic r
    (plan.stats (plan.transferred + completedBytes)) completed
  let available ← ask .space
  require (plan.roomy completedBytes available) "not enough free disk space for assigned model data"
  let done ← (plan.pieces.drop completed.length).foldlM (downloadPiece r plan)
    (completed, plan.transferred + completedBytes)
  publish r plan done

/-- Creates the file if there is none to continue, and downloads what is missing. -/
def download (r : RangeModelRequest) (plan : Plan) (completed : Option (List Range))
    (completedBytes : Nat) :
    Action RangeModelStats :=
  tryCatch
    (match completed with
    | some completed => complete r plan completed completedBytes
    | none => do
      sparseCreate r.path plan.logicalBytes
      complete r plan [] completedBytes)
    fun error => do
      ask (.remove (temporaryPath r.path))
      throw error

/-- The part of `prepare_range_model` behind `reuse_cache`. -/
def refill (r : RangeModelRequest) (candidate : Bool) : Action RangeModelStats := do
  let made ← ask (.makeParent r.path)
  require made "could not create range-cache directory"
  let (index, logicalBytes, transferred) ← fetchHeader r (maxMetadata / metadataChunk) 0 0 [] [] 0
  let plan ← fromExcept (planOf r index logicalBytes transferred)
  let (completed, completedBytes) ← resume r plan candidate
  download r plan completed completedBytes

def prepareRangeModel (r : RangeModelRequest) : Action RangeModelStats := do
  require r.accepted "invalid range-model request"
  tidy r
  let (reused, candidate) ← takeStock r
  match reused with
  | some stats => return stats
  | none => refill r candidate

end ProviderOwned.Gguf
