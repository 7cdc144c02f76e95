import Mathlib.Data.List.Sort
import ProviderOwned.Planner.Model

/-!
# The header of a GGUF file

`parse_index` of `range_model.cpp`: what it reads from the first bytes of a model file, and what it
has checked when it is complete (`parseIndex_sound`). A reader is the bytes not yet read. The header
may be cut off anywhere, which is no error of the file: the parser then asks for more bytes.
-/

namespace ProviderOwned.Gguf

open Planner (ModelIndex ModelTensor)

structure Tensor where
  name : List Char
  offset : Nat
  dimensions : List Nat
  type : Nat
  deriving DecidableEq, Repr

structure Index where
  architecture : List Char
  layers : Nat
  hidden : Nat
  heads : Nat
  kvHeads : Nat
  experts : Nat
  expertsUsed : Nat
  ffnLength : Nat
  trainedContext : Nat
  expertFfnLength : Nat
  headDimK : Nat
  headDimV : Nat
  logicalSize : Nat
  dataOffset : Nat
  alignment : Nat
  tensors : List Tensor
  deriving DecidableEq, Repr

/-! ### The reader -/

/-- The number whose bytes are given, the lowest first. -/
def littleEndian : List UInt8 → Nat
  | [] => 0
  | byte :: bytes => byte.toNat + 256 * littleEndian bytes

/-- `Reader::integer` of a type of `width` bytes. -/
def readInteger (width : Nat) (bytes : List UInt8) : Option (Nat × List UInt8) :=
  if bytes.length < width then none
  else some (littleEndian (bytes.take width), bytes.drop width)

/-- `Reader::skip`. -/
def skipBytes (count : Nat) (bytes : List UInt8) : Option (List UInt8) :=
  if bytes.length < count then none else some (bytes.drop count)

/-- `Reader::string`. -/
def readString (bytes : List UInt8) : Option (List Char × List UInt8) := do
  let (size, bytes) ← readInteger 8 bytes
  if 1024 * 1024 * 32 < size ∨ bytes.length < size then none
  else some ((bytes.take size).map fun byte => Char.ofNat byte.toNat, bytes.drop size)

/-- Skips `count` values, each by `skip`. -/
def skipMany (skip : List UInt8 → Option (List UInt8)) : Nat → List UInt8 → Option (List UInt8)
  | 0, bytes => some bytes
  | count + 1, bytes => (skip bytes).bind (skipMany skip count)

/-- `skip_value`; `depth` is how many arrays may still be opened. -/
def skipValue : Nat → Nat → List UInt8 → Option (List UInt8)
  | 0, _, _ => none
  | depth + 1, type, bytes =>
    if type = 0 ∨ type = 1 ∨ type = 7 then skipBytes 1 bytes
    else if type = 2 ∨ type = 3 then skipBytes 2 bytes
    else if type = 4 ∨ type = 5 ∨ type = 6 then skipBytes 4 bytes
    else if type = 10 ∨ type = 11 ∨ type = 12 then skipBytes 8 bytes
    else if type = 8 then (readString bytes).map Prod.snd
    else if type = 9 then do
      let (element, bytes) ← readInteger 4 bytes
      if 12 < element then none
      else
        let (count, bytes) ← readInteger 8 bytes
        if 100000000 < count then none else skipMany (skipValue depth element) count bytes
    else none

/-! ### The header -/

/-- Why there is no index: more bytes are needed, or the file is wrong. -/
inductive Stop
  | incomplete
  | invalid (error : String)
  deriving DecidableEq, Repr

/-- What the reader could not read may be in bytes to come. -/
def orIncomplete {α : Type} : Option α → Except Stop α
  | none => .error .incomplete
  | some value => .ok value

/-- The metadata kept while the header is read. -/
structure Metadata where
  architecture : List Char := []
  geometry : List (List Char × Nat) := []
  alignment : Nat := 32
  deriving DecidableEq, Repr

def geometrySuffixes : List String :=
  [".block_count", ".embedding_length", ".attention.head_count", ".attention.head_count_kv",
    ".expert_count", ".expert_used_count", ".feed_forward_length", ".context_length",
    ".expert_feed_forward_length", ".attention.key_length", ".attention.value_length"]

def architectureKey (key : List Char) : Bool :=
  let suffix := key.dropWhile (· ≠ '.')
  suffix ≠ [] && geometrySuffixes.any (·.toList = suffix)

def readMetadata : Nat → Metadata → List UInt8 → Except Stop (Metadata × List UInt8)
  | 0, metadata, bytes => .ok (metadata, bytes)
  | count + 1, metadata, bytes => do
    let (key, bytes) ← orIncomplete (readString bytes)
    let (type, bytes) ← orIncomplete (readInteger 4 bytes)
    if 12 < type then .error (.invalid "invalid GGUF metadata type")
    else if key = "general.architecture".toList ∧ type = 8 then
      let (architecture, bytes) ← orIncomplete (readString bytes)
      readMetadata count { metadata with architecture } bytes
    else if architectureKey key ∧ type = 4 then
      let (value, bytes) ← orIncomplete (readInteger 4 bytes)
      readMetadata count { metadata with geometry := metadata.geometry ++ [(key, value)] } bytes
    else if key = "general.alignment".toList ∧ type = 4 then
      let (alignment, bytes) ← orIncomplete (readInteger 4 bytes)
      readMetadata count { metadata with alignment } bytes
    else
      let bytes ← orIncomplete (skipValue 5 type bytes)
      readMetadata count metadata bytes

def readDimensions : Nat → List UInt8 → Except Stop (List Nat × List UInt8)
  | 0, bytes => .ok ([], bytes)
  | count + 1, bytes => do
    let (size, bytes) ← orIncomplete (readInteger 8 bytes)
    let (sizes, bytes) ← readDimensions count bytes
    .ok (size :: sizes, bytes)

def readTensors : Nat → List UInt8 → Except Stop (List Tensor × List UInt8)
  | 0, bytes => .ok ([], bytes)
  | count + 1, bytes => do
    let (name, bytes) ← orIncomplete (readString bytes)
    if name = [] then .error .incomplete
    else
      let (dimensions, bytes) ← orIncomplete (readInteger 4 bytes)
      if dimensions = 0 ∨ 4 < dimensions then .error (.invalid "invalid GGUF tensor dimensions")
      else
        let (dimensions, bytes) ← readDimensions dimensions bytes
        let (type, bytes) ← orIncomplete (readInteger 4 bytes)
        let (offset, bytes) ← orIncomplete (readInteger 8 bytes)
        let (tensors, bytes) ← readTensors count bytes
        .ok ({ name, offset, dimensions, type } :: tensors, bytes)

/-- The check of the offsets: in the data, and each beyond the one before it. -/
def offsetsValid (room : Nat) : List Tensor → Bool
  | [] => true
  | [a] => a.offset < room
  | a :: b :: rest => a.offset < room && a.offset < b.offset && offsetsValid room (b :: rest)

/-- `geometry_value`: the first value under the file's own architecture. -/
def geometryValue (metadata : Metadata) (suffix : String) : Nat :=
  ((metadata.geometry.find? fun (key, _) => key = metadata.architecture ++ '.' :: suffix.toList).map
    Prod.snd).getD 0

def isPowerOfTwo (n : Nat) : Bool := n ≠ 0 && n &&& (n - 1) = 0

/-- The data offset after `header` bytes; the alignment is a power of two. -/
def alignUp (header alignment : Nat) : Nat := (header + alignment - 1) / alignment * alignment

/-- The end of `parse_index`, once header and tensors are read. -/
def finishIndex (logicalSize header : Nat) (metadata : Metadata) (tensors : List Tensor) :
    Except Stop Index :=
  let dataOffset := alignUp header metadata.alignment
  if logicalSize ≤ dataOffset then .error (.invalid "GGUF data offset exceeds file size")
  else
    let tensors := tensors.insertionSort fun a b => a.offset ≤ b.offset
    if !offsetsValid (logicalSize - dataOffset) tensors then
      .error (.invalid "invalid or overlapping GGUF tensor offsets")
    else .ok
      { architecture := metadata.architecture
        layers := geometryValue metadata "block_count"
        hidden := geometryValue metadata "embedding_length"
        heads := geometryValue metadata "attention.head_count"
        kvHeads := geometryValue metadata "attention.head_count_kv"
        experts := geometryValue metadata "expert_count"
        expertsUsed := geometryValue metadata "expert_used_count"
        ffnLength := geometryValue metadata "feed_forward_length"
        trainedContext := geometryValue metadata "context_length"
        expertFfnLength := geometryValue metadata "expert_feed_forward_length"
        headDimK := geometryValue metadata "attention.key_length"
        headDimV := geometryValue metadata "attention.value_length"
        logicalSize, dataOffset, alignment := metadata.alignment, tensors }

/-- `parse_index` of the first bytes of a file of `logicalSize` bytes. -/
def parseIndex (bytes : List UInt8) (logicalSize : UInt64) : Except Stop Index := do
  let (magic, rest) ← orIncomplete (readInteger 4 bytes)
  let (version, rest) ← orIncomplete (readInteger 4 rest)
  let (tensorCount, rest) ← orIncomplete (readInteger 8 rest)
  let (metadataCount, rest) ← orIncomplete (readInteger 8 rest)
  if magic ≠ 0x46554747 ∨ version < 2 ∨ 3 < version ∨ tensorCount = 0 ∨ 1000000 < tensorCount ∨
      1000000 < metadataCount then .error (.invalid "invalid GGUF header")
  else
    let (metadata, rest) ← readMetadata metadataCount {} rest
    if 1024 * 1024 < metadata.alignment ∨ !isPowerOfTwo metadata.alignment then
      .error (.invalid "invalid GGUF alignment")
    else
      let (tensors, rest) ← readTensors tensorCount rest
      finishIndex logicalSize.toNat (bytes.length - rest.length) metadata tensors

/-- The byte counts of the tensors in the order of the file: up to the next one, or the end. -/
def tensorSizes (room : Nat) : List Tensor → List Nat
  | [] => []
  | [a] => [room - a.offset]
  | a :: b :: rest => (b.offset - a.offset) :: tensorSizes room (b :: rest)

def fillModelIndex (index : Index) : Except String ModelIndex :=
  if index.architecture = [] ∨ index.layers < 2 ∨ index.hidden = 0 ∨ index.heads = 0 ∨
      index.kvHeads = 0 then .error "unsupported or incomplete GGUF metadata"
  else .ok
    { architecture := String.ofList index.architecture
      layers := .ofNat index.layers
      hidden := .ofNat index.hidden
      heads := .ofNat index.heads
      kvHeads := .ofNat index.kvHeads
      experts := .ofNat index.experts
      expertsUsed := .ofNat index.expertsUsed
      ffnLength := .ofNat index.ffnLength
      trainedContext := .ofNat index.trainedContext
      expertFfnLength := .ofNat index.expertFfnLength
      headDimK := .ofNat index.headDimK
      headDimV := .ofNat index.headDimV
      logicalBytes := .ofNat index.logicalSize
      headerBytes := .ofNat index.dataOffset
      tensors := List.zipWith
        (fun t size => ⟨t.name, .ofNat size, t.dimensions.map UInt64.ofNat, .ofNat t.type⟩)
          index.tensors
        (tensorSizes (index.logicalSize - index.dataOffset) index.tensors) }

/-! ### What a complete index is -/

lemma orIncomplete_bind {α β : Type} {x : Option α} {k : α → Except Stop β} {y : β}
    (h : orIncomplete x >>= k = .ok y) : ∃ a, x = some a ∧ k a = .ok y := by
  cases x with
  | none => cases h
  | some a => exact ⟨a, rfl, h⟩

lemma ok_bind {α β : Type} {x : Except Stop α} {k : α → Except Stop β} {y : β}
    (h : x >>= k = .ok y) : ∃ a, x = .ok a ∧ k a = .ok y := by
  cases x with
  | error e => cases h
  | ok a => exact ⟨a, rfl, h⟩

variable {bytes rest : List UInt8}

lemma readInteger_length {width value : Nat} (h : readInteger width bytes = some (value, rest)) :
    rest.length + width = bytes.length := by
  rw [readInteger] at h
  split_ifs at h with hshort
  obtain ⟨-, rfl⟩ := Prod.mk.inj (Option.some.inj h)
  rw [List.length_drop]
  omega

lemma skipBytes_length {count : Nat} (h : skipBytes count bytes = some rest) :
    rest.length ≤ bytes.length := by
  rw [skipBytes] at h
  split_ifs at h
  obtain rfl := Option.some.inj h
  rw [List.length_drop]
  exact Nat.sub_le _ _

lemma readString_length {text : List Char} (h : readString bytes = some (text, rest)) :
    rest.length ≤ bytes.length := by
  rw [readString] at h
  obtain ⟨⟨size, bytes'⟩, hsize, h⟩ := Option.bind_eq_some_iff.mp h
  have hlength := readInteger_length hsize
  dsimp only at h
  split_ifs at h
  obtain ⟨-, rfl⟩ := Prod.mk.inj (Option.some.inj h)
  rw [List.length_drop]
  omega

lemma skipMany_length {skip : List UInt8 → Option (List UInt8)} {count : Nat}
    (hskip : ∀ bytes rest, skip bytes = some rest → rest.length ≤ bytes.length)
    (h : skipMany skip count bytes = some rest) : rest.length ≤ bytes.length := by
  induction count generalizing bytes with
  | zero =>
    obtain rfl := Option.some.inj h
    exact Nat.le_refl _
  | succ count ih =>
    obtain ⟨next, hnext, h⟩ := Option.bind_eq_some_iff.mp h
    exact (ih h).trans (hskip bytes next hnext)

lemma skipValue_length {depth type : Nat} (h : skipValue depth type bytes = some rest) :
    rest.length ≤ bytes.length := by
  induction depth generalizing type bytes rest with
  | zero => cases h
  | succ depth ih =>
    rw [skipValue] at h
    split_ifs at h
    · exact skipBytes_length h
    · exact skipBytes_length h
    · exact skipBytes_length h
    · exact skipBytes_length h
    · obtain ⟨⟨text, bytes'⟩, htext, rfl⟩ := Option.map_eq_some_iff.mp h
      exact readString_length htext
    · obtain ⟨⟨element, afterType⟩, htype, h⟩ := Option.bind_eq_some_iff.mp h
      have htypeLength := readInteger_length htype
      dsimp only at h
      split_ifs at h
      obtain ⟨⟨count, afterCount⟩, hcount, h⟩ := Option.bind_eq_some_iff.mp h
      have hcountLength := readInteger_length hcount
      dsimp only at h
      split_ifs at h
      have hmany := skipMany_length (fun _ _ hskip => ih hskip) h
      omega

lemma readMetadata_length {count : Nat} {metadata metadata' : Metadata}
    (h : readMetadata count metadata bytes = .ok (metadata', rest)) :
    rest.length ≤ bytes.length := by
  induction count generalizing metadata bytes with
  | zero =>
    cases h
    exact Nat.le_refl _
  | succ count ih =>
    rw [readMetadata] at h
    obtain ⟨⟨key, afterKey⟩, hkey, h⟩ := orIncomplete_bind h
    obtain ⟨⟨type, afterType⟩, htype, h⟩ := orIncomplete_bind h
    have hkeyLength := readString_length hkey
    have htypeLength := readInteger_length htype
    dsimp only at h
    split_ifs at h
    · obtain ⟨⟨architecture, next⟩, hnext, h⟩ := orIncomplete_bind h
      have hle := readString_length hnext
      dsimp only at h
      have hrest := ih h
      omega
    · obtain ⟨⟨value, next⟩, hnext, h⟩ := orIncomplete_bind h
      have hle := readInteger_length hnext
      dsimp only at h
      have hrest := ih h
      omega
    · obtain ⟨⟨alignment, next⟩, hnext, h⟩ := orIncomplete_bind h
      have hle := readInteger_length hnext
      dsimp only at h
      have hrest := ih h
      omega
    · obtain ⟨next, hnext, h⟩ := orIncomplete_bind h
      have hle := skipValue_length hnext
      have hrest := ih h
      omega

lemma readDimensions_length {count : Nat} {sizes : List Nat}
    (h : readDimensions count bytes = .ok (sizes, rest)) : rest.length ≤ bytes.length := by
  induction count generalizing bytes sizes rest with
  | zero =>
    cases h
    exact Nat.le_refl _
  | succ count ih =>
    rw [readDimensions] at h
    obtain ⟨⟨size, next⟩, hnext, h⟩ := orIncomplete_bind h
    obtain ⟨⟨more, last⟩, hmore, h⟩ := ok_bind h
    dsimp only at h hmore
    cases h
    have hle := readInteger_length hnext
    have hrest := ih hmore
    omega

lemma readTensors_length {count : Nat} {tensors : List Tensor}
    (h : readTensors count bytes = .ok (tensors, rest)) : rest.length ≤ bytes.length := by
  induction count generalizing bytes tensors rest with
  | zero =>
    cases h
    exact Nat.le_refl _
  | succ count ih =>
    rw [readTensors] at h
    obtain ⟨⟨name, afterName⟩, hname, h⟩ := orIncomplete_bind h
    have hnameLength := readString_length hname
    dsimp only at h
    split_ifs at h
    obtain ⟨⟨dimensions, afterCount⟩, hcount, h⟩ := orIncomplete_bind h
    have hcountLength := readInteger_length hcount
    dsimp only at h
    split_ifs at h
    obtain ⟨⟨sizes, afterSizes⟩, hsizes, h⟩ := ok_bind h
    obtain ⟨⟨type, afterType⟩, htype, h⟩ := orIncomplete_bind h
    obtain ⟨⟨offset, afterOffset⟩, hoffset, h⟩ := orIncomplete_bind h
    obtain ⟨⟨more, last⟩, hmore, h⟩ := ok_bind h
    dsimp only at h hmore
    cases h
    dsimp only at htype hoffset
    have hsizesLength := readDimensions_length hsizes
    have htypeLength := readInteger_length htype
    have hoffsetLength := readInteger_length hoffset
    have hrest := ih hmore
    omega

/-- What `parse_index` has checked of a complete index. -/
structure Index.Sound (index : Index) : Prop where
  dataOffset_pos : 0 < index.dataOffset
  dataOffset_lt : index.dataOffset < index.logicalSize
  logicalSize_lt : index.logicalSize < 2 ^ 64
  offsets : offsetsValid (index.logicalSize - index.dataOffset) index.tensors

lemma alignUp_pos {header alignment : Nat} (hheader : 0 < header) (halignment : 0 < alignment) :
    0 < alignUp header alignment := by
  refine Nat.mul_pos (Nat.div_pos ?_ halignment) halignment
  omega

lemma finishIndex_sound {logicalSize header : Nat} {metadata : Metadata} {tensors : List Tensor}
    {index : Index} (hsize : logicalSize < 2 ^ 64) (hheader : 0 < header)
    (halignment : 0 < metadata.alignment)
    (h : finishIndex logicalSize header metadata tensors = .ok index) : index.Sound := by
  rw [finishIndex] at h
  dsimp only at h
  split_ifs at h with hroom hoffsets
  cases h
  constructor
  · exact alignUp_pos hheader halignment
  · exact Nat.not_le.mp hroom
  · exact hsize
  · simpa using hoffsets

lemma parseIndex_sound {logicalSize : UInt64} {index : Index}
    (h : parseIndex bytes logicalSize = .ok index) : index.Sound := by
  rw [parseIndex] at h
  obtain ⟨⟨magic, afterMagic⟩, hmagic, h⟩ := orIncomplete_bind h
  obtain ⟨⟨version, afterVersion⟩, hversion, h⟩ := orIncomplete_bind h
  obtain ⟨⟨tensorCount, afterTensors⟩, htensors, h⟩ := orIncomplete_bind h
  obtain ⟨⟨metadataCount, afterCounts⟩, hcounts, h⟩ := orIncomplete_bind h
  dsimp only at h
  split_ifs at h
  obtain ⟨⟨metadata, afterMetadata⟩, hmetadata, h⟩ := ok_bind h
  dsimp only at h
  split_ifs at h with halignment
  obtain ⟨⟨tensors, rest⟩, hread, h⟩ := ok_bind h
  dsimp only at hversion htensors hcounts hread h
  have hmagicLength := readInteger_length hmagic
  have hversionLength := readInteger_length hversion
  have htensorsLength := readInteger_length htensors
  have hcountsLength := readInteger_length hcounts
  have hmetadataLength := readMetadata_length hmetadata
  have hreadLength := readTensors_length hread
  refine finishIndex_sound logicalSize.toNat_lt (by omega) (Nat.pos_of_ne_zero fun hzero => ?_) h
  exact halignment (.inr (by rw [hzero]; rfl))

end ProviderOwned.Gguf
