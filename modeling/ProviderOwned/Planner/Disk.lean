import Mathlib.Logic.Function.Basic
import ProviderOwned.Lib.Interrupted
import ProviderOwned.Planner.Sidecar

/-!
# Files and what is done to them

The commands `prepare_range_model` gives to the file system and to the server of a model file. A
command may fail, unless the machine is calm; and where it takes more than one write, a cut may
leave any part of it done. One failure is not noticed: `copy_into` looks at its stream before it is
closed, so the bytes the stream still holds then may be lost while the range counts as written.
-/

namespace ProviderOwned.Gguf

open Interrupted Spans
open RangeModelRequest (Source)

/-! ### Bytes -/

def encode (text : List Char) : List UInt8 := text.map fun c => .ofNat c.toNat

def decode (bytes : List UInt8) : List Char := bytes.map fun byte => .ofNat byte.toNat

lemma decode_encode {text : List Char} (h : ∀ c ∈ text, c.toNat < 256) :
    decode (encode text) = text := by
  rw [decode, encode, List.map_map]
  refine (List.map_congr_left fun c hc => ?_).trans (List.map_id text)
  rw [Function.comp_apply, UInt8.toNat_ofNat_of_lt' (h c hc), Char.ofNat_toNat]
  rfl

def slice (data : List UInt8) (s : Span) : List UInt8 := (data.drop s.start).take s.size

/-- The data with `bytes` written from `start` on. -/
def patch (data : List UInt8) (start : Nat) (bytes : List UInt8) : List UInt8 :=
  data.take start ++ List.replicate (start - data.length) 0 ++ bytes ++
    data.drop (start + bytes.length)

variable {data bytes : List UInt8} {s : Span} {start x n : Nat}

lemma getElem?_slice (data : List UInt8) (s : Span) (n : Nat) :
    (slice data s)[n]? = if n < s.size then data[s.start + n]? else none := by
  rw [slice, List.getElem?_take, List.getElem?_drop]

lemma length_slice (h : s.finish ≤ data.length) : (slice data s).length = s.size := by
  rw [Span.finish] at h
  rw [slice, List.length_take, List.length_drop]
  omega

lemma length_patch (h : start + bytes.length ≤ data.length) :
    (patch data start bytes).length = data.length := by
  simp only [patch, List.length_append, List.length_take, List.length_drop, List.length_replicate]
  omega

lemma getElem?_patch (h : start + bytes.length ≤ data.length) :
    (patch data start bytes)[x]? =
      if start ≤ x ∧ x < start + bytes.length then bytes[x - start]? else data[x]? := by
  have hzero : start - data.length = 0 := by omega
  have htake : (data.take start).length = start := by
    rw [List.length_take]
    omega
  rw [patch, hzero, List.replicate_zero, List.append_nil]
  split_ifs with hx
  · rw [List.getElem?_append_left (by rw [List.length_append, htake]; exact hx.2),
      List.getElem?_append_right (by rw [htake]; exact hx.1), htake]
  · by_cases hbefore : x < start
    · rw [List.append_assoc, List.getElem?_append_left (by rw [htake]; exact hbefore),
        List.getElem?_take_of_lt hbefore]
    · rw [List.getElem?_append_right (by rw [List.length_append, htake]; omega), List.length_append,
        htake, List.getElem?_drop]
      congr 1
      omega

/-! ### Commands -/

/-- What `prepare_range_model` asks of the system. -/
inductive Command
  /-- `fs::exists`. -/
  | present (path : List Char)
  /-- `fs::remove`. -/
  | remove (path : List Char)
  /-- All of a file, read through an `std::ifstream`. -/
  | read (path : List Char)
  /-- The part of a file that is hashed by `sha256_file_range`. -/
  | readSpan (path : List Char) (span : Span)
  /-- `fs::file_size`. -/
  | size (path : List Char)
  /-- Opening an `std::ofstream`, which empties the file. -/
  | truncate (path : List Char)
  /-- Writing to an opened `std::ofstream` until it is closed. -/
  | fill (path : List Char) (bytes : List UInt8)
  /-- `fs::rename`. -/
  | rename (path target : List Char)
  /-- `open` with `O_EXCL` and `ftruncate`, in `sparse_create`. -/
  | create (path : List Char) (size : Nat)
  /-- Opening a file, writing into it and closing it, in `copy_into`. -/
  | write (path : List Char) (start : Nat) (bytes : List UInt8)
  /-- `fs::create_directories` of the parent. -/
  | makeParent (path : List Char)
  /-- `fetch_range` from the server of the file. -/
  | fetch (source : Source) (span : Span) (output : List Char)
  /-- `fs::space`. -/
  | space
  /-- `physical_size`. -/
  | physicalSize (path : List Char)

namespace Command

abbrev Answer : Command → Type
  | present _ => Bool
  | remove _ => Unit
  | read _ => Option (List UInt8)
  | readSpan _ _ => Except String (List UInt8)
  | size _ => Option Nat
  | truncate _ | fill _ _ | rename _ _ | create _ _ | write _ _ _ | makeParent _ => Bool
  | fetch _ _ _ => Except String Nat
  | space => Option Nat
  | physicalSize _ => Nat

end Command

/-- The files, by their paths. -/
abbrev Disk := List Char → Option (List UInt8)

/-- What is outside of the program: the files on the servers, and what the file system says of
sizes. The size of a file is a signed 64-bit number. -/
structure World where
  remote : Source → List UInt8
  remote_lt : ∀ source, (remote source).length < 2 ^ 63
  physicalSize : List UInt8 → Nat
  space : Nat

/-- The file `fetch_range` has the headers of an answer in. -/
def headersPath (output : List Char) : List Char := output ++ ".headers".toList

namespace World

open Function (update)

/-- What a command does when nothing fails. A server has no bytes behind the end of its file. -/
def exec (w : World) (d : Disk) : (c : Command) → c.Answer × Disk
  | .present path => ((d path).isSome, d)
  | .remove path => ((), update d path none)
  | .read path => (d path, d)
  | .readSpan path span =>
    match d path with
    | none => (.error "could not open artifact for SHA-256", d)
    | some data =>
      if data.length < span.finish then (.error "partial artifact range", d)
        else (.ok (slice data span), d)
  | .size path => ((d path).map List.length, d)
  | .truncate path => (true, update d path (some []))
  | .fill path bytes => (true, update d path (some bytes))
  | .rename path target =>
    match d path with
    | none => (false, d)
    | some data => (true, update (update d path none) target (some data))
  | .create path size =>
    match d path with
    | none => (true, update d path (some (List.replicate size 0)))
    | some _ => (false, d)
  | .write path start bytes =>
    match d path with
    | none => (false, d)
    | some data => (true, update d path (some (patch data start bytes)))
  | .makeParent _ => (true, d)
  | .fetch source span output =>
    let d := update d (headersPath output) none
    if (w.remote source).length < span.finish
      then (.error "range download failed", update d output none)
    else (.ok (w.remote source).length, update d output (some (slice (w.remote source) span)))
  | .space => (some w.space, d)
  | .physicalSize path => ((d path).elim 0 w.physicalSize, d)

/-- What a command may answer and leave when it fails. `fs::exists` and `fs::remove` throw, which
cuts the program short. A failure to read on in the middle of `copy_into` is one of the write. -/
def Fails (d : Disk) : (c : Command) → c.Answer → Disk → Prop
  | .present _, _, _ | .remove _, _, _ => False
  | .read _, answer, d' => answer = none ∧ d' = d
  | .readSpan _ _, answer, d' => (∃ error, answer = .error error) ∧ d' = d
  | .size _, answer, d' => answer = none ∧ d' = d
  | .truncate _, answer, d' => answer = false ∧ d' = d
  | .fill path bytes, answer, d' => answer = false ∧ ∃ n, d' = update d path (some (bytes.take n))
  | .rename _ _, answer, d' => answer = false ∧ d' = d
  | .create path _, answer, d' =>
    answer = false ∧ (d' = d ∨ d path = none ∧ d' = update d path (some []))
  | .write path start bytes, answer, d' => answer = false ∧
    (d' = d ∨ ∃ data n, d path = some data ∧
      d' = update d path (some (patch data start (bytes.take n))))
  | .makeParent _, answer, d' => answer = false ∧ d' = d
  | .fetch _ _ output, answer, d' => (∃ error, answer = .error error) ∧
    ∃ content headers, d' = update (update d (headersPath output) headers) output content
  | .space, _, d' => d' = d
  | .physicalSize _, _, d' => d' = d

/-- What a command may leave that fails without notice: the last bytes of a write, `lost` at most,
are held back by the stream and not written when it is closed. -/
def Unnoticed (lost : Nat) (d : Disk) : (c : Command) → c.Answer → Disk → Prop
  | .write path start bytes, answer, d' => answer = true ∧ ∃ data n, d path = some data ∧
    bytes.length ≤ n + lost ∧ d' = update d path (some (patch data start (bytes.take n)))
  | _, _, _ => False

/-- What a cut in the middle of a command may leave. -/
def Torn (d : Disk) : Command → Disk → Prop
  | .fill path bytes, d' => ∃ n, d' = update d path (some (bytes.take n))
  | .create path _, d' => d path = none ∧ d' = update d path (some [])
  | .write path start bytes, d' =>
    ∃ data n, d path = some data ∧ d' = update d path (some (patch data start (bytes.take n)))
  | .fetch _ _ output, d' =>
    ∃ content headers, d' = update (update d (headersPath output) headers) output content
  | _, _ => False

/-- The machine on which commands may fail if `trouble` says so, and which may lose as many as
`lost` bytes of a write without notice. -/
def machine (w : World) (trouble : Prop) (lost : Nat) : Machine Command Command.Answer Disk where
  answers d c answer d' :=
    (answer, d') = w.exec d c ∨ trouble ∧ Fails d c answer d' ∨ Unnoticed lost d c answer d'
  torn := Torn

lemma answers_exec (w : World) (trouble : Prop) (lost : Nat) (d : Disk) (c : Command) :
    (w.machine trouble lost).answers d c (w.exec d c).1 (w.exec d c).2 := .inl rfl

end World

/-! ### The files of a model -/

def sidecarPath (path : List Char) : List Char := path ++ ".ranges".toList

/-- `partial_sidecar_path`. -/
def partialPath (path : List Char) : List Char := path ++ ".ranges.incomplete".toList

def temporaryPath (path : List Char) : List Char := path ++ ".download".toList

/-- The file a sidecar is written to before it is published. -/
def writingPath (target : List Char) : List Char := target ++ ".writing".toList

/-- The three files that outlast a run: the data, the sidecar of a complete cache and that of an
incomplete one. -/
structure Shelf where
  data : Option (List UInt8)
  sidecar : Option (List UInt8)
  part : Option (List UInt8)

def Disk.shelf (d : Disk) (path : List Char) : Shelf :=
  ⟨d path, d (sidecarPath path), d (partialPath path)⟩

end ProviderOwned.Gguf
