import ProviderOwned.Lib.Incremental
import ProviderOwned.Planner.Ranges

/-!
# Reading a header piece by piece

`inspect_range_model` of `range_model.cpp` fetches the first bytes of a model file in pieces and
parses all of them again after each piece, into the same index. The parser is steady: what it finds
in the bytes so far it finds again when more follow. So the pieces give what the whole file gives.
-/

namespace ProviderOwned.Gguf

open Incremental Spans

variable {bytes more rest file : List UInt8} {count width : Nat} {metadata : Metadata}

/-! ### The readers are steady -/

/-- A reader that skips a part of the bytes. -/
def skipped (skip : List UInt8 → Option (List UInt8)) : Reader UInt8 Stop Unit :=
  fun bytes => orIncomplete ((skip bytes).map (Prod.mk ()))

/-- Takes some bytes, if there are as many. -/
lemma steady_take {α : Type} (f : List UInt8 → α) (count : Nat) :
    Steady Stop.incomplete fun bytes : List UInt8 =>
      orIncomplete (if bytes.length < count then none
        else some (f (bytes.take count), bytes.drop count)) where
  length_le {input a rest} h := by
    split_ifs at h
    · cases h
    · cases h
      rw [List.length_drop]
      exact Nat.sub_le _ _
  ok {input a rest} next h := by
    split_ifs at h with hshort
    · cases h
    · cases h
      have hlength : count ≤ input.length := Nat.not_lt.mp hshort
      rw [if_neg (by rw [List.length_append]; omega), List.take_append_of_le_length hlength,
        List.drop_append_of_le_length hlength]
      rfl
  error {input e} next h hne := by
    split_ifs at h
    · cases h
      exact absurd rfl hne
    · cases h
  early {input next a rest} h hle := by
    split_ifs at h with hshort
    · cases h
    · cases h
      rw [List.length_drop, List.length_append] at hle
      rw [List.length_append] at hshort
      have hlength : count ≤ input.length := by omega
      refine ⟨input.drop count, List.drop_append_of_le_length hlength, ?_⟩
      rw [if_neg (Nat.not_lt.mpr hlength), List.take_append_of_le_length hlength]
      rfl

lemma steady_readInteger (width : Nat) :
    Steady Stop.incomplete fun bytes => orIncomplete (readInteger width bytes) :=
  steady_take littleEndian width

lemma orIncomplete_bind_eq {α β : Type} (x : Option α) (f : α → Option β) :
    orIncomplete (x.bind f) = orIncomplete x >>= fun a => orIncomplete (f a) := by
  cases x <;> rfl

lemma steady_readString : Steady Stop.incomplete fun bytes => orIncomplete (readString bytes) := by
  have hread : (fun bytes => orIncomplete (readString bytes)) = fun bytes =>
      orIncomplete (readInteger 8 bytes) >>= fun x => orIncomplete
        (if 1024 * 1024 * 32 < x.1 ∨ x.2.length < x.1 then none
        else some ((x.2.take x.1).map fun byte => Char.ofNat byte.toNat, x.2.drop x.1)) := by
    funext bytes
    exact orIncomplete_bind_eq _ _
  rw [hread]
  refine (steady_readInteger 8).bind fun size => ?_
  by_cases hsize : 1024 * 1024 * 32 < size
  · simp only [hsize, true_or, if_true]
    exact Steady.fail _
  · simp only [hsize, false_or]
    exact steady_take (List.map fun byte => Char.ofNat byte.toNat) size

/-- What follows a reader may skip more. -/
lemma steady_skipped_bind {α : Type} {r : List UInt8 → Option (α × List UInt8)}
    {f : α × List UInt8 → Option (List UInt8)}
    (hr : Steady Stop.incomplete fun bytes => orIncomplete (r bytes))
    (hf : ∀ a, Steady Stop.incomplete (skipped fun rest => f (a, rest))) :
    Steady Stop.incomplete (skipped fun bytes => r bytes >>= f) := by
  have hbind : (skipped fun bytes => r bytes >>= f) = fun bytes =>
      orIncomplete (r bytes) >>= fun x => orIncomplete ((f x).map (Prod.mk ())) := by
    funext bytes
    unfold skipped
    dsimp only
    cases r bytes <;> rfl
  rw [hbind]
  exact hr.bind hf

lemma steady_skipped_ite {c : Prop} [Decidable c] {s t : List UInt8 → Option (List UInt8)}
    (hs : Steady Stop.incomplete (skipped s)) (ht : Steady Stop.incomplete (skipped t)) :
    Steady Stop.incomplete (skipped fun bytes => if c then s bytes else t bytes) := by
  by_cases hc : c
  · simp only [if_pos hc]
    exact hs
  · simp only [if_neg hc]
    exact ht

lemma steady_skipped_none : Steady Stop.incomplete (skipped fun _ => none) := Steady.fail _

lemma steady_skipBytes (count : Nat) : Steady Stop.incomplete (skipped (skipBytes count)) := by
  have hskip : skipped (skipBytes count) = fun bytes =>
      orIncomplete (if bytes.length < count then none else some ((), bytes.drop count)) := by
    funext bytes
    unfold skipped skipBytes
    split_ifs <;> rfl
  rw [hskip]
  exact steady_take (fun _ => ()) count

lemma steady_skipString :
    Steady Stop.incomplete (skipped fun bytes => (readString bytes).map Prod.snd) := by
  have hread : (skipped fun bytes => (readString bytes).map Prod.snd) = fun bytes =>
      orIncomplete (readString bytes) >>= fun x => .ok ((), x.2) := by
    funext bytes
    unfold skipped
    dsimp only
    cases readString bytes <;> rfl
  rw [hread]
  exact steady_readString.bind fun _ => Steady.pure ()

lemma steady_skipMany {skip : List UInt8 → Option (List UInt8)}
    (hskip : Steady Stop.incomplete (skipped skip)) (count : Nat) :
    Steady Stop.incomplete (skipped (skipMany skip count)) := by
  induction count with
  | zero => exact Steady.pure ()
  | succ count ih =>
    have hstep : skipped (skipMany skip (count + 1)) = fun bytes =>
        skipped skip bytes >>= fun x => skipped (skipMany skip count) x.2 := by
      funext bytes
      unfold skipped
      rw [skipMany]
      cases skip bytes <;> rfl
    rw [hstep]
    exact hskip.bind fun _ => ih

/-- A value is skipped by its type, an array by the type of its elements. -/
lemma steady_skipValue (depth type : Nat) :
    Steady Stop.incomplete (skipped (skipValue depth type)) := by
  induction depth generalizing type with
  | zero => exact steady_skipped_none
  | succ depth ih =>
    change Steady _ (skipped fun bytes => skipValue (depth + 1) type bytes)
    simp only [skipValue]
    refine steady_skipped_ite (steady_skipBytes 1) ?_
    refine steady_skipped_ite (steady_skipBytes 2) ?_
    refine steady_skipped_ite (steady_skipBytes 4) ?_
    refine steady_skipped_ite (steady_skipBytes 8) ?_
    refine steady_skipped_ite steady_skipString ?_
    refine steady_skipped_ite ?_ steady_skipped_none
    refine steady_skipped_bind (steady_readInteger 4) fun element => ?_
    dsimp +instances only
    refine steady_skipped_ite steady_skipped_none ?_
    refine steady_skipped_bind (steady_readInteger 8) fun count => ?_
    dsimp +instances only
    exact steady_skipped_ite steady_skipped_none (steady_skipMany (ih element) count)

/-- A skipped value in a reader. -/
lemma steady_orIncomplete_bind {α : Type} {skip : List UInt8 → Option (List UInt8)}
    {k : List UInt8 → Except Stop (α × List UInt8)} (hskip : Steady Stop.incomplete (skipped skip))
    (hk : Steady Stop.incomplete k) :
    Steady Stop.incomplete fun bytes => orIncomplete (skip bytes) >>= k := by
  have hbind : (fun bytes => orIncomplete (skip bytes) >>= k) = fun bytes =>
      skipped skip bytes >>= fun x => k x.2 := by
    funext bytes
    unfold skipped
    cases skip bytes <;> rfl
  rw [hbind]
  exact hskip.bind fun _ => hk

lemma steady_readMetadata (count : Nat) (metadata : Metadata) :
    Steady Stop.incomplete (readMetadata count metadata) := by
  induction count generalizing metadata with
  | zero => exact Steady.pure metadata
  | succ count ih =>
    change Steady _ fun bytes => readMetadata (count + 1) metadata bytes
    simp only [readMetadata]
    refine steady_readString.bind fun key => ?_
    dsimp +instances only
    refine (steady_readInteger 4).bind fun type => ?_
    dsimp +instances only
    refine Steady.ite (Steady.fail _) ?_
    refine Steady.ite (steady_readString.bind
      fun architecture => ih { metadata with architecture }) ?_
    refine Steady.ite ((steady_readInteger 4).bind fun value =>
      ih { metadata with geometry := metadata.geometry ++ [(key, value)] }) ?_
    refine Steady.ite ((steady_readInteger 4).bind
      fun alignment => ih { metadata with alignment }) ?_
    exact steady_orIncomplete_bind (steady_skipValue 5 type) (ih metadata)

lemma steady_readDimensions (count : Nat) : Steady Stop.incomplete (readDimensions count) := by
  induction count with
  | zero => exact Steady.pure []
  | succ count ih =>
    change Steady _ fun bytes => readDimensions (count + 1) bytes
    simp only [readDimensions]
    refine (steady_readInteger 8).bind fun size => ?_
    dsimp +instances only
    exact ih.bind fun sizes => Steady.pure (size :: sizes)

lemma steady_readTensors (count : Nat) : Steady Stop.incomplete (readTensors count) := by
  induction count with
  | zero => exact Steady.pure []
  | succ count ih =>
    change Steady _ fun bytes => readTensors (count + 1) bytes
    simp only [readTensors]
    refine steady_readString.bind fun name => ?_
    dsimp +instances only
    refine Steady.ite (Steady.fail _) ?_
    refine (steady_readInteger 4).bind fun dimensions => ?_
    dsimp +instances only
    refine Steady.ite (Steady.fail _) ?_
    refine (steady_readDimensions dimensions).bind fun sizes => ?_
    dsimp +instances only
    refine (steady_readInteger 4).bind fun type => ?_
    dsimp +instances only
    refine (steady_readInteger 8).bind fun offset => ?_
    dsimp +instances only
    exact ih.bind fun tensors => Steady.pure (_ :: tensors)

/-! ### One call after another -/

/-- The start of `parse_index`: the counts of tensors and of metadata. -/
def readCounts : Reader UInt8 Stop (Nat × Nat) := fun bytes => do
  let (magic, rest) ← orIncomplete (readInteger 4 bytes)
  let (version, rest) ← orIncomplete (readInteger 4 rest)
  let (tensorCount, rest) ← orIncomplete (readInteger 8 rest)
  let (metadataCount, rest) ← orIncomplete (readInteger 8 rest)
  if magic ≠ 0x46554747 ∨ version < 2 ∨ 3 < version ∨ tensorCount = 0 ∨ 1000000 < tensorCount ∨
      1000000 < metadataCount then .error (.invalid "invalid GGUF header")
  else .ok ((tensorCount, metadataCount), rest)

/-- What `parse_index` reads, into an index that may have an architecture from a call before. -/
def readHeader (architecture : List Char) : Reader UInt8 Stop (Metadata × List Tensor) :=
  fun bytes => do
  let ((tensorCount, metadataCount), rest) ← readCounts bytes
  let (metadata, rest) ← readMetadata metadataCount { architecture } rest
  if 1024 * 1024 < metadata.alignment ∨ !isPowerOfTwo metadata.alignment then
    .error (.invalid "invalid GGUF alignment")
  else
    let (tensors, rest) ← readTensors tensorCount rest
    .ok ((metadata, tensors), rest)

/-- `parse_index` into an index that may have an architecture from a call before. -/
def parseIndexInto (architecture : List Char) (bytes : List UInt8) (logicalSize : UInt64) :
    Except Stop Index := do
  let ((metadata, tensors), rest) ← readHeader architecture bytes
  finishIndex logicalSize.toNat (bytes.length - rest.length) metadata tensors

lemma parseIndex_eq (bytes : List UInt8) (logicalSize : UInt64) :
    parseIndex bytes logicalSize = parseIndexInto [] bytes logicalSize := by
  simp only [parseIndex, parseIndexInto, readHeader, readCounts, bind_assoc]
  refine bind_congr fun magic => bind_congr fun version => bind_congr fun tensorCount =>
    bind_congr fun metadataCount => ?_
  split_ifs
  · rfl
  · change _ = readMetadata metadataCount.1 {} metadataCount.2 >>= _
    refine bind_congr fun metadata => ?_
    split_ifs
    · rfl
    · simp only [bind_assoc]
      rfl

lemma steady_readCounts : Steady Stop.incomplete readCounts := by
  unfold readCounts
  refine (steady_readInteger 4).bind fun magic => (steady_readInteger 4).bind fun version => ?_
  refine (steady_readInteger 8).bind fun tensorCount => (steady_readInteger 8).bind
    fun metadataCount => ?_
  dsimp +instances only
  exact Steady.ite (Steady.fail _) (Steady.pure _)

lemma steady_readHeader (architecture : List Char) :
    Steady Stop.incomplete (readHeader architecture) := by
  unfold readHeader
  refine steady_readCounts.bind fun counts => ?_
  dsimp +instances only
  refine (steady_readMetadata counts.2 { architecture }).bind fun metadata => ?_
  dsimp +instances only
  refine Steady.ite (Steady.fail _) ?_
  exact (steady_readTensors counts.1).bind fun tensors => Steady.pure (metadata, tensors)

variable {architecture : List Char} {logicalSize : UInt64} {index : Index}

/-- What the parser has found, or found wrong, stays so when more bytes follow. -/
lemma parseIndexInto_append (h : parseIndexInto architecture bytes logicalSize ≠ .error .incomplete)
    (more : List UInt8) :
    parseIndexInto architecture (bytes ++ more) logicalSize =
      parseIndexInto architecture bytes logicalSize := by
  have hsteady := steady_readHeader architecture
  unfold parseIndexInto at h ⊢
  cases hread : readHeader architecture bytes with
  | error e =>
    rw [hread] at h
    have hne : e ≠ .incomplete := by
      rintro rfl
      exact h rfl
    rw [hsteady.error more hread hne]
    rfl
  | ok x =>
    obtain ⟨⟨metadata, tensors⟩, rest⟩ := x
    rw [hsteady.ok more hread]
    change finishIndex _ _ _ _ = finishIndex _ _ _ _
    rw [hsteady.ok_of_append hread]

lemma le_alignUp {header alignment : Nat} (h : 0 < alignment) :
    header ≤ alignUp header alignment := by
  unfold alignUp
  have hdiv := Nat.div_add_mod (header + alignment - 1) alignment
  have hmod := Nat.mod_lt (header + alignment - 1) h
  rw [Nat.mul_comm] at hdiv
  omega

lemma readHeader_alignment {tensors : List Tensor}
    (h : readHeader architecture bytes = .ok ((metadata, tensors), rest)) :
    0 < metadata.alignment := by
  unfold readHeader at h
  obtain ⟨⟨counts, afterCounts⟩, -, h⟩ := ok_bind h
  obtain ⟨⟨metadata', afterMetadata⟩, -, h⟩ := ok_bind h
  dsimp only at h
  split_ifs at h with halignment
  obtain ⟨⟨tensors', afterTensors⟩, -, h⟩ := ok_bind h
  cases h
  refine Nat.pos_of_ne_zero fun hzero => halignment (.inr ?_)
  rw [hzero]
  rfl

/-- An index is complete as soon as the bytes before its data are there. -/
lemma parseIndex_take {n : Nat} (h : parseIndex file logicalSize = .ok index)
    (hdata : index.dataOffset ≤ n) : parseIndex (file.take n) logicalSize = .ok index := by
  have hsteady := steady_readHeader []
  rw [parseIndex_eq] at h ⊢
  unfold parseIndexInto at h ⊢
  cases hread : readHeader [] file with
  | error e =>
    rw [hread] at h
    cases h
  | ok x =>
    obtain ⟨⟨metadata, tensors⟩, rest⟩ := x
    rw [hread] at h
    change finishIndex _ _ _ _ = _ at h
    have hle := hsteady.length_le hread
    have hheader : file.length - rest.length ≤ index.dataOffset := by
      have hend : file.length - rest.length ≤
          alignUp (file.length - rest.length) metadata.alignment :=
        le_alignUp (readHeader_alignment hread)
      have hindex := h
      unfold finishIndex at hindex
      dsimp only at hindex
      split_ifs at hindex
      cases hindex
      exact hend
    have hdrop : (file.drop n).length ≤ rest.length := by
      rw [List.length_drop]
      omega
    rw [← List.take_append_drop n file] at hread
    obtain ⟨rest', hrest, htake⟩ := hsteady.early hread hdrop
    rw [htake]
    change finishIndex _ _ _ _ = _
    rw [← hsteady.ok_of_append htake, List.take_append_drop, ← hrest]
    exact h

/-! ### The same index again -/

/-- The architecture after the metadata entries that could be read whole, `count` at most. -/
def lastArchitecture (architecture : List Char) (bytes : List UInt8) : Nat → List Char
  | 0 => architecture
  | count + 1 =>
    match readMetadata (count + 1) { architecture } bytes with
    | .ok (metadata, _) => metadata.architecture
    | .error _ => lastArchitecture architecture bytes count

/-- The architecture that `parse_index` leaves in its index when it needs more bytes. -/
def architectureLeft (architecture : List Char) (bytes : List UInt8) : List Char :=
  match readCounts bytes with
  | .ok ((_, metadataCount), rest) => lastArchitecture architecture rest metadataCount
  | .error _ => architecture

lemma lastArchitecture_cases (architecture : List Char) (bytes : List UInt8) (count : Nat) :
    lastArchitecture architecture bytes count = architecture ∨ ∃ left metadata rest, left ≤ count ∧
      readMetadata left { architecture } bytes = .ok (metadata, rest) ∧
        lastArchitecture architecture bytes count = metadata.architecture := by
  induction count with
  | zero => exact .inl rfl
  | succ count ih =>
    rw [lastArchitecture]
    cases hread : readMetadata (count + 1) { architecture } bytes with
    | ok x => exact .inr ⟨count + 1, x.1, x.2, Nat.le_refl _, hread, rfl⟩
    | error e =>
      refine ih.imp_right fun ⟨left, metadata, rest, hleft, hmetadata, hlast⟩ => ?_
      exact ⟨left, metadata, rest, hleft.trans (Nat.le_succ _), hmetadata, hlast⟩

lemma orIncomplete_ok {α : Type} {x : Option α} {a : α} (h : orIncomplete x = .ok a) :
    x = some a := by
  cases x with
  | none => cases h
  | some b =>
    cases h
    rfl

/-- An entry read before is read again, so an architecture left by it makes no difference. -/
lemma readMetadata_again {left : Nat} {metadata' : Metadata} (hle : left ≤ count)
    (h : readMetadata left metadata bytes = .ok (metadata', rest)) (more : List UInt8) :
    readMetadata count { metadata with architecture := metadata'.architecture } (bytes ++ more) =
      readMetadata count metadata (bytes ++ more) := by
  induction left generalizing count metadata bytes with
  | zero =>
    cases h
    rfl
  | succ left ih =>
    obtain ⟨count, rfl⟩ : ∃ n, count = n + 1 := ⟨count - 1, by omega⟩
    have hle' : left ≤ count := Nat.le_of_succ_le_succ hle
    rw [readMetadata] at h
    obtain ⟨⟨key, afterKey⟩, hkey, h⟩ := ok_bind h
    obtain ⟨⟨type, afterType⟩, htype, h⟩ := ok_bind h
    have hkey' := steady_readString.ok more hkey
    have htype' := (steady_readInteger 4).ok more htype
    dsimp only at hkey' htype' h
    rw [readMetadata, readMetadata, hkey']
    change (orIncomplete (readInteger 4 (afterKey ++ more)) >>= _) =
      orIncomplete (readInteger 4 (afterKey ++ more)) >>= _
    rw [htype']
    simp only [bind, Except.bind]
    split_ifs at h ⊢
    · rfl
    · obtain ⟨⟨value, next⟩, hnext, h⟩ := ok_bind h
      have hnext' := (steady_readInteger 4).ok more hnext
      rw [hnext']
      exact ih hle' h
    · obtain ⟨⟨alignment, next⟩, hnext, h⟩ := ok_bind h
      have hnext' := (steady_readInteger 4).ok more hnext
      rw [hnext']
      exact ih hle' h
    · obtain ⟨next, hnext, h⟩ := ok_bind h
      have hskipped : skipped (skipValue 5 type) afterType = .ok ((), next) := by
        unfold skipped
        rw [orIncomplete_ok hnext]
        rfl
      have hnext' := (steady_skipValue 5 type).ok more hskipped
      have hvalue : skipValue 5 type (afterType ++ more) = some (next ++ more) := by
        unfold skipped at hnext'
        obtain ⟨x, hx, hpair⟩ := Option.map_eq_some_iff.mp (orIncomplete_ok hnext')
        cases hpair
        exact hx
      rw [hvalue]
      exact ih hle' h

/-- Parsing again into the same index is parsing into a fresh one. -/
lemma parseIndexInto_again (architecture : List Char) (bytes more : List UInt8)
    (logicalSize : UInt64) :
    parseIndexInto (architectureLeft architecture bytes) (bytes ++ more) logicalSize =
      parseIndexInto architecture (bytes ++ more) logicalSize := by
  unfold architectureLeft
  cases hcounts : readCounts bytes with
  | error e => rfl
  | ok x =>
    obtain ⟨⟨tensorCount, metadataCount⟩, rest⟩ := x
    have hagain : readMetadata metadataCount
        { architecture := lastArchitecture architecture rest metadataCount } (rest ++ more) =
          readMetadata metadataCount { architecture } (rest ++ more) := by
      obtain hlast | ⟨left, metadata, rest', hleft, hread, hlast⟩ :=
        lastArchitecture_cases architecture rest metadataCount
      · rw [hlast]
      · rw [hlast]
        exact readMetadata_again hleft hread more
    unfold parseIndexInto readHeader
    rw [steady_readCounts.ok more hcounts]
    simp only [bind, Except.bind]
    rw [hagain]

/-! ### The pieces -/

def metadataChunk : Nat := 1024 * 1024

def maxMetadata : Nat := 64 * 1024 * 1024

/-- `fetch_range` from a server that has the file: it takes no shorter answer than it asked for. -/
def fetchRange (file : List UInt8) (offset size : Nat) : Option (List UInt8) :=
  if size = 0 ∨ file.length < offset + size then none else some ((file.drop offset).take size)

/-- The size of the piece at `offset`, once the size of the file is known (it is not 0 then). -/
def wantedSize (logicalSize : UInt64) (offset : Nat) : Nat :=
  if logicalSize = 0 then metadataChunk else min metadataChunk (logicalSize - .ofNat offset).toNat

/-- The loop of `inspect_range_model` from `offset` on; `metadata` is what was fetched before. -/
def inspectLoop (file : List UInt8) (offset : Nat) (logicalSize : UInt64) (architecture : List Char)
    (metadata : List UInt8) : Except String Index :=
  if offset < maxMetadata then
    if wantedSize logicalSize offset = 0 then .error ""
    else
      match fetchRange file offset (wantedSize logicalSize offset) with
      | none => .error "range download failed"
      | some piece =>
        match parseIndexInto architecture (metadata ++ piece) (.ofNat file.length) with
        | .ok index => .ok index
        | .error (.invalid error) => .error error
        | .error .incomplete =>
          inspectLoop file (offset + metadataChunk) (.ofNat file.length)
            (architectureLeft architecture (metadata ++ piece)) (metadata ++ piece)
  else .error "unsupported or incomplete GGUF metadata"
termination_by maxMetadata - offset
decreasing_by
  have hchunk : 0 < metadataChunk := by decide
  omega

/-- The index of `inspect_range_model` for a file. -/
def inspectIndex (file : List UInt8) : Except String Index := inspectLoop file 0 0 [] []

/-- What the loop returns for what the parser says of the bytes it may fetch. -/
def Answers (parsed : Except Stop Index) (result : Except String Index) : Prop :=
  match parsed with
  | .ok index => result = .ok index
  | .error (.invalid error) => result = .error error
  | .error .incomplete => ∃ error, result = .error error

/-- The state of the loop before it fetches the piece at `offset`. -/
structure Fetched (file : List UInt8) (offset : Nat) (logicalSize : UInt64)
    (architecture : List Char) (metadata : List UInt8) : Prop where
  aligned : metadataChunk ∣ offset
  size : offset = 0 ∧ logicalSize = 0 ∨ logicalSize = .ofNat file.length
  metadata_eq : metadata = file.take offset
  incomplete : parseIndex metadata (.ofNat file.length) = .error .incomplete
  again : ∀ more, parseIndexInto architecture (metadata ++ more) (.ofNat file.length) =
    parseIndex (metadata ++ more) (.ofNat file.length)

variable {offset : Nat}

lemma parseIndex_append (h : parseIndex bytes logicalSize ≠ .error .incomplete)
    (more : List UInt8) :
    parseIndex (bytes ++ more) logicalSize = parseIndex bytes logicalSize := by
  rw [parseIndex_eq] at h
  rw [parseIndex_eq, parseIndex_eq]
  exact parseIndexInto_append h more

/-- What is decided by a part of the file is decided by a longer part. -/
lemma parseIndex_take_mono {n n' : Nat} (hle : n ≤ n')
    (h : parseIndex (file.take n) logicalSize ≠ .error .incomplete) :
    parseIndex (file.take n') logicalSize = parseIndex (file.take n) logicalSize := by
  have hsplit : file.take n' = file.take n ++ (file.drop n).take (n' - n) := by
    rw [← List.take_add, Nat.add_sub_cancel' hle]
  rw [hsplit]
  exact parseIndex_append h _

/-- The bytes fetched so far are all there are. -/
lemma Fetched.all (h : Fetched file offset logicalSize architecture bytes)
    (hle : file.length ≤ offset) (n : Nat) (hn : offset ≤ n) :
    parseIndex (file.take n) (.ofNat file.length) = .error .incomplete := by
  have hincomplete := h.incomplete
  rw [h.metadata_eq, List.take_of_length_le hle] at hincomplete
  rw [List.take_of_length_le (hle.trans hn)]
  exact hincomplete

/-- The piece wanted is a whole one or the rest of the file, as long as there is a rest. -/
lemma Fetched.wantedSize_eq (h : Fetched file offset logicalSize architecture bytes)
    (hlength : metadataChunk ≤ file.length) (hsize : file.length < 2 ^ 64)
    (hle : offset ≤ file.length) :
    wantedSize logicalSize offset = min metadataChunk (file.length - offset) := by
  unfold wantedSize
  split_ifs with hzero
  · obtain ⟨rfl, -⟩ | hlogical := h.size
    · rw [Nat.sub_zero, Nat.min_eq_left hlength]
    · rw [hzero] at hlogical
      have hfile : file.length = 0 := by
        have hmod := congrArg UInt64.toNat hlogical
        rw [UInt64.toNat_ofNat', Nat.mod_eq_of_lt hsize] at hmod
        exact hmod.symm
      rw [hfile] at hlength
      exact absurd hlength (by decide)
  · obtain ⟨-, hlogical⟩ | rfl := h.size
    · exact absurd hlogical hzero
    · rw [UInt64.toNat_sub_of_le, UInt64.toNat_ofNat', UInt64.toNat_ofNat', Nat.mod_eq_of_lt hsize,
        Nat.mod_eq_of_lt (by omega)]
      rw [UInt64.le_iff_toNat_le, UInt64.toNat_ofNat', UInt64.toNat_ofNat', Nat.mod_eq_of_lt hsize,
        Nat.mod_eq_of_lt (by omega)]
      exact hle

lemma Fetched.append_piece {piece : List UInt8} {wanted : Nat}
    (h : Fetched file offset logicalSize architecture bytes)
    (hpiece : fetchRange file offset wanted = some piece) : bytes ++ piece =
      file.take (offset + wanted) := by
  unfold fetchRange at hpiece
  split_ifs at hpiece
  obtain rfl := Option.some.inj hpiece
  rw [h.metadata_eq, ← List.take_add]

/-- One piece more. -/
lemma Fetched.next {piece : List UInt8} {wanted : Nat}
    (h : Fetched file offset logicalSize architecture bytes)
    (hwanted : wanted = min metadataChunk (file.length - offset))
    (hpiece : fetchRange file offset wanted = some piece)
    (hparse : parseIndexInto architecture (bytes ++ piece) (.ofNat file.length) =
      .error .incomplete) :
    Fetched file (offset + metadataChunk) (.ofNat file.length)
      (architectureLeft architecture (bytes ++ piece)) (bytes ++ piece) where
  aligned := Nat.dvd_add h.aligned (Nat.dvd_refl _)
  size := .inr rfl
  metadata_eq := by
    rw [h.append_piece hpiece]
    obtain hchunk | hend : wanted = metadataChunk ∨ wanted = file.length - offset := by omega
    · rw [hchunk]
    · rw [List.take_of_length_le (by omega), List.take_of_length_le (by omega)]
  incomplete := by
    rw [← h.again]
    exact hparse
  again more := by
    rw [parseIndexInto_again, List.append_assoc]
    exact h.again _

/-- The pieces decide what the first bytes decide at once. -/
lemma inspectLoop_answers (hlength : metadataChunk ≤ file.length) (hsize : file.length < 2 ^ 64)
    (h : Fetched file offset logicalSize architecture bytes) :
    Answers (parseIndex (file.take maxMetadata) (.ofNat file.length))
      (inspectLoop file offset logicalSize architecture bytes) := by
  induction hleft : maxMetadata - offset using Nat.strong_induction_on
    generalizing offset logicalSize architecture bytes with
  | _ left ih =>
    rw [inspectLoop]
    by_cases hoffset : offset < maxMetadata
    · rw [if_pos hoffset]
      by_cases hend : file.length ≤ offset
      · -- The whole file was fetched: there is no further piece, and no index in all of it.
        rw [h.all hend maxMetadata (Nat.le_of_lt hoffset)]
        split_ifs with hzero
        · exact ⟨_, rfl⟩
        · have hnone : fetchRange file offset (wantedSize logicalSize offset) = none := by
            unfold fetchRange
            rw [if_pos (.inr (by omega))]
          rw [hnone]
          exact ⟨_, rfl⟩
      · have hwanted := h.wantedSize_eq hlength hsize (by omega)
        have hchunk : 0 < metadataChunk := by decide
        have hpos : wantedSize logicalSize offset ≠ 0 := by omega
        obtain ⟨piece, hpiece⟩ : ∃ piece,
            fetchRange file offset (wantedSize logicalSize offset) = some piece := by
          unfold fetchRange
          rw [if_neg (by omega)]
          exact ⟨_, rfl⟩
        rw [if_neg hpos, hpiece]
        have hparse : parseIndexInto architecture (bytes ++ piece) (.ofNat file.length) =
            parseIndex (file.take (offset + wantedSize logicalSize offset))
                (.ofNat file.length) := by
          rw [h.again, h.append_piece hpiece]
        have hle : offset + wantedSize logicalSize offset ≤ maxMetadata := by
          obtain ⟨k, rfl⟩ := h.aligned
          unfold metadataChunk maxMetadata at *
          omega
        dsimp only
        split
        · rename_i index hindex
          rw [hparse] at hindex
          rw [parseIndex_take_mono hle (by rw [hindex]; simp), hindex]
          rfl
        · rename_i error hinvalid
          rw [hparse] at hinvalid
          rw [parseIndex_take_mono hle (by rw [hinvalid]; simp), hinvalid]
          rfl
        · rename_i hincomplete
          exact ih _ (by omega) (h.next hwanted hpiece hincomplete) rfl
    · rw [if_neg hoffset]
      by_cases hdecided : parseIndex (file.take maxMetadata) (.ofNat file.length) =
        .error .incomplete
      · rw [hdecided]
        exact ⟨_, rfl⟩
      · have hmore := parseIndex_take_mono (Nat.not_lt.mp hoffset) hdecided
        rw [← h.metadata_eq, h.incomplete] at hmore
        exact absurd hmore.symm hdecided

lemma fetched_nothing (file : List UInt8) : Fetched file 0 0 [] [] where
  aligned := Nat.dvd_zero _
  size := .inl ⟨rfl, rfl⟩
  metadata_eq := rfl
  incomplete := rfl
  again more := by rw [parseIndex_eq]

/-! ### The spans of an accepted index -/

lemma readTensors_count {tensors : List Tensor}
    (h : readTensors count bytes = .ok (tensors, rest)) :
    tensors.length = count := by
  induction count generalizing bytes tensors rest with
  | zero =>
    cases h
    rfl
  | succ count ih =>
    rw [readTensors] at h
    obtain ⟨⟨name, afterName⟩, -, h⟩ := ok_bind h
    dsimp only at h
    split_ifs at h
    obtain ⟨⟨dimensions, afterCount⟩, -, h⟩ := ok_bind h
    dsimp only at h
    split_ifs at h
    obtain ⟨⟨sizes, afterSizes⟩, -, h⟩ := ok_bind h
    obtain ⟨⟨type, afterType⟩, -, h⟩ := ok_bind h
    obtain ⟨⟨offset, afterOffset⟩, -, h⟩ := ok_bind h
    obtain ⟨⟨tensors', last⟩, htensors, h⟩ := ok_bind h
    cases h
    rw [List.length_cons, ih htensors]

lemma parseIndex_tensors_ne_nil (h : parseIndex bytes logicalSize = .ok index) :
    index.tensors ≠ [] := by
  rw [parseIndex_eq] at h
  obtain ⟨⟨⟨metadata, tensors⟩, rest⟩, hread, h⟩ := ok_bind h
  unfold readHeader at hread
  obtain ⟨⟨⟨tensorCount, metadataCount⟩, afterCounts⟩, hcounts, hread⟩ := ok_bind hread
  obtain ⟨⟨metadata', afterMetadata⟩, -, hread⟩ := ok_bind hread
  dsimp only at hread
  split_ifs at hread
  obtain ⟨⟨tensors', afterTensors⟩, htensors, hread⟩ := ok_bind hread
  cases hread
  have hcount : tensorCount ≠ 0 := by
    unfold readCounts at hcounts
    obtain ⟨magic, -, hcounts⟩ := ok_bind hcounts
    obtain ⟨version, -, hcounts⟩ := ok_bind hcounts
    obtain ⟨tensorCount', -, hcounts⟩ := ok_bind hcounts
    obtain ⟨metadataCount', -, hcounts⟩ := ok_bind hcounts
    dsimp only at hcounts
    split_ifs at hcounts with hbad
    cases hcounts
    exact fun hzero => hbad (.inr (.inr (.inr (.inl hzero))))
  have hlength := readTensors_count htensors
  unfold finishIndex at h
  dsimp only at h
  split_ifs at h
  cases h
  intro hnil
  have hsorted := congrArg List.length hnil
  rw [List.length_insertionSort, hlength] at hsorted
  exact hcount hsorted

/-- The tensors of an index cut the rest of the file into pieces. -/
structure Index.Tiled (index : Index) : Prop where
  nonempty : index.tensors ≠ []
  increasing : index.tensors.Pairwise fun a b => a.offset < b.offset
  inside : ∀ t ∈ index.tensors, index.dataOffset + t.offset < index.logicalSize
  /-- Each tensor has a span, which begins at its offset. -/
  spans : index.placed.map (fun p => (p.1, p.2.start)) =
    index.tensors.map fun t => (t, index.dataOffset + t.offset)
  /-- The spans are not empty, in order and disjoint. -/
  ordered : Ordered (index.placed.map Prod.snd)
  /-- They cover the file from the first tensor on. -/
  covers : ∀ x, Covers (index.placed.map Prod.snd) x ↔
    (∃ t ∈ index.tensors.head?, index.dataOffset + t.offset ≤ x) ∧ x < index.logicalSize

lemma offsetsValid_cons {room : Nat} {t : Tensor} {tensors : List Tensor} :
    offsetsValid room (t :: tensors) ↔
      t.offset < room ∧ (∀ next ∈ tensors.head?, t.offset < next.offset) ∧
        offsetsValid room tensors := by
  cases tensors with
  | nil => simp [offsetsValid]
  | cons next tensors => simp [offsetsValid, and_assoc]

lemma offsetsValid_pairwise {room : Nat} {tensors : List Tensor} (h : offsetsValid room tensors) :
    tensors.Pairwise fun a b => a.offset < b.offset := by
  induction tensors with
  | nil => exact .nil
  | cons t tensors ih =>
    obtain ⟨-, hnext, hrest⟩ := offsetsValid_cons.mp h
    have hpairwise := ih hrest
    refine List.pairwise_cons.mpr ⟨fun u hu => ?_, hpairwise⟩
    cases tensors with
    | nil => exact absurd hu List.not_mem_nil
    | cons next tensors =>
      have hlt : t.offset < next.offset := hnext next rfl
      obtain rfl | hu := List.mem_cons.mp hu
      · exact hlt
      · exact hlt.trans ((List.pairwise_cons.mp hpairwise).1 u hu)

lemma offsetsValid_lt {room : Nat} {tensors : List Tensor} (h : offsetsValid room tensors) :
    ∀ t ∈ tensors, t.offset < room := by
  induction tensors with
  | nil => exact fun t ht => absurd ht List.not_mem_nil
  | cons t tensors ih =>
    obtain ⟨hlt, -, hrest⟩ := offsetsValid_cons.mp h
    exact List.forall_mem_cons.mpr ⟨hlt, ih hrest⟩

lemma placed_starts (dataOffset logicalSize : Nat) (tensors : List Tensor) :
    (placed dataOffset logicalSize tensors).map (fun p => (p.1, p.2.start)) =
      tensors.map fun t => (t, dataOffset + t.offset) := by
  induction tensors with
  | nil => rfl
  | cons t tensors ih =>
    cases tensors with
    | nil => rfl
    | cons next tensors =>
      rw [placed, List.map_cons, ih]
      rfl

lemma covers_placed {dataOffset logicalSize : Nat} {tensors : List Tensor}
    (hdata : dataOffset ≤ logicalSize) (h : offsetsValid (logicalSize - dataOffset) tensors)
    (x : Nat) :
    Covers ((placed dataOffset logicalSize tensors).map Prod.snd) x ↔
      (∃ t ∈ tensors.head?, dataOffset + t.offset ≤ x) ∧ x < logicalSize := by
  induction tensors with
  | nil => simp [placed]
  | cons t tensors ih =>
    obtain ⟨hlt, hnext, hrest⟩ := offsetsValid_cons.mp h
    cases tensors with
    | nil =>
      simp only [placed, List.map_cons, List.map_nil, covers_cons, not_covers_nil, or_false,
        Span.finish, List.head?_cons, Option.mem_some_iff, exists_eq_left']
      omega
    | cons next tensors =>
      have hoffset : t.offset < next.offset := hnext next rfl
      have hnextLt := offsetsValid_lt hrest next (List.mem_cons_self ..)
      rw [placed, List.map_cons, covers_cons, ih hrest]
      simp only [Span.finish, List.head?_cons, Option.mem_some_iff, exists_eq_left']
      omega

lemma Index.Sound.tiled (h : index.Sound) (hne : index.tensors ≠ []) : index.Tiled where
  nonempty := hne
  increasing := offsetsValid_pairwise h.offsets
  inside t ht := by
    have hlt := offsetsValid_lt h.offsets t ht
    omega
  spans := placed_starts _ _ _
  ordered := (placed_ordered (Nat.le_of_lt h.dataOffset_lt) h.offsets).1
  covers := covers_placed (Nat.le_of_lt h.dataOffset_lt) h.offsets

/-! ### The header in pieces -/

/-- What the loop finds in a file is what the parser finds in the whole of it. -/
structure Whole (file : List UInt8) : Prop where
  /-- An index whose header is within the limit. -/
  index : ∀ index, index.dataOffset ≤ maxMetadata →
    (inspectIndex file = .ok index ↔ parseIndex file (.ofNat file.length) = .ok index)
  /-- A rejection within the limit. -/
  invalid : ∀ error,
    parseIndex (file.take maxMetadata) (.ofNat file.length) = .error (.invalid error) →
      parseIndex file (.ofNat file.length) = .error (.invalid error) ∧
        inspectIndex file = .error error
  /-- A header that the file ends in. -/
  incomplete : parseIndex file (.ofNat file.length) = .error .incomplete →
    ∃ error, inspectIndex file = .error error

lemma whole (hlength : metadataChunk ≤ file.length) (hsize : file.length < 2 ^ 64) :
    Whole file := by
  have hanswers := inspectLoop_answers hlength hsize (fetched_nothing file)
  have hmore : ∀ {parsed}, parseIndex (file.take maxMetadata) (.ofNat file.length) = parsed →
      parsed ≠ .error .incomplete → parseIndex file (.ofNat file.length) = parsed := by
    intro parsed hparsed hne
    have hdecided : parseIndex (file.take maxMetadata) (.ofNat file.length) ≠
        .error .incomplete := by
      rw [hparsed]
      exact hne
    have happend := parseIndex_append hdecided (file.drop maxMetadata)
    rw [List.take_append_drop] at happend
    rw [happend, hparsed]
  constructor
  · intro index hdata
    constructor
    · intro h
      change inspectLoop file 0 0 [] [] = _ at h
      rw [h] at hanswers
      cases hparsed : parseIndex (file.take maxMetadata) (.ofNat file.length) with
      | ok index' =>
        rw [hparsed] at hanswers
        cases hanswers
        exact hmore hparsed (by simp)
      | error stop =>
        rw [hparsed] at hanswers
        cases stop with
        | incomplete =>
          obtain ⟨error, herror⟩ := hanswers
          cases herror
        | invalid error => cases hanswers
    · intro h
      rw [parseIndex_take h hdata] at hanswers
      exact hanswers
  · intro error h
    rw [h] at hanswers
    exact ⟨hmore h (by simp), hanswers⟩
  · intro h
    cases hparsed : parseIndex (file.take maxMetadata) (.ofNat file.length) with
    | ok index =>
      rw [hmore hparsed (by simp)] at h
      cases h
    | error stop =>
      cases stop with
      | incomplete =>
        rw [hparsed] at hanswers
        exact hanswers
      | invalid error =>
        rw [hmore hparsed (by simp)] at h
        cases h

/-- A header that is complete or wrong stays so when the file grows, so it can be fetched in pieces;
and the tensors of a complete one tile the file. -/
theorem header_stable :
    (∀ bytes more logicalSize index, parseIndex bytes logicalSize = .ok index →
      parseIndex (bytes ++ more) logicalSize = .ok index) ∧
    (∀ bytes more logicalSize error, parseIndex bytes logicalSize = .error (.invalid error) →
      parseIndex (bytes ++ more) logicalSize = .error (.invalid error)) ∧
    (∀ file, metadataChunk ≤ file.length → file.length < 2 ^ 64 → Whole file) ∧
    ∀ bytes logicalSize index, parseIndex bytes logicalSize = .ok index → index.Tiled := by
  refine ⟨fun bytes more logicalSize index h => ?_, fun bytes more logicalSize error h => ?_,
    fun file hlength hsize => whole hlength hsize, fun bytes logicalSize index h => ?_⟩
  · rw [parseIndex_append (by rw [h]; simp), h]
  · rw [parseIndex_append (by rw [h]; simp), h]
  · exact (parseIndex_sound h).tiled (parseIndex_tensors_ne_nil h)

end ProviderOwned.Gguf
