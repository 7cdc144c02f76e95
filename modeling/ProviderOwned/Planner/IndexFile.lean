import ProviderOwned.Lib.Extract
import ProviderOwned.Planner.Model

/-!
# The file of a model index

`save_model_index` and `load_model_index` of `range_model.cpp`. The fields are written with blanks
between them and read as words and numbers, the tensors' names among them: what a name has after a
blank is read as the next field.
-/

namespace ProviderOwned.Planner

open Text Extract

def tensorText (t : ModelTensor) : List Char :=
  decimal t.bytes.toNat ++ ' ' :: decimal t.type.toNat ++ ' ' :: decimal t.dimensions.length ++
    t.dimensions.flatMap (fun dimension => ' ' :: decimal dimension.toNat) ++ ' ' :: t.name ++
      ['\n']

def headerNumbers (m : ModelIndex) : List Nat :=
  [m.layers.toNat, m.hidden.toNat, m.heads.toNat, m.kvHeads.toNat, m.experts.toNat,
    m.expertsUsed.toNat, m.ffnLength.toNat, m.trainedContext.toNat, m.expertFfnLength.toNat,
    m.headDimK.toNat, m.headDimV.toNat, m.logicalBytes.toNat, m.headerBytes.toNat, m.tensors.length]

/-- The text that `save_model_index` writes. -/
def saveModelIndex (m : ModelIndex) : List Char :=
  "dan-model-index 4\n".toList ++ m.architecture.toList ++
    (headerNumbers m).flatMap (fun n => ' ' :: decimal n) ++ '\n' :: m.tensors.flatMap tensorText

/-- The numbers of a tensor: its bytes, its type and its dimensions. -/
def readShape : Reader (Nat × Nat × List Nat) := do
  let bytes ← number (2 ^ 64)
  let type ← number (2 ^ 32)
  let count ← number (2 ^ 64)
  if 4 < count then failure
  else
    let dimensions ← many (number (2 ^ 64)) count
    pure (bytes, type, dimensions)

/-- A tensor of `load_model_index`. -/
def readTensor : Reader ModelTensor := do
  let (bytes, type, dimensions) ← readShape
  let name ← word
  pure { name, bytes := .ofNat bytes, dimensions := dimensions.map UInt64.ofNat,
         type := .ofNat type }

/-- The start of `load_model_index`: the index without its tensors. -/
def readHeader : Reader ModelIndex := do
  let magic ← word
  let version ← word
  if magic ≠ "dan-model-index".toList ∨ version ≠ "4".toList then failure
  else
    let architecture ← word
    let layers ← number (2 ^ 32)
    let hidden ← number (2 ^ 32)
    let heads ← number (2 ^ 32)
    let kvHeads ← number (2 ^ 32)
    let experts ← number (2 ^ 32)
    let expertsUsed ← number (2 ^ 32)
    let ffnLength ← number (2 ^ 32)
    let trainedContext ← number (2 ^ 32)
    let expertFfnLength ← number (2 ^ 32)
    let headDimK ← number (2 ^ 32)
    let headDimV ← number (2 ^ 32)
    let logicalBytes ← number (2 ^ 64)
    let headerBytes ← number (2 ^ 64)
    pure
      { architecture := String.ofList architecture
        layers := .ofNat layers
        hidden := .ofNat hidden
        heads := .ofNat heads
        kvHeads := .ofNat kvHeads
        experts := .ofNat experts
        expertsUsed := .ofNat expertsUsed
        ffnLength := .ofNat ffnLength
        trainedContext := .ofNat trainedContext
        expertFfnLength := .ofNat expertFfnLength
        headDimK := .ofNat headDimK
        headDimV := .ofNat headDimV
        logicalBytes := .ofNat logicalBytes
        headerBytes := .ofNat headerBytes
        tensors := [] }

/-- The index in the file, before its shape is checked. -/
def readIndex : Reader ModelIndex := do
  let loaded ← readHeader
  let count ← number (2 ^ 64)
  if count = 0 ∨ 1000000 < count then failure
  else
    let tensors ← many readTensor count
    pure { loaded with tensors }

/-- The shape that `load_model_index` checks at its end. -/
def shapeOk (m : ModelIndex) : Bool :=
  (m.architecture = "qwen2" || m.architecture = "olmoe" || m.architecture = "qwen3moe") && 2 ≤
    m.layers &&
    m.hidden ≠ 0 && m.heads ≠ 0 && m.kvHeads ≠ 0 && m.logicalBytes ≠ 0

/-- `load_model_index` of a file, none where there is no file, into the caller's index. -/
def loadModelIndex (file : Option (List Char)) (index : ModelIndex) : Bool × ModelIndex :=
  match file.bind fun text => (readIndex text).map Prod.fst with
  | some loaded => if shapeOk loaded then (true, loaded) else (false, index)
  | none => (false, index)

/-! ### What is read again -/

variable {m : ModelIndex} {t : ModelTensor} {tensors : List ModelTensor} {lead rest : List Char}

lemma blank_flatMap {α : Type} (f : α → List Char) (l : List α) (sep : Char) (rest : List Char) :
    l.flatMap (fun a => sep :: f a) ++ sep :: rest =
      sep :: (l.flatMap (fun a => f a ++ [sep]) ++ rest) := by
  induction l with
  | nil => rfl
  | cons a l ih => simp [ih]

/-- The fields of a tensor before its name, each with a blank behind it. -/
def shapeText (t : ModelTensor) : List Char :=
  (decimal t.bytes.toNat ++ [' ']) ++ ((decimal t.type.toNat ++ [' ']) ++
    ((decimal t.dimensions.length ++ [' ']) ++
      t.dimensions.flatMap fun dimension => decimal dimension.toNat ++ [' ']))

lemma tensorText_eq (t : ModelTensor) : tensorText t = shapeText t ++ (t.name ++ ['\n']) := by
  have hdimensions := blank_flatMap
    (fun dimension : UInt64 => decimal dimension.toNat) t.dimensions ' '
    (t.name ++ ['\n'])
  simp only [tensorText, shapeText, List.append_assoc, List.cons_append, List.nil_append]
  rw [hdimensions]

lemma blank_space : isSpace ' ' := by decide

lemma blank_newline : isSpace '\n' := by decide

lemma reads_u32 (n : UInt32) {sep : Char} (hsep : isSpace sep) :
    Reads (number (2 ^ 32)) (decimal n.toNat ++ [sep]) n.toNat :=
  reads_number n.toNat_lt hsep

lemma reads_u64 (n : UInt64) {sep : Char} (hsep : isSpace sep) :
    Reads (number (2 ^ 64)) (decimal n.toNat ++ [sep]) n.toNat :=
  reads_number n.toNat_lt hsep

lemma reads_shape (h : t.dimensions.length ≤ 4) :
    Reads readShape (shapeText t) (t.bytes.toNat, t.type.toNat, t.dimensions.map UInt64.toNat) := by
  refine (reads_u64 t.bytes blank_space).bind ((reads_u32 t.type blank_space).bind
    ((reads_number (by omega) blank_space).bind ?_))
  rw [if_neg (Nat.not_lt.mpr h)]
  exact (reads_many fun n _ => reads_u64 n blank_space).map

lemma fails_shape (h : 4 < t.dimensions.length) : Fails readShape (shapeText t) := by
  refine (reads_u64 t.bytes blank_space).bind_fails ((reads_u32 t.type blank_space).bind_fails ?_)
  by_cases hlimit : 2 ^ 64 ≤ t.dimensions.length
  · exact (fails_number hlimit blank_space).bind _
  · refine (reads_number (Nat.not_le.mp hlimit) blank_space).bind_fails ?_
    rw [if_pos h]
    exact fails_failure _

lemma map_ofNat_toNat (l : List UInt64) : (l.map UInt64.toNat).map UInt64.ofNat = l := by
  rw [List.map_map]
  exact (List.map_congr_left fun n _ => UInt64.ofNat_toNat).trans (List.map_id l)

lemma reads_tensor (h : t.dimensions.length ≤ 4) (hname : Word t.name) :
    Reads readTensor (tensorText t) t := by
  have hread : Reads readTensor (shapeText t ++ (t.name ++ ['\n']))
      { name := t.name
        bytes := .ofNat t.bytes.toNat
        dimensions := (t.dimensions.map UInt64.toNat).map UInt64.ofNat
        type := .ofNat t.type.toNat } :=
    (reads_shape h).bind (reads_word hname blank_newline).map
  rwa [← tensorText_eq, UInt64.ofNat_toNat, UInt32.ofNat_toNat, map_ofNat_toNat] at hread

lemma fails_tensor (h : 4 < t.dimensions.length) : Fails readTensor (tensorText t) := by
  rw [tensorText_eq]
  exact (fails_shape h).bind _

/-- Whether there is a last name to read. -/
lemma readTensor_isSome (hlead : Blank lead) (h : t.dimensions.length ≤ 4) :
    (readTensor (lead ++ tensorText t)).isSome ↔ ¬ Blank t.name := by
  obtain ⟨left, hleft, hread⟩ := reads_shape h lead (t.name ++ ['\n']) hlead
  have hbind : readTensor (lead ++ tensorText t) = (word (left ++ (t.name ++ ['\n']))).bind fun x =>
      some ({ name := x.1, bytes := .ofNat t.bytes.toNat,
              dimensions := (t.dimensions.map UInt64.toNat).map UInt64.ofNat,
              type := .ofNat t.type.toNat }, x.2) := by
    rw [tensorText_eq, ← List.append_assoc]
    change (readShape _).bind _ = _
    rw [hread]
    rfl
  rw [hbind]
  by_cases hname : Blank t.name
  · have hblank : Blank (left ++ (t.name ++ ['\n'])) := by
      intro c hc
      simp only [List.mem_append, List.mem_singleton] at hc
      obtain hc | hc | rfl := hc
      · exact hleft c hc
      · exact hname c hc
      · exact blank_newline
    rw [word_blank hblank]
    simp [hname]
  · obtain ⟨w, after, hword⟩ := word_isSome hleft hname ['\n']
    rw [← List.append_assoc, hword]
    simp [hname]

/-- Where all names but the last are words, the tensors are read if they have at most four
dimensions and there is a last name to read. -/
lemma readTensors_isSome (hlead : Blank lead) (hwords : ∀ t ∈ tensors.dropLast, Word t.name) :
    (many readTensor tensors.length (lead ++ tensors.flatMap tensorText)).isSome ↔
      (∀ t ∈ tensors, t.dimensions.length ≤ 4) ∧ ∀ t ∈ tensors.getLast?, ¬ Blank t.name := by
  induction tensors generalizing lead with
  | nil => simp [many_zero]
  | cons t tensors ih =>
    rw [List.length_cons, many_succ_isSome, List.flatMap_cons]
    by_cases hdimensions : t.dimensions.length ≤ 4
    · cases tensors with
      | nil =>
        have hread := readTensor_isSome hlead hdimensions
        rw [Option.isSome_iff_exists] at hread
        simpa [many_zero, hdimensions] using hread
      | cons next tensors =>
        rw [List.dropLast_cons_of_ne_nil (List.cons_ne_nil _ _), List.forall_mem_cons] at hwords
        obtain ⟨left, hleft, hread⟩ := reads_tensor hdimensions hwords.1 lead
          ((next :: tensors).flatMap tensorText) hlead
        rw [List.append_assoc] at hread
        rw [hread, List.getLast?_cons_cons, List.forall_mem_cons, and_iff_right hdimensions,
          ← ih hleft hwords.2]
        simp
    · have hfails :=
        fails_tensor (Nat.not_le.mp hdimensions) lead (tensors.flatMap tensorText) hlead
      rw [List.append_assoc] at hfails
      rw [hfails]
      simp [hdimensions]

/-! ### The whole file -/

/-- What stands before the number of tensors, each field with a blank behind it. -/
def headerText (m : ModelIndex) : List Char :=
  ("dan-model-index".toList ++ [' ']) ++
    (("4".toList ++ ['\n']) ++ ((m.architecture.toList ++ [' ']) ++
    ((decimal m.layers.toNat ++ [' ']) ++ ((decimal m.hidden.toNat ++ [' ']) ++
    ((decimal m.heads.toNat ++ [' ']) ++ ((decimal m.kvHeads.toNat ++ [' ']) ++
    ((decimal m.experts.toNat ++ [' ']) ++ ((decimal m.expertsUsed.toNat ++ [' ']) ++
    ((decimal m.ffnLength.toNat ++ [' ']) ++ ((decimal m.trainedContext.toNat ++ [' ']) ++
    ((decimal m.expertFfnLength.toNat ++ [' ']) ++ ((decimal m.headDimK.toNat ++ [' ']) ++
    ((decimal m.headDimV.toNat ++ [' ']) ++ ((decimal m.logicalBytes.toNat ++ [' ']) ++
    (decimal m.headerBytes.toNat ++ [' '])))))))))))))))

lemma saveModelIndex_eq (m : ModelIndex) :
    saveModelIndex m =
      headerText m ++ ((decimal m.tensors.length ++ ['\n']) ++ m.tensors.flatMap tensorText) := by
  have hmagic : "dan-model-index 4\n".toList =
      "dan-model-index".toList ++ [' '] ++ "4".toList ++ ['\n'] := by
    decide
  unfold saveModelIndex headerText headerNumbers
  rw [hmagic]
  generalize "dan-model-index".toList = magic
  generalize "4".toList = version
  simp only [List.flatMap_cons, List.flatMap_nil, List.append_assoc, List.cons_append,
    List.nil_append]

lemma word_of_decide {part : List Char} (h : part ≠ [] ∧ part.all fun c => !isSpace c) :
    Word part := by
  refine ⟨h.1, fun c hc => ?_⟩
  simpa using List.all_eq_true.mp h.2 c hc

lemma reads_header (harchitecture : Word m.architecture.toList) :
    Reads readHeader (headerText m) { m with tensors := [] } := by
  have hmagic : Word "dan-model-index".toList := word_of_decide (by decide)
  have hversion : Word "4".toList := word_of_decide (by decide)
  refine (reads_word hmagic blank_space).bind ((reads_word hversion blank_newline).bind ?_)
  rw [if_neg (by simp)]
  refine (reads_word harchitecture blank_space).bind ((reads_u32 m.layers blank_space).bind
    ((reads_u32 m.hidden blank_space).bind ((reads_u32 m.heads blank_space).bind
    ((reads_u32 m.kvHeads blank_space).bind ((reads_u32 m.experts blank_space).bind
    ((reads_u32 m.expertsUsed blank_space).bind ((reads_u32 m.ffnLength blank_space).bind
    ((reads_u32 m.trainedContext blank_space).bind ((reads_u32 m.expertFfnLength blank_space).bind
    ((reads_u32 m.headDimK blank_space).bind ((reads_u32 m.headDimV blank_space).bind
    ((reads_u64 m.logicalBytes blank_space).bind ?_))))))))))))
  have hread := (reads_u64 m.headerBytes blank_space).map (f := fun headerBytes =>
    ({ m with headerBytes := .ofNat headerBytes, tensors := [] } : ModelIndex))
  simpa using hread

lemma architecture_word (h : compatible m) : Word m.architecture.toList := by
  obtain harchitecture | harchitecture | harchitecture := architecture_of_compatible h
  all_goals
    rw [harchitecture]
    exact word_of_decide (by decide)

lemma shapeOk_of_compatible (h : compatible m) : shapeOk m ↔ m.logicalBytes ≠ 0 := by
  have hattention := validAttention_of_compatible h
  have harchitecture := architecture_of_compatible h
  simp only [validAttention, Bool.and_eq_true, decide_eq_true_eq] at hattention
  simp only [shapeOk, Bool.and_eq_true, Bool.or_eq_true, decide_eq_true_eq, hattention]
  tauto

/-- The limits of `load_model_index`. -/
structure Storable (m : ModelIndex) : Prop where
  nonempty : m.tensors.length ≠ 0
  count : m.tensors.length ≤ 1000000
  dimensions : ∀ t ∈ m.tensors, t.dimensions.length ≤ 4
  logicalBytes : m.logicalBytes ≠ 0

/-- The tensors are read behind the header. -/
lemma readIndex_save (h : compatible m) :
    ∃ left, Blank left ∧ readIndex (saveModelIndex m) =
      if m.tensors.length = 0 ∨ 1000000 < m.tensors.length then none
      else (many readTensor m.tensors.length (left ++ m.tensors.flatMap tensorText)).map fun x =>
        ({ m with tensors := x.1 }, x.2) := by
  obtain ⟨left, hleft, hread⟩ := reads_header (architecture_word h) []
    ((decimal m.tensors.length ++ ['\n']) ++ m.tensors.flatMap tensorText) blank_nil
  rw [List.nil_append, ← saveModelIndex_eq] at hread
  have hindex : readIndex (saveModelIndex m) = ((number (2 ^ 64) >>= fun count =>
      if count = 0 ∨ 1000000 < count then failure
      else many readTensor count >>= fun tensors => pure { m with tensors := tensors } :
        Reader ModelIndex)
        (left ++ ((decimal m.tensors.length ++ ['\n']) ++ m.tensors.flatMap tensorText))) := by
    change (readHeader _).bind _ = _
    rw [hread]
    rfl
  by_cases hlength : m.tensors.length < 2 ^ 64
  · obtain ⟨left', hleft', hcount⟩ := reads_number hlength blank_newline left
      (m.tensors.flatMap tensorText) hleft
    refine ⟨left', hleft', ?_⟩
    rw [hindex]
    change (number _ _).bind _ = _
    rw [← List.append_assoc, hcount, Option.bind_some]
    dsimp only
    split_ifs
    · rfl
    · change (many readTensor _ _).bind _ = _
      cases many readTensor m.tensors.length (left' ++ m.tensors.flatMap tensorText) <;> rfl
  · have hcount := fails_number (Nat.not_lt.mp hlength) blank_newline left
      (m.tensors.flatMap tensorText) hleft
    refine ⟨left, hleft, ?_⟩
    rw [hindex, if_pos (.inr (by omega))]
    change (number _ _).bind _ = _
    rw [← List.append_assoc, hcount]
    rfl

lemma readTensor_word {text : List Char} (h : readTensor text = some (t, rest)) : Word t.name := by
  obtain ⟨shape, next, -, h⟩ := bind_some h
  obtain ⟨name, last, hname, h⟩ := bind_some h
  cases h
  exact word_spec hname

lemma readIndex_words {text : List Char} {loaded : ModelIndex}
    (h : readIndex text = some (loaded, rest)) :
    ∀ t ∈ loaded.tensors, Word t.name := by
  obtain ⟨header, afterHeader, -, h⟩ := bind_some h
  obtain ⟨count, afterCount, -, h⟩ := bind_some h
  split_ifs at h
  · cases h
  · obtain ⟨tensors, last, htensors, h⟩ := bind_some h
    cases h
    exact forall_mem_many (P := fun t => Word t.name)
      (fun text a rest ha => readTensor_word ha) htensors

lemma loadModelIndex_eq_true {file : Option (List Char)} {index loaded : ModelIndex}
    (h : loadModelIndex file index = (true, loaded)) :
    shapeOk loaded ∧ ∃ text rest, file = some text ∧ readIndex text = some (loaded, rest) := by
  unfold loadModelIndex at h
  cases hread : file.bind fun text => (readIndex text).map Prod.fst with
  | none =>
    rw [hread] at h
    cases h
  | some m =>
    rw [hread] at h
    dsimp only at h
    split_ifs at h with hshape
    · cases h
      obtain ⟨text, rfl, hmap⟩ := Option.bind_eq_some_iff.mp hread
      obtain ⟨⟨loaded, rest⟩, hloaded, rfl⟩ := Option.map_eq_some_iff.mp hmap
      exact ⟨hshape, text, rest, rfl, hloaded⟩
    · cases h

/-- A load that fails leaves the caller's index. -/
lemma loadModelIndex_false (file : Option (List Char)) (index : ModelIndex)
    (h : (loadModelIndex file index).1 = false) : loadModelIndex file index = (false, index) := by
  unfold loadModelIndex at h ⊢
  cases hread : file.bind fun text => (readIndex text).map Prod.fst with
  | none => rfl
  | some loaded =>
    rw [hread] at h
    dsimp only at h ⊢
    split_ifs at h ⊢
    rfl

/-- An index whose names are words, the last one apart, is loaded if it is within the limits and
there is a last name to read. -/
lemma load_save_iff (h : compatible m) (hwords : ∀ t ∈ m.tensors.dropLast, Word t.name)
    (index : ModelIndex) :
    (loadModelIndex (some (saveModelIndex m)) index).1 = true ↔
      Storable m ∧ ∀ t ∈ m.tensors.getLast?, ¬ Blank t.name := by
  obtain ⟨left, hleft, hread⟩ := readIndex_save h
  have htensors := readTensors_isSome hleft hwords
  unfold loadModelIndex
  rw [Option.bind_some, hread]
  split_ifs with hcount
  · constructor
    · intro hfalse
      cases hfalse
    · rintro ⟨hstorable, -⟩
      obtain hzero | hmany := hcount
      · exact absurd hzero hstorable.nonempty
      · exact absurd hstorable.count (Nat.not_le.mpr hmany)
  · rw [not_or, Nat.not_lt] at hcount
    have hstorable : Storable m ∧ (∀ t ∈ m.tensors.getLast?, ¬ Blank t.name) ↔ shapeOk m ∧
        (∀ t ∈ m.tensors, t.dimensions.length ≤ 4) ∧ ∀ t ∈ m.tensors.getLast?, ¬ Blank t.name := by
      rw [shapeOk_of_compatible h, ← and_assoc]
      refine and_congr_left fun _ => ⟨fun hm => ⟨hm.logicalBytes, hm.dimensions⟩, fun hm => ?_⟩
      exact ⟨hcount.1, hcount.2, hm.2, hm.1⟩
    rw [hstorable, ← htensors]
    cases many readTensor m.tensors.length (left ++ m.tensors.flatMap tensorText) with
    | none => simp
    | some x =>
      have hshape : shapeOk { m with tensors := x.1 } = shapeOk m := rfl
      simp only [Option.map_some, hshape, Option.isSome_some, and_true]
      split_ifs with hok <;> simp [hok]

/-- An index whose names are words is loaded as it is. -/
lemma load_save (h : compatible m) (hstorable : Storable m) (hwords : ∀ t ∈ m.tensors, Word t.name)
    (index : ModelIndex) : loadModelIndex (some (saveModelIndex m)) index = (true, m) := by
  obtain ⟨left, hleft, hread⟩ := readIndex_save h
  obtain ⟨left', hleft', htensors⟩ := reads_many (f := tensorText) (g := id)
    (fun t ht => reads_tensor (hstorable.dimensions t ht) (hwords t ht)) left [] hleft
  rw [List.append_nil, List.append_nil, List.map_id] at htensors
  have hcount : ¬ (m.tensors.length = 0 ∨ 1000000 < m.tensors.length) :=
    not_or.mpr ⟨hstorable.nonempty, Nat.not_lt.mpr hstorable.count⟩
  have hshape : shapeOk m := (shapeOk_of_compatible h).mpr hstorable.logicalBytes
  unfold loadModelIndex
  rw [Option.bind_some, hread, if_neg hcount, htensors]
  exact if_pos hshape

/-! ### Which indexes survive -/

/-- Loading the saved index gives the same one or fails. -/
def Kept (m : ModelIndex) : Prop :=
  ∀ index, loadModelIndex (some (saveModelIndex m)) index = (true, m) ∨
    loadModelIndex (some (saveModelIndex m)) index = (false, index)

lemma mem_dropLast_or_getLast? (h : t ∈ tensors) : t ∈ tensors.dropLast ∨ t ∈ tensors.getLast? := by
  induction tensors with
  | nil => exact absurd h List.not_mem_nil
  | cons a tensors ih =>
    cases tensors with
    | nil =>
      rw [List.mem_singleton] at h
      exact .inr (by simp [h])
    | cons b tensors =>
      rw [List.dropLast_cons_of_ne_nil (List.cons_ne_nil _ _), List.getLast?_cons_cons,
        List.mem_cons]
      obtain rfl | h := List.mem_cons.mp h
      · exact .inl (.inl rfl)
      · exact (ih h).imp_left Or.inr

lemma loaded_words (h : loadModelIndex (some (saveModelIndex m)) m = (true, m)) :
    ∀ t ∈ m.tensors, Word t.name := by
  obtain ⟨-, text, rest, -, hread⟩ := loadModelIndex_eq_true h
  exact readIndex_words hread

/-- Where all names but the last are words, the last decides. -/
lemma kept_iff (h : compatible m) (hwords : ∀ t ∈ m.tensors.dropLast, Word t.name) :
    Kept m ↔ ¬ Storable m ∨ ∀ t ∈ m.tensors.getLast?, Word t.name ∨ Blank t.name := by
  constructor
  · intro hkept
    by_contra hnot
    simp only [not_or, not_not, not_forall] at hnot
    obtain ⟨hstorable, t, ht, hword, hblank⟩ := hnot
    have hloaded : (loadModelIndex (some (saveModelIndex m)) m).1 = true := by
      refine (load_save_iff h hwords m).mpr ⟨hstorable, fun u hu => ?_⟩
      rwa [Option.mem_unique hu ht]
    obtain hsame | hfailed := hkept m
    · exact hword (loaded_words hsame t (List.mem_of_getLast? ht))
    · rw [hfailed] at hloaded
      cases hloaded
  · intro hlast index
    cases hload : (loadModelIndex (some (saveModelIndex m)) index).1 with
    | false => exact .inr (loadModelIndex_false _ _ hload)
    | true =>
      obtain ⟨hstorable, hnames⟩ := (load_save_iff h hwords index).mp hload
      refine .inl (load_save h hstorable (fun t ht => ?_) index)
      obtain ht | ht := mem_dropLast_or_getLast? ht
      · exact hwords t ht
      · obtain hstorable' | hlast := hlast
        · exact absurd hstorable hstorable'
        · exact (hlast t ht).resolve_right (hnames t ht)

/-- An index whose names are words survives its file, and within the limits no other is loaded as it
was; where only the last name is no word, the index survives exactly if that name is blank. -/
theorem index_kept (h : compatible m) :
    ((∀ t ∈ m.tensors, Word t.name) → Kept m) ∧
    (Storable m → ((∀ index, loadModelIndex (some (saveModelIndex m)) index = (true, m)) ↔
      ∀ t ∈ m.tensors, Word t.name)) ∧
    ((∀ t ∈ m.tensors.dropLast, Word t.name) →
      (Kept m ↔ ¬ Storable m ∨ ∀ t ∈ m.tensors.getLast?, Word t.name ∨ Blank t.name)) ∧
    ∀ file index, (loadModelIndex file index).1 = false →
      (loadModelIndex file index).2 = index := by
  refine ⟨fun hwords => ?_, fun hstorable => ⟨fun hloads => loaded_words (hloads m), fun hwords =>
    load_save h hstorable hwords⟩, fun hwords => kept_iff h hwords, fun file index h => ?_⟩
  · refine (kept_iff h fun t ht => hwords t (List.dropLast_subset _ ht)).mpr (.inr fun t ht => ?_)
    exact .inl (hwords t (List.mem_of_getLast? ht))
  · rw [loadModelIndex_false file index h]

/-- The index of a two-layer model with one more tensor. -/
def indexWith (name : List Char) : ModelIndex where
  architecture := "qwen2"
  layers := 2
  hidden := 64
  heads := 4
  kvHeads := 2
  logicalBytes := 4096
  headerBytes := 512
  tensors :=
    [{ name := "token_embd.weight".toList, bytes := 1024 },
      { name := "blk.0.attn_q.weight".toList, bytes := 256 },
      { name := "blk.1.attn_q.weight".toList, bytes := 256 },
      { name := "output_norm.weight".toList, bytes := 64 }, { name, bytes := 32 }]

theorem index_kept_small : compatible (indexWith "extra".toList) ∧
    Kept (indexWith "extra".toList) := by
  have hmodel : compatible (indexWith "extra".toList) := by decide +kernel
  exact ⟨hmodel, (index_kept hmodel).1 (by decide +kernel)⟩

/-- A name with a blank in it: the index that is loaded ends its last name there. -/
theorem blank_name_not_kept :
    compatible (indexWith "extra bias".toList) ∧ ¬ Kept (indexWith "extra bias".toList) ∧
      loadModelIndex (some (saveModelIndex (indexWith "extra bias".toList)))
        (indexWith "extra bias".toList) = (true, indexWith "extra".toList) := by
  have hload : loadModelIndex (some (saveModelIndex (indexWith "extra bias".toList)))
      (indexWith "extra bias".toList) = (true, indexWith "extra".toList) := by
    decide +kernel
  refine ⟨by decide +kernel, fun hkept => ?_, hload⟩
  have hother := hkept (indexWith "extra bias".toList)
  rw [hload] at hother
  revert hother
  decide +kernel

end ProviderOwned.Planner
