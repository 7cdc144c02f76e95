import Mathlib.Algebra.BigOperators.Group.List.Basic
import Mathlib.Tactic.Common
import Mathlib.Tactic.Ring

/-!
# Stages of a model and what they need

The index of a model file and the sizes the planner computes from it: the weights of a stage
(`range_model.cpp`), its KV cache and whether both fit in the memory a worker offers
(`planner.cpp`). Numbers of the source's fixed-width types are read as naturals; where a computation
can pass 64 bits the source checks for it or wraps around, and so does the definition.

Tensor names are their characters. Layer ranges are naturals; a layer count that is no `int` belongs
to no range.
-/

namespace ProviderOwned.Planner

/-- `std::numeric_limits<std::uint64_t>::max()`. -/
def maxU64 : Nat := 2 ^ 64 - 1

structure ModelTensor where
  name : List Char
  bytes : UInt64
  dimensions : List UInt64 := []
  type : UInt32 := 0
  deriving DecidableEq, Repr

structure ModelIndex where
  architecture : String
  layers : UInt32
  hidden : UInt32
  heads : UInt32
  kvHeads : UInt32
  experts : UInt32 := 0
  expertsUsed : UInt32 := 0
  ffnLength : UInt32 := 0
  trainedContext : UInt32 := 0
  expertFfnLength : UInt32 := 0
  headDimK : UInt32 := 0
  headDimV : UInt32 := 0
  logicalBytes : UInt64 := 0
  headerBytes : UInt64
  tensors : List ModelTensor
  deriving DecidableEq, Repr

/-! ### Weights of a stage -/

/-- `std::from_chars` of a whole text into an `int`. -/
def fromChars (text : List Char) : Option Int :=
  let negative := text.head? = some '-'
  let digits := if negative then text.tail else text
  if digits ≠ [] ∧ digits.all Char.isDigit then
    let value : Int := digits.foldl (fun value c => 10 * value + (c.toNat - '0'.toNat : Nat)) 0
    let value := if negative then -value else value
    if -2 ^ 31 ≤ value ∧ value < 2 ^ 31 then some value else none
  else none

lemma foldl_digits (digits : List Char) (value : Nat) :
    digits.foldl (fun (value : Int) (c : Char) => 10 * value + ((c.toNat - '0'.toNat : Nat) : Int))
      value = Nat.ofDigitChars 10 digits value := by
  induction digits generalizing value with
  | nil => simp
  | cons c digits ih =>
    rw [List.foldl_cons, Nat.ofDigitChars_cons, ← ih]
    push_cast
    rfl

/-- A number that is an `int` is read back. -/
lemma fromChars_toDigits {layer : Nat} (hlt : layer < 2 ^ 31) :
    fromChars (Nat.toDigits 10 layer) = some (layer : Int) := by
  have hdigits : ∀ c ∈ Nat.toDigits 10 layer, c.isDigit := fun c hc =>
    Nat.isDigit_of_mem_toDigits (by decide) (by decide) hc
  have hpositive : (Nat.toDigits 10 layer).head? ≠ some '-' := by
    intro hminus
    exact absurd (hdigits '-' (List.mem_of_mem_head? hminus)) (by decide)
  have hvalue := foldl_digits (Nat.toDigits 10 layer) 0
  rw [Nat.ofDigitChars_toDigits (by decide) (by decide)] at hvalue
  rw [fromChars]
  simp only [hpositive, if_false]
  rw [if_pos ⟨Nat.toDigits_ne_nil, List.all_eq_true.mpr hdigits⟩]
  have hvalue' : (Nat.toDigits 10 layer).foldl
      (fun (value : Int) (c : Char) => 10 * value + ((c.toNat - '0'.toNat : Nat) : Int)) 0 =
          layer :=
    hvalue
  rw [hvalue', if_pos]
  constructor
  · omega
  · exact_mod_cast hlt

lemma fromChars_bounds {text : List Char} {value : Int} (h : fromChars text = some value) :
    -2 ^ 31 ≤ value ∧ value < 2 ^ 31 := by
  rw [fromChars] at h
  dsimp only at h
  split_ifs at h with hneg hdigits hbounds hdigits hbounds
  · exact Option.some.inj h ▸ hbounds
  · exact Option.some.inj h ▸ hbounds

def blockLayer (name : List Char) : Option Int :=
  if "blk.".toList.isPrefixOf name then
    let number := (name.drop 4).takeWhile (· ≠ '.')
    if number.length = (name.drop 4).length then none else fromChars number
  else none

def ownedTensor (name : List Char) (first last layers : Nat) (outputPresent : Bool) : Bool :=
  match blockLayer name with
  | some layer => first ≤ layer && layer < last
  | none =>
    if name = "token_embd.weight".toList then first = 0 || (last = layers && !outputPresent)
    else if "output_norm.".toList.isPrefixOf name || "output.".toList.isPrefixOf name then
      last = layers
    else false

namespace ModelIndex

/-- Whether the model has an output head of its own. -/
def outputPresent (m : ModelIndex) : Bool := m.tensors.any (·.name = "output.weight".toList)

/-- Whether the stage with the layers `[first, last)` has the tensor. -/
def owns (m : ModelIndex) (first last : Nat) (t : ModelTensor) : Bool :=
  ownedTensor t.name first last m.layers.toNat m.outputPresent

end ModelIndex

/-- The sum of `stage_model_bytes`, given up once it passes 64 bits. -/
def checkedSum : Nat → List Nat → Nat
  | bytes, [] => bytes
  | bytes, b :: rest => if bytes > maxU64 - b then 0 else checkedSum (bytes + b) rest

def stageModelBytes (m : ModelIndex) (first last : Nat) : Nat :=
  if last ≤ first ∨ 2 ^ 31 ≤ m.layers.toNat ∨ m.layers.toNat < last then 0
  else checkedSum m.headerBytes.toNat ((m.tensors.filter (m.owns first last)).map (·.bytes.toNat))

/-! ### Models that can be staged -/

def hasTensor (m : ModelIndex) (name : List Char) : Bool := m.tensors.any (·.name = name)

def findTensor (m : ModelIndex) (name : List Char) : Option ModelTensor :=
  m.tensors.find? (·.name = name)

def validAttention (m : ModelIndex) : Bool :=
  2 ≤ m.layers && m.hidden ≠ 0 && m.heads ≠ 0 && m.kvHeads ≠ 0 && m.hidden % m.heads = 0 &&
    m.heads % m.kvHeads = 0

/-- The start of the names of a layer's tensors. -/
def layerPrefix (layer : Nat) : List Char := "blk.".toList ++ Nat.toDigits 10 layer ++ ['.']

def headWidthK (m : ModelIndex) : Nat :=
  if m.headDimK ≠ 0 then m.headDimK.toNat
  else if m.heads = 0 ∨ m.hidden % m.heads ≠ 0 then 0
  else (m.hidden / m.heads).toNat

def headWidthV (m : ModelIndex) : Nat :=
  if m.headDimV ≠ 0 then m.headDimV.toNat
  else if m.heads = 0 ∨ m.hidden % m.heads ≠ 0 then 0
  else (m.hidden / m.heads).toNat

def compatibleQwen2 (m : ModelIndex) : Except String Unit := do
  unless validAttention m do throw "invalid Qwen2 layer or attention metadata"
  if m.experts ≠ 0 ∨ m.expertsUsed ≠ 0 then throw "Qwen2 model declares experts"
  unless hasTensor m "token_embd.weight".toList && hasTensor m "output_norm.weight".toList do
    throw "missing embedding or output normalization tensor"
  (List.range m.layers.toNat).forM fun layer =>
    unless m.tensors.any fun t => (layerPrefix layer).isPrefixOf t.name do
      throw ("missing tensors for transformer layer " ++ toString layer)

/-- The tensors every layer of a mixture-of-experts model has. -/
def layerSuffixes : List String :=
  ["attn_norm.weight", "attn_q.weight", "attn_k.weight", "attn_v.weight", "attn_output.weight",
    "attn_q_norm.weight", "attn_k_norm.weight", "ffn_norm.weight"]

/-- The router and the packed expert banks of a layer with their shapes; a last 0 is no axis. -/
def expertShapes (hidden ffn experts : Nat) : List (String × List Nat) :=
  [("ffn_gate_inp.weight", [hidden, experts, 0]), ("ffn_gate_exps.weight", [hidden, ffn, experts]),
    ("ffn_up_exps.weight", [hidden, ffn, experts]),
    ("ffn_down_exps.weight", [ffn, hidden, experts])]

/-- The check of a layer's tensors that the mixture-of-experts architectures share. -/
def checkLayerTensors (m : ModelIndex) (layer : Nat) : Except String Unit :=
  layerSuffixes.forM fun suffix =>
    unless hasTensor m (layerPrefix layer ++ suffix.toList) do
      throw ("layer " ++ toString layer ++ " is missing " ++ suffix)

/-- The check of a layer's expert banks that the mixture-of-experts architectures share. -/
def checkExperts (m : ModelIndex) (ffn layer : Nat) : Except String Unit :=
  (expertShapes m.hidden.toNat ffn m.experts.toNat).forM fun (suffix, shape) =>
    match findTensor m (layerPrefix layer ++ suffix.toList) with
    | none => throw ("layer " ++ toString layer ++ " is missing " ++ suffix)
    | some t => do
      let wanted := if shape[2]? = some 0 then 2 else 3
      if t.dimensions.length ≠ wanted then
        throw (suffix ++ " of layer " ++ toString layer ++ " has the wrong number of dimensions")
      if t.dimensions.map UInt64.toNat ≠ shape.take wanted then
        throw (suffix ++ " of layer " ++ toString layer ++
          " does not match the model's expert geometry")

def compatibleOlmoe (m : ModelIndex) : Except String Unit := do
  unless validAttention m do throw "invalid OLMoE layer or attention metadata"
  if m.experts < 2 then throw "OLMoE expert_count must be at least 2"
  if m.expertsUsed = 0 then throw "OLMoE expert_used_count must be at least 1"
  if m.experts < m.expertsUsed then throw "OLMoE routes to more experts than it has"
  if m.ffnLength = 0 then throw "OLMoE feed_forward_length is missing"
  ["token_embd.weight", "output_norm.weight", "output.weight"].forM fun name =>
    unless hasTensor m name.toList do
      throw ("missing " ++ name ++ " (OLMoE has no tied output head)")
  (List.range m.layers.toNat).forM fun layer => do
    checkLayerTensors m layer
    checkExperts m m.ffnLength.toNat layer

def compatibleQwen3moe (m : ModelIndex) : Except String Unit := do
  unless validAttention m do throw "invalid Qwen3-MoE layer or attention metadata"
  if headWidthK m = 0 ∨ headWidthK m ≠ headWidthV m then
    throw "Qwen3-MoE needs equal, non-zero key and value head widths"
  if m.experts < 2 then throw "Qwen3-MoE expert_count must be at least 2"
  if m.expertsUsed = 0 then throw "Qwen3-MoE expert_used_count must be at least 1"
  if m.experts < m.expertsUsed then throw "Qwen3-MoE routes to more experts than it has"
  let expertFfn :=
    if m.expertFfnLength ≠ 0 then m.expertFfnLength.toNat
    else if m.expertsUsed ≠ 0 then (m.ffnLength / m.expertsUsed).toNat
    else 0
  if expertFfn = 0 then throw "Qwen3-MoE per-expert width is missing"
  unless hasTensor m "token_embd.weight".toList && hasTensor m "output_norm.weight".toList do
    throw "missing embedding or output normalization tensor"
  (List.range m.layers.toNat).forM fun layer => do
    checkLayerTensors m layer
    -- the norms of a head are one head wide
    ["attn_q_norm.weight", "attn_k_norm.weight"].forM fun norm =>
      match findTensor m (layerPrefix layer ++ norm.toList) with
      | none => pure ()
      | some t =>
        if t.dimensions.length = 1 ∧ t.dimensions.map UInt64.toNat ≠ [headWidthK m] then
          throw (norm ++ " of layer " ++ toString layer ++
            " does not match the declared attention head width")
        else pure ()
    checkExperts m expertFfn layer

/-- `compatible_stage_model`; the error is the `reason`. -/
def compatibleStageModel (m : ModelIndex) : Except String Unit :=
  if m.architecture = "qwen2" then compatibleQwen2 m
  else if m.architecture = "olmoe" then compatibleOlmoe m
  else if m.architecture = "qwen3moe" then compatibleQwen3moe m
  else .error ("architecture " ++ (if m.architecture = "" then "(none)" else m.architecture) ++
    " is not supported for staged execution")

def compatible (m : ModelIndex) : Bool := (compatibleStageModel m).isOk

lemma isOk_unless {c : Prop} [Decidable c] {e : String} {k : PUnit → Except String Unit}
    (h : (if c then k () else throw e >>= k).isOk) : c ∧ (k ()).isOk := by
  split_ifs at h with hc
  · exact ⟨hc, h⟩
  · exact absurd h Bool.false_ne_true

lemma isOk_if {c : Prop} [Decidable c] {e : String} {k : PUnit → Except String Unit}
    (h : (if c then throw e >>= k else k ()).isOk) : (k ()).isOk := by
  split_ifs at h with hc
  · exact absurd h Bool.false_ne_true
  · exact h

lemma isOk_bind {x : Except String Unit} {k : Unit → Except String Unit} (h : (x >>= k).isOk) :
    x.isOk ∧ (k ()).isOk := by
  cases x with
  | error e => exact absurd h Bool.false_ne_true
  | ok u => exact ⟨rfl, h⟩

lemma validAttention_of_compatible {m : ModelIndex} (h : compatible m) : validAttention m := by
  rw [compatible, compatibleStageModel] at h
  split_ifs at h with hqwen2 holmoe hqwen3moe
  · unfold compatibleQwen2 at h
    exact (isOk_unless h).1
  · unfold compatibleOlmoe at h
    exact (isOk_unless h).1
  · unfold compatibleQwen3moe at h
    exact (isOk_unless h).1
  · exact absurd h Bool.false_ne_true
  · exact absurd h Bool.false_ne_true

lemma architecture_of_compatible {m : ModelIndex} (h : compatible m) :
    m.architecture = "qwen2" ∨ m.architecture = "olmoe" ∨ m.architecture = "qwen3moe" := by
  rw [compatible, compatibleStageModel] at h
  split_ifs at h with hqwen2 holmoe hqwen3moe
  · exact .inl hqwen2
  · exact .inr (.inl holmoe)
  · exact .inr (.inr hqwen3moe)
  · exact absurd h Bool.false_ne_true
  · exact absurd h Bool.false_ne_true

/-! ### KV cache and memory -/

def allocatedPositions (context sessions : UInt32) : Nat :=
  if context = 0 ∨ sessions = 0 then 0
  else
    let total := (context.toNat * sessions.toNat + 255) / 256 * 256
    let perSession := (total / sessions.toNat + 255) / 256 * 256
    if perSession > 2 ^ 32 - 1 then 0 else perSession

/-- The product of `kv_bytes`, given up at a zero factor or once it passes 64 bits. -/
def checkedProduct : Nat → List Nat → Nat
  | value, [] => value
  | value, factor :: rest =>
    if factor = 0 ∨ value > maxU64 / factor then 0 else checkedProduct (value * factor) rest

def kvBytes (m : ModelIndex) (first last : Nat) (context sessions : UInt32) : Nat :=
  if m.heads = 0 ∨ last ≤ first then 0
  else
    let width := headWidthK m + headWidthV m
    let positions := allocatedPositions context sessions
    if width = 0 ∨ positions = 0 then 0
    else checkedProduct positions [sessions.toNat, last - first, m.kvHeads.toNat, width, 2]

def mib : Nat := 1024 * 1024

/-- The offered bytes, the reserve kept back from them, and what is left; `offered * 15` wraps
around. -/
def usableBytes (offeredMib : UInt64) : Nat :=
  if offeredMib.toNat > maxU64 / mib then 0
  else
    let offered := offeredMib.toNat * mib
    let reserve := max (1024 * mib) (offered * 15 % 2 ^ 64 / 100)
    if offered > reserve then offered - reserve else 0

structure StageAssignment where
  provider : Nat := 0
  first : Nat
  last : Nat
  modelBytes : Nat
  kvBytes : Nat
  deriving DecidableEq, Repr

/-- `stage_fits`, with the assignment it fills in. -/
def stageFits (m : ModelIndex) (offeredMib : UInt64) (first last : Nat)
    (context sessions : UInt32) :
    Option StageAssignment :=
  if offeredMib.toNat > maxU64 / mib then none
  else
    let offered := offeredMib.toNat * mib
    let reserve := max (1024 * mib) (offered * 15 % 2 ^ 64 / 100)
    let modelBytes := stageModelBytes m first last
    let kv := kvBytes m first last context sessions
    if modelBytes ≠ 0 ∧ kv ≠ 0 ∧ offered > reserve ∧ modelBytes ≤ offered - reserve ∧
        kv ≤ offered - reserve - modelBytes then
      some { first, last, modelBytes, kvBytes := kv }
    else none

/-! ### What the sizes are -/

variable {m : ModelIndex} {first last : Nat} {context sessions : UInt32}

lemma checkedSum_eq {bytes : Nat} {l : List Nat} (hbytes : bytes ≤ maxU64)
    (hl : ∀ b ∈ l, b ≤ maxU64) :
    checkedSum bytes l = if bytes + l.sum ≤ maxU64 then bytes + l.sum else 0 := by
  induction l generalizing bytes with
  | nil => simp [checkedSum, hbytes]
  | cons b rest ih =>
    obtain ⟨hb, hrest⟩ := List.forall_mem_cons.mp hl
    rw [checkedSum, List.sum_cons]
    by_cases hover : bytes > maxU64 - b
    · rw [if_pos hover, if_neg]
      omega
    · rw [if_neg hover, ih (by omega) hrest, Nat.add_assoc]

lemma checkedProduct_eq {value : Nat} {l : List Nat} (hvalue : value ≤ maxU64) :
    checkedProduct value l = if value * l.prod ≤ maxU64 then value * l.prod else 0 := by
  induction l generalizing value with
  | nil => simp [checkedProduct, hvalue]
  | cons factor rest ih =>
    rw [checkedProduct, List.prod_cons, ← Nat.mul_assoc]
    rcases Nat.eq_zero_or_pos factor with rfl | hpos
    · simp
    · by_cases hover : value > maxU64 / factor
      · have hlt : maxU64 < value * factor := (Nat.div_lt_iff_lt_mul hpos).mp hover
        rw [if_pos (.inr hover)]
        rcases Nat.eq_zero_or_pos rest.prod with hzero | hrest
        · simp [hzero]
        · rw [if_neg]
          exact Nat.not_le.mpr (Nat.lt_of_lt_of_le hlt (Nat.le_mul_of_pos_right _ hrest))
      · have hle : value * factor ≤ maxU64 :=
          Nat.not_lt.mp fun hlt => hover ((Nat.div_lt_iff_lt_mul hpos).mpr hlt)
        rw [if_neg (by omega), ih hle]

def ownedBytes (m : ModelIndex) (first last : Nat) : Nat :=
  ((m.tensors.filter (m.owns first last)).map (·.bytes.toNat)).sum

lemma ownedBytes_eq (m : ModelIndex) (first last : Nat) :
    ownedBytes m first last =
      (m.tensors.map fun t => if m.owns first last t then t.bytes.toNat else 0).sum := by
  unfold ownedBytes
  induction m.tensors with
  | nil => rfl
  | cons t rest ih =>
    rw [List.filter_cons]
    split_ifs with howns
    · simp [howns, ih]
    · simp [howns, ih]

/-- The layers `[first, last)` are a stage of the model. -/
def InRange (m : ModelIndex) (first last : Nat) : Prop :=
  first < last ∧ last ≤ m.layers.toNat ∧ m.layers.toNat < 2 ^ 31

lemma toNat_le_maxU64 (n : UInt64) : n.toNat ≤ maxU64 := Nat.le_sub_one_of_lt n.toNat_lt

/-- A stage has the header and its tensors, or more than 64 bits can say. -/
lemma stageModelBytes_eq (h : InRange m first last) :
    stageModelBytes m first last =
      if m.headerBytes.toNat + ownedBytes m first last ≤ maxU64 then
        m.headerBytes.toNat + ownedBytes m first last
      else 0 := by
  obtain ⟨hlt, hle, hint⟩ := h
  rw [stageModelBytes, if_neg (by omega), checkedSum_eq (toNat_le_maxU64 _)]
  · rfl
  · intro b hb
    obtain ⟨t, -, rfl⟩ := List.mem_map.mp hb
    exact toNat_le_maxU64 _

lemma stageModelBytes_ne_zero (h : stageModelBytes m first last ≠ 0) :
    InRange m first last ∧
      stageModelBytes m first last = m.headerBytes.toNat + ownedBytes m first last := by
  have hrange : InRange m first last := by
    by_contra hno
    refine h (if_pos ?_)
    simp only [InRange, not_and_or, Nat.not_lt, Nat.not_le] at hno
    tauto
  refine ⟨hrange, ?_⟩
  rw [stageModelBytes_eq hrange] at h ⊢
  split_ifs at h ⊢ with hle
  · rfl
  · exact absurd rfl h

def kvUnit (m : ModelIndex) (context sessions : UInt32) : Nat :=
  allocatedPositions context sessions *
    (sessions.toNat * (m.kvHeads.toNat * ((headWidthK m + headWidthV m) * 2)))

lemma allocatedPositions_le : allocatedPositions context sessions ≤ maxU64 := by
  unfold allocatedPositions maxU64
  dsimp only
  split_ifs <;> omega

lemma kvBytes_eq (hheads : m.heads ≠ 0) :
    kvBytes m first last context sessions =
      if kvUnit m context sessions * (last - first) ≤ maxU64 then
        kvUnit m context sessions * (last - first)
      else 0 := by
  have hproduct : allocatedPositions context sessions *
      [sessions.toNat, last - first, m.kvHeads.toNat, headWidthK m + headWidthV m, 2].prod =
      kvUnit m context sessions * (last - first) := by
    simp only [List.prod_cons, List.prod_nil, Nat.mul_one, kvUnit]
    ring
  unfold kvBytes
  by_cases hrange : last ≤ first
  · simp [hrange, Nat.sub_eq_zero_of_le hrange]
  · rw [if_neg (not_or.mpr ⟨hheads, hrange⟩)]
    dsimp only
    by_cases hzero : headWidthK m + headWidthV m = 0 ∨ allocatedPositions context sessions = 0
    · rw [if_pos hzero]
      rcases hzero with hwidth | hpositions
      · simp [kvUnit, hwidth]
      · simp [kvUnit, hpositions]
    · rw [if_neg hzero, checkedProduct_eq allocatedPositions_le, hproduct]

lemma kvBytes_ne_zero (h : kvBytes m first last context sessions ≠ 0) :
    m.heads ≠ 0 ∧ kvBytes m first last context sessions =
      kvUnit m context sessions * (last - first) := by
  have hheads : m.heads ≠ 0 := fun hzero => h (if_pos (.inl hzero))
  refine ⟨hheads, ?_⟩
  rw [kvBytes_eq hheads] at h ⊢
  split_ifs at h ⊢ with hle
  · rfl
  · exact absurd rfl h

/-- A stage fits when its weights and its KV cache are known and together within the usable
bytes. -/
lemma stageFits_eq_some_iff {offeredMib : UInt64} {a : StageAssignment} :
    stageFits m offeredMib first last context sessions = some a ↔
      a = ⟨0, first, last, stageModelBytes m first last, kvBytes m first last context sessions⟩ ∧
        stageModelBytes m first last ≠ 0 ∧ kvBytes m first last context sessions ≠ 0 ∧
        stageModelBytes m first last + kvBytes m first last context sessions ≤
          usableBytes offeredMib := by
  by_cases hoffer : offeredMib.toNat > maxU64 / mib
  · have husable : usableBytes offeredMib = 0 := if_pos hoffer
    rw [stageFits, if_pos hoffer, husable]
    simp only [reduceCtorEq, false_iff]
    rintro ⟨-, hweights, -, hle⟩
    exact hweights (by omega)
  · rw [stageFits, usableBytes, if_neg hoffer, if_neg hoffer]
    dsimp only
    generalize max (1024 * mib) (offeredMib.toNat * mib * 15 % 2 ^ 64 / 100) = reserve
    generalize offeredMib.toNat * mib = offered
    by_cases hroom : offered > reserve
    · rw [if_pos hroom]
      split_ifs with hfits
      · rw [Option.some_inj]
        constructor
        · rintro rfl
          exact ⟨rfl, hfits.1, hfits.2.1, by omega⟩
        · rintro ⟨rfl, -⟩
          rfl
      · simp only [false_iff]
        omega
    · rw [if_neg hroom, if_neg (by omega)]
      simp only [reduceCtorEq, false_iff]
      rintro ⟨-, hweights, -, hle⟩
      exact hweights (by omega)

end ProviderOwned.Planner
