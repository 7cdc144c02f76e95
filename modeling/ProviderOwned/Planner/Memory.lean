import Mathlib.Algebra.Order.BigOperators.Group.List
import ProviderOwned.Client.Discovery
import ProviderOwned.Planner.Model

/-!
# Memory that is promised

What a stage needs and what a worker offers, against exact arithmetic: the sums and products of
`planner.cpp` and `range_model.cpp` are the exact ones or 0, which is no size, and a stage or a
stage with a draft model fits only when everything it needs is within the offer. The bounds hold for
every model and for every offer a greeting can make.
-/

namespace ProviderOwned.Planner

/-- `stage_with_draft_fits`. A layer count of the draft that is no `int` is negative, and has no
sizes. -/
def stageWithDraftFits (m draft : ModelIndex) (offeredMib : UInt64) (last : Nat)
    (context sessions : UInt32) : Bool :=
  match stageFits m offeredMib 0 last context sessions with
  | none => false
  | some main =>
    let draftWeights := stageModelBytes draft 0 draft.layers.toNat
    let draftKv := kvBytes draft 0 draft.layers.toNat context sessions
    if draftWeights = 0 ∨ draftKv = 0 ∨ draftWeights > maxU64 - draftKv then false
    else
      let draftBytes := UInt64.ofNat (draftWeights + draftKv)
      let offered := offeredMib * UInt64.ofNat mib
      let usable := offered - max (UInt64.ofNat (1024 * mib)) (offered * 15 / 100)
      let used := UInt64.ofNat main.modelBytes + UInt64.ofNat main.kvBytes
      draftBytes ≤ usable - used

/-! ### Exact arithmetic -/

/-- The context, rounded up to whole blocks of 256 positions. -/
def paddedContext (context : UInt32) : Nat := (context.toNat + 255) / 256 * 256

def weightsOf (m : ModelIndex) (first last : Nat) : Nat :=
  m.headerBytes.toNat + ownedBytes m first last

/-- The KV cache of a stage: keys and values of two bytes for each position of each session. -/
def kvOf (m : ModelIndex) (first last : Nat) (context sessions : UInt32) : Nat :=
  allocatedPositions context sessions * sessions.toNat * (last - first) * m.kvHeads.toNat *
    (headWidthK m + headWidthV m) * 2

/-- What is kept back of an offer: 1 GiB, or 15 % where that is more. -/
def reserveOf (offered : Nat) : Nat := max (1024 * mib) (offered * 15 / 100)

variable {m draft : ModelIndex} {first last first' last' : Nat} {context sessions : UInt32}
  {offeredMib offeredMib' : UInt64}

/-- The context is padded once, for each session: what the padding of all sessions adds is less than
a block for each of them. -/
lemma allocatedPositions_eq (context sessions : UInt32) :
    allocatedPositions context sessions =
      if context = 0 ∨ sessions = 0 ∨ 2 ^ 32 ≤ paddedContext context then 0
      else paddedContext context := by
  unfold allocatedPositions paddedContext
  by_cases hnone : context = 0 ∨ sessions = 0
  · rw [if_pos hnone, if_pos (by tauto)]
  rw [if_neg hnone]
  dsimp only
  rw [not_or] at hnone
  have hsessions : 0 < sessions.toNat := by
    refine Nat.pos_of_ne_zero fun hzero => hnone.2 ?_
    exact UInt32.toNat_inj.mp hzero
  generalize hc : context.toNat = c
  generalize hs : sessions.toNat = s at hsessions ⊢
  have hlow : c ≤ (c * s + 255) / 256 * 256 / s := by
    refine (Nat.le_div_iff_mul_le hsessions).mpr ?_
    omega
  have hhigh : (c * s + 255) / 256 * 256 / s ≤ (c + 255) / 256 * 256 := by
    refine Nat.div_le_of_le_mul ?_
    have hpadded : c * s ≤ s * ((c + 255) / 256) * 256 := by
      rw [Nat.mul_assoc, Nat.mul_comm c s]
      exact Nat.mul_le_mul_left s (by omega)
    rw [← Nat.mul_assoc]
    omega
  have hsame : ((c * s + 255) / 256 * 256 / s + 255) / 256 * 256 = (c + 255) / 256 * 256 := by
    omega
  rw [hsame]
  by_cases hlong : 2 ^ 32 ≤ (c + 255) / 256 * 256
  · rw [if_pos (by omega), if_pos (.inr (.inr hlong))]
  · rw [if_neg (by omega), if_neg (by tauto)]

lemma kvUnit_mul (m : ModelIndex) (first last : Nat) (context sessions : UInt32) :
    kvUnit m context sessions * (last - first) = kvOf m first last context sessions := by
  unfold kvUnit kvOf
  ring

lemma kvBytes_exact (h : kvBytes m first last context sessions ≠ 0) :
    kvBytes m first last context sessions = kvOf m first last context sessions := by
  rw [(kvBytes_ne_zero h).2, kvUnit_mul]

lemma stageModelBytes_exact (h : stageModelBytes m first last ≠ 0) :
    stageModelBytes m first last = weightsOf m first last :=
  (stageModelBytes_ne_zero h).2

/-- For an offer of a greeting the reserve does not wrap around. -/
lemma usableBytes_eq (h : offeredMib.toNat ≤ maxGreetingVramMib) :
    usableBytes offeredMib = offeredMib.toNat * mib - reserveOf (offeredMib.toNat * mib) := by
  have hmib : offeredMib.toNat * mib ≤ 2 ^ 44 := by
    simp only [maxGreetingVramMib, mib] at h ⊢
    omega
  have hsmall : ¬ offeredMib.toNat > maxU64 / mib := by
    simp only [maxGreetingVramMib, mib, maxU64] at h ⊢
    omega
  rw [usableBytes, if_neg hsmall]
  dsimp only
  rw [Nat.mod_eq_of_lt (by omega)]
  change (if _ > reserveOf (offeredMib.toNat * mib) then _ else 0) = _
  split_ifs with hroom
  · rfl
  · exact (Nat.sub_eq_zero_of_le (Nat.not_lt.mp hroom)).symm

lemma usableBytes_mono (hle : offeredMib ≤ offeredMib')
    (h : offeredMib'.toNat ≤ maxGreetingVramMib) :
    usableBytes offeredMib ≤ usableBytes offeredMib' := by
  have hnat : offeredMib.toNat ≤ offeredMib'.toNat := UInt64.le_iff_toNat_le.mp hle
  rw [usableBytes_eq h, usableBytes_eq (hnat.trans h)]
  have hbytes : offeredMib.toNat * mib ≤ offeredMib'.toNat * mib := Nat.mul_le_mul_right _ hnat
  unfold reserveOf
  generalize offeredMib.toNat * mib = offered, offeredMib'.toNat * mib = offered', 1024 * mib =
    least
    at hbytes ⊢
  omega

/-- A stage fits exactly when its sizes are known and are, with the reserve, within the offer. -/
lemma stageFits_iff (h : offeredMib.toNat ≤ maxGreetingVramMib) {a : StageAssignment} :
    stageFits m offeredMib first last context sessions = some a ↔
      a = ⟨0, first, last, weightsOf m first last, kvOf m first last context sessions⟩ ∧
        stageModelBytes m first last ≠ 0 ∧ kvBytes m first last context sessions ≠ 0 ∧
        weightsOf m first last + kvOf m first last context sessions +
          reserveOf (offeredMib.toNat * mib) ≤ offeredMib.toNat * mib := by
  rw [stageFits_eq_some_iff, usableBytes_eq h]
  by_cases hweights : stageModelBytes m first last = 0
  · simp [hweights]
  by_cases hkv : kvBytes m first last context sessions = 0
  · simp [hkv]
  have hroom : weightsOf m first last + kvOf m first last context sessions ≤
      offeredMib.toNat * mib - reserveOf (offeredMib.toNat * mib) ↔
      weightsOf m first last + kvOf m first last context sessions +
        reserveOf (offeredMib.toNat * mib) ≤ offeredMib.toNat * mib := by
    have hpos : 0 < weightsOf m first last := by
      rw [stageModelBytes_exact hweights] at hweights
      exact Nat.pos_of_ne_zero hweights
    omega
  simp only [ne_eq, stageModelBytes_exact hweights, kvBytes_exact hkv, hroom]

/-! ### With a draft model -/

/-- The reserve of `stage_with_draft_fits` is that of `stage_fits`. -/
lemma toNat_usable (h : offeredMib.toNat ≤ maxGreetingVramMib)
    (hroom : reserveOf (offeredMib.toNat * mib) ≤ offeredMib.toNat * mib) :
    (offeredMib * UInt64.ofNat mib -
        max (UInt64.ofNat (1024 * mib)) (offeredMib * UInt64.ofNat mib * 15 / 100)).toNat =
      offeredMib.toNat * mib - reserveOf (offeredMib.toNat * mib) := by
  have hmib : offeredMib.toNat * mib ≤ 2 ^ 44 := by
    simp only [maxGreetingVramMib, mib] at h ⊢
    omega
  have hoffered : (offeredMib * UInt64.ofNat mib).toNat = offeredMib.toNat * mib := by
    rw [UInt64.toNat_mul, UInt64.toNat_ofNat_of_lt' (by decide), Nat.mod_eq_of_lt (by omega)]
  have hshare : (offeredMib * UInt64.ofNat mib * 15 / 100).toNat =
      offeredMib.toNat * mib * 15 / 100 := by
    have hpercent : (15 : UInt64).toNat = 15 ∧ (100 : UInt64).toNat = 100 := ⟨rfl, rfl⟩
    rw [UInt64.toNat_div, UInt64.toNat_mul, hoffered, hpercent.1, hpercent.2,
      Nat.mod_eq_of_lt (by omega)]
  have hreserve :
      (max (UInt64.ofNat (1024 * mib)) (offeredMib * UInt64.ofNat mib * 15 / 100)).toNat =
      reserveOf (offeredMib.toNat * mib) := by
    have hleast : (UInt64.ofNat (1024 * mib)).toNat = 1024 * mib := by decide
    unfold reserveOf
    rw [← hshare, ← hleast]
    change (if _ then _ else _ : UInt64).toNat = _
    split_ifs with hle
    · exact (max_eq_right (UInt64.le_iff_toNat_le.mp hle)).symm
    · exact (max_eq_left (Nat.le_of_not_le fun hge => hle (UInt64.le_iff_toNat_le.mpr hge))).symm
  rw [UInt64.toNat_sub_of_le _ _ (UInt64.le_iff_toNat_le.mpr (by omega)), hoffered, hreserve]

/-- A stage and a draft model fit exactly when their sizes are known and are together, with the
reserve, within the offer: no difference is taken below 0. -/
lemma stageWithDraftFits_iff (h : offeredMib.toNat ≤ maxGreetingVramMib) :
    stageWithDraftFits m draft offeredMib last context sessions ↔
      (stageFits m offeredMib 0 last context sessions).isSome ∧
        stageModelBytes draft 0 draft.layers.toNat ≠ 0 ∧
        kvBytes draft 0 draft.layers.toNat context sessions ≠ 0 ∧
        weightsOf m 0 last + kvOf m 0 last context sessions +
          (weightsOf draft 0 draft.layers.toNat + kvOf draft 0 draft.layers.toNat context
            sessions) +
          reserveOf (offeredMib.toNat * mib) ≤ offeredMib.toNat * mib := by
  have hmib : offeredMib.toNat * mib ≤ 2 ^ 44 := by
    simp only [maxGreetingVramMib, mib] at h ⊢
    omega
  unfold stageWithDraftFits
  cases hfits : stageFits m offeredMib 0 last context sessions with
  | none => simp
  | some main =>
    obtain ⟨rfl, -, -, hmain⟩ := (stageFits_iff h).mp hfits
    dsimp only
    by_cases hweights : stageModelBytes draft 0 draft.layers.toNat = 0
    · simp [hweights]
    by_cases hkv : kvBytes draft 0 draft.layers.toNat context sessions = 0
    · simp [hkv]
    have hexact := stageModelBytes_exact hweights
    have hexactKv := kvBytes_exact hkv
    rw [hexact] at hweights ⊢
    rw [hexactKv] at hkv ⊢
    generalize weightsOf draft 0 draft.layers.toNat = draftWeights at hweights ⊢
    generalize kvOf draft 0 draft.layers.toNat context sessions = draftKv at hkv ⊢
    simp only [hweights, hkv, false_or, Option.isSome_some, ne_eq, not_false_eq_true, true_and]
    generalize weightsOf m 0 last = weights at hmain ⊢
    generalize kvOf m 0 last context sessions = kv at hmain ⊢
    by_cases hover : draftWeights > maxU64 - draftKv
    · rw [if_pos hover]
      simp only [maxU64] at hover
      simp only [Bool.false_eq_true, false_iff]
      omega
    · rw [if_neg hover]
      have husable := toNat_usable h (by omega)
      have hused : (UInt64.ofNat weights + UInt64.ofNat kv).toNat = weights + kv := by
        rw [← UInt64.ofNat_add, UInt64.toNat_ofNat_of_lt' (by simp only [UInt64.size]; omega)]
      have hdraft : (UInt64.ofNat (draftWeights + draftKv)).toNat = draftWeights + draftKv := by
        simp only [maxU64] at hover
        rw [UInt64.toNat_ofNat_of_lt' (by simp only [UInt64.size]; omega)]
      rw [decide_eq_true_eq, UInt64.le_iff_toNat_le, hdraft,
        UInt64.toNat_sub_of_le _ _ (UInt64.le_iff_toNat_le.mpr (by omega)), husable, hused]
      omega

/-! ### Ranges within ranges -/

/-- A stage has the tensors of every stage within it. -/
lemma owns_within {t : ModelTensor} (hfirst : first ≤ first') (hlast : last' ≤ last)
    (hlayers : last ≤ m.layers.toNat) (h : m.owns first' last' t) :
    m.owns first last t := by
  unfold ModelIndex.owns ownedTensor at *
  cases hlayer : blockLayer t.name with
  | some layer =>
    simp only [hlayer, Bool.and_eq_true, decide_eq_true_eq] at h ⊢
    omega
  | none =>
    simp only [hlayer] at h ⊢
    split_ifs at h ⊢
    · simp only [Bool.or_eq_true, Bool.and_eq_true, decide_eq_true_eq] at h ⊢
      rcases h with hzero | ⟨hend, hout⟩
      · exact .inl (by omega)
      · exact .inr ⟨by omega, hout⟩
    · simp only [decide_eq_true_eq] at h ⊢
      omega

lemma weightsOf_within (hfirst : first ≤ first') (hlast : last' ≤ last)
    (hlayers : last ≤ m.layers.toNat) :
    weightsOf m first' last' ≤ weightsOf m first last := by
  simp only [weightsOf, ownedBytes_eq]
  refine Nat.add_le_add_left (List.sum_le_sum fun t _ => ?_) _
  by_cases howns : m.owns first' last' t
  · rw [if_pos howns, if_pos (owns_within hfirst hlast hlayers howns)]
  · simp [howns]

lemma kvOf_within (hfirst : first ≤ first') (hlast : last' ≤ last) :
    kvOf m first' last' context sessions ≤ kvOf m first last context sessions := by
  have hlayers : last' - first' ≤ last - first := by omega
  unfold kvOf
  gcongr

/-- What the memory arithmetic promises for a model, a context and a session count. -/
structure MemoryExact (m : ModelIndex) (context sessions : UInt32) : Prop where
  /-- The positions of a session are the context in whole blocks, or 0. -/
  positions : allocatedPositions context sessions = 0 ∨
    allocatedPositions context sessions = paddedContext context
  /-- The KV cache is the exact product, or 0. -/
  kv : ∀ first last, kvBytes m first last context sessions = 0 ∨
    kvBytes m first last context sessions = kvOf m first last context sessions
  /-- What fits is with the reserve within the offer. -/
  fits : ∀ {offeredMib first last a}, offeredMib.toNat ≤ maxGreetingVramMib →
    stageFits m offeredMib first last context sessions = some a →
    weightsOf m first last + kvOf m first last context sessions + reserveOf
      (offeredMib.toNat * mib) ≤
      offeredMib.toNat * mib
  /-- What fits in an offer fits in a greater one. -/
  offer : ∀ {offeredMib offeredMib' first last a}, offeredMib ≤ offeredMib' →
    offeredMib'.toNat ≤ maxGreetingVramMib →
    stageFits m offeredMib first last context sessions = some a →
    stageFits m offeredMib' first last context sessions = some a
  /-- Where a range fits, a range within it fits unless its weights are 0 bytes. -/
  range : ∀ {offeredMib first first' last' last}, offeredMib.toNat ≤ maxGreetingVramMib →
    first ≤ first' → first' < last' → last' ≤ last →
    (stageFits m offeredMib first last context sessions).isSome →
    ((stageFits m offeredMib first' last' context sessions).isSome ↔ weightsOf m first' last' ≠ 0)
  /-- What fits with a draft model is with both models and the reserve within the offer. -/
  draft : ∀ {draft offeredMib last}, offeredMib.toNat ≤ maxGreetingVramMib →
    stageWithDraftFits m draft offeredMib last context sessions →
    weightsOf m 0 last + kvOf m 0 last context sessions +
      (weightsOf draft 0 draft.layers.toNat + kvOf draft 0 draft.layers.toNat context sessions) +
      reserveOf (offeredMib.toNat * mib) ≤ offeredMib.toNat * mib

/-- A range within one that fits: its sizes are within those of the range. -/
lemma stageFits_within (h : offeredMib.toNat ≤ maxGreetingVramMib) (hfirst : first ≤ first')
    (hlt : first' < last') (hlast : last' ≤ last)
    (hfits : (stageFits m offeredMib first last context sessions).isSome) :
    (stageFits m offeredMib first' last' context sessions).isSome ↔
      weightsOf m first' last' ≠ 0 := by
  obtain ⟨a, hfits⟩ := Option.isSome_iff_exists.mp hfits
  obtain ⟨-, hweights, hkv, hroom⟩ := (stageFits_iff h).mp hfits
  obtain ⟨⟨-, hlayers, hint⟩, -⟩ := stageModelBytes_ne_zero hweights
  have hwithin : weightsOf m first' last' ≤ weightsOf m first last :=
    weightsOf_within hfirst hlast hlayers
  have hkvWithin : kvOf m first' last' context sessions ≤ kvOf m first last context sessions :=
    kvOf_within hfirst hlast
  have hmib : offeredMib.toNat * mib ≤ maxU64 := by
    simp only [maxGreetingVramMib, mib, maxU64] at h ⊢
    omega
  have hweights' : stageModelBytes m first' last' = weightsOf m first' last' := by
    rw [stageModelBytes_eq ⟨hlt, hlast.trans hlayers, hint⟩]
    exact if_pos (show weightsOf m first' last' ≤ maxU64 by omega)
  have hkv' : kvBytes m first' last' context sessions ≠ 0 := by
    obtain ⟨hheads, hproduct⟩ := kvBytes_ne_zero hkv
    have hunit : kvUnit m context sessions ≠ 0 := by
      intro hzero
      rw [hproduct, hzero, Nat.zero_mul] at hkv
      exact hkv rfl
    rw [kvBytes_eq hheads, kvUnit_mul, if_pos (by omega), ← kvUnit_mul]
    exact Nat.mul_ne_zero hunit (by omega)
  rw [← hweights']
  constructor
  · intro hsome
    obtain ⟨b, hb⟩ := Option.isSome_iff_exists.mp hsome
    exact ((stageFits_iff h).mp hb).2.1
  · intro hknown
    exact Option.isSome_iff_exists.mpr ⟨_, (stageFits_iff h).mpr ⟨rfl, hknown, hkv', by omega⟩⟩

/-- The memory arithmetic never wraps around and never promises what is not offered. -/
theorem memory_exact (m : ModelIndex) (context sessions : UInt32) :
    MemoryExact m context sessions where
  positions := by
    rw [allocatedPositions_eq]
    split_ifs
    · exact .inl rfl
    · exact .inr rfl
  kv first last := by
    by_cases hkv : kvBytes m first last context sessions = 0
    · exact .inl hkv
    · exact .inr (kvBytes_exact hkv)
  fits h hfits := ((stageFits_iff h).mp hfits).2.2.2
  offer hle h hfits := by
    obtain ⟨ha, hweights, hkv, hroom⟩ := stageFits_eq_some_iff.mp hfits
    exact stageFits_eq_some_iff.mpr ⟨ha, hweights, hkv, hroom.trans (usableBytes_mono hle h)⟩
  range h hfirst hlt hlast hfits := stageFits_within h hfirst hlt hlast hfits
  draft h hfits := ((stageWithDraftFits_iff h).mp hfits).2.2.2

/-- A model of two layers whose header and second layer have no bytes. -/
def hollowModel : ModelIndex where
  architecture := "qwen2"
  layers := 2
  hidden := 64
  heads := 2
  kvHeads := 1
  headerBytes := 0
  tensors := [⟨"token_embd.weight".toList, 500, [], 0⟩, ⟨"blk.0.attn_q.weight".toList, 300, [], 0⟩,
    ⟨"blk.1.attn_q.weight".toList, 0, [], 0⟩, ⟨"output_norm.weight".toList, 0, [], 0⟩,
    ⟨"output.weight".toList, 0, [], 0⟩]

/-- Its second layer does not fit where the whole of it does. -/
theorem not_range_antitone :
    ¬ ∀ (m : ModelIndex) (context sessions : UInt32) (offeredMib : UInt64)
      (first first' last' last : Nat),
      compatible m → offeredMib.toNat ≤ maxGreetingVramMib → first ≤ first' → first' < last' →
        last' ≤ last → (stageFits m offeredMib first last context sessions).isSome →
        (stageFits m offeredMib first' last' context sessions).isSome := by
  intro h
  have hpart := h hollowModel 256 1 4096 0 1 2 2 (by decide +kernel) (by decide) (by decide)
    (by decide)
    (by decide) (by decide +kernel)
  have hnone : (stageFits hollowModel 4096 1 2 256 1).isSome = false := by decide +kernel
  rw [hnone] at hpart
  contradiction

end ProviderOwned.Planner
