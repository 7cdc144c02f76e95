import ProviderOwned.Planner.Plan

/-!
# Sizes by layer range

The sizes `search.cpp` works with: what the tensors outside the layers need is folded into the first
and the last layer, so that the weights of a range are a difference of two sums over the layers
before it. Where `sizes_of` returns sizes they are those of the tensor scan, for every range
(`model_eq`, `kv_eq`), although the source only compares three of them.

The sums wrap around at 64 bits, as `UInt64` does.
-/

namespace ProviderOwned.Planner

/-- `struct Sizes`; `sums` are the bytes of the layers before one. -/
structure Sizes where
  header : UInt64
  embedding : UInt64
  sums : Nat → UInt64
  wholeOverlap : UInt64
  kvPerLayer : UInt64
  layers : Nat

namespace Sizes

def model (s : Sizes) (first last : Nat) : UInt64 :=
  s.header + s.sums last - s.sums first - (if first = 0 ∧ last = s.layers then s.wholeOverlap
    else 0)

def decode (s : Sizes) (first last : Nat) : UInt64 :=
  let bytes := s.model first last
  if first = 0 ∧ s.embedding < bytes then bytes - s.embedding else bytes

def kv (s : Sizes) (first last : Nat) : UInt64 := s.kvPerLayer * UInt64.ofNat (last - first)

/-- `fits` of the search. -/
def fits (s : Sizes) (offeredMib : UInt64) (first last : Nat) : Bool :=
  if offeredMib.toNat > maxU64 / mib then false
  else
    let offered := offeredMib.toNat * mib
    let reserve := max (1024 * mib) (offered * 15 % 2 ^ 64 / 100)
    if offered ≤ reserve then false
    else
      let usable := offered - reserve
      let weights := (s.model first last).toNat
      weights ≤ usable && (s.kv first last).toNat ≤ usable - weights

end Sizes

/-- The sums of `sizes_of`: the bytes of each layer, less the header, added up. -/
def layerSums (m : ModelIndex) : Nat → UInt64
  | 0 => 0
  | layer + 1 => layerSums m layer + UInt64.ofNat (stageModelBytes m layer (layer + 1)) -
      m.headerBytes

/-- `sizes_of`. A layer count that is no `int` is too long for a vector. -/
def sizesOf (m : ModelIndex) (context sessions : UInt32) : Option Sizes :=
  let layers := m.layers.toNat
  if 2 ^ 31 ≤ layers then none
  else if ∃ layer < layers, stageModelBytes m layer (layer + 1) < m.headerBytes.toNat ∨
      stageModelBytes m layer (layer + 1) = 0 then none
  else
    let whole := stageModelBytes m 0 layers
    let folded := m.headerBytes + layerSums m layers
    if 1 < layers ∧ (whole = 0 ∨ folded.toNat < whole) then none
    else
      let sizes : Sizes :=
        { header := m.headerBytes
          -- the last tensor of the name
          embedding := ((m.tensors.filter (·.name = "token_embd.weight".toList)).getLast?.map
            ModelTensor.bytes).getD 0
          sums := layerSums m
          wholeOverlap := if 1 < layers then folded - UInt64.ofNat whole else 0
          kvPerLayer := UInt64.ofNat (kvBytes m 0 1 context sessions)
          layers := layers }
      let middle := layers / 2
      if sizes.kvPerLayer = 0 ∨ (sizes.model 0 layers).toNat ≠ whole ∨
          (0 < middle ∧ ((sizes.model 0 middle).toNat ≠ stageModelBytes m 0 middle ∨
            (sizes.model middle layers).toNat ≠ stageModelBytes m middle layers)) ∨
          kvBytes m 0 layers context sessions ≠ (sizes.kv 0 layers).toNat then none
      else some sizes

/-! ### The sums are the scan -/

variable {m : ModelIndex} {first cut last layer : Nat} {context sessions : UInt32} {s : Sizes}

/-- Of the two stages that a stage is cut into, one has a tensor of the stage and only one, unless
the stage is the whole model, whose embedding may be in both. -/
lemma owns_cut_iff {t : ModelTensor} (hcut : first < cut) (hlast : cut < last)
    (hlayers : last ≤ m.layers.toNat) (hwhole : ¬ (first = 0 ∧ last = m.layers.toNat)) :
    (m.owns first last t ↔ m.owns first cut t ∨ m.owns cut last t) ∧
      ¬ (m.owns first cut t ∧ m.owns cut last t) := by
  have hbefore : cut ≠ m.layers.toNat := by omega
  have hafter : cut ≠ 0 := by omega
  unfold ModelIndex.owns ownedTensor
  cases hlayer : blockLayer t.name with
  | some layer =>
    simp only [Bool.and_eq_true, decide_eq_true_eq]
    omega
  | none =>
    split_ifs
    · simp only [hbefore, hafter, Bool.or_eq_true, Bool.and_eq_true, decide_eq_true_eq]
      tauto
    · simp [hbefore]
    · simp

/-- The sizes of ranges are additive. -/
lemma ownedBytes_cut (hcut : first < cut) (hlast : cut < last) (hlayers : last ≤ m.layers.toNat)
    (hwhole : ¬ (first = 0 ∧ last = m.layers.toNat)) :
    ownedBytes m first last = ownedBytes m first cut + ownedBytes m cut last := by
  simp only [ownedBytes_eq, ← List.sum_map_add]
  congr 1
  refine List.map_congr_left fun t _ => ?_
  obtain ⟨hiff, hone⟩ := owns_cut_iff (t := t) hcut hlast hlayers hwhole
  by_cases hleft : m.owns first cut t
  · have hright : ¬ m.owns cut last t := fun hright => hone ⟨hleft, hright⟩
    rw [if_pos hleft, if_neg hright, if_pos (hiff.mpr (.inl hleft)), Nat.add_zero]
  · simp only [hleft, hiff, false_or, Bool.false_eq_true, if_false, Nat.zero_add]

/-- The whole model has what any stage has. -/
lemma owns_whole {t : ModelTensor} (hlayers : last ≤ m.layers.toNat) (h : m.owns first last t) :
    m.owns 0 m.layers.toNat t := by
  unfold ModelIndex.owns ownedTensor at *
  cases hlayer : blockLayer t.name with
  | some layer =>
    simp only [hlayer, Bool.and_eq_true, decide_eq_true_eq] at h ⊢
    omega
  | none =>
    simp only [hlayer] at h ⊢
    split_ifs at h ⊢
    · simp
    · simp

lemma ownedBytes_le_whole (hlayers : last ≤ m.layers.toNat) :
    ownedBytes m first last ≤ ownedBytes m 0 m.layers.toNat := by
  simp only [ownedBytes_eq]
  refine List.sum_le_sum fun t _ => ?_
  by_cases howns : m.owns first last t
  · rw [if_pos howns, if_pos (owns_whole hlayers howns)]
  · simp [howns]

/-- Where every layer has a size, so has every range, up to the whole model. -/
lemma layerSums_eq (hknown : ∀ layer < m.layers.toNat, stageModelBytes m layer (layer + 1) ≠ 0)
    (hlast : first < last) (hlayers : last ≤ m.layers.toNat)
    (hwhole : ¬ (first = 0 ∧ last = m.layers.toNat)) :
    layerSums m last = layerSums m first + UInt64.ofNat (ownedBytes m first last) := by
  have hstep : ∀ layer < m.layers.toNat,
      layerSums m (layer + 1) =
          layerSums m layer + UInt64.ofNat (ownedBytes m layer (layer + 1)) := by
    intro layer hlayer
    rw [layerSums, (stageModelBytes_ne_zero (hknown layer hlayer)).2, UInt64.ofNat_add,
      UInt64.ofNat_toNat, UInt64.add_comm m.headerBytes, ← UInt64.add_assoc, UInt64.add_sub_cancel]
  induction last, hlast using Nat.le_induction with
  | base => exact hstep first (by omega)
  | succ last hle ih =>
    rw [hstep last (by omega), ih (by omega) (by omega),
      ownedBytes_cut hle (Nat.lt_succ_self last) hlayers hwhole, UInt64.ofNat_add, UInt64.add_assoc]

/-- What `sizes_of` has checked when it returns the sizes of a model of at least two layers. -/
structure SizesOf (m : ModelIndex) (context sessions : UInt32) (s : Sizes) : Prop where
  layers_lt : m.layers.toNat < 2 ^ 31
  layers : s.layers = m.layers.toNat
  header : s.header = m.headerBytes
  sums : s.sums = layerSums m
  known : ∀ layer < m.layers.toNat, stageModelBytes m layer (layer + 1) ≠ 0
  whole : stageModelBytes m 0 m.layers.toNat ≠ 0
  overlap : s.wholeOverlap =
    m.headerBytes + layerSums m m.layers.toNat - UInt64.ofNat (stageModelBytes m 0 m.layers.toNat)
  kvPerLayer : s.kvPerLayer = UInt64.ofNat (kvBytes m 0 1 context sessions)

lemma sizesOf_spec (hlayers : 1 < m.layers.toNat) (h : sizesOf m context sessions = some s) :
    SizesOf m context sessions s := by
  unfold sizesOf at h
  dsimp only at h
  split_ifs at h with hint hlayer hwhole hcheck
  push Not at hlayer
  simp only [hlayers, true_and, not_or] at hwhole
  obtain rfl := Option.some.inj h
  exact
    { layers_lt := Nat.not_le.mp hint
      layers := rfl
      header := rfl
      sums := rfl
      known := fun layer hlt => (hlayer layer hlt).2
      whole := hwhole.1
      overlap := rfl
      kvPerLayer := rfl }

namespace SizesOf

/-- The folded sizes are those of the tensor scan. -/
lemma model_eq (h : SizesOf m context sessions s) (hlast : first < last)
    (hlayers : last ≤ m.layers.toNat) :
    (s.model first last).toNat = stageModelBytes m first last ∧
    stageModelBytes m first last ≠ 0 := by
  have hrange : InRange m first last := ⟨hlast, hlayers, h.layers_lt⟩
  obtain ⟨-, hwhole⟩ := stageModelBytes_ne_zero h.whole
  have hwholeLe : stageModelBytes m 0 m.layers.toNat ≤ maxU64 := by
    rw [stageModelBytes_eq ⟨by omega, Nat.le_refl _, h.layers_lt⟩]
    split_ifs with hle
    · exact hle
    · exact Nat.zero_le _
  have hlt : maxU64 < UInt64.size := by decide
  by_cases hall : first = 0 ∧ last = m.layers.toNat
  · -- the overlap is what the fold has too much
    obtain ⟨rfl, rfl⟩ := hall
    refine ⟨?_, h.whole⟩
    have hsub : ∀ folded whole : UInt64, folded - 0 - (folded - whole) = whole := by
      intro folded whole
      rw [UInt64.sub_zero, UInt64.sub_eq_add_neg, UInt64.neg_sub, UInt64.add_comm,
        UInt64.sub_add_cancel]
    rw [Sizes.model, if_pos ⟨rfl, h.layers.symm⟩, h.overlap, h.header, h.sums, layerSums, hsub,
      UInt64.toNat_ofNat_of_lt' (by omega)]
  · have hle : m.headerBytes.toNat + ownedBytes m first last ≤ maxU64 := by
      have : ownedBytes m first last ≤ _ := ownedBytes_le_whole hlayers
      omega
    have hscan : stageModelBytes m first last = m.headerBytes.toNat + ownedBytes m first last := by
      rw [stageModelBytes_eq hrange, if_pos hle]
    refine ⟨?_, ?_⟩
    · rw [Sizes.model, if_neg (h.layers ▸ hall), h.header, h.sums,
        layerSums_eq h.known hlast hlayers hall, hscan, UInt64.sub_zero,
        UInt64.add_comm (layerSums m first), ← UInt64.add_assoc, UInt64.add_sub_cancel,
        ← UInt64.ofNat_toNat (x := m.headerBytes), ← UInt64.ofNat_add, UInt64.ofNat_toNat,
        UInt64.toNat_ofNat_of_lt' (by omega)]
    · have hone := (stageModelBytes_ne_zero (h.known first (by omega))).2 ▸ h.known first (by omega)
      rcases Nat.eq_or_lt_of_le hlast with rfl | hmore
      · exact hscan ▸ hone
      · rw [hscan, ownedBytes_cut (Nat.lt_add_one first) hmore hlayers hall]
        omega

lemma kv_eq (h : SizesOf m context sessions s)
    (hkv : kvBytes m 0 m.layers.toNat context sessions ≠ 0) (hlast : first < last)
    (hlayers : last ≤ m.layers.toNat) :
    (s.kv first last).toNat = kvBytes m first last context sessions ∧
      kvBytes m first last context sessions ≠ 0 := by
  obtain ⟨hheads, hwhole⟩ := kvBytes_ne_zero hkv
  rw [hwhole, Nat.sub_zero] at hkv
  have hle : kvUnit m context sessions * m.layers.toNat ≤ maxU64 := by
    by_contra hno
    rw [kvBytes_eq hheads, Nat.sub_zero, if_neg hno, eq_comm] at hwhole
    exact hkv hwhole
  have hunit : 0 < kvUnit m context sessions := Nat.pos_of_ne_zero (left_ne_zero_of_mul hkv)
  have hpart : ∀ n ≤ m.layers.toNat, kvUnit m context sessions * n ≤ maxU64 :=
    fun n hn => (Nat.mul_le_mul_left _ hn).trans hle
  have hrange : kvBytes m first last context sessions =
      kvUnit m context sessions * (last - first) := by
    rw [kvBytes_eq hheads, if_pos (hpart _ (by omega))]
  have hfirst : kvBytes m 0 1 context sessions = kvUnit m context sessions := by
    rw [kvBytes_eq hheads, Nat.sub_zero, Nat.mul_one, if_pos]
    simpa using hpart 1 (by omega)
  have hlt : maxU64 < UInt64.size := by decide
  refine ⟨?_, ?_⟩
  · rw [Sizes.kv, h.kvPerLayer, hfirst, ← UInt64.ofNat_mul, hrange, UInt64.toNat_ofNat_of_lt']
    exact Nat.lt_of_le_of_lt (hpart _ (by omega)) hlt
  · rw [hrange]
    exact (Nat.mul_pos hunit (by omega)).ne'

/-- What fits by the folded sizes fits by the tensor scan. -/
lemma stageFits_of_fits {offeredMib : UInt64} (h : SizesOf m context sessions s)
    (hkv : kvBytes m 0 m.layers.toNat context sessions ≠ 0) (hlast : first < last)
    (hlayers : last ≤ m.layers.toNat) (hfits : s.fits offeredMib first last) :
    stageFits m offeredMib first last context sessions =
      some ⟨0, first, last, (s.model first last).toNat, (s.kv first last).toNat⟩ := by
  obtain ⟨hmodel, hmodelNe⟩ := h.model_eq hlast hlayers
  obtain ⟨hcache, hcacheNe⟩ := h.kv_eq hkv hlast hlayers
  refine stageFits_eq_some_iff.mpr ⟨by rw [hmodel, hcache], hmodelNe, hcacheNe, ?_⟩
  rw [← hmodel, ← hcache]
  unfold Sizes.fits at hfits
  unfold usableBytes
  dsimp only at hfits ⊢
  by_cases hoffer : offeredMib.toNat > maxU64 / mib
  · rw [if_pos hoffer] at hfits
    contradiction
  · rw [if_neg hoffer] at hfits ⊢
    generalize max (1024 * mib) (offeredMib.toNat * mib * 15 % 2 ^ 64 / 100) = reserve at hfits ⊢
    split_ifs at hfits with hroom
    rw [if_pos (Nat.not_le.mp hroom)]
    simp only [Bool.and_eq_true, decide_eq_true_eq] at hfits
    omega

end SizesOf

end ProviderOwned.Planner
