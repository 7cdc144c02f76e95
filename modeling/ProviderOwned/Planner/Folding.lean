import Mathlib.Data.UInt
import ProviderOwned.Planner.Search

/-!
# When the folded sizes are the scanned ones

The weights of a range agree with the tensor scan wherever `sizes_of` returns sizes
(`SizesOf.model_eq`). Two things it does not look at: the decode bytes, where the scan takes every
tensor named `token_embd.weight` off the first stage and the fold only the last of them, and a KV
cache of the whole model that passes 64 bits, which the scan calls unknown and the fold lets wrap
around. `folded_agrees_iff` says exactly which models they spoil.
-/

namespace ProviderOwned.Planner

/-! ### Taking sizes off a total -/

/-- The last number of a list that is not zero, or zero. -/
def lastNonzero : List Nat → Nat
  | [] => 0
  | n :: l => if l.sum = 0 then n else lastNonzero l

lemma lastNonzero_of_sum_eq_zero {l : List Nat} (h : l.sum = 0) : lastNonzero l = 0 := by
  cases l with
  | nil => rfl
  | cons n l =>
    rw [List.sum_cons] at h
    rw [lastNonzero, if_pos (Nat.add_eq_zero_iff.mp h).2]
    exact (Nat.add_eq_zero_iff.mp h).1

lemma lastNonzero_concat {l : List Nat} (h : l.sum = 0) (n : Nat) : lastNonzero (l ++ [n]) = n := by
  induction l with
  | nil => rfl
  | cons k l ih =>
    have hsum : k + l.sum = 0 := by rwa [List.sum_cons] at h
    obtain ⟨hk, hl⟩ := Nat.add_eq_zero_iff.mp hsum
    rw [List.cons_append, lastNonzero, ih hl, hk, List.sum_append, hl]
    simp [eq_comm]

/-- What is left of a total after each size smaller than what is left is taken off. -/
def takeOff (bytes : Nat) (sizes : List Nat) : Nat :=
  sizes.foldl (fun bytes size => if size < bytes then bytes - size else bytes) bytes

/-- All the sizes come off a total that has more than them; off their own sum the last of them that
is not zero does not. -/
lemma takeOff_eq (rest : Nat) (sizes : List Nat) :
    takeOff (rest + sizes.sum) sizes = if rest = 0 then lastNonzero sizes else rest := by
  induction sizes generalizing rest with
  | nil => simp [takeOff, lastNonzero]
  | cons size sizes ih =>
    have hstep : takeOff (rest + (size :: sizes).sum) (size :: sizes) =
        takeOff (if size < rest + (size + sizes.sum) then rest + sizes.sum else size) sizes := by
      rw [takeOff, List.foldl_cons, List.sum_cons, ← takeOff]
      congr 1
      split_ifs <;> omega
    rw [hstep, lastNonzero]
    by_cases hsum : sizes.sum = 0
    · -- nothing more comes off, whatever is left
      have hall : ∀ bytes, takeOff bytes sizes = bytes := by
        intro bytes
        have hbytes := ih bytes
        rw [hsum, Nat.add_zero, lastNonzero_of_sum_eq_zero hsum] at hbytes
        rw [hbytes]
        split_ifs with hzero
        · exact hzero.symm
        · rfl
      rw [hall, hsum]
      split_ifs <;> omega
    · rw [if_neg hsum, if_pos (by omega), ih]

/-! ### Decode bytes -/

variable {m : ModelIndex} {first last : Nat} {context sessions : UInt32} {s : Sizes}

def ModelTensor.isEmbedding (t : ModelTensor) : Bool := t.name = "token_embd.weight".toList

lemma ModelTensor.isEmbedding_iff {t : ModelTensor} :
    t.isEmbedding ↔ t.name = "token_embd.weight".toList := decide_eq_true_iff

/-- The sizes of the tensors named `token_embd.weight`, in the order of the index. -/
def embeddingSizes (m : ModelIndex) : List Nat :=
  (m.tensors.filter ModelTensor.isEmbedding).map (·.bytes.toNat)

/-- The header and the tensors other than the embedding that the first stage up to `last` has. -/
def otherBytes (m : ModelIndex) (last : Nat) : Nat :=
  m.headerBytes.toNat +
    ((m.tensors.filter fun t => m.owns 0 last t && !t.isEmbedding).map (·.bytes.toNat)).sum

/-- Only the last tensor named `token_embd.weight` has bytes; or the header and all other tensors
are empty, and the last embedding that is not has as many bytes as all but the last together. -/
def EmbeddingOnce (m : ModelIndex) : Prop :=
  (embeddingSizes m).dropLast.sum = 0 ∨
    (otherBytes m m.layers.toNat = 0 ∧
      lastNonzero (embeddingSizes m) = (embeddingSizes m).dropLast.sum)

lemma owns_embedding {t : ModelTensor} (h : t.isEmbedding) (last : Nat) : m.owns 0 last t := by
  have hname := ModelTensor.isEmbedding_iff.mp h
  have hlayer : blockLayer "token_embd.weight".toList = none := by decide
  rw [ModelIndex.owns, ownedTensor, hname, hlayer]
  dsimp only
  rw [if_pos rfl, decide_eq_true rfl, Bool.true_or]

/-- The first stage has every embedding and its other bytes. -/
lemma header_add_ownedBytes (m : ModelIndex) (last : Nat) :
    m.headerBytes.toNat + ownedBytes m 0 last = otherBytes m last + (embeddingSizes m).sum := by
  have hsplit : ∀ tensors : List ModelTensor,
      ((tensors.filter (m.owns 0 last)).map (·.bytes.toNat)).sum =
        ((tensors.filter fun t => m.owns 0 last t && !t.isEmbedding).map (·.bytes.toNat)).sum +
          ((tensors.filter ModelTensor.isEmbedding).map (·.bytes.toNat)).sum := by
    intro tensors
    induction tensors with
    | nil => rfl
    | cons t tensors ih =>
      simp only [List.filter_cons]
      by_cases hembedding : t.isEmbedding
      · rw [if_pos (owns_embedding hembedding last), if_pos hembedding,
          if_neg (by simp [hembedding]), List.map_cons, List.map_cons, List.sum_cons, List.sum_cons,
          ih]
        omega
      · rw [if_neg hembedding]
        by_cases howns : m.owns 0 last t
        · rw [if_pos howns, if_pos (by simp [howns, hembedding]), List.map_cons, List.map_cons,
            List.sum_cons, List.sum_cons, ih]
          omega
        · rw [if_neg howns, if_neg (by simp [howns]), ih]
  rw [otherBytes, ownedBytes, hsplit m.tensors, embeddingSizes]
  omega

lemma otherBytes_le_whole (hlayers : last ≤ m.layers.toNat) :
    otherBytes m last ≤ otherBytes m m.layers.toNat := by
  have hsplit := header_add_ownedBytes m last
  have hwhole := header_add_ownedBytes m m.layers.toNat
  have hle : ownedBytes m 0 last ≤ ownedBytes m 0 m.layers.toNat := ownedBytes_le_whole hlayers
  omega

/-- `decode_bytes` takes the embeddings off. -/
lemma decodeBytes_zero (m : ModelIndex) (last : Nat) :
    decodeBytes m 0 last = takeOff (stageModelBytes m 0 last) (embeddingSizes m) := by
  have hstep : (fun (bytes : Nat) (t : ModelTensor) =>
      if t.name = "token_embd.weight".toList ∧ t.bytes.toNat < bytes then bytes - t.bytes.toNat
      else bytes) =
      fun bytes t => if t.isEmbedding then
        if t.bytes.toNat < bytes then bytes - t.bytes.toNat else bytes else bytes := by
    funext bytes t
    by_cases hname : t.name = "token_embd.weight".toList
    · rw [if_congr (and_iff_right hname) rfl rfl, if_pos (ModelTensor.isEmbedding_iff.mpr hname)]
    · rw [if_neg fun h => hname h.1, if_neg fun h => hname (ModelTensor.isEmbedding_iff.mp h)]
  rw [decodeBytes, if_pos rfl, takeOff, embeddingSizes, List.foldl_map, List.foldl_filter, hstep]

/-- The embedding of the folded sizes is the last tensor of the name. -/
lemma embedding_eq (hlayers : 1 < m.layers.toNat) (h : sizesOf m context sessions = some s) :
    s.embedding.toNat = (embeddingSizes m).getLastD 0 := by
  have hembedding : s.embedding =
      ((m.tensors.filter ModelTensor.isEmbedding).getLast?.map ModelTensor.bytes).getD 0 := by
    unfold sizesOf at h
    dsimp only at h
    split_ifs at h
    all_goals
      obtain rfl := Option.some.inj h
      rfl
  rw [hembedding, embeddingSizes, List.getLastD_eq_getLast?, List.getLast?_map]
  cases (m.tensors.filter ModelTensor.isEmbedding).getLast? with
  | none => rfl
  | some t => rfl

/-- The embeddings of a model that can be staged: some, and the last. -/
lemma embeddingSizes_eq (hembedding : embeddingSizes m ≠ []) :
    embeddingSizes m = (embeddingSizes m).dropLast ++ [(embeddingSizes m).getLastD 0] := by
  rw [List.getLastD_eq_getLast?, List.getLast?_eq_some_getLast hembedding, Option.getD_some,
    List.dropLast_append_getLast]

namespace SizesOf

/-- The decode bytes of the first stage up to `last` agree if there is but one embedding, or nothing
else. -/
lemma decode_zero_iff (h : SizesOf m context sessions s)
    (hs : s.embedding.toNat = (embeddingSizes m).getLastD 0) (hembedding : embeddingSizes m ≠ [])
    (hlast : 0 < last) (hlayers : last ≤ m.layers.toNat) :
    (s.decode 0 last).toNat = decodeBytes m 0 last ↔
      (embeddingSizes m).dropLast.sum = 0 ∨
        (otherBytes m last = 0 ∧
          lastNonzero (embeddingSizes m) = (embeddingSizes m).dropLast.sum) := by
  obtain ⟨hmodel, hne⟩ := h.model_eq hlast hlayers
  have hbytes := (stageModelBytes_ne_zero hne).2.trans (header_add_ownedBytes m last)
  have hsum : (embeddingSizes m).sum =
      (embeddingSizes m).dropLast.sum + (embeddingSizes m).getLastD 0 := by
    conv_lhs => rw [embeddingSizes_eq hembedding]
    rw [List.sum_append, List.sum_singleton]
  have hfold : (s.decode 0 last).toNat =
      if s.embedding.toNat < (s.model 0 last).toNat then
        (s.model 0 last).toNat - s.embedding.toNat
      else (s.model 0 last).toNat := by
    rw [Sizes.decode]
    by_cases hlt : s.embedding < s.model 0 last
    · have hlt' : s.embedding.toNat < (s.model 0 last).toNat := hlt
      rw [if_pos ⟨rfl, hlt⟩, if_pos hlt', UInt64.toNat_sub_of_le _ _ (Nat.le_of_lt hlt')]
    · have hlt' : ¬ s.embedding.toNat < (s.model 0 last).toNat := hlt
      rw [if_neg fun h => hlt h.2, if_neg hlt']
  have hzero : (embeddingSizes m).dropLast.sum = 0 →
      lastNonzero (embeddingSizes m) = (embeddingSizes m).getLastD 0 := by
    intro hdrop
    conv_lhs => rw [embeddingSizes_eq hembedding]
    exact lastNonzero_concat hdrop _
  rw [hfold, hmodel, hs, decodeBytes_zero, hbytes, takeOff_eq]
  rw [hbytes] at hne
  generalize (embeddingSizes m).getLastD 0 = final at *
  generalize (embeddingSizes m).dropLast.sum = before at *
  generalize lastNonzero (embeddingSizes m) = nonzero at *
  by_cases hother : otherBytes m last = 0
  · rw [if_pos hother, hsum, hother]
    by_cases hbefore : before = 0
    · have := hzero hbefore
      simp [hbefore, this]
    · rw [if_pos (by omega)]
      omega
  · rw [if_neg hother, hsum, if_pos (by omega)]
    omega

lemma decode_of_ne (h : SizesOf m context sessions s) (hfirst : first ≠ 0) (hlast : first < last)
    (hlayers : last ≤ m.layers.toNat) : (s.decode first last).toNat = decodeBytes m first last := by
  rw [Sizes.decode, decodeBytes, if_neg hfirst, if_neg fun h => hfirst h.1]
  exact (h.model_eq hlast hlayers).1

/-- The decode bytes of all ranges agree exactly if `EmbeddingOnce` holds. -/
lemma decode_iff (h : SizesOf m context sessions s)
    (hs : s.embedding.toNat = (embeddingSizes m).getLastD 0) (hembedding : embeddingSizes m ≠ [])
    (hlayers : 0 < m.layers.toNat) :
    (∀ first last, first < last → last ≤ m.layers.toNat →
        (s.decode first last).toNat = decodeBytes m first last) ↔ EmbeddingOnce m := by
  constructor
  · intro hall
    exact (h.decode_zero_iff hs hembedding hlayers (Nat.le_refl _)).mp
      (hall 0 _ hlayers (Nat.le_refl _))
  · intro honce first last hlast hle
    by_cases hfirst : first = 0
    · subst hfirst
      refine (h.decode_zero_iff hs hembedding hlast hle).mpr (honce.imp id
        fun hwhole => ⟨?_, hwhole.2⟩)
      exact Nat.le_zero.mp (hwhole.1 ▸ otherBytes_le_whole hle)
    · exact h.decode_of_ne hfirst hlast hle

end SizesOf

/-! ### The KV cache -/

/-- The KV cache of the whole model is at most 64 bits long; or it is the first number that is
longer, in a model whose weights alone are more than any worker can hold. -/
def CacheFits (m : ModelIndex) (context sessions : UInt32) : Prop :=
  kvUnit m context sessions * m.layers.toNat < 2 ^ 64 ∨
    (kvUnit m context sessions * m.layers.toNat = 2 ^ 64 ∧
      ∀ offeredMib, usableBytes offeredMib < stageModelBytes m 0 m.layers.toNat)

/-- The folded test, in the usable bytes. -/
lemma Sizes.fits_iff {offeredMib : UInt64} (hmodel : (s.model first last).toNat ≠ 0) :
    s.fits offeredMib first last ↔
      (s.model first last).toNat + (s.kv first last).toNat ≤ usableBytes offeredMib := by
  rw [Sizes.fits, usableBytes]
  split_ifs with hoffer
  · simp only [false_iff]
    omega
  · dsimp only
    generalize max (1024 * mib) (offeredMib.toNat * mib * 15 % 2 ^ 64 / 100) = reserve
    generalize offeredMib.toNat * mib = offered
    split_ifs with hreserve hroom hroom
    · omega
    · simp only [false_iff]
      omega
    · simp only [Bool.and_eq_true, decide_eq_true_eq]
      omega
    · omega

/-- Whether a stage fits, in the usable bytes. -/
lemma stageFits_isSome_iff {offeredMib : UInt64} :
    (stageFits m offeredMib first last context sessions).isSome ↔
      stageModelBytes m first last ≠ 0 ∧ kvBytes m first last context sessions ≠ 0 ∧
        stageModelBytes m first last + kvBytes m first last context sessions ≤
          usableBytes offeredMib := by
  rw [Option.isSome_iff_exists]
  simp only [stageFits_eq_some_iff, exists_eq_left]

namespace SizesOf

/-- Where the sizes of a range agree and its cache has one, so do the tests. -/
lemma fits_iff {offeredMib : UInt64} (h : SizesOf m context sessions s) (hlast : first < last)
    (hlayers : last ≤ m.layers.toNat)
    (hkv : (s.kv first last).toNat = kvBytes m first last context sessions)
    (hne : kvBytes m first last context sessions ≠ 0) :
    s.fits offeredMib first last ↔
      (stageFits m offeredMib first last context sessions).isSome := by
  obtain ⟨hmodel, hmodelNe⟩ := h.model_eq hlast hlayers
  rw [Sizes.fits_iff (hmodel ▸ hmodelNe), stageFits_isSome_iff, hmodel, hkv]
  simp [hmodelNe, hne]

end SizesOf

/-- What `sizes_of` has checked of the cache when it returns sizes. -/
structure CacheOf (m : ModelIndex) (context sessions : UInt32) (s : Sizes) : Prop where
  heads : m.heads ≠ 0
  pos : 0 < kvUnit m context sessions
  perLayer : s.kvPerLayer.toNat = kvUnit m context sessions
  whole : kvBytes m 0 m.layers.toNat context sessions = (s.kv 0 m.layers.toNat).toNat

lemma sizesOf_cache (h : sizesOf m context sessions = some s) : CacheOf m context sessions s := by
  have hchecks : s.kvPerLayer = UInt64.ofNat (kvBytes m 0 1 context sessions) ∧ s.kvPerLayer ≠ 0 ∧
      kvBytes m 0 m.layers.toNat context sessions = (s.kv 0 m.layers.toNat).toNat := by
    unfold sizesOf at h
    dsimp only at h
    split_ifs at h with hint hlayer hwhole hmany hcheck hcheck
    all_goals
      simp only [not_or, not_not] at hcheck
      obtain rfl := Option.some.inj h
      exact ⟨rfl, hcheck.1, hcheck.2.2.2⟩
  obtain ⟨hunit, hne, hwhole⟩ := hchecks
  have hone : kvBytes m 0 1 context sessions ≠ 0 := by
    intro hzero
    rw [hunit, hzero] at hne
    exact hne rfl
  obtain ⟨hheads, hkv⟩ := kvBytes_ne_zero hone
  have hle : kvBytes m 0 1 context sessions ≤ maxU64 := by
    rw [kvBytes_eq hheads]
    split_ifs with hle
    · exact hle
    · exact Nat.zero_le _
  have hlt : maxU64 < UInt64.size := by decide
  rw [Nat.sub_zero, Nat.mul_one] at hkv
  constructor
  · exact hheads
  · exact Nat.pos_of_ne_zero (hkv ▸ hone)
  · rw [hunit, UInt64.toNat_ofNat_of_lt' (by omega), hkv]
  · exact hwhole

namespace CacheOf

variable (h : CacheOf m context sessions s)
include h

/-- The folded cache of a range wraps around. -/
lemma kv_eq_mod (first last : Nat) :
    (s.kv first last).toNat = kvUnit m context sessions * (last - first) % 2 ^ 64 := by
  rw [Sizes.kv, UInt64.toNat_mul, h.perLayer, UInt64.toNat_ofNat', Nat.mul_mod_mod]

lemma unit_lt : kvUnit m context sessions < 2 ^ 64 := h.perLayer ▸ s.kvPerLayer.toNat_lt

/-- The cache of a range that fits in 64 bits agrees. -/
lemma kv_eq_of_lt (hlt : kvUnit m context sessions * (last - first) < 2 ^ 64) :
    (s.kv first last).toNat = kvBytes m first last context sessions := by
  rw [h.kv_eq_mod, Nat.mod_eq_of_lt hlt, kvBytes_eq h.heads, if_pos]
  rw [maxU64]
  omega

/-- A cache of more than 64 bits is unknown to the scan. -/
lemma kvBytes_of_le (hle : 2 ^ 64 ≤ kvUnit m context sessions * (last - first)) :
    kvBytes m first last context sessions = 0 := by
  rw [kvBytes_eq h.heads, if_neg]
  rw [maxU64]
  omega

/-- A whole cache that `sizes_of` lets wrap around wraps around to zero. -/
lemma dvd_of_le (hle : 2 ^ 64 ≤ kvUnit m context sessions * m.layers.toNat) :
    kvUnit m context sessions * m.layers.toNat % 2 ^ 64 = 0 := by
  have hwhole := h.whole
  rw [h.kv_eq_mod, h.kvBytes_of_le (by simpa using hle), Nat.sub_zero] at hwhole
  exact hwhole.symm

end CacheOf

namespace SizesOf

/-- The cache of every range and every test agree exactly if `CacheFits` holds. -/
lemma cache_iff (h : SizesOf m context sessions s) (hcache : CacheOf m context sessions s)
    (hlayers : 1 < m.layers.toNat) :
    (∀ first last, first < last → last ≤ m.layers.toNat →
        (s.kv first last).toNat = kvBytes m first last context sessions ∧
          ∀ offeredMib, s.fits offeredMib first last ↔
            (stageFits m offeredMib first last context sessions).isSome) ↔
      CacheFits m context sessions := by
  have hrange : ∀ {first last}, first < last →
      kvUnit m context sessions * (last - first) < 2 ^ 64 →
      kvBytes m first last context sessions ≠ 0 := by
    intro first last hlast hlt
    rw [← hcache.kv_eq_of_lt hlt, hcache.kv_eq_mod, Nat.mod_eq_of_lt hlt]
    exact (Nat.mul_pos hcache.pos (Nat.sub_pos_of_lt hlast)).ne'
  have hunit := hcache.unit_lt
  have hbefore : kvUnit m context sessions * (m.layers.toNat - 1) + kvUnit m context sessions =
      kvUnit m context sessions * m.layers.toNat := by
    rw [← Nat.mul_succ]
    congr 1
    omega
  constructor
  · intro hall
    refine or_iff_not_imp_left.mpr fun hover => ?_
    have hle := Nat.not_lt.mp hover
    have hdvd := hcache.dvd_of_le hle
    refine ⟨?_, fun offeredMib => ?_⟩
    · -- all layers but one have a cache that passes 64 bits and does not wrap around to zero
      by_contra hne
      have hpart := (hall 0 (m.layers.toNat - 1) (by omega) (by omega)).1
      have hbig : 2 ^ 64 ≤ kvUnit m context sessions * (m.layers.toNat - 1) := by omega
      rw [hcache.kv_eq_mod, hcache.kvBytes_of_le (by simpa using hbig), Nat.sub_zero] at hpart
      have hpos := hcache.pos
      omega
    · have htest := (hall 0 m.layers.toNat (by omega) (Nat.le_refl _)).2 offeredMib
      obtain ⟨hmodel, hmodelNe⟩ := h.model_eq (by omega : 0 < m.layers.toNat) (Nat.le_refl _)
      rw [stageFits_isSome_iff, hcache.kvBytes_of_le (by simpa using hle),
        Sizes.fits_iff (hmodel ▸ hmodelNe), hmodel, hcache.kv_eq_mod, Nat.sub_zero, hdvd] at htest
      simpa using htest
  · intro hfits first last hlast hle
    have hmul : kvUnit m context sessions * (last - first) ≤
        kvUnit m context sessions * m.layers.toNat := Nat.mul_le_mul_left _ (by omega)
    by_cases hlt : kvUnit m context sessions * (last - first) < 2 ^ 64
    · exact ⟨hcache.kv_eq_of_lt hlt, fun offeredMib =>
        h.fits_iff hlast hle (hcache.kv_eq_of_lt hlt) (hrange hlast hlt)⟩
    · -- the range is the whole model, whose cache is exactly one past 64 bits
      obtain ⟨hexact, hheavy⟩ := hfits.resolve_left (by omega)
      have hall : last - first = m.layers.toNat := by
        by_contra hne
        have hshort : kvUnit m context sessions * (last - first) ≤
            kvUnit m context sessions * (m.layers.toNat - 1) := Nat.mul_le_mul_left _ (by omega)
        have hpos := hcache.pos
        omega
      obtain ⟨rfl, rfl⟩ : first = 0 ∧ last = m.layers.toNat := by omega
      have hzero : kvBytes m 0 m.layers.toNat context sessions = 0 :=
        hcache.kvBytes_of_le (by omega)
      have hfold : (s.kv 0 m.layers.toNat).toNat = 0 := by
        rw [hcache.kv_eq_mod, Nat.sub_zero, hexact]
        rfl
      refine ⟨hfold.trans hzero.symm, fun offeredMib => ?_⟩
      obtain ⟨hmodel, hmodelNe⟩ := h.model_eq hlast (Nat.le_refl _)
      rw [stageFits_isSome_iff, hzero, Sizes.fits_iff (hmodel ▸ hmodelNe), hmodel, hfold]
      have := hheavy offeredMib
      simp only [ne_eq, not_true_eq_false, false_and, and_false, iff_false]
      omega

end SizesOf

/-! ### All sizes -/

/-- The folded sizes and the folded test are the scanned ones, for every range of layers and every
offer. -/
def Sizes.Agrees (s : Sizes) (m : ModelIndex) (context sessions : UInt32) : Prop :=
  ∀ first last, first < last → last ≤ m.layers.toNat →
    (s.model first last).toNat = stageModelBytes m first last ∧
    (s.decode first last).toNat = decodeBytes m first last ∧
    (s.kv first last).toNat = kvBytes m first last context sessions ∧
    ∀ offeredMib, s.fits offeredMib first last ↔
      (stageFits m offeredMib first last context sessions).isSome

lemma embeddingSizes_ne_nil (h : hasTensor m "token_embd.weight".toList) :
    embeddingSizes m ≠ [] := by
  obtain ⟨t, ht, hname⟩ := List.any_eq_true.mp h
  have hmem : t ∈ m.tensors.filter ModelTensor.isEmbedding := List.mem_filter.mpr ⟨ht, hname⟩
  intro hnil
  rw [embeddingSizes, List.map_eq_nil_iff] at hnil
  rw [hnil] at hmem
  exact List.not_mem_nil hmem

/-- A model that can be staged has a token embedding. -/
lemma hasTensor_embedding (h : compatible m) : hasTensor m "token_embd.weight".toList := by
  rw [compatible, compatibleStageModel] at h
  split_ifs at h with hqwen2 holmoe hqwen3moe
  · unfold compatibleQwen2 at h
    obtain ⟨hhas, -⟩ := isOk_unless (isOk_if (isOk_unless h).2)
    exact (Bool.and_eq_true_iff.mp hhas).1
  · unfold compatibleOlmoe at h
    have hnames := (isOk_bind (isOk_if (isOk_if (isOk_if (isOk_if (isOk_unless h).2))))).1
    have hfirst := (isOk_bind hnames).1
    by_contra hno
    beta_reduce at hfirst
    rw [if_neg hno] at hfirst
    exact Bool.false_ne_true hfirst
  · unfold compatibleQwen3moe at h
    obtain ⟨hhas, -⟩ :=
      isOk_unless (isOk_if (isOk_if (isOk_if (isOk_if (isOk_if (isOk_unless h).2)))))
    exact (Bool.and_eq_true_iff.mp hhas).1
  · exact absurd h Bool.false_ne_true
  · exact absurd h Bool.false_ne_true

/-- Where `sizes_of` returns sizes of a model that can be staged, they are those of the scan exactly
if it has one embedding with bytes and its whole cache fits in 64 bits. -/
theorem folded_agrees_iff (hcompatible : compatible m) (h : sizesOf m context sessions = some s) :
    s.Agrees m context sessions ↔ EmbeddingOnce m ∧ CacheFits m context sessions := by
  have hlayers := one_lt_layers hcompatible
  have hsizes := sizesOf_spec hlayers h
  have hdecode := hsizes.decode_iff (embedding_eq hlayers h)
    (embeddingSizes_ne_nil (hasTensor_embedding hcompatible)) (by omega)
  rw [← hdecode, ← hsizes.cache_iff (sizesOf_cache h) hlayers]
  constructor
  · intro hagrees
    refine ⟨fun first last hlast hle => (hagrees first last hlast hle).2.1,
      fun first last hlast hle => (hagrees first last hlast hle).2.2⟩
  · rintro ⟨hdecodes, hcaches⟩ first last hlast hle
    exact ⟨(hsizes.model_eq hlast hle).1, hdecodes first last hlast hle,
      hcaches first last hlast hle⟩

theorem folded_agrees_tiny :
    ∃ s, compatible Request.tinyModel ∧ sizesOf Request.tinyModel 256 1 = some s ∧
      s.Agrees Request.tinyModel 256 1 := by
  have hcompatible : compatible Request.tinyModel := by decide +kernel
  have hsome : (sizesOf Request.tinyModel 256 1).isSome := by decide +kernel
  have hsizes : sizesOf Request.tinyModel 256 1 =
      some ((sizesOf Request.tinyModel 256 1).get hsome) :=
    (Option.some_get hsome).symm
  refine ⟨_, hcompatible, hsizes, (folded_agrees_iff hcompatible hsizes).mpr ⟨.inl ?_, .inl ?_⟩⟩
  · decide +kernel
  · decide +kernel

/-- A model whose file names two tensors `token_embd.weight`. -/
def twiceEmbedded : ModelIndex :=
  { Request.tinyModel with
    tensors := ⟨"token_embd.weight".toList, 200, [], 0⟩ :: Request.tinyModel.tensors }

/-- A model whose KV cache for one session of `2 ^ 31` positions is `2 ^ 63` bytes a layer. -/
def hugeHeads : ModelIndex :=
  { Request.tinyModel with
    hidden := 65536
    heads := 65536
    kvHeads := 65536
    headDimK := 16384
    headDimV := 16384 }

/-- The first stage of the one model has other decode bytes; the whole of the other fits a worker of
4 GiB by the folded test, and none by the scan. -/
theorem folded_not_agrees :
    (∃ s, compatible twiceEmbedded ∧ sizesOf twiceEmbedded 256 1 = some s ∧
      (s.decode 0 1).toNat = 1500 ∧ decodeBytes twiceEmbedded 0 1 = 1300) ∧
    (∃ s, compatible hugeHeads ∧ sizesOf hugeHeads (2 ^ 31) 1 = some s ∧
      s.fits 4096 0 2 ∧ ¬ (stageFits hugeHeads 4096 0 2 (2 ^ 31) 1).isSome) := by
  have hsome : (sizesOf twiceEmbedded 256 1).isSome := by decide +kernel
  have hsomeHuge : (sizesOf hugeHeads (2 ^ 31) 1).isSome := by decide +kernel
  refine ⟨⟨(sizesOf twiceEmbedded 256 1).get hsome, ?_, (Option.some_get hsome).symm, ?_⟩,
    ⟨(sizesOf hugeHeads (2 ^ 31) 1).get hsomeHuge, ?_, (Option.some_get hsomeHuge).symm, ?_⟩⟩
  · decide +kernel
  · decide +kernel +revert
  · decide +kernel
  · decide +kernel +revert

end ProviderOwned.Planner
