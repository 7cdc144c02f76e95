import ProviderOwned.Lib.Spans
import ProviderOwned.Planner.Folding
import ProviderOwned.Planner.Gguf

/-!
# What a stage downloads

`required_ranges` and `bounded_ranges` of `range_model.cpp` against the planner's count of the same
stage. Both ask `owned_tensor`, but about another number of layers: the loader takes it from the
names of the tensors, the planner from the metadata.
-/

namespace ProviderOwned.Gguf

open Planner (ModelIndex ModelTensor blockLayer fromChars ownedTensor ownedBytes stageModelBytes
  compatible InRange layerPrefix hasTensor maxU64 fromChars_bounds fromChars_toDigits)
open Spans

def downloadChunk : Nat := 256 * 1024 * 1024

namespace Index

/-- The layers of `required_ranges` and `prepare_range_model`: one more than the highest a tensor
names. -/
def blockCount (index : Index) : Nat :=
  index.tensors.foldl (fun layers t =>
    match blockLayer t.name with
    | some layer => max layers (layer + 1).toNat
    | none => layers) 0

/-- Whether the file has an output head of its own. -/
def outputPresent (index : Index) : Bool := index.tensors.any (·.name = "output.weight".toList)

end Index

/-- Each tensor with its bytes in the file: up to the next one, or the end. -/
def placed (dataOffset logicalSize : Nat) : List Tensor → List (Tensor × Span)
  | [] => []
  | [a] => [(a, ⟨dataOffset + a.offset, logicalSize - (dataOffset + a.offset)⟩)]
  | a :: b :: rest =>
    (a, ⟨dataOffset + a.offset, dataOffset + b.offset - (dataOffset + a.offset)⟩) ::
      placed dataOffset logicalSize (b :: rest)

/-- The tensors of the file with their bytes. -/
def Index.placed (index : Index) : List (Tensor × Span) :=
  Gguf.placed index.dataOffset index.logicalSize index.tensors

/-- What `required_ranges` returns: the ranges, and how many tensors and shared bytes are in
them. -/
structure Required where
  ranges : List Span
  tensorCount : Nat
  sharedBytes : Nat
  deriving DecidableEq, Repr

def requiredRanges (index : Index) (first last : Nat) : Required :=
  let owned := index.placed.filter fun (t, _) =>
    ownedTensor t.name first last index.blockCount index.outputPresent
  { ranges := coalesce ⟨0, index.dataOffset⟩ (owned.map Prod.snd)
    tensorCount := owned.length
    sharedBytes :=
      ((owned.filter fun (t, _) => t.name = "token_embd.weight".toList && first ≠ 0).map
      (·.2.size)).sum }

def boundedRanges (ranges : List Span) : List Span := ranges.flatMap (chunks downloadChunk)

/-- The tensors the planner assigns to the stage with the layers `[first, last)`. -/
def assigned (m : ModelIndex) (first last : Nat) (t : Tensor) : Bool :=
  ownedTensor t.name first last m.layers.toNat m.outputPresent

/-- The loader's ranges of a stage are what the planner counted. -/
structure Serves (index : Index) (m : ModelIndex) (first last : Nat) : Prop where
  /-- The planner and the loader go by the same number of layers. -/
  layers : index.blockCount = m.layers.toNat
  /-- The ranges are sorted, disjoint and not adjacent. -/
  apart : Apart (requiredRanges index first last).ranges
  /-- They are the header and the planner's tensors. -/
  covers : ∀ x, Covers (requiredRanges index first last).ranges x ↔
    x < index.dataOffset ∨ ∃ p ∈ index.placed, assigned m first last p.1 ∧
      p.2.start ≤ x ∧ x < p.2.finish
  /-- They have the bytes the planner counted. -/
  total : total (requiredRanges index first last).ranges = stageModelBytes m first last
  /-- Each piece to download is part of one range and no longer than the limit. -/
  limited : ∀ p ∈ boundedRanges (requiredRanges index first last).ranges, p.size ≤ downloadChunk ∧
    ∃ r ∈ (requiredRanges index first last).ranges, r.start ≤ p.start ∧ p.finish ≤ r.finish
  /-- The pieces are in order and disjoint. -/
  ordered : Ordered (boundedRanges (requiredRanges index first last).ranges)
  /-- The pieces make up the ranges. -/
  pieces : ∀ x, Covers (boundedRanges (requiredRanges index first last).ranges) x ↔
    Covers (requiredRanges index first last).ranges x

/-! ### The tensors in the file -/

variable {index : Index} {m : ModelIndex} {first last : Nat}

lemma placed_map_fst (dataOffset logicalSize : Nat) (tensors : List Tensor) :
    (placed dataOffset logicalSize tensors).map Prod.fst = tensors := by
  induction tensors with
  | nil => rfl
  | cons a rest ih =>
    cases rest with
    | nil => rfl
    | cons b rest => rw [placed, List.map_cons, ih]

/-- The tensors' bytes are in order and disjoint, between the header and the end of the file. -/
lemma placed_ordered {dataOffset logicalSize : Nat} {tensors : List Tensor}
    (hdata : dataOffset ≤ logicalSize) (h : offsetsValid (logicalSize - dataOffset) tensors) :
    Ordered ((placed dataOffset logicalSize tensors).map Prod.snd) ∧
      ∀ p ∈ placed dataOffset logicalSize tensors,
        dataOffset + (tensors.head?.map Tensor.offset).getD 0 ≤ p.2.start ∧
          p.2.finish ≤ logicalSize := by
  induction tensors with
  | nil => exact ⟨ordered_nil, fun p hp => absurd hp List.not_mem_nil⟩
  | cons a rest ih =>
    cases rest with
    | nil =>
      have hlt : a.offset < logicalSize - dataOffset := by simpa [offsetsValid] using h
      constructor
      · refine ordered_cons.mpr ⟨fun t ht => absurd ht List.not_mem_nil, ?_, ordered_nil⟩
        dsimp only
        omega
      · intro p hp
        obtain rfl := List.mem_singleton.mp hp
        simp only [List.head?_cons, Option.map_some, Option.getD_some, Span.finish]
        omega
    | cons b rest =>
      simp only [offsetsValid, Bool.and_eq_true, decide_eq_true_eq] at h
      obtain ⟨⟨hlt, hnext⟩, hrest⟩ := h
      obtain ⟨hordered, hin⟩ := ih hrest
      simp only [List.head?_cons, Option.map_some, Option.getD_some] at hin ⊢
      rw [placed]
      constructor
      · refine ordered_cons.mpr ⟨fun t ht => ?_, ?_, hordered⟩
        · obtain ⟨p, hp, rfl⟩ := List.mem_map.mp ht
          have hstart := (hin p hp).1
          simp only [Span.finish]
          omega
        · dsimp only
          omega
      · refine List.forall_mem_cons.mpr ⟨?_, fun p hp => ?_⟩
        · have hb : dataOffset + b.offset < logicalSize := by
            cases rest with
            | nil =>
              have : b.offset < logicalSize - dataOffset := by simpa [offsetsValid] using hrest
              omega
            | cons c rest =>
              simp only [offsetsValid, Bool.and_eq_true, decide_eq_true_eq] at hrest
              omega
          simp only [Span.finish]
          omega
        · have hp' := hin p hp
          exact ⟨by omega, hp'.2⟩

/-- The planner's tensor of a tensor in the file. -/
def toModel (p : Tensor × Span) : ModelTensor :=
  ⟨p.1.name, .ofNat p.2.size, p.1.dimensions.map UInt64.ofNat, .ofNat p.1.type⟩

lemma fillTensors_eq (dataOffset logicalSize : Nat) (tensors : List Tensor) :
    List.zipWith (fun t size =>
        (⟨t.name, .ofNat size, t.dimensions.map UInt64.ofNat, .ofNat t.type⟩ : ModelTensor))
      tensors (tensorSizes (logicalSize - dataOffset) tensors) =
    (placed dataOffset logicalSize tensors).map toModel := by
  induction tensors with
  | nil => rfl
  | cons a rest ih =>
    cases rest with
    | nil =>
      rw [tensorSizes, placed]
      simp only [List.zipWith_cons_cons, List.zipWith_nil_left, List.map_cons, List.map_nil,
        toModel]
      rw [Nat.sub_sub]
    | cons b rest =>
      rw [tensorSizes, placed, List.zipWith_cons_cons, ih, List.map_cons, toModel]
      congr 2
      rw [Nat.add_sub_add_left]

/-- What the planner's index is of. -/
structure FilledFrom (m : ModelIndex) (index : Index) : Prop where
  tensors : m.tensors = index.placed.map toModel
  header : m.headerBytes = .ofNat index.dataOffset

lemma fillModelIndex_spec (h : fillModelIndex index = .ok m) : FilledFrom m index := by
  rw [fillModelIndex] at h
  split_ifs at h
  cases h
  exact ⟨fillTensors_eq _ _ _, rfl⟩

namespace FilledFrom

variable (hm : FilledFrom m index)
include hm

lemma mem_tensors_iff {name : List Char} :
    (∃ t ∈ m.tensors, t.name = name) ↔ ∃ t ∈ index.tensors, t.name = name := by
  rw [hm.tensors, ← placed_map_fst index.dataOffset index.logicalSize index.tensors]
  constructor
  · rintro ⟨t, ht, rfl⟩
    obtain ⟨p, hp, rfl⟩ := List.mem_map.mp ht
    exact ⟨p.1, List.mem_map_of_mem hp, rfl⟩
  · rintro ⟨t, ht, rfl⟩
    obtain ⟨p, hp, rfl⟩ := List.mem_map.mp ht
    exact ⟨toModel p, List.mem_map_of_mem hp, rfl⟩

lemma outputPresent_eq : m.outputPresent = index.outputPresent := by
  have hiff := @mem_tensors_iff index m hm "output.weight".toList
  rw [Bool.eq_iff_iff, ModelIndex.outputPresent, Index.outputPresent, List.any_eq_true,
    List.any_eq_true]
  simpa only [decide_eq_true_eq] using hiff

/-- Where the layer counts agree the loader's tensors are the planner's. -/
lemma owned_eq (hlayers : index.blockCount = m.layers.toNat) (t : Tensor) :
    ownedTensor t.name first last index.blockCount index.outputPresent =
      assigned m first last t := by
  rw [assigned, hlayers, hm.outputPresent_eq]

/-- The bytes of a stage's tensors are those the planner counts. -/
lemma ownedBytes_eq (hin : ∀ p ∈ index.placed, p.2.size < 2 ^ 64) :
    ownedBytes m first last =
      total ((index.placed.filter fun p => assigned m first last p.1).map Prod.snd) := by
  rw [ownedBytes, hm.tensors, List.filter_map, List.map_map, total, List.map_map]
  refine congrArg List.sum (List.map_congr_left fun p hp => ?_)
  exact UInt64.toNat_ofNat_of_lt' (hin p (List.mem_filter.mp hp).1)

end FilledFrom

namespace Index.Sound

variable (h : index.Sound)
include h

/-- Header and tensors are in order and disjoint, inside the file. -/
lemma ordered (keep : Tensor × Span → Bool) :
    Ordered (⟨0, index.dataOffset⟩ :: (index.placed.filter keep).map Prod.snd) := by
  obtain ⟨hordered, hin⟩ := placed_ordered (Nat.le_of_lt h.dataOffset_lt) h.offsets
  refine ordered_cons.mpr ⟨fun t ht => ?_, h.dataOffset_pos, ?_⟩
  · obtain ⟨p, hp, rfl⟩ := List.mem_map.mp ht
    have hstart := (hin p (List.mem_filter.mp hp).1).1
    simp only [Span.finish]
    omega
  · exact hordered.sublist (List.filter_sublist.map _)

lemma finish_le : ∀ p ∈ index.placed, p.2.finish ≤ index.logicalSize := fun p hp =>
  ((placed_ordered (Nat.le_of_lt h.dataOffset_lt) h.offsets).2 p hp).2

lemma size_lt : ∀ p ∈ index.placed, p.2.size < 2 ^ 64 := by
  intro p hp
  have hfinish := h.finish_le p hp
  have hsize := h.logicalSize_lt
  simp only [Span.finish] at hfinish
  omega

/-- Where the layer counts agree, the loader's ranges are what the planner counted. -/
lemma serves (hm : FilledFrom m index) (hlayers : index.blockCount = m.layers.toNat)
    (hrange : InRange m first last) : Serves index m first last := by
  have hlimit : 0 < downloadChunk := by decide
  have hkeep : (fun p : Tensor × Span =>
      ownedTensor p.1.name first last index.blockCount index.outputPresent) =
      fun p => assigned m first last p.1 := funext fun p => hm.owned_eq hlayers p.1
  have hranges : (requiredRanges index first last).ranges = coalesce ⟨0, index.dataOffset⟩
      ((index.placed.filter fun p => assigned m first last p.1).map Prod.snd) := by
    rw [← hkeep]
    rfl
  have hordered := h.ordered fun p => assigned m first last p.1
  have hbytes : ownedBytes m first last =
      Spans.total ((index.placed.filter fun p => assigned m first last p.1).map Prod.snd) :=
    hm.ownedBytes_eq h.size_lt
  have hapart : Apart (requiredRanges index first last).ranges := hranges ▸ apart_coalesce hordered
  constructor
  · exact hlayers
  · exact hapart
  · intro x
    rw [hranges, covers_coalesce, covers_cons]
    simp only [Span.finish, Nat.zero_le, true_and, Nat.zero_add]
    refine or_congr Iff.rfl ?_
    constructor
    · rintro ⟨s, hs, hx⟩
      obtain ⟨p, hp, rfl⟩ := List.mem_map.mp hs
      exact ⟨p, (List.mem_filter.mp hp).1, (List.mem_filter.mp hp).2, hx⟩
    · rintro ⟨p, hp, hassigned, hx⟩
      exact ⟨p.2, List.mem_map_of_mem (List.mem_filter.mpr ⟨hp, hassigned⟩), hx⟩
  · have htotal : Spans.total (⟨0, index.dataOffset⟩ ::
        (index.placed.filter fun p => assigned m first last p.1).map Prod.snd) ≤
        index.logicalSize - 0 := by
      refine hordered.total_le (Nat.zero_le _) (List.forall_mem_cons.mpr ⟨?_, fun s hs => ?_⟩)
      · have hlt := h.dataOffset_lt
        simp only [Span.finish]
        omega
      · obtain ⟨p, hp, rfl⟩ := List.mem_map.mp hs
        exact ⟨Nat.zero_le _, h.finish_le p (List.mem_filter.mp hp).1⟩
    have hsize := h.logicalSize_lt
    have hdata := h.dataOffset_lt
    have hword : UInt64.size = 2 ^ 64 := rfl
    rw [total_cons, ← hbytes] at htotal
    dsimp only at htotal
    rw [hranges, total_coalesce, total_cons, ← hbytes, Planner.stageModelBytes_eq hrange, hm.header,
      UInt64.toNat_ofNat_of_lt' (by omega), if_pos (by rw [maxU64]; omega)]
  · intro p hp
    obtain ⟨r, hr, hpr⟩ := List.mem_flatMap.mp hp
    exact ⟨(chunks_cuts hlimit r).limited p hpr, r, hr, (chunks_cuts hlimit r).inside p hpr⟩
  · exact ordered_flatMap_chunks hlimit hapart.ordered
  · exact fun x => covers_flatMap_chunks hlimit

end Index.Sound

/-! ### The layer counts -/

/-- A block number is an `int`. -/
lemma blockLayer_lt {name : List Char} {layer : Int} (h : blockLayer name = some layer) :
    layer < 2 ^ 31 := by
  rw [blockLayer] at h
  split_ifs at h
  dsimp only at h
  split_ifs at h
  exact (fromChars_bounds h).2

/-- The number of a layer in the name of its tensors is read back. -/
lemma blockLayer_layerPrefix {layer : Nat} (hlt : layer < 2 ^ 31) (rest : List Char) :
    blockLayer (layerPrefix layer ++ rest) = some (layer : Int) := by
  have hname : layerPrefix layer ++ rest =
      'b' :: 'l' :: 'k' :: '.' :: (Nat.toDigits 10 layer ++ '.' :: rest) := by
    rw [layerPrefix, List.append_assoc, List.append_assoc]
    rfl
  have hnumber : (Nat.toDigits 10 layer ++ '.' :: rest).takeWhile (· ≠ '.') =
      Nat.toDigits 10 layer := by
    rw [List.takeWhile_append_of_pos]
    · simp
    · intro c hc
      have hdigit : c.isDigit := Nat.isDigit_of_mem_toDigits (by decide) (by decide) hc
      refine decide_eq_true fun hdot => ?_
      rw [hdot] at hdigit
      exact absurd hdigit (by decide)
  have hdrop : ('b' :: 'l' :: 'k' :: '.' :: (Nat.toDigits 10 layer ++ '.' :: rest)).drop 4 =
      Nat.toDigits 10 layer ++ '.' :: rest := rfl
  rw [hname, blockLayer, if_pos (by rfl)]
  simp only [hdrop, hnumber]
  rw [if_neg (by simp), fromChars_toDigits hlt]

lemma isOk_forM {α : Type} {f : α → Except String Unit} {l : List α} (h : (l.forM f).isOk) :
    ∀ x ∈ l, (f x).isOk := by
  induction l with
  | nil => exact fun x hx => absurd hx List.not_mem_nil
  | cons a l ih =>
    obtain ⟨hfirst, hrest⟩ := Planner.isOk_bind h
    exact List.forall_mem_cons.mpr ⟨hfirst, ih hrest⟩

lemma hasTensor_layer {layer : Nat} (h : (Planner.checkLayerTensors m layer).isOk) :
    ∃ t ∈ m.tensors, ∃ rest, t.name = layerPrefix layer ++ rest := by
  have hcheck := isOk_forM h "attn_norm.weight" List.mem_cons_self
  have hname : hasTensor m (layerPrefix layer ++ "attn_norm.weight".toList) := by
    by_contra hno
    beta_reduce at hcheck
    rw [if_neg hno] at hcheck
    exact Bool.false_ne_true hcheck
  obtain ⟨t, ht, hname⟩ := List.any_eq_true.mp hname
  exact ⟨t, ht, _, of_decide_eq_true hname⟩

/-- Every layer of a model that can be staged has a tensor. -/
lemma layer_present (h : compatible m) {layer : Nat} (hlt : layer < m.layers.toNat) :
    ∃ t ∈ m.tensors, ∃ rest, t.name = layerPrefix layer ++ rest := by
  have hmem := List.mem_range.mpr hlt
  rw [compatible, Planner.compatibleStageModel] at h
  split_ifs at h with hqwen2 holmoe hqwen3moe
  · unfold Planner.compatibleQwen2 at h
    have hlayers := (Planner.isOk_unless (Planner.isOk_if (Planner.isOk_unless h).2)).2
    have hlayer := isOk_forM hlayers layer hmem
    beta_reduce at hlayer
    by_contra hno
    rw [if_neg] at hlayer
    · exact Bool.false_ne_true hlayer
    · intro hany
      obtain ⟨t, ht, hprefix⟩ := List.any_eq_true.mp hany
      obtain ⟨rest, hrest⟩ := List.isPrefixOf_iff_prefix.mp hprefix
      exact hno ⟨t, ht, rest, hrest.symm⟩
  · unfold Planner.compatibleOlmoe at h
    have hlayers := (Planner.isOk_bind (Planner.isOk_if (Planner.isOk_if (Planner.isOk_if
      (Planner.isOk_if (Planner.isOk_unless h).2))))).2
    exact hasTensor_layer (Planner.isOk_bind (isOk_forM hlayers layer hmem)).1
  · unfold Planner.compatibleQwen3moe at h
    have hlayers := (Planner.isOk_unless (Planner.isOk_if (Planner.isOk_if (Planner.isOk_if
      (Planner.isOk_if (Planner.isOk_if (Planner.isOk_unless h).2)))))).2
    exact hasTensor_layer (Planner.isOk_bind (isOk_forM hlayers layer hmem)).1
  · exact absurd h Bool.false_ne_true
  · exact absurd h Bool.false_ne_true

lemma blockCount_le_iff {n : Nat} :
    index.blockCount ≤ n ↔
      ∀ t ∈ index.tensors, ∀ layer, blockLayer t.name = some layer → (layer + 1).toNat ≤ n := by
  have hfold : ∀ (tensors : List Tensor) (layers : Nat),
      tensors.foldl (fun layers t =>
        match blockLayer t.name with
        | some layer => max layers (layer + 1).toNat
        | none => layers) layers ≤ n ↔
      layers ≤ n ∧ ∀ t ∈ tensors, ∀ layer, blockLayer t.name = some layer →
          (layer + 1).toNat ≤ n := by
    intro tensors
    induction tensors with
    | nil => simp
    | cons t tensors ih =>
      intro layers
      rw [List.foldl_cons, ih, List.forall_mem_cons, ← and_assoc]
      refine and_congr_left' ?_
      cases blockLayer t.name with
      | none => simp
      | some layer =>
        simp only [Nat.max_le, Option.some.injEq, forall_eq']
  rw [Index.blockCount, hfold]
  simp

/-- The layer counts agree exactly if no tensor names a layer past the block count of the
metadata. -/
lemma blockCount_eq_iff (hm : FilledFrom m index) (hcompatible : compatible m)
    (hint : m.layers.toNat < 2 ^ 31) :
    index.blockCount = m.layers.toNat ↔
      ∀ t ∈ index.tensors, ∀ layer, blockLayer t.name = some layer → layer < m.layers.toNat := by
  have hlayers := Planner.one_lt_layers hcompatible
  have hle : m.layers.toNat ≤ index.blockCount := by
    -- the last layer of the metadata has a tensor
    obtain ⟨t, ht, rest, hname⟩ := layer_present hcompatible (by omega : m.layers.toNat - 1 < _)
    obtain ⟨u, hu, huname⟩ := hm.mem_tensors_iff.mp ⟨t, ht, hname⟩
    have hread : blockLayer (layerPrefix (m.layers.toNat - 1) ++ rest) = some _ :=
      blockLayer_layerPrefix (by omega) rest
    have hcount := blockCount_le_iff.mp (Nat.le_refl index.blockCount) u hu _ (huname ▸ hread)
    omega
  have hiff : index.blockCount = m.layers.toNat ↔ index.blockCount ≤ m.layers.toNat :=
    ⟨Nat.le_of_eq, fun h => Nat.le_antisymm h hle⟩
  rw [hiff, blockCount_le_iff]
  refine forall_congr' fun t => forall_congr' fun _ => forall_congr' fun layer =>
    forall_congr' fun _ => ?_
  omega

/-- Every stage the planner can plan downloads what was counted for it exactly if no tensor of the
file names a layer past the block count of its metadata. -/
theorem serves_iff {bytes : List UInt8} {logicalSize : UInt64}
    (hparse : parseIndex bytes logicalSize = .ok index) (hfill : fillModelIndex index = .ok m)
    (hcompatible : compatible m) :
    (∀ first last, InRange m first last → Serves index m first last) ↔
      ∀ t ∈ index.tensors, ∀ layer, blockLayer t.name = some layer → layer < m.layers.toNat := by
  have hm := fillModelIndex_spec hfill
  have hlayers := Planner.one_lt_layers hcompatible
  constructor
  · intro hserves t ht layer hlayer
    by_contra hpast
    have hint : m.layers.toNat < 2 ^ 31 := by
      have hlt := blockLayer_lt hlayer
      omega
    have hcount := (hserves 0 m.layers.toNat ⟨by omega, Nat.le_refl _, hint⟩).layers
    exact hpast ((blockCount_eq_iff hm hcompatible hint).mp hcount t ht layer hlayer)
  · intro hnames first last hrange
    exact (parseIndex_sound hparse).serves hm
      ((blockCount_eq_iff hm hcompatible hrange.2.2).mpr hnames) hrange

/-! ### A two-layer file -/

/-- `value` in `width` bytes, the lowest first. -/
def little (width value : Nat) : List UInt8 :=
  (List.range width).map fun n => UInt8.ofNat (value / 256 ^ n)

def text (value : String) : List UInt8 :=
  little 8 value.length ++ value.toList.map fun c => UInt8.ofNat c.toNat

/-- The header of a two-layer qwen2 file with the tensors `names`, 64 bytes each. -/
def twoLayerHeader (names : List String) : List UInt8 :=
  little 4 0x46554747 ++ little 4 3 ++ little 8 names.length ++ little 8 5 ++
    text "general.architecture" ++ little 4 8 ++ text "qwen2" ++
    ([("qwen2.block_count", 2), ("qwen2.embedding_length", 64), ("qwen2.attention.head_count", 2),
        ("qwen2.attention.head_count_kv", 1)].flatMap fun (key, value) =>
      text key ++ little 4 4 ++ little 4 value) ++
    names.zipIdx.flatMap fun (name, n) =>
      text name ++ little 4 1 ++ little 8 16 ++ little 4 0 ++ little 8 (64 * n)

/-- The tensors of the two layers, the embedding and the norm of the output. -/
def twoLayerNames : List String :=
  ["token_embd.weight", "blk.0.attn_q.weight", "blk.1.attn_q.weight", "output_norm.weight"]

/-- An index and what the planner makes of it. -/
def indexOf (bytes : List UInt8) (logicalSize : UInt64) : Option (Index × ModelIndex) :=
  match parseIndex bytes logicalSize with
  | .ok index =>
    match fillModelIndex index with
    | .ok m => some (index, m)
    | .error _ => none
  | .error _ => none

lemma of_indexOf_any {bytes : List UInt8} {logicalSize : UInt64} {check : Index × ModelIndex → Bool}
    (h : (indexOf bytes logicalSize).any check) :
    ∃ index m, parseIndex bytes logicalSize = .ok index ∧ fillModelIndex index = .ok m ∧
      check (index, m) := by
  cases hparse : parseIndex bytes logicalSize with
  | error stop =>
    simp only [indexOf, hparse] at h
    cases h
  | ok index =>
    cases hfill : fillModelIndex index with
    | error message =>
      simp only [indexOf, hparse, hfill] at h
      cases h
    | ok m =>
      simp only [indexOf, hparse, hfill] at h
      exact ⟨index, m, rfl, hfill, h⟩

theorem serves_twoLayers :
    ∃ index m, parseIndex (twoLayerHeader twoLayerNames) 2048 = .ok index ∧
      fillModelIndex index = .ok m ∧ compatible m ∧ InRange m 1 2 ∧ Serves index m 1 2 := by
  have hcheck : (indexOf (twoLayerHeader twoLayerNames) 2048).any fun p =>
      compatible p.2 && p.2.layers = 2 && p.1.tensors.all fun t =>
        (blockLayer t.name).all fun layer => layer < (p.2.layers.toNat : Int) := by
    decide +kernel
  obtain ⟨index, m, hparse, hfill, hcheck⟩ := of_indexOf_any hcheck
  simp only [Bool.and_eq_true, decide_eq_true_eq, List.all_eq_true] at hcheck
  obtain ⟨⟨hcompatible, hlayers⟩, hnames⟩ := hcheck
  have hrange : InRange m 1 2 := ⟨by decide, by rw [hlayers]; decide, by rw [hlayers]; decide⟩
  refine ⟨index, m, hparse, hfill, hcompatible, hrange,
    (serves_iff hparse hfill hcompatible).mpr (fun t ht layer hlayer => ?_) 1 2 hrange⟩
  have hname := hnames t ht
  rw [hlayer, Option.all_some] at hname
  exact of_decide_eq_true hname

/-- A third block in the file, beside a block count of two: the last stage has no output norm. -/
theorem extraBlock_not_serves :
    ∃ index m, parseIndex (twoLayerHeader (twoLayerNames ++ ["blk.2.nextn.weight"])) 2048 =
      .ok index ∧
      fillModelIndex index = .ok m ∧ compatible m ∧ InRange m 1 2 ∧
      (requiredRanges index 1 2).ranges = [⟨0, 480⟩, ⟨608, 64⟩] ∧ stageModelBytes m 1 2 = 672 ∧
      ¬ Serves index m 1 2 := by
  have hcheck : (indexOf (twoLayerHeader (twoLayerNames ++ ["blk.2.nextn.weight"])) 2048).any
      fun p =>
      compatible p.2 && p.2.layers = 2 &&
        (requiredRanges p.1 1 2).ranges = [⟨0, 480⟩, ⟨608, 64⟩] && stageModelBytes p.2 1 2 =
            672 := by
    decide +kernel
  obtain ⟨index, m, hparse, hfill, hcheck⟩ := of_indexOf_any hcheck
  simp only [Bool.and_eq_true, decide_eq_true_eq] at hcheck
  obtain ⟨⟨⟨hcompatible, hlayers⟩, hranges⟩, hbytes⟩ := hcheck
  have hrange : InRange m 1 2 := ⟨by decide, by rw [hlayers]; decide, by rw [hlayers]; decide⟩
  refine ⟨index, m, hparse, hfill, hcompatible, hrange, hranges, hbytes, fun hserves => ?_⟩
  have htotal := hserves.total
  rw [hranges, hbytes] at htotal
  exact absurd htotal (by decide)

end ProviderOwned.Gguf
