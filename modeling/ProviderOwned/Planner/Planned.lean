import ProviderOwned.Planner.Prepare

/-!
# What a run has to download

The header and the plan of a request, as they follow from the file on the server alone
(`World.plan`), and what the plan is like: its pieces are in order, disjoint and inside of the file,
and all its numbers are 64-bit (`World.plan_sound`).
-/

namespace ProviderOwned.Gguf

open Spans
open Sha256 (sha256)

/-- The header of a file that is fetched piece by piece, with the bytes that were transferred. -/
def headerPieces (file : List UInt8) :
    Nat → Nat → UInt64 → List Char → List UInt8 → Nat → Except String (Index × Nat)
  | 0, _, _, _, _, _ => .error "GGUF metadata exceeds range parser limit"
  | left + 1, offset, logicalSize, architecture, metadata, transferred =>
    let wanted := wantedSize logicalSize offset
    if wanted = 0 then .error ""
    else if file.length < offset + wanted then .error "range download failed"
    else
      let metadata := metadata ++ slice file ⟨offset, wanted⟩
      match parseIndexInto architecture metadata (.ofNat file.length) with
      | .ok index => .ok (index, transferred + wanted)
      | .error (.invalid error) => .error error
      | .error .incomplete =>
        headerPieces file left (offset + metadataChunk) (.ofNat file.length)
          (architectureLeft architecture metadata) metadata (transferred + wanted)

def headerOf (file : List UInt8) : Except String (Index × Nat) :=
  headerPieces file (maxMetadata / metadataChunk) 0 0 [] [] 0

/-- What a run for a request has to download. -/
def World.plan (w : World) (r : RangeModelRequest) : Except String Plan := do
  let (index, transferred) ← headerOf (w.remote r.source)
  planOf r index (w.remote r.source).length transferred

/-- A plan that can be carried out on a file. -/
structure Plan.Sound (plan : Plan) (file : List UInt8) : Prop where
  logicalBytes : plan.logicalBytes = file.length
  headerBytes : plan.headerBytes ≤ file.length
  transferred : plan.transferred ≤ maxMetadata
  tensorsPresent : plan.tensorsPresent ≤ file.length
  sharedBytes : plan.sharedBytes ≤ file.length
  nonempty : plan.pieces ≠ []
  ordered : Ordered plan.pieces
  inside : ∀ piece ∈ plan.pieces, piece.finish ≤ file.length

/-! ### The header -/

variable {file : List UInt8} {r q : RangeModelRequest} {plan : Plan} {index : Index} {w : World}

lemma wantedSize_le (logicalSize : UInt64) (offset : Nat) :
    wantedSize logicalSize offset ≤ metadataChunk := by
  unfold wantedSize
  split_ifs
  · exact Nat.le_refl _
  · exact Nat.min_le_left _ _

lemma fetchRange_eq {offset size : Nat} (hsize : size ≠ 0) (h : offset + size ≤ file.length) :
    fetchRange file offset size = some (slice file ⟨offset, size⟩) := by
  rw [fetchRange, if_neg (by omega)]
  rfl

/-- The pieces find what `inspect_range_model` finds, and are not more than the limit. -/
lemma inspectLoop_of_headerPieces {left offset transferred t : Nat} {logicalSize : UInt64}
    {architecture : List Char} {metadata : List UInt8}
    (hleft : offset + left * metadataChunk ≤ maxMetadata) (htransferred : transferred ≤ offset)
    (h : headerPieces file left offset logicalSize architecture metadata transferred =
      .ok (index, t)) :
    inspectLoop file offset logicalSize architecture metadata = .ok index ∧ t ≤ maxMetadata := by
  induction left generalizing offset transferred logicalSize architecture metadata with
  | zero => cases h
  | succ left ih =>
    have hchunk : 0 < metadataChunk := by decide
    have hwanted := wantedSize_le logicalSize offset
    rw [Nat.succ_mul] at hleft
    unfold headerPieces at h
    dsimp only at h
    rw [inspectLoop, if_pos (by omega)]
    split_ifs at h with hzero hshort
    rw [if_neg hzero, fetchRange_eq hzero (Nat.not_lt.mp hshort)]
    dsimp only
    cases hparse : parseIndexInto architecture
        (metadata ++ slice file ⟨offset, wantedSize logicalSize offset⟩) (.ofNat file.length) with
    | ok found =>
      rw [hparse] at h
      cases h
      exact ⟨rfl, by omega⟩
    | error stop =>
      rw [hparse] at h
      cases stop with
      | invalid error => cases h
      | incomplete => exact ih (by omega) (by omega) h

lemma parseIndex_logicalSize {bytes : List UInt8} {logicalSize : UInt64}
    (h : parseIndex bytes logicalSize = .ok index) : index.logicalSize = logicalSize.toNat := by
  rw [parseIndex_eq, parseIndexInto] at h
  obtain ⟨⟨⟨metadata, tensors⟩, rest⟩, -, h⟩ := ok_bind h
  unfold finishIndex at h
  dsimp only at h
  split_ifs at h
  cases h
  rfl

/-- The header is that of the whole file. -/
lemma headerOf_sound {t : Nat} (hsize : file.length < 2 ^ 64) (h : headerOf file = .ok (index, t)) :
    index.Sound ∧ index.logicalSize = file.length ∧ t ≤ maxMetadata := by
  obtain ⟨hinspect, ht⟩ := inspectLoop_of_headerPieces (by decide) (Nat.le_refl 0) h
  have hlength : metadataChunk ≤ file.length := by
    by_contra hshort
    have hfirst : headerOf file = .error "range download failed" := by
      have hpieces : maxMetadata / metadataChunk = 63 + 1 := by decide
      rw [headerOf, hpieces, headerPieces]
      dsimp only
      rw [if_neg (by decide), if_pos]
      have hwanted : wantedSize 0 0 = metadataChunk := rfl
      omega
    rw [hfirst] at h
    cases h
  have hanswers := inspectLoop_answers hlength hsize (fetched_nothing file)
  rw [hinspect] at hanswers
  cases hparsed : parseIndex (file.take maxMetadata) (.ofNat file.length) with
  | error stop =>
    rw [hparsed] at hanswers
    cases stop with
    | incomplete =>
      obtain ⟨error, herror⟩ := hanswers
      cases herror
    | invalid error => cases hanswers
  | ok found =>
    rw [hparsed] at hanswers
    cases hanswers
    refine ⟨parseIndex_sound hparsed, ?_, ht⟩
    rw [parseIndex_logicalSize hparsed, UInt64.toNat_ofNat_of_lt' hsize]

/-! ### The plan -/

lemma length_le_total {l : List Span} (h : Ordered l) : l.length ≤ total l := by
  induction l with
  | nil => exact Nat.le_refl 0
  | cons s l ih =>
    obtain ⟨-, hsize, hl⟩ := ordered_cons.mp h
    have hrest := ih hl
    rw [List.length_cons, total_cons]
    omega

/-- Where all positions are below a bound, so are the ends of the spans. -/
lemma finish_le_of_covers {l : List Span} {bound : Nat} (h : Ordered l)
    (hcovers : ∀ x, Covers l x → x < bound) :
    ∀ s ∈ l, s.finish ≤ bound := by
  intro s hs
  have hsize := h.2 s hs
  have hlast :=
    hcovers (s.finish - 1) ⟨s, hs, by rw [Span.finish]; omega, by rw [Span.finish]; omega⟩
  omega

/-- The ranges of a stage are apart and inside of the file, and its tensors are no more than its
bytes. -/
lemma requiredRanges_bounds (h : index.Sound) (first last : Nat) :
    Apart (requiredRanges index first last).ranges ∧
    Covers (requiredRanges index first last).ranges 0 ∧
      (∀ s ∈ (requiredRanges index first last).ranges, s.finish ≤ index.logicalSize) ∧
      (requiredRanges index first last).tensorCount ≤ index.logicalSize ∧
      (requiredRanges index first last).sharedBytes ≤ index.logicalSize := by
  obtain ⟨keep, hkeep⟩ : ∃ keep, keep = fun p : Tensor × Span =>
    Planner.ownedTensor p.1.name first last index.blockCount index.outputPresent := ⟨_, rfl⟩
  have hrequired : requiredRanges index first last =
      ⟨coalesce ⟨0, index.dataOffset⟩ ((index.placed.filter keep).map Prod.snd),
        (index.placed.filter keep).length, (((index.placed.filter keep).filter fun p =>
          p.1.name = "token_embd.weight".toList && first ≠ 0).map (·.2.size)).sum⟩ := by
    rw [hkeep]
    rfl
  have hordered := h.ordered keep
  have hin : ∀ s ∈ (⟨0, index.dataOffset⟩ : Span) :: (index.placed.filter keep).map Prod.snd,
      0 ≤ s.start ∧ s.finish ≤ index.logicalSize := by
    refine List.forall_mem_cons.mpr ⟨⟨Nat.zero_le _, ?_⟩, fun s hs => ⟨Nat.zero_le _, ?_⟩⟩
    · rw [Span.finish, Nat.zero_add]
      exact Nat.le_of_lt h.dataOffset_lt
    · obtain ⟨p, hp, rfl⟩ := List.mem_map.mp hs
      exact h.finish_le p (List.mem_filter.mp hp).1
  have htotal := hordered.total_le (Nat.zero_le _) hin
  have howned := (ordered_cons.mp hordered).2.2
  rw [total_cons, Nat.sub_zero] at htotal
  rw [hrequired]
  have hapart := apart_coalesce hordered
  refine ⟨hapart, ?_, finish_le_of_covers hapart.ordered fun x hx => ?_, ?_, ?_⟩
  · refine covers_coalesce.mpr (covers_cons.mpr (.inl ⟨Nat.le_refl 0, ?_⟩))
    rw [Span.finish, Nat.zero_add]
    exact h.dataOffset_pos
  · obtain ⟨s, hs, -, hlt⟩ := covers_coalesce.mp hx
    exact hlt.trans_le (hin s hs).2
  · have hlength := length_le_total howned
    rw [List.length_map] at hlength
    dsimp only at hlength ⊢
    omega
  · have hshared : (((index.placed.filter keep).filter fun p =>
        p.1.name = "token_embd.weight".toList && first ≠ 0).map (·.2.size)).sum ≤
          total ((index.placed.filter keep).map Prod.snd) := by
      rw [total, List.map_map]
      exact (List.filter_sublist.map _).sum_le_sum fun _ _ => Nat.zero_le _
    dsimp only at hshared ⊢
    omega

/-- A plan is sound for the file whose header it was made from. -/
theorem World.plan_sound (h : w.plan r = .ok plan) : plan.Sound (w.remote r.source) := by
  have hlimit : 0 < downloadChunk := by decide
  unfold World.plan at h
  obtain ⟨⟨index, transferred⟩, hheader, h⟩ : ∃ header, headerOf (w.remote r.source) = .ok header ∧
      planOf r header.1 (w.remote r.source).length header.2 = .ok plan := by
    cases hheader : headerOf (w.remote r.source) with
    | error error =>
      rw [hheader] at h
      cases h
    | ok header =>
      rw [hheader] at h
      exact ⟨header, rfl, h⟩
  obtain ⟨hindex, hsize, htransferred⟩ :=
    headerOf_sound ((w.remote_lt r.source).trans (by decide)) hheader
  obtain ⟨hapart, hzero, hinside, htensors, hshared⟩ :=
    requiredRanges_bounds hindex r.stageStart.toNat r.stageEnd.toNat
  have hdata := hindex.dataOffset_lt
  unfold planOf at h
  dsimp only at h
  split_ifs at h
  cases h
  rw [hsize] at hinside htensors hshared hdata
  refine ⟨rfl, Nat.le_of_lt hdata, htransferred, htensors, hshared, fun hnil => ?_,
    ordered_flatMap_chunks hlimit hapart.ordered, fun piece hpiece => ?_⟩
  · have hcovers : Covers (boundedRanges _) 0 := (covers_flatMap_chunks hlimit).mpr hzero
    dsimp only at hnil
    rw [hnil] at hcovers
    exact not_covers_nil hcovers
  · obtain ⟨s, hs, hpiece⟩ := List.mem_flatMap.mp hpiece
    exact ((chunks_cuts hlimit s).inside piece hpiece).2.trans (hinside s hs)

/-- The plan is of the file and the layers alone. -/
lemma World.plan_congr (h : r.key = q.key) : w.plan r = w.plan q := by
  obtain ⟨hsource, hlayers⟩ := Prod.mk.inj h
  obtain ⟨hstart, hend⟩ := Prod.mk.inj hlayers
  unfold World.plan planOf
  rw [hsource, hstart, hend]

end ProviderOwned.Gguf
