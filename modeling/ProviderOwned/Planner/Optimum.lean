import Mathlib.Data.List.Rotate
import Mathlib.Tactic.Positivity
import ProviderOwned.Planner.Exhaustive

/-!
# When the search has found the best plan

A search that calls itself complete has tried every order of every group, but for those its two
bounds leave out: the least time of all weights at the group's fastest speed, with half the round
trips of its members where none of them has measured links, and the time of an order's links alone.
With exact numbers and no negative round trips both are below the time of every plan they stand for,
so what is left out is no better than the best plan at that moment, and the best plan only gets
better (`accounts_unbeaten`).

The memory bound is the exception: it takes 15% of an offer where the rule for a stage rounds it
down, so it can leave out a group that has just enough, and with it the best plan (`search_misses`).
Where what it leaves out is no better than what it lets through (`Harmless`), a complete search has
found the best plan, and only there, but for the tolerance of two plans that are compared
(`unbeaten_of_complete`).
-/

namespace ProviderOwned.Planner

open Arithmetic

variable {m : ModelIndex} {s : Sizes} {exacts : List (SearchCandidate ℚ)} {r : SearchRequest ℚ}
  {order group : List Nat} {plan : List StageAssignment} {provider first last a b : Nat} {x : ℚ}

/-! ### Compute times -/

/-- The time of a plan's stages. -/
def computeAt (s : Sizes) (exacts : List (SearchCandidate ℚ)) (plan : List StageAssignment) : ℚ :=
  (plan.map (stageMs s exacts)).sum

lemma totalMs_exact : totalMs s (exact exacts) plan = .finite (computeAt s exacts plan) := by
  have hsum : ∀ x : ℚ, plan.foldl (fun total a =>
      total + computeMs s ((exact exacts).getD a.provider default) a.first a.last) (.finite x) =
        .finite (x + computeAt s exacts plan) := by
    unfold computeAt
    induction plan with
    | nil => simp
    | cons a rest ih =>
      intro x
      rw [List.foldl_cons, computeMs_exact, finite_add, ih, List.map_cons, List.sum_cons, add_assoc]
      rfl
  have htotal := hsum 0
  rw [zero_add] at htotal
  exact htotal

lemma speedAt_pos : 0 < speedAt exacts provider := by
  unfold speedAt
  cases exacts[provider]? with
  | none => simp
  | some c =>
    simp only [Option.map_some, Option.getD_some]
    split_ifs with hspeed
    · exact hspeed
    · norm_num

lemma stageMs_nonneg (a : StageAssignment) : 0 ≤ stageMs s exacts a := by
  have hspeed : 0 < speedAt exacts a.provider := speedAt_pos
  unfold stageMs
  positivity

lemma computeAt_nonneg : 0 ≤ computeAt s exacts plan := by
  apply List.sum_nonneg
  simp only [List.mem_map, forall_exists_index, and_imp, forall_apply_eq_imp_iff₂]
  exact fun a _ => stageMs_nonneg a

/-- The embedding comes off the decode bytes of a first stage that has more. -/
lemma decode_toNat : (s.decode first last).toNat =
    if first = 0 ∧ s.embedding.toNat < (s.model first last).toNat then
      (s.model first last).toNat - s.embedding.toNat
    else (s.model first last).toNat := by
  unfold Sizes.decode
  dsimp only
  by_cases hless : first = 0 ∧ s.embedding < s.model first last
  · rw [if_pos hless, if_pos ⟨hless.1, UInt64.lt_iff_toNat_lt.mp hless.2⟩, UInt64.toNat_sub_of_le]
    exact UInt64.le_iff_toNat_le.mpr (UInt64.lt_iff_toNat_lt.mp hless.2).le
  · rw [if_neg hless, if_neg fun h => hless ⟨h.1, UInt64.lt_iff_toNat_lt.mpr h.2⟩]

section

variable {context sessions : UInt32} (hsizes : SizesOf m context sessions s)

include hsizes

lemma SizesOf.model_toNat (hlast : first < last) (hlayers : last ≤ m.layers.toNat) :
    (s.model first last).toNat = m.headerBytes.toNat + ownedBytes m first last := by
  obtain ⟨hmodel, hne⟩ := hsizes.model_eq hlast hlayers
  rw [hmodel, (stageModelBytes_ne_zero hne).2]

/-- Stages after the first have what their layers have, and a header. -/
lemma le_decode_of_tiles (htiles : Request.Tiles first m.layers.toNat plan) (hfirst : first ≠ 0)
    (hne : plan ≠ []) :
    m.headerBytes.toNat + ownedBytes m first m.layers.toNat ≤
      (plan.map fun a => (s.decode a.first a.last).toNat).sum := by
  induction plan generalizing first with
  | nil => exact absurd rfl hne
  | cons a rest ih =>
    obtain ⟨rfl, hlt, hrest⟩ := htiles
    have hlayers : a.last ≤ m.layers.toNat := (Nat.le_add_right _ _).trans hrest.length_le
    have hdecode : (s.decode a.first a.last).toNat =
        m.headerBytes.toNat + ownedBytes m a.first a.last := by
      rw [decode_toNat, if_neg fun h => hfirst h.1, hsizes.model_toNat hlt hlayers]
    rw [List.map_cons, List.sum_cons, hdecode]
    by_cases hlast : rest = []
    · subst hlast
      have hend : a.last = m.layers.toNat := hrest
      simp [hend]
    · have hmore := ih hrest (by omega) hlast
      have howned := Request.ownedBytes_cut_le m a.first a.last m.layers.toNat
      omega

/-- The decode bytes of the stages of a division are at least those of the whole model. -/
lemma decode_le_sum {D : Type} {candidates : List (SearchCandidate D)}
    (hlayers : 0 < m.layers.toNat) (h : Division s candidates order s.layers plan) :
    (s.decode 0 s.layers).toNat ≤ (plan.map fun a => (s.decode a.first a.last).toNat).sum := by
  have htiles := h.tiles
  rw [hsizes.layers] at htiles ⊢
  match plan with
  | [] => exact absurd htiles hlayers.ne
  | a :: rest =>
    obtain ⟨hfirst, hlt, hrest⟩ := htiles
    have hle : a.last ≤ m.layers.toNat := (Nat.le_add_right _ _).trans hrest.length_le
    rw [List.map_cons, List.sum_cons, hfirst]
    by_cases hlast : rest = []
    · subst hlast
      have hend : a.last = m.layers.toNat := hrest
      simp [hend]
    · -- the first stage may be too small for the embedding to come off
      have hmore := le_decode_of_tiles hsizes hrest (by omega) hlast
      have howned := Request.ownedBytes_cut_le m 0 a.last m.layers.toNat
      have hwhole : ownedBytes m 0 a.last ≤ _ := ownedBytes_le_whole hle
      rw [decode_toNat, decode_toNat, hsizes.model_toNat hlayers (Nat.le_refl _),
        hsizes.model_toNat hlt hle]
      split_ifs <;> omega

/-- All weights at a speed that no provider of the division beats take no longer than its stages. -/
lemma le_computeAt {fastest : ℚ} (hlayers : 0 < m.layers.toNat) (hnonneg : 0 ≤ fastest)
    (hfastest : ∀ provider ∈ order, fastest ≤ speedAt exacts provider)
    (h : Division s exacts order s.layers plan) :
    (s.decode 0 s.layers).toNat / 2 ^ 30 * fastest / 1000 ≤ computeAt s exacts plan := by
  have hbytes := decode_le_sum hsizes hlayers h
  have hstages : ∀ stages :
      List StageAssignment, (∀ a ∈ stages, fastest ≤ speedAt exacts a.provider) →
      ((stages.map fun a => (s.decode a.first a.last).toNat).sum : ℕ) / 2 ^ 30 * fastest / 1000 ≤
        computeAt s exacts stages := by
    intro stages
    unfold computeAt
    induction stages with
    | nil => simp
    | cons a rest ih =>
      intro hall
      obtain ⟨ha, hrest⟩ := List.forall_mem_cons.mp hall
      have hmore := ih hrest
      have hstage : ((s.decode a.first a.last).toNat : ℚ) / 2 ^ 30 * fastest / 1000 ≤
          stageMs s exacts a := by
        unfold stageMs
        gcongr
      simp only [List.map_cons, List.sum_cons, Nat.cast_add, add_div, add_mul]
      exact add_le_add hstage hmore
  have hplan := hstages plan fun a ha => hfastest _ (h.order ▸ List.mem_map_of_mem ha)
  refine le_trans ?_ hplan
  gcongr

end

/-! ### Link times -/

def SearchRequest.exact (r : SearchRequest ℚ) : SearchRequest Time := r.map Time.finite

/-- Round trips and the penalty for a relay are not negative. -/
structure Timely (exacts : List (SearchCandidate ℚ)) (r : SearchRequest ℚ) : Prop where
  rtt : ∀ c ∈ exacts, 0 ≤ c.rttMs
  links : ∀ c ∈ exacts, ∀ link ∈ c.links, 0 ≤ link.rttMs
  penalty : 0 ≤ r.relayPenaltyMs

def rttAt (exacts : List (SearchCandidate ℚ)) (r : SearchRequest ℚ) (member : Nat) : ℚ :=
  (exacts[member]?.map fun c => c.rttMs + if c.relayed then r.relayPenaltyMs else 0).getD 0

/-- The round trip to a candidate that is not the head. -/
def tripAt (exacts : List (SearchCandidate ℚ)) (r : SearchRequest ℚ) (member : Nat) : ℚ :=
  if r.head = some member then 0 else rttAt exacts r member

/-- A candidate without measured links. -/
def Unlinked (exacts : List (SearchCandidate ℚ)) (member : Nat) : Prop :=
  ((exact exacts).getD member default).links = []

/-- A number, with the penalty where it was measured through a relay. -/
lemma finite_penalty (x : ℚ) (relayed : Bool) :
    (.finite x : Time) + (if relayed then r.exact.relayPenaltyMs else ofNat 0) =
      .finite (x + if relayed then r.relayPenaltyMs else 0) := by
  split_ifs
  · rfl
  · rw [ofNat_eq, finite_add, Nat.cast_zero]

lemma rttOf_exact (member : Nat) :
    rttOf ((exact exacts).getD member default) r.exact = .finite (rttAt exacts r member) := by
  unfold exact rttAt
  rw [List.getD_eq_getElem?_getD, List.getElem?_map]
  cases exacts[member]? with
  | none => exact (finite_penalty _ false).trans (congrArg _ (add_zero _))
  | some c => exact finite_penalty c.rttMs c.relayed

section

variable (htimely : Timely exacts r)

include htimely

lemma rttAt_nonneg (member : Nat) : 0 ≤ rttAt exacts r member := by
  unfold rttAt
  cases hc : exacts[member]? with
  | none => simp
  | some c =>
    have hrtt := htimely.rtt c (List.mem_of_getElem? hc)
    have hpenalty := htimely.penalty
    simp only [Option.map_some, Option.getD_some]
    split_ifs
    · positivity
    · simpa using hrtt

lemma tripAt_le (member : Nat) :
    0 ≤ tripAt exacts r member ∧ tripAt exacts r member ≤ rttAt exacts r member := by
  have hrtt := rttAt_nonneg htimely member
  unfold tripAt
  split_ifs
  · exact ⟨le_rfl, hrtt⟩
  · exact ⟨hrtt, le_rfl⟩

/-- A round trip that was measured is not negative. -/
lemma measuredRtt_exact {a b : Nat} {rtt : Time}
    (h : measuredRtt ((exact exacts).getD a default) ((exact exacts).getD b default) r.exact =
      some rtt) :
    ∃ q, rtt = .finite q ∧ 0 ≤ q := by
  obtain ⟨link, hlink, rfl⟩ := Option.map_eq_some_iff.mp h
  have hmem := List.mem_of_mem_head? hlink
  have hlinks : ∀ member, link ∈ ((exact exacts).getD member default).links →
      ∃ q, link.rttMs = .finite q ∧ 0 ≤ q := by
    intro member hmember
    unfold exact at hmember
    rw [List.getD_eq_getElem?_getD, List.getElem?_map] at hmember
    cases hc : exacts[member]? with
    | none =>
      rw [hc] at hmember
      exact absurd hmember List.not_mem_nil
    | some c =>
      rw [hc] at hmember
      obtain ⟨l, hl, rfl⟩ := List.mem_map.mp hmember
      exact ⟨l.rttMs, rfl, htimely.links c (List.mem_of_getElem? hc) l hl⟩
  obtain ⟨q, hq, hnonneg⟩ : ∃ q, link.rttMs = .finite q ∧ 0 ≤ q := by
    simp only [linksBetween, List.mem_flatMap, List.mem_cons, List.not_mem_nil, or_false,
      List.mem_filter] at hmem
    obtain ⟨pair, rfl | rfl, hlink, -⟩ := hmem
    · exact hlinks a hlink
    · exact hlinks b hlink
  have hpenalty := htimely.penalty
  rw [hq, finite_penalty]
  refine ⟨_, rfl, add_nonneg hnonneg ?_⟩
  split_ifs
  · exact hpenalty
  · exact le_rfl

/-- The time of one link, and what it is at least where neither end has measured links. -/
lemma linkOneWayMs_exact (a b : Nat) :
    ∃ q, linkOneWayMs (exact exacts) r.exact a b = .finite q ∧ 0 ≤ q ∧
      (Unlinked exacts a → Unlinked exacts b →
        (tripAt exacts r a + tripAt exacts r b) / 2 ≤ q) := by
  obtain ⟨hnonnegFrom, hfrom⟩ := tripAt_le htimely a
  obtain ⟨hnonnegTo, hto⟩ := tripAt_le htimely b
  have htwo : (ofNat 2 : Time) = .finite 2 := rfl
  unfold linkOneWayMs
  dsimp only
  rw [rttOf_exact, rttOf_exact, htwo]
  split_ifs with ha hb
  · have hzero : tripAt exacts r a = 0 := if_pos ha
    refine ⟨rttAt exacts r b / 2, rfl, by linarith, fun _ _ => by linarith⟩
  · have hzero : tripAt exacts r b = 0 := if_pos hb
    refine ⟨rttAt exacts r a / 2, rfl, by linarith, fun _ _ => by linarith⟩
  · cases hmeasured :
      measuredRtt ((exact exacts).getD a default) ((exact exacts).getD b default) r.exact with
    | none =>
      refine ⟨(rttAt exacts r a + rttAt exacts r b) / 2, rfl, by linarith, fun _ _ => by linarith⟩
    | some rtt =>
      obtain ⟨q, rfl, hq⟩ := measuredRtt_exact htimely hmeasured
      refine ⟨q / 2, rfl, by linarith, fun hfree hfree' => ?_⟩
      have hnone : linksBetween ((exact exacts).getD a default) ((exact exacts).getD b default) =
          [] := by
        unfold Unlinked at hfree hfree'
        simp only [linksBetween, List.flatMap_cons, List.flatMap_nil, hfree, hfree',
          List.filter_nil, List.append_nil]
      rw [measuredRtt, hnone] at hmeasured
      contradiction

lemma links_foldl (pairs : List (Nat × Nat)) (x : ℚ) :
    ∃ q, pairs.foldl (fun total (a, b) => total + linkOneWayMs (exact exacts) r.exact a b)
      (.finite x) =
        .finite (x + q) ∧ 0 ≤ q ∧
      ((∀ pair ∈ pairs, Unlinked exacts pair.1 ∧ Unlinked exacts pair.2) →
        (pairs.map fun pair => (tripAt exacts r pair.1 + tripAt exacts r pair.2) / 2).sum ≤ q) := by
  induction pairs generalizing x with
  | nil => exact ⟨0, by simp, le_rfl, fun _ => le_rfl⟩
  | cons pair rest ih =>
    obtain ⟨a, b⟩ := pair
    obtain ⟨link, hlink, hnonneg, hbound⟩ := linkOneWayMs_exact htimely a b
    obtain ⟨q, hq, hrest, hsum⟩ := ih (x + link)
    refine ⟨link + q, ?_, by positivity, fun hfree => ?_⟩
    · have hstep : (.finite x : Time) + linkOneWayMs (exact exacts) r.exact a b =
          .finite (x + link) := by
        rw [hlink, finite_add]
      rw [List.foldl_cons]
      show List.foldl _ (_ + linkOneWayMs (exact exacts) r.exact a b) rest = _
      rw [hstep, hq, add_assoc]
    · obtain ⟨hpair, hothers⟩ := List.forall_mem_cons.mp hfree
      rw [List.map_cons, List.sum_cons]
      exact add_le_add (hbound hpair.1 hpair.2) (hsum hothers)

end

/-- Halves of the ends of all links of a ring are its members. -/
lemma sum_zip_halves (w : Nat → ℚ) (l l' : List Nat) (h : l.length = l'.length) :
    ((l.zip l').map fun pair => (w pair.1 + w pair.2) / 2).sum =
      ((l.map w).sum + (l'.map w).sum) / 2 := by
  induction l generalizing l' with
  | nil => simp [List.length_eq_zero_iff.mp h.symm]
  | cons a l ih =>
    match l' with
    | [] => simp at h
    | b :: l' =>
      have hrest := ih l' (Nat.succ.inj h)
      simp only [List.zip_cons_cons, List.map_cons, List.sum_cons, hrest]
      ring

/-- The links of an order take no negative time, and at least the round trips of its members where
none has measured links. -/
lemma linksMs_exact (htimely : Timely exacts r) (order : List Nat) :
    ∃ q, linksMs (exact exacts) r.exact order = .finite q ∧ 0 ≤ q ∧
      (2 ≤ order.length → (∀ member ∈ order, Unlinked exacts member) →
        (order.map (tripAt exacts r)).sum ≤ q) := by
  unfold linksMs
  split_ifs with hshort
  · exact ⟨0, rfl, le_rfl, fun hmany => absurd hmany (by omega)⟩
  · obtain ⟨q, hq, hnonneg, hsum⟩ := links_foldl htimely (order.zip (order.rotate 1)) 0
    rw [zero_add] at hq
    refine ⟨q, hq, hnonneg, fun _ hfree => ?_⟩
    have hring := sum_zip_halves (tripAt exacts r) order (order.rotate 1) (by simp)
    rw [((List.rotate_perm order 1).map _).sum_eq, add_self_div_two] at hring
    rw [← hring]
    refine hsum fun pair hpair => ?_
    obtain ⟨hfirst, hsecond⟩ := List.of_mem_zip hpair
    exact ⟨hfree _ hfirst, hfree _ (List.mem_rotate.mp hsecond)⟩

/-! ### What is left out -/

/-- The round trips of the members that are not the head. -/
lemma sum_tripAt_order (h : OrderOf r.exact group order) :
    (order.map (tripAt exacts r)).sum =
      ((group.filter (r.head ≠ some ·)).map (rttAt exacts r)).sum := by
  obtain ⟨rest, rfl, hrest⟩ := h.led
  have hhead : (r.head.toList.map (tripAt exacts r)).sum = 0 := by
    cases hcase : r.head with
    | none => rfl
    | some head => simp [tripAt, hcase]
  have htrips : rest.map (tripAt exacts r) = rest.map (rttAt exacts r) := by
    refine List.map_congr_left fun member hmember => ?_
    have hother : ¬ r.exact.head = some member := by
      simpa using (List.mem_filter.mp (hrest.subset hmember)).2
    exact if_neg hother
  rw [List.map_append, List.sum_append, htrips, (hrest.map _).sum_eq]
  exact (congrArg (· + _) hhead).trans (zero_add _)

/-- The fastest speed of a group. -/
lemma fastest_exact (exacts : List (SearchCandidate ℚ)) (hne : group ≠ []) :
    ∃ fastest, group.foldl (fun fastest member =>
        minOf fastest (speedOf ((exact exacts).getD member default))) infinite = .finite fastest ∧
      0 ≤ fastest ∧ ∀ member ∈ group, fastest ≤ speedAt exacts member := by
  have hmin : ∀ x y : ℚ, minOf (.finite x : Time) (.finite y) = .finite (min x y) := by
    intro x y
    unfold minOf
    simp only [lt, Time.less, decide_eq_true_eq]
    split_ifs with hlt
    · rw [min_eq_right hlt.le]
    · rw [min_eq_left (not_lt.mp hlt)]
  have hfold : ∀ (rest : List Nat) (x : ℚ), 0 ≤ x →
      ∃ fastest, rest.foldl (fun fastest member =>
          minOf fastest (speedOf ((exact exacts).getD member default))) (.finite x) =
            .finite fastest ∧
        0 ≤ fastest ∧ fastest ≤ x ∧ ∀ member ∈ rest, fastest ≤ speedAt exacts member := by
    intro rest
    induction rest with
    | nil => exact fun x hx => ⟨x, rfl, hx, le_rfl, by simp⟩
    | cons member rest ih =>
      intro x hx
      obtain ⟨fastest, hfastest, hnonneg, hle, hall⟩ :=
        ih (min x (speedAt exacts member)) (le_min hx speedAt_pos.le)
      refine ⟨fastest, ?_, hnonneg, hle.trans (min_le_left _ _), ?_⟩
      · rw [List.foldl_cons, speedOf_exact, hmin, hfastest]
      · exact List.forall_mem_cons.mpr ⟨hle.trans (min_le_right _ _), hall⟩
  cases group with
  | nil => exact absurd rfl hne
  | cons member rest =>
    obtain ⟨fastest, hfastest, hnonneg, hle, hall⟩ :=
      hfold rest (speedAt exacts member) speedAt_pos.le
    refine ⟨fastest, ?_, hnonneg, List.forall_mem_cons.mpr ⟨hle, hall⟩⟩
    rw [List.foldl_cons, speedOf_exact]
    exact hfastest

variable (m s exacts r) in
/-- The rank of the first token of the plan that `best_split` finds for an order. -/
def rankOf (order : List Nat) : Int :=
  firstTokenRank (searchFirstTokenMs m (exact exacts) r.exact (bestSplit s (exact exacts) order).2)
    r.exact

variable (s exacts r) in
/-- The token time of the plan that `best_split` finds for an order. -/
def timeOf (order : List Nat) : Time :=
  (bestSplit s (exact exacts) order).1 + linksMs (exact exacts) r.exact order

variable (m s exacts r) in
/-- The plan of an order, if there is one, is no better than one of this rank and token time. -/
def NoBetter (rank : Int) (tokenMs : Time) (order : List Nat) : Prop :=
  (bestSplit s (exact exacts) order).1 ≠ .infinite →
    rankOf m s exacts r order ≤ rank ∧
      (rankOf m s exacts r order = rank → ¬ lt (timeOf s exacts r order) (tokenMs - decimal 1 9))

lemma lt_finite {x y : ℚ} : lt (.finite x : Time) (.finite y) ↔ x < y := by
  simp [lt, Time.less]

lemma sub_decimal (x : ℚ) : (.finite x : Time) - decimal 1 9 = .finite (x - 1 / 10 ^ 9) := rfl

/-- A time is not clearly above one that is not above it. -/
lemma not_lt_of_le {bound : ℚ} {tokenMs : Time} (hbound : le tokenMs (.finite bound))
    (hle : bound ≤ x) :
    ¬ lt (.finite x) (tokenMs - decimal 1 9) := by
  cases tokenMs with
  | infinite => simp [le, Time.less] at hbound
  | finite y =>
    simp only [le, Time.less, Bool.not_eq_true', decide_eq_false_iff_not, not_lt] at hbound
    rw [sub_decimal, lt_finite]
    have : (0 : ℚ) < 1 / 10 ^ 9 := by norm_num
    linarith

/-- A time that is not clearly below the best is not clearly below a better one. -/
lemma not_lt_of_lt {y : ℚ} {tokenMs : Time} (hnot : ¬ lt (Time.finite x) (tokenMs - decimal 1 9))
    (hlt : lt (Time.finite y) (tokenMs - decimal 1 9)) :
    ¬ lt (Time.finite x) (Time.finite y - decimal 1 9) := by
  cases tokenMs with
  | infinite => exact absurd rfl hnot
  | finite z =>
    rw [sub_decimal, lt_finite] at hnot hlt
    rw [sub_decimal, lt_finite]
    have : (0 : ℚ) < 1 / 10 ^ 9 := by norm_num
    linarith

/-- The token time of an order: the compute time of its plan and its links. -/
lemma timeOf_exact (htimely : Timely exacts r)
    (h : (bestSplit s (exact exacts) order).1 ≠ .infinite) :
    ∃ links, linksMs (exact exacts) r.exact order = .finite links ∧
      timeOf s exacts r order =
        .finite (computeAt s exacts (bestSplit s (exact exacts) order).2 + links) ∧
      0 ≤ links ∧ (2 ≤ order.length → (∀ member ∈ order, Unlinked exacts member) →
        (order.map (tripAt exacts r)).sum ≤ links) := by
  obtain ⟨links, hlinks, hnonneg, hsum⟩ := linksMs_exact htimely order
  obtain ⟨-, -, -, htotal⟩ := bestSplit_spec (mt eq_infinite_iff.mp h)
  refine ⟨links, hlinks, ?_, hnonneg, hsum⟩
  rw [timeOf, htotal, totalMs_exact, hlinks, finite_add]

lemma rankOf_le : rankOf m s exacts r order ≤ 2 := by
  unfold rankOf firstTokenRank
  split_ifs <;> simp

lemma rtts_foldl (members : List Nat) (x : ℚ) :
    members.foldl (fun bound member => bound + rttOf ((exact exacts).getD member default) r.exact)
      (.finite x) = .finite (x + (members.map (rttAt exacts r)).sum) := by
  induction members generalizing x with
  | nil => simp
  | cons member rest ih => rw [List.foldl_cons, rttOf_exact, finite_add, ih, List.map_cons,
      List.sum_cons, add_assoc]

/-- The bound on the links of a group is below the links of each of its orders. -/
lemma linkBound_le {links : ℚ} (htimely : Timely exacts r) (horder : OrderOf r.exact group order)
    (hnonneg : 0 ≤ links)
    (htrips : 2 ≤ order.length → (∀ member ∈ order, Unlinked exacts member) →
      (order.map (tripAt exacts r)).sum ≤ links) :
    ∃ bound ≤ links, (if group.length < 2 ∨ group.any fun member =>
        !((exact exacts).getD member default).links.isEmpty then ofNat 0
      else (group.filter (r.exact.head ≠ some ·)).foldl (fun bound member =>
        bound + rttOf ((exact exacts).getD member default) r.exact) (ofNat 0) / ofNat 2) =
          Time.finite bound := by
  split_ifs with hfew
  · exact ⟨0, hnonneg, rfl⟩
  · simp only [not_or, List.any_eq_true, not_exists, not_and, Bool.not_eq_true', Bool.not_eq_false]
      at hfew
    obtain ⟨hmany, hfree⟩ := hfew
    have hunlinked : ∀ member ∈ order, Unlinked exacts member := by
      intro member hmember
      exact List.isEmpty_iff.mp (hfree member (horder.perm.subset hmember))
    have hsum := htrips (horder.perm.length_eq ▸ Nat.not_lt.mp hmany) hunlinked
    rw [sum_tripAt_order horder] at hsum
    have hpositive : 0 ≤ ((group.filter (r.head ≠ some ·)).map (rttAt exacts r)).sum := by
      apply List.sum_nonneg
      simp only [List.mem_map, forall_exists_index, and_imp, forall_apply_eq_imp_iff₂]
      exact fun member _ => rttAt_nonneg htimely member
    refine ⟨_, ?_, congrArg (· / ofNat 2) (rtts_foldl _ 0)⟩
    show (0 + ((group.filter (r.head ≠ some ·)).map (rttAt exacts r)).sum) / 2 ≤ links
    linarith

/-- A group that the bound leaves out has no better order. -/
lemma noBetter_of_beaten {best : Best Time} (hsizes : SizesOf m r.context r.sessions s)
    (hlayers : 0 < m.layers.toNat) (htimely : Timely exacts r) (hne : group ≠ [])
    (horder : OrderOf r.exact group order)
    (h : beaten s (exact exacts) r.exact group.length group best) :
    NoBetter m s exacts r best.rank best.tokenMs order := by
  intro hfound
  obtain ⟨links, -, htime, hnonneg, htrips⟩ := timeOf_exact htimely hfound
  obtain ⟨fastest, hfastest, hpositive, hall⟩ := fastest_exact exacts hne
  obtain ⟨bound, hle, hbound⟩ := linkBound_le htimely horder hnonneg htrips
  have hdivision : Division s exacts order s.layers (bestSplit s (exact exacts) order).2 := by
    apply division_exact.mp
    exact (bestSplit_spec (mt eq_infinite_iff.mp hfound)).1
  have hcompute := le_computeAt hsizes hlayers hpositive
    (fun member hmember => hall member (horder.perm.subset hmember)) hdivision
  unfold beaten at h
  dsimp only at h
  rw [hfastest, hbound] at h
  obtain ⟨hrank, hless⟩ := Bool.and_eq_true_iff.mp h
  refine ⟨?_, fun _ => ?_⟩
  · rw [of_decide_eq_true hrank]
    exact rankOf_le
  · rw [htime]
    exact not_lt_of_le hless (add_le_add hcompute hle)

/-- The search answers for every order: what it finds for it is no better than the best plan. -/
lemma accounts_unbeaten (hsizes : SizesOf m r.context r.sessions s) (hlayers : 0 < m.layers.toNat)
    (htimely : Timely exacts r) :
    Accounts m s (exact exacts) r.exact fun order best =>
      NoBetter m s exacts r best.rank best.tokenMs order where
  same _ _ _ _ h := h
  kept order other best _ h := by
    intro hfound
    obtain ⟨hrank, htime⟩ := h hfound
    unfold tryOrder
    dsimp only
    split_ifs with hlinks hcompute hbetter
    · exact ⟨hrank, htime⟩
    · exact ⟨hrank, htime⟩
    · obtain ⟨links, -, heq, -⟩ := timeOf_exact htimely hfound
      have hother : (bestSplit s (exact exacts) other).1 ≠ .infinite :=
        mt eq_infinite_iff.mpr hcompute
      obtain ⟨linksOther, -, heqOther, -⟩ := timeOf_exact htimely hother
      show rankOf m s exacts r order ≤ rankOf m s exacts r other ∧
        (rankOf m s exacts r order = rankOf m s exacts r other →
          ¬ lt (timeOf s exacts r order) (timeOf s exacts r other - decimal 1 9))
      -- a better rank is above all ranks so far; a better time of the same rank is below the best
      -- time
      rcases hbetter with hhigher | ⟨hsame, hless⟩
      · have hhigher : best.rank < rankOf m s exacts r other := hhigher
        exact ⟨hrank.trans hhigher.le, fun heq => absurd (heq ▸ hrank) (not_le.mpr hhigher)⟩
      · have hsame : rankOf m s exacts r other = best.rank := hsame
        refine ⟨hsame ▸ hrank, fun hequal => ?_⟩
        have hbefore := htime (hequal.trans hsame)
        have hless : lt (timeOf s exacts r other) (best.tokenMs - decimal 1 9) := hless
        rw [heq] at hbefore ⊢
        rw [heqOther] at hless ⊢
        exact not_lt_of_lt hbefore hless
    · exact ⟨hrank, htime⟩
  tried order best _ := by
    intro hfound
    obtain ⟨links, hlinks, heq, hnonneg, -⟩ := timeOf_exact htimely hfound
    unfold tryOrder
    dsimp only
    split_ifs with hskip hcompute hbetter
    · refine ⟨hskip.1 ▸ rankOf_le, fun _ => ?_⟩
      have hbound := hskip.2
      rw [hlinks] at hbound
      rw [heq]
      exact not_lt_of_le hbound (le_add_of_nonneg_left computeAt_nonneg)
    · exact absurd (eq_infinite_iff.mp hcompute) hfound
    · refine ⟨le_rfl, fun _ => ?_⟩
      show ¬ lt (timeOf s exacts r order) (timeOf s exacts r order - decimal 1 9)
      rw [heq, sub_decimal, lt_finite]
      norm_num
    · rw [not_or, not_and] at hbetter
      refine ⟨not_lt.mp hbetter.1, hbetter.2⟩
  beaten group order best _ hne horder h := noBetter_of_beaten hsizes hlayers htimely hne horder h

/-! ### A complete search -/

/-- No order of an allowed number of candidates, the head first, has a plan of a better first-token
rank than the result, or of its rank and with a token time clearly below its own. -/
def Unbeaten (m : ModelIndex) (s : Sizes) (exacts : List (SearchCandidate ℚ)) (r : SearchRequest ℚ)
    (result : SearchResult Time) : Prop :=
  ∀ order, (asked m (exact exacts) r.exact).Order order → order ≠ [] →
    r.minimumStages ≤ order.length → order.length ≤ r.maximumStages →
    NoBetter m s exacts r (firstTokenRank result.firstTokenMs r.exact) result.tokenMs order

/-- A pool as long as the candidates has all of them. -/
lemma mem_searchPool {D : Type} [Arithmetic D] {candidates : List (SearchCandidate D)}
    {r : SearchRequest D} (h : (searchPool candidates r).length = candidates.length) :
    ∀ i < candidates.length, i ∈ searchPool candidates r := by
  intro i hi
  obtain ⟨hnodup, hknown⟩ : PoolOk candidates (searchPool candidates r) := searchPool_spec.1
  have hsub : (searchPool candidates r).Subperm (List.range candidates.length) :=
    hnodup.subperm fun j hj => List.mem_range.mpr (hknown j hj)
  have hperm := hsub.perm_of_length_le (by rw [h, List.length_range])
  exact hperm.symm.subset (List.mem_range.mpr hi)

/-- What the memory bound leaves out does no harm: every plan of a group that the search forms is
matched by one of a group that the bound lets through, of a better first-token rank, or of the same
rank and a token time that is above its own by no more than the tolerance. -/
def Harmless (m : ModelIndex) (s : Sizes) (exacts : List (SearchCandidate ℚ)) (r : SearchRequest ℚ)
    (tolerance : ℚ) : Prop :=
  ∀ group order, Splits s (exact exacts) r.exact group order →
    ∃ other otherOrder, Splits s (exact exacts) r.exact other otherOrder ∧
      roomy Time s (exact exacts) other.length other ∧
      (rankOf m s exacts r order < rankOf m s exacts r otherOrder ∨
        rankOf m s exacts r otherOrder = rankOf m s exacts r order ∧
          ¬ lt (timeOf s exacts r order + .finite tolerance) (timeOf s exacts r otherOrder))

/-- The bound does no harm where it leaves out no group that has a plan. -/
lemma harmless_of_admits (htimely : Timely exacts r)
    (hadmits : Admits Time s (exact exacts) r.exact) :
    Harmless m s exacts r 0 := by
  intro group order hsplits
  refine ⟨group, order, hsplits, hadmits group order hsplits, .inr ⟨rfl, ?_⟩⟩
  obtain ⟨links, -, heq, -⟩ := timeOf_exact htimely (mt eq_infinite_iff.mpr hsplits.found)
  rw [heq, finite_add, lt_finite, add_zero]
  exact lt_irrefl _

/-- The best plan so far is that of an order of a group that was let through. -/
def Sourced (m : ModelIndex) (s : Sizes) (exacts : List (SearchCandidate ℚ)) (r : SearchRequest ℚ)
    (best : Best Time) : Prop :=
  best.plan = [] ∨ ∃ group order, Splits s (exact exacts) r.exact group order ∧
    roomy Time s (exact exacts) group.length group ∧ best.rank = rankOf m s exacts r order ∧
    best.tokenMs = timeOf s exacts r order

lemma sourced_bestOf : Sourced m s exacts r (bestOf Time m s (exact exacts) r.exact) := by
  have hpool : PoolOk (exact exacts) (searchPool (exact exacts) r.exact) := searchPool_spec.1
  refine tryCounts_keeps (fun _ _ => id)
    (fun group hsub hcount order htried best _ hbest => ?_) (.inl rfl)
  rw [List.mem_range'_1] at hcount
  have hled : OrderOf r.exact group order := by
    obtain ⟨rest, hrest, heq⟩ := List.mem_map.mp htried.listed
    exact ⟨(order_of_group (m := m) hpool.1 hpool.2 hsub htried.head htried.listed).2, rest,
      heq.symm, perm_of_mem_ordersOf hrest⟩
  unfold tryOrder
  dsimp only
  split_ifs with hlinks hcompute hbetter
  · exact hbest
  · exact hbest
  · right
    have hformed : Formed s (exact exacts) r.exact group := by
      refine ⟨hsub, ?_, ?_, ?_⟩ <;> omega
    exact ⟨group, order, ⟨hformed, hled, hcompute⟩, htried.roomy, rfl, rfl⟩
  · exact hbest

/-- A search that is complete and whose plan is not from the ranges on disk has found the best plan
if the memory bound does no harm, and only if it does no more than the tolerance: no round trip may
be negative. -/
theorem unbeaten_of_complete {result : SearchResult Time}
    (hs : sizesOf m r.context r.sessions = some s)
    (htimely : Timely exacts r) (h : searchPlan Time m (exact exacts) r.exact = .ok result)
    (hcomplete : result.complete) (hcache : result.fromCache = false) :
    (Harmless m s exacts r 0 → Unbeaten m s exacts r result) ∧
      (Unbeaten m s exacts r result → Harmless m s exacts r (1 / 10 ^ 9)) := by
  have hcompatible : compatible m := by
    unfold searchPlan at h
    split_ifs at h with hrefused
    exact hrefused
  have hminimum : r.exact.minimumStages ≠ 0 := by
    unfold searchPlan at h
    rw [if_neg (not_not.mpr hcompatible)] at h
    split_ifs at h with hinvalid
    simp only [not_or] at hinvalid
    exact hinvalid.2.2.2.1
  have hlayers := one_lt_layers hcompatible
  have hsizes := sizesOf_spec hlayers hs
  obtain ⟨hplan, hsome, htoken, hfirst, hdone⟩ := bestOf_of_ok (r := r.exact) hs h hcache
  obtain ⟨hexhaustive, hbudget⟩ := hdone hcomplete
  have hnonzero : s.layers ≠ 0 := by
    rw [hsizes.layers]
    omega
  have hgood := accounts_unbeaten hsizes (by omega) htimely
  have hafter : After r.exact
      (fun order best => NoBetter m s exacts r best.rank best.tokenMs order) _
      (bestOf Time m s (exact exacts) r.exact) :=
    after_tryCounts hgood hnonzero (ranked_start _)
  have hpool := mem_searchPool (of_decide_eq_true (hafter.exhaustive hexhaustive))
  -- the rank of the result is that of the best plan
  have hrank : (bestOf Time m s (exact exacts) r.exact).rank =
      firstTokenRank result.firstTokenMs r.exact := by
    rw [hfirst]
    refine (hafter.ranked.resolve_left fun hnone => hsome ?_).2
    rw [hplan, hnone.1]
  constructor
  · intro hharmless order horder hne hleast hmost hfound
    have hdivision := (bestSplit_spec (mt eq_infinite_iff.mp hfound)).1
    obtain ⟨group, hformed, hled⟩ := exists_formed hpool horder hne hleast hmost hdivision.length_le
    obtain ⟨other, otherOrder, hsplits, hroomy, hbetter⟩ :=
      hharmless group order ⟨hformed, hled, mt eq_infinite_iff.mp hfound⟩
    have hsomeOther : other ≠ [] := by
      rintro rfl
      exact hminimum (Nat.le_zero.mp hsplits.formed.least)
    have hbest := good_bestOf hgood hnonzero hbudget hsplits.formed hroomy hsplits.led hsomeOther
      (.inl hexhaustive)
    obtain ⟨hle, htime⟩ := hbest (mt eq_infinite_iff.mpr hsplits.found)
    rw [htoken, ← hrank]
    obtain ⟨links, -, heq, -⟩ := timeOf_exact htimely hfound
    obtain ⟨linksOther, -, heqOther, -⟩ :=
      timeOf_exact htimely (mt eq_infinite_iff.mpr hsplits.found)
    rcases hbetter with hhigher | ⟨hsame, hnot⟩
    · exact ⟨(hhigher.trans_le hle).le, fun hequal => absurd hequal (hhigher.trans_le hle).ne⟩
    · refine ⟨hsame ▸ hle, fun hequal hless => ?_⟩
      have hclear := htime (hsame.trans hequal)
      rw [heq, heqOther, finite_add, add_zero, lt_finite, not_lt] at hnot
      rw [heqOther] at hclear
      rw [heq] at hless
      cases hbestTime : (bestOf Time m s (exact exacts) r.exact).tokenMs with
      | infinite => rw [hbestTime] at hclear; exact hclear rfl
      | finite z =>
        rw [hbestTime, sub_decimal, lt_finite] at hclear hless
        exact hclear (hnot.trans_lt hless)
  · intro hunbeaten group order hsplits
    obtain ⟨other, otherOrder, hsplitsOther, hroomy, hrankOther, htimeOther⟩ :=
      (sourced_bestOf (r := r)).resolve_left (hplan ▸ hsome)
    refine ⟨other, otherOrder, hsplitsOther, hroomy, ?_⟩
    obtain ⟨horder, hlength⟩ := hsplits.asked_order (m := m)
    obtain ⟨-, hleast, hmost, -⟩ := hsplits.formed
    rw [← hlength] at hleast hmost
    have hne : order ≠ [] := by
      rintro rfl
      exact hminimum (Nat.le_zero.mp hleast)
    obtain ⟨hle, htime⟩ :=
      hunbeaten order horder hne hleast hmost (mt eq_infinite_iff.mpr hsplits.found)
    rw [← hrank, hrankOther] at hle htime
    rw [htoken, htimeOther] at htime
    rcases hle.lt_or_eq with hlower | hequal
    · exact .inl hlower
    · refine .inr ⟨hequal.symm, ?_⟩
      have hclear := htime hequal
      obtain ⟨links, -, heq, -⟩ := timeOf_exact htimely (mt eq_infinite_iff.mpr hsplits.found)
      obtain ⟨linksOther, -, heqOther, -⟩ :=
        timeOf_exact htimely (mt eq_infinite_iff.mpr hsplitsOther.found)
      rw [heq, heqOther, sub_decimal, lt_finite] at hclear
      rw [heq, heqOther, finite_add, lt_finite]
      linarith

/-- A search for a plan of one stage or two, with any head. -/
def shortSearch (maximum : Nat) : SearchRequest ℚ where
  context := 256
  sessions := 1
  minimumStages := 1
  maximumStages := maximum
  head := none
  workBudget := 4000
  poolLimit := 12
  cachedTolerance := 1 / 10
  relayPenaltyMs := 25
  promptRows := 0
  chunkRows := 512
  rowBytes := 0
  firstTokenLimitMs := 0

/-- The result of a search that finds one with a property. -/
lemma exists_ok {search : Except String (SearchResult Time)} {p : SearchResult Time → Bool}
    (h : search.toOption.any p) : ∃ result, search = .ok result ∧ p result := by
  cases search with
  | error reason => exact absurd h Bool.false_ne_true
  | ok result => exact ⟨result, rfl, h⟩

theorem unbeaten_tiny :
    ∃ s result, searchPlan Time Request.tinyModel (exact twoOffers) (shortSearch 2).exact =
      .ok result ∧
      Unbeaten Request.tinyModel s twoOffers (shortSearch 2) result := by
  have hsome : (sizesOf Request.tinyModel 256 1).isSome := by decide +kernel
  have hfound :
      (searchPlan Time Request.tinyModel (exact twoOffers) (shortSearch 2).exact).toOption.any
      fun result => result.complete && !result.fromCache := by
    decide +kernel
  obtain ⟨result, hok, hdone⟩ := exists_ok hfound
  obtain ⟨hcomplete, hcache⟩ := Bool.and_eq_true_iff.mp hdone
  have htimely : Timely twoOffers (shortSearch 2) :=
    ⟨by simp [twoOffers], by simp [twoOffers], by simp [shortSearch]⟩
  refine ⟨_, result, hok, (unbeaten_of_complete (m := Request.tinyModel) (r := shortSearch 2)
    (Option.some_get hsome).symm htimely hok hcomplete (by simpa using hcache)).1
      (harmless_of_admits htimely ?_)⟩
  refine admits_exact (m := Request.tinyModel) (by decide +kernel) (Option.some_get hsome).symm ?_
  simp [twoOffers, WholeReserve]

/-- A model that takes up all usable bytes of 7001 MiB for one session of 256 positions. -/
def snugModel : ModelIndex :=
  { Request.tinyModel with
    tensors :=
      [⟨"token_embd.weight".toList, 500, [], 0⟩, ⟨"blk.0.attn_q.weight".toList, 6239851144, [], 0⟩,
      ⟨"blk.1.attn_q.weight".toList, 300, [], 0⟩, ⟨"output_norm.weight".toList, 10, [], 0⟩] }

/-- A slow candidate that has room to spare and a fast one that has just enough. -/
def snugOffers : List (SearchCandidate ℚ) :=
  [⟨8000, 4000, 10, false, 0, [], "a", []⟩, ⟨7001, 1000, 10, false, 0, [], "b", []⟩]

/-- The memory bound leaves out the fast candidate, and the search calls the plan of the slow one
the best. -/
theorem search_misses :
    ∃ s result, sizesOf snugModel 256 1 = some s ∧ Timely snugOffers (shortSearch 1) ∧
      searchPlan Time snugModel (exact snugOffers) (shortSearch 1).exact = .ok result ∧
      result.complete ∧ result.fromCache = false ∧ Enough s snugOffers [1] ∧
      ¬ roomy Time s (exact snugOffers) 1 [1] ∧
      ¬ Unbeaten snugModel s snugOffers (shortSearch 1) result := by
  have hsome : (sizesOf snugModel 256 1).isSome := by decide +kernel
  have hfound : (searchPlan Time snugModel (exact snugOffers) (shortSearch 1).exact).toOption.any
      fun result => result.complete && !result.fromCache &&
        decide ((bestSplit ((sizesOf snugModel 256 1).get hsome) (exact snugOffers) [1]).1 ≠
          .infinite) &&
        decide (
          rankOf snugModel ((sizesOf snugModel 256 1).get hsome) snugOffers (shortSearch 1) [1] =
          firstTokenRank result.firstTokenMs (shortSearch 1).exact) &&
        lt (timeOf ((sizesOf snugModel 256 1).get hsome) snugOffers (shortSearch 1) [1])
          (result.tokenMs - decimal 1 9) := by
    decide +kernel +revert
  have hbound : Enough ((sizesOf snugModel 256 1).get hsome) snugOffers [1] ∧
      ¬ roomy Time ((sizesOf snugModel 256 1).get hsome) (exact snugOffers) 1 [1] := by
    unfold Enough
    clear hfound
    decide +kernel +revert
  obtain ⟨result, hok, hdone⟩ := exists_ok hfound
  simp only [Bool.and_eq_true, decide_eq_true_eq, Bool.not_eq_true'] at hdone
  obtain ⟨⟨⟨⟨hcomplete, hcache⟩, hfeasible⟩, hrank⟩, hless⟩ := hdone
  refine ⟨_, result, (Option.some_get hsome).symm, ?_, hok, hcomplete, hcache, hbound.1, hbound.2,
    fun hbest => ?_⟩
  · exact ⟨by simp [snugOffers], by simp [snugOffers], by simp [shortSearch]⟩
  · refine (hbest [1] ⟨by simp, ?_, ?_⟩ (by simp) ?_ ?_ hfeasible).2 hrank hless
    · simp [asked, exact, snugOffers]
    · rintro - head ⟨⟩
    · simp [shortSearch]
    · simp [shortSearch]

end ProviderOwned.Planner
