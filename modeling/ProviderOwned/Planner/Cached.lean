import ProviderOwned.Planner.Plan

/-!
# Plans from the cache

`plan_from_cache` searches the ranges that workers have in their caches, the longest first. It finds
a plan whenever there is one: the search only leaves a branch when no choice continues it.
-/

namespace ProviderOwned.Planner.Request

variable {q : Request} {cached : List (List (Int × Int))} {plan rest stages : List StageAssignment}
  {first last left index stageLimit : Nat} {a : StageAssignment}

/-- The range of a stage is one its provider has cached. -/
def HeldBy (cached : List (List (Int × Int))) (a : StageAssignment) : Prop :=
  ((a.first : Int), (a.last : Int)) ∈ cached[a.provider]?.getD []

/-- A plan with a stage count in the bounds, each stage cached where it is placed. -/
structure CachedPlan (q : Request) (cached : List (List (Int × Int))) (stageLimit : Nat)
    (plan : List StageAssignment) : Prop where
  valid : q.Valid plan
  held : ∀ a ∈ plan, HeldBy cached a
  bounds : q.minimum ≤ plan.length ∧ plan.length ≤ stageLimit

/-- Every stage that is added is cached where it is placed. -/
lemma held_of_extend (hstages : ∀ a ∈ stages, HeldBy cached a)
    (h : q.extend cached left stages first = some plan) : ∀ a ∈ plan, HeldBy cached a := by
  induction left generalizing stages first with
  | zero =>
    unfold extend at h
    split_ifs at h
    obtain rfl := Option.some.inj h
    exact hstages
  | succ left ih =>
    unfold extend at h
    split_ifs at h
    · obtain rfl := Option.some.inj h
      exact hstages
    · obtain ⟨⟨last, index⟩, hoption, hfound⟩ := List.exists_of_findSome?_eq_some h
      obtain ⟨a, ha, hrest⟩ := Option.bind_eq_some_iff.mp hfound
      obtain ⟨hprovider, hfirst, hlast, -⟩ := fits_eq ha
      refine ih (List.forall_mem_append.mpr ⟨hstages, List.forall_mem_singleton.mpr ?_⟩) hrest
      rw [HeldBy, hprovider, hfirst, hlast]
      exact (mem_cachedOptions_iff.mp hoption).2.2.1

lemma Tiles.le (h : Tiles first last plan) : first ≤ last :=
  (Nat.le_add_right _ _).trans h.length_le

/-- Stages that can be continued to a plan are continued to some plan. -/
lemma extend_isSome (htiles : Tiles first q.layers rest)
    (hdistinct : ((stages ++ rest).map StageAssignment.provider).Nodup)
    (hfits : ∀ a ∈ rest, q.fits a.provider a.first a.last = some a)
    (hheld : ∀ a ∈ rest, HeldBy cached a)
    (hhead : first = 0 → ∀ h ∈ q.head, rest.head?.map StageAssignment.provider = some h)
    (hleast : q.minimum ≤ (stages ++ rest).length) (hmost : rest.length ≤ left) :
    (q.extend cached left stages first).isSome := by
  induction rest generalizing left stages first with
  | nil =>
    obtain rfl : first = q.layers := htiles
    rw [List.append_nil] at hleast
    unfold extend
    rw [if_pos rfl, if_pos hleast]
    rfl
  | cons a rest ih =>
    obtain ⟨rfl, hlt, htiles⟩ := htiles
    obtain ⟨left, rfl⟩ : ∃ n, left = n + 1 := Nat.exists_eq_succ_of_ne_zero (by
      rw [List.length_cons] at hmost
      omega)
    obtain ⟨hfitsFirst, hfits⟩ := List.forall_mem_cons.mp hfits
    obtain ⟨hheldFirst, hheld⟩ := List.forall_mem_cons.mp hheld
    have hle : a.last ≤ q.layers := htiles.le
    have hfree : a.provider ∉ stages.map StageAssignment.provider := by
      rw [List.map_append, List.map_cons] at hdistinct
      intro hmem
      exact (List.nodup_append.mp hdistinct).2.2 _ hmem _ List.mem_cons_self rfl
    have hfirst : a.first = 0 → ∀ h ∈ q.head, a.provider = h := by
      intro hzero h hmem
      simpa using hhead hzero h hmem
    have hrest : (q.extend cached left (stages ++ [a]) a.last).isSome := by
      refine ih htiles ?_ hfits hheld (fun hzero => absurd hzero (by omega)) ?_ ?_
      · rwa [List.append_assoc, List.singleton_append]
      · rwa [List.append_assoc, List.singleton_append]
      · exact Nat.le_of_succ_le_succ hmost
    unfold extend
    rw [if_neg (by omega), List.findSome?_isSome_iff]
    refine ⟨(a.last, a.provider), mem_cachedOptions_iff.mpr ⟨hfree, hfirst, hheldFirst, hlt, hle⟩,
      ?_⟩
    dsimp only
    rw [hfitsFirst]
    exact hrest

/-- `plan_from_cache` returns a plan exactly when the model can be staged, a minimum of at least one
stage is asked for and there is a plan, and what it returns is one. -/
theorem planFromCache_spec (q : Request) (cached : List (List (Int × Int))) (stageLimit : Nat)
    (hcached : cached.length = q.offered.length) :
    ((q.planFromCache cached stageLimit).isSome ↔
      compatible q.model ∧ q.minimum ≠ 0 ∧ ∃ plan, q.CachedPlan cached stageLimit plan) ∧
    ∀ plan, q.planFromCache cached stageLimit = some plan →
      q.CachedPlan cached stageLimit plan := by
  have hsound : ∀ plan, q.planFromCache cached stageLimit = some plan →
      q.CachedPlan cached stageLimit plan := by
    intro plan h
    obtain ⟨hvalid, hleast, hmost⟩ := valid_of_planFromCache h
    refine ⟨hvalid, ?_, hleast, hmost⟩
    unfold planFromCache at h
    split_ifs at h
    exact held_of_extend (by simp) h
  refine ⟨⟨fun hsome => ?_, ?_⟩, hsound⟩
  · obtain ⟨plan, hplan⟩ := Option.isSome_iff_exists.mp hsome
    refine ⟨?_, ?_, plan, hsound plan hplan⟩
    all_goals
      unfold planFromCache at hplan
      split_ifs at hplan with hrefused
      simp only [not_or, not_not] at hrefused
      tauto
  · rintro ⟨hmodel, hminimum, plan, ⟨hvalid, hheld, hleast, hmost⟩⟩
    have hne : plan ≠ [] := by
      rintro rfl
      exact hminimum (Nat.le_zero.mp hleast)
    obtain ⟨hcontext, hsessions, hhead⟩ := hvalid.accepted hne
    have hlimit : stageLimit ≠ 0 := by
      have := List.length_pos_of_ne_nil hne
      omega
    have hbounds : ¬ ∃ h ∈ q.head, q.offered.length ≤ h := by
      rintro ⟨h, hmem, hle⟩
      exact absurd (hhead h hmem) (Nat.not_lt.mpr hle)
    unfold planFromCache
    rw [if_neg]
    · exact extend_isSome hvalid.tiles (by simpa using hvalid.distinct) hvalid.fits hheld
        (fun _ => hvalid.head) (by simpa using hleast) hmost
    · simp only [hcached, hminimum, hlimit, hcontext, hsessions, hmodel, hbounds, ne_eq,
        not_true_eq_false, or_self, not_false_eq_true]

/-- Ranges of the two workers of `tinyRequest`. -/
def tinyCached : List (List (Int × Int)) := [[(0, 2), (1, 2)], [(0, 1)]]

lemma tinyPlan_cached (minimum : Nat) (hminimum : minimum ≤ 2) :
    (tinyRequest minimum).CachedPlan tinyCached 2 tinyPlan := by
  refine ⟨tinyPlan_valid minimum, ?_, hminimum, Nat.le_refl 2⟩
  simp [tinyPlan, HeldBy, tinyCached]

theorem planFromCache_tiny : ((tinyRequest 2).planFromCache tinyCached 2).isSome := by
  have hmodel : compatible (tinyRequest 2).model := by decide +kernel
  exact (planFromCache_spec (tinyRequest 2) tinyCached 2 rfl).1.mpr
    ⟨hmodel, by decide, tinyPlan, tinyPlan_cached 2 (Nat.le_refl 2)⟩

/-- With a minimum of 0 stages `plan_from_cache` returns nothing, whatever is cached. -/
theorem planFromCache_minimum_zero :
    ¬ ∀ (q : Request) (cached : List (List (Int × Int))) (stageLimit : Nat),
      cached.length = q.offered.length →
      ((q.planFromCache cached stageLimit).isSome ↔
        ∃ plan, q.CachedPlan cached stageLimit plan) := by
  intro h
  have hsome :=
    (h (tinyRequest 0) tinyCached 2 rfl).mpr ⟨tinyPlan, tinyPlan_cached 0 (Nat.zero_le 2)⟩
  simp [planFromCache, tinyRequest] at hsome

end ProviderOwned.Planner.Request
