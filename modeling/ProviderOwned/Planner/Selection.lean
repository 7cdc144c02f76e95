import Mathlib.Data.Char
import Mathlib.Data.List.Lex
import Mathlib.Data.Prod.Lex
import Mathlib.Order.RelClasses
import ProviderOwned.Lib.Pick
import ProviderOwned.Planner.Numbers

/-!
# The choice among plans

`assess_plan` and `select_plan` of `selection.cpp`. The comparison `better` follows one key
(`better_iff`), in which an unknown speed is infinite, so it is a strict weak order whatever the
numbers are, and plans with different labels always compare. What is chosen is then the best of a
set of plans, in whatever order they come.
-/

namespace ProviderOwned.Planner

open Arithmetic Numbers Pick

inductive ColdStart
  | readyFirst
  | wait
  deriving DecidableEq, Repr

/-- What the choice reads of `struct SelectionPolicy`. -/
structure SelectionPolicy (D : Type) where
  targetTokensPerS : D
  firstTokenTargetMs : D
  firstTokenMaxMs : D
  context : UInt32
  maxProviders : UInt64
  stallP95Ms : D
  margin : D
  coldStart : ColdStart

structure PlanEstimate (D : Type) where
  label : String
  qualityTier : Int
  context : UInt32
  providers : UInt64
  ready : Bool
  measured : Bool
  tokenMs : D
  firstTokenMs : D
  loadMs : D
  stallP95Ms : D
  cacheWarm : Bool
  resourceBytes : UInt64
  deriving DecidableEq, Repr

inductive Verdict
  | meetsTarget
  | belowTarget
  | unverified
  | ineligible
  deriving DecidableEq, Repr

structure Assessment where
  verdict : Verdict
  reason : String
  deriving DecidableEq, Repr

/-- `struct Selection`; a plan is given by its index. -/
structure Selection where
  chosen : Option Nat
  betterCold : Option Nat
  fallback : Option Nat
  reason : String
  deriving DecidableEq, Repr

section

variable {D : Type} [Numbers D]

def usableNumber (value : D) : Bool := lt value infinite && le (ofNat 0) value

def milliseconds (value : D) : String := toString (llround value) ++ " ms"

/-- A value that is not positive is unknown. -/
def known (value : D) : D := if lt (ofNat 0) value then value else infinite

def quick (plan : PlanEstimate D) (policy : SelectionPolicy D) : Bool :=
  lt (ofNat 0) plan.firstTokenMs &&
    le (plan.firstTokenMs * (ofNat 1 + policy.margin)) policy.firstTokenTargetMs

def better (policy : SelectionPolicy D) (left right : PlanEstimate D) : Bool :=
  if left.qualityTier ≠ right.qualityTier then right.qualityTier < left.qualityTier
  else if quick left policy ≠ quick right policy then quick left policy
  else if !eq (known left.tokenMs) (known right.tokenMs)
    then lt (known left.tokenMs) (known right.tokenMs)
  else if left.ready ≠ right.ready then left.ready
  else if left.cacheWarm ≠ right.cacheWarm then left.cacheWarm
  else if left.resourceBytes ≠ right.resourceBytes then left.resourceBytes < right.resourceBytes
  else if left.providers ≠ right.providers then left.providers < right.providers
  else left.label.toList < right.label.toList

def assessPlan (plan : PlanEstimate D) (policy : SelectionPolicy D) : Assessment :=
  let tokenLimit := ofNat 1000 / policy.targetTokensPerS
  if !usableNumber plan.tokenMs || !usableNumber plan.firstTokenMs || !usableNumber plan.loadMs ||
      !usableNumber plan.stallP95Ms then ⟨.ineligible, "invalid estimate"⟩
  else if plan.context < policy.context then
    ⟨.ineligible, "context " ++ toString plan.context ++ " < required " ++ toString policy.context⟩
  else if plan.providers = 0 ∨ policy.maxProviders < plan.providers then
    ⟨.ineligible, toString plan.providers ++ " providers (limit " ++ toString policy.maxProviders ++
      ")"⟩
  else if !plan.measured ∨ eq plan.tokenMs (ofNat 0) ∨ eq plan.firstTokenMs (ofNat 0) then
    ⟨.unverified, "speed not measured yet"⟩
  else if lt tokenLimit (plan.tokenMs * (ofNat 1 + policy.margin)) then
    ⟨.belowTarget, milliseconds plan.tokenMs ++ " per token (limit " ++ milliseconds tokenLimit ++
      " with margin)"⟩
  else if lt policy.firstTokenMaxMs (plan.firstTokenMs * (ofNat 1 + policy.margin)) then
    ⟨.belowTarget, "first token " ++ milliseconds plan.firstTokenMs ++ " (limit " ++
      milliseconds policy.firstTokenMaxMs ++ " with margin)"⟩
  else if lt policy.stallP95Ms (plan.stallP95Ms * (ofNat 1 + policy.margin)) then
    ⟨.belowTarget, "p95 stall " ++ milliseconds plan.stallP95Ms⟩
  else ⟨.meetsTarget, ""⟩

abbrev Indexed (D : Type) : Type := PlanEstimate D × Nat

/-- What the loop of `select_plan` has kept. -/
structure Holding (D : Type) where
  ready : Option (Indexed D) := none
  cold : Option (Indexed D) := none
  any : Option (Indexed D) := none
  fallback : Option (Indexed D) := none

/-- `keep`: a plan that is better replaces the one that was kept. -/
def keepPlan (policy : SelectionPolicy D) : Option (Indexed D) → Indexed D → Option (Indexed D) :=
  keep fun left right => better policy left.1 right.1

/-- One turn of the loop of `select_plan`. -/
def consider (policy : SelectionPolicy D) (kept : Holding D) (plan : Indexed D) : Holding D :=
  match (assessPlan plan.1 policy).verdict with
  | .meetsTarget =>
    { kept with
      ready := if plan.1.ready then keepPlan policy kept.ready plan else kept.ready
      cold := if plan.1.ready then kept.cold else keepPlan policy kept.cold plan
      any := keepPlan policy kept.any plan }
  | .ineligible => kept
  | _ => { kept with fallback := keepPlan policy kept.fallback plan }

/-- The plan to use of those that were kept, and the hint at a better one that is cold. -/
def choose (policy : SelectionPolicy D) (kept : Holding D) :
    Option (Indexed D) × Option (Indexed D) :=
  match policy.coldStart, kept.ready with
  | .readyFirst, some ready =>
    (some ready, kept.cold.filter fun cold => ready.1.qualityTier < cold.1.qualityTier)
  | _, _ => (kept.any, none)

def selectPlan (plans : List (PlanEstimate D)) (policy : SelectionPolicy D) : Selection :=
  let kept := plans.zipIdx.foldl (consider policy) {}
  let (chosen, betterCold) := choose policy kept
  match chosen, kept.fallback with
  | some (plan, index), _ =>
    { chosen := some index
      betterCold := betterCold.map (·.2)
      fallback := none
      reason :=
        plan.label ++ (if plan.ready then " (ready)" else " (needs loading)") ++ ": tier " ++
        toString plan.qualityTier ++ ", " ++ milliseconds plan.tokenMs ++
          " per token, first token " ++
        milliseconds plan.firstTokenMs }
  | none, some (plan, index) =>
    { chosen := none
      betterCold := betterCold.map (·.2)
      fallback := some index
      reason := "no plan meets the target; slower option: " ++ plan.label ++ " (" ++
        (assessPlan plan policy).reason ++ ")" }
  | none, none =>
    { chosen := none
      betterCold := betterCold.map (·.2)
      fallback := none
      reason := match plans with
        | [] => "no feasible plan"
        | plan :: _ => "no eligible plan: " ++ (assessPlan plan policy).reason }

/-! ### The comparison -/

/-- The value of a speed as it is compared. -/
def speedValue (speed : D) : WithBot (WithTop ℚ) := (value (known speed)).getD ⊤

lemma value_known (speed : D) : value (known speed) = some (speedValue speed) := by
  have hsome : (value (known speed)).isSome := by
    rw [known]
    split_ifs with hpositive
    · obtain ⟨-, -, x, hx, -⟩ := (lt_iff _ _).mp hpositive
      exact Option.isSome_of_mem hx
    · rw [value_infinite]
      rfl
  obtain ⟨x, hx⟩ := Option.isSome_iff_exists.mp hsome
  rw [speedValue, hx]
  rfl

lemma lt_known (a b : D) : lt (known a) (known b) ↔ speedValue a < speedValue b := by
  rw [lt_iff, value_known, value_known]
  simp

lemma eq_known (a b : D) : eq (known a) (known b) ↔ speedValue a = speedValue b := by
  rw [eq_iff, value_known, value_known]
  simpa using eq_comm

/-- What `better` compares, part by part; the lower key is better. -/
def key (policy : SelectionPolicy D) (plan : PlanEstimate D) :
    ℤᵒᵈ ×ₗ Bool ×ₗ WithBot (WithTop ℚ) ×ₗ Bool ×ₗ Bool ×ₗ Nat ×ₗ Nat ×ₗ List Char :=
  toLex (OrderDual.toDual plan.qualityTier,
    toLex (!quick plan policy,
      toLex (speedValue plan.tokenMs,
        toLex (!plan.ready, toLex (!plan.cacheWarm, toLex (plan.resourceBytes.toNat,
      toLex (plan.providers.toNat, plan.label.toList)))))))

variable {policy : SelectionPolicy D} {left right plan : PlanEstimate D}
  {plans : List (PlanEstimate D)}

/-- A test that compares one part and leaves the rest to what follows. -/
lemma ite_lex {α : Type} [Preorder α] {a b : α} {c : Prop} [Decidable c] {x y : Bool} {p : Prop}
    (hc : c ↔ a ≠ b) (hx : a ≠ b → (x ↔ a < b)) (hy : y ↔ p) :
    (if c then x else y) = true ↔ a < b ∨ a = b ∧ p := by
  by_cases hab : a = b
  · rw [if_neg (by rw [hc, not_not]; exact hab), hy, hab]
    simp
  · rw [if_pos (hc.mpr hab), hx hab]
    simp [hab]

/-- A flag that is better set. -/
lemma flag_lt {a b : Bool} (h : (!a) ≠ !b) : a = true ↔ (!a) < !b := by
  cases a <;> cases b <;> simp_all

lemma better_iff : better policy left right ↔ key policy left < key policy right := by
  simp only [key, Prod.Lex.toLex_lt_toLex]
  refine ite_lex (by simp) (fun _ => by simp) ?_
  refine ite_lex (by simp) flag_lt ?_
  refine ite_lex (by simp [← eq_known]) (fun _ => lt_known _ _) ?_
  refine ite_lex (by simp) flag_lt ?_
  refine ite_lex (by simp) flag_lt ?_
  refine ite_lex (by rw [Ne, Ne, UInt64.toNat_inj]) (fun _ => by simp [UInt64.lt_iff_toNat_lt]) ?_
  refine ite_lex (by rw [Ne, Ne, UInt64.toNat_inj]) (fun _ => by simp [UInt64.lt_iff_toNat_lt]) ?_
  rw [decide_eq_true_eq]

lemma better_irrefl (plan : PlanEstimate D) : ¬ better policy plan plan := by
  rw [better_iff]
  exact lt_irrefl _

lemma better_trans (a b c : PlanEstimate D) (hab : better policy a b) (hbc : better policy b c) :
    better policy a c := by
  rw [better_iff] at hab hbc ⊢
  exact hab.trans hbc

/-- Whatever the numbers are, `better` is a strict weak order. -/
lemma better_strictWeakOrder (policy : SelectionPolicy D) :
    IsStrictWeakOrder (PlanEstimate D) fun left right => better policy left right where
  irrefl := better_irrefl
  trans := better_trans
  incomp_trans a b c := by
    simp only [better_iff, not_lt]
    intro hab hbc
    exact ⟨hbc.1.trans hab.1, hab.2.trans hbc.2⟩

/-- Plans with different labels compare. -/
lemma better_total (h : left.label ≠ right.label) :
    better policy left right ∨ better policy right left := by
  rw [better_iff, better_iff]
  apply lt_or_gt_of_ne
  intro hkey
  simp only [key, EmbeddingLike.apply_eq_iff_eq, Prod.mk.injEq, String.toList_inj] at hkey
  exact h hkey.2.2.2.2.2.2.2

/-! ### What the loop keeps -/

def meets (policy : SelectionPolicy D) (plan : PlanEstimate D) : Bool :=
  (assessPlan plan policy).verdict = .meetsTarget

/-- The plan may be accepted by the user only. -/
def slower (policy : SelectionPolicy D) (plan : PlanEstimate D) : Bool :=
  (assessPlan plan policy).verdict = .belowTarget || (assessPlan plan policy).verdict = .unverified

/-- The best of the plans that have a property. -/
def bestPlan (policy : SelectionPolicy D) (p : PlanEstimate D → Bool)
    (plans : List (PlanEstimate D)) :
    Option (PlanEstimate D) :=
  pick (better policy) (plans.filter p)

/-- The best of the plans that have a property, with its index. -/
def bestIndexed (policy : SelectionPolicy D) (p : PlanEstimate D → Bool)
    (plans : List (Indexed D)) :
    Option (Indexed D) :=
  pick (fun left right => better policy left.1 right.1) (plans.filter fun plan => p plan.1)

lemma foldl_consider (plans : List (Indexed D)) :
    plans.foldl (consider policy) {} =
      { ready := bestIndexed policy (fun plan => meets policy plan && plan.ready) plans
        cold := bestIndexed policy (fun plan => meets policy plan && !plan.ready) plans
        any := bestIndexed policy (meets policy) plans
        fallback := bestIndexed policy (slower policy) plans } := by
  induction plans using List.reverseRecOn with
  | nil => rfl
  | append_singleton plans plan ih =>
    rw [List.foldl_concat, ih]
    simp only [bestIndexed, List.filter_append, List.filter_singleton, consider, meets, slower]
    cases hverdict : (assessPlan plan.1 policy).verdict <;> cases hready : plan.1.ready <;>
      simp [pick_concat, keepPlan]

/-! ### What is selected -/

lemma map_bestIndexed (policy : SelectionPolicy D) (p : PlanEstimate D → Bool)
    (plans : List (PlanEstimate D)) :
    (bestIndexed policy p plans.zipIdx).map (·.1) = bestPlan policy p plans := by
  have hfilter : (plans.zipIdx.filter fun plan => p plan.1).map (·.1) = plans.filter p :=
    calc (plans.zipIdx.filter fun plan => p plan.1).map (·.1)
        = (plans.zipIdx.map (·.1)).filter p := List.filter_map.symm
      _ = plans.filter p := by rw [List.zipIdx_map_fst]
  rw [bestIndexed, pick_map (fun plan : Indexed D => plan.1), hfilter, bestPlan]

/-- What was kept stands in the list at its index. -/
lemma getElem?_bestIndexed {p : PlanEstimate D → Bool} {found : Indexed D}
    (h : bestIndexed policy p plans.zipIdx = some found) : plans[found.2]? = some found.1 := by
  have hmem := List.mem_of_mem_filter (pick_mem h)
  exact List.mem_zipIdx_iff_getElem?.mp hmem

def planAt (plans : List (PlanEstimate D)) (index : Option Nat) : Option (PlanEstimate D) :=
  index.bind (plans[·]?)

/-- The index is that of the plan, if there is one. -/
structure Located (plans : List (PlanEstimate D)) (index : Option Nat)
    (plan : Option (PlanEstimate D)) :
    Prop where
  planAt : planAt plans index = plan
  isSome : index.isSome = plan.isSome

omit [Numbers D] in
lemma Located.getElem? {index : Option Nat} {found : Option (PlanEstimate D)}
    (h : Located plans index found) {i : Nat} (hi : i ∈ index) : ∃ plan ∈ plans[i]?,
      found = some plan := by
  obtain rfl := Option.mem_def.mp hi
  obtain ⟨plan, hplan⟩ := Option.isSome_iff_exists.mp (h.isSome.symm.trans rfl)
  exact ⟨plan, h.planAt.trans hplan, hplan⟩

lemma located_some {found : Indexed D} {p : PlanEstimate D → Bool}
    (h : bestIndexed policy p plans.zipIdx = some found) :
    Located plans (some found.2) (some found.1) :=
  ⟨getElem?_bestIndexed h, rfl⟩

lemma located_bestIndexed (policy : SelectionPolicy D) (p : PlanEstimate D → Bool)
    (plans : List (PlanEstimate D)) :
    Located plans ((bestIndexed policy p plans.zipIdx).map (·.2)) (bestPlan policy p plans) := by
  rw [← map_bestIndexed]
  cases hfound : bestIndexed policy p plans.zipIdx with
  | none => exact ⟨rfl, rfl⟩
  | some found => exact located_some hfound

/-- The plan to use and the hint, as plans. -/
def chosenPlans (policy : SelectionPolicy D) (plans : List (PlanEstimate D)) :
    Option (PlanEstimate D) × Option (PlanEstimate D) :=
  match policy.coldStart, bestPlan policy (fun plan => meets policy plan && plan.ready) plans with
  | .readyFirst, some ready =>
    (some ready, (bestPlan policy (fun plan => meets policy plan && !plan.ready) plans).filter
      fun cold => ready.qualityTier < cold.qualityTier)
  | _, _ => (bestPlan policy (meets policy) plans, none)

def fallbackPlan (policy : SelectionPolicy D) (plans : List (PlanEstimate D)) :
    Option (PlanEstimate D) :=
  if (chosenPlans policy plans).1.isSome then none else bestPlan policy (slower policy) plans

/-- The parts of the answer, given what was kept. -/
lemma selectPlan_eq (plans : List (PlanEstimate D)) (policy : SelectionPolicy D) :
    let kept := plans.zipIdx.foldl (consider policy) {}
    (selectPlan plans policy).chosen = (choose policy kept).1.map (·.2) ∧
      (selectPlan plans policy).betterCold = (choose policy kept).2.map (·.2) ∧
      (selectPlan plans policy).fallback =
        if (choose policy kept).1.isSome then none else kept.fallback.map (·.2) := by
  unfold selectPlan
  generalize plans.zipIdx.foldl (consider policy) {} = kept
  rcases hchoose : choose policy kept with ⟨_ | ⟨plan, index⟩, cold⟩ <;>
    cases hfallback : kept.fallback <;> simp [hchoose, hfallback]

/-- The choice among what was kept is the choice among the plans. -/
lemma located_choose (policy : SelectionPolicy D) (plans : List (PlanEstimate D)) :
    let kept := plans.zipIdx.foldl (consider policy) {}
    Located plans ((choose policy kept).1.map (·.2)) (chosenPlans policy plans).1 ∧
      Located plans ((choose policy kept).2.map (·.2)) (chosenPlans policy plans).2 := by
  have hready := map_bestIndexed policy (fun plan => meets policy plan && plan.ready) plans
  have hcold := map_bestIndexed policy (fun plan => meets policy plan && !plan.ready) plans
  have hwhole := located_bestIndexed policy (meets policy) plans
  rw [foldl_consider, chosenPlans, ← hready, ← hcold]
  cases hstart : policy.coldStart with
  | wait =>
    simp only [choose, hstart]
    exact ⟨hwhole, rfl, rfl⟩
  | readyFirst =>
    cases hfound : bestIndexed policy
      (fun plan => meets policy plan && plan.ready) plans.zipIdx with
    | none =>
      simp only [choose, hstart]
      exact ⟨hwhole, rfl, rfl⟩
    | some ready =>
      simp only [choose, hstart]
      refine ⟨located_some hfound, ?_⟩
      cases hhint : bestIndexed policy
        (fun plan => meets policy plan && !plan.ready) plans.zipIdx with
      | none => exact ⟨rfl, rfl⟩
      | some cold =>
        by_cases htier : ready.1.qualityTier < cold.1.qualityTier
        · simpa [Option.filter_some, htier] using located_some hhint
        · have hnone : Located plans none none := ⟨rfl, rfl⟩
          simpa [Option.filter_some, htier] using hnone

/-- The indices that `select_plan` returns are those of the best plans. -/
lemma located_selectPlan (policy : SelectionPolicy D) (plans : List (PlanEstimate D)) :
    Located plans (selectPlan plans policy).chosen (chosenPlans policy plans).1 ∧
      Located plans (selectPlan plans policy).betterCold (chosenPlans policy plans).2 ∧
      Located plans (selectPlan plans policy).fallback (fallbackPlan policy plans) := by
  obtain ⟨hchosen, hcold, hfallback⟩ := selectPlan_eq plans policy
  obtain ⟨hplan, hhint⟩ := located_choose policy plans
  rw [hchosen, hcold, hfallback]
  refine ⟨hplan, hhint, ?_⟩
  rw [fallbackPlan, ← hplan.isSome, Option.isSome_map]
  split_ifs
  · exact ⟨rfl, rfl⟩
  · rw [foldl_consider]
    exact located_bestIndexed _ _ _

/-! ### What is promised of a selection -/

lemma bestPlan_spec {p : PlanEstimate D → Bool} (h : bestPlan policy p plans = some plan) :
    plan ∈ plans ∧ p plan ∧ ∀ other ∈ plans, p other → ¬ better policy other plan := by
  obtain ⟨hmem, hp⟩ := List.mem_filter.mp (pick_mem h)
  refine ⟨hmem, hp, fun other hother hpother => ?_⟩
  exact not_better_of_pick better_irrefl better_trans h (List.mem_filter.mpr ⟨hother, hpother⟩)

lemma bestPlan_isSome {p : PlanEstimate D → Bool} :
    (bestPlan policy p plans).isSome ↔ ∃ plan ∈ plans, p plan := by
  rw [bestPlan, pick_isSome, ne_eq, List.filter_eq_nil_iff]
  simp

lemma bestPlan_perm {plans' : List (PlanEstimate D)} {p : PlanEstimate D → Bool}
    (hlabels : (plans.map (·.label)).Nodup) (h : plans.Perm plans') :
    bestPlan policy p plans = bestPlan policy p plans' := by
  refine pick_perm better_irrefl better_trans
    (fun a ha b hb hne => better_total fun hlabel => hne ?_)
    (h.filter p)
  exact List.inj_on_of_nodup_map hlabels (List.mem_of_mem_filter ha)
    (List.mem_of_mem_filter hb) hlabel

/-- What a selection promises. -/
structure Selects (policy : SelectionPolicy D) (plans : List (PlanEstimate D)) (s : Selection) :
    Prop where
  chosen_isSome : s.chosen.isSome ↔ ∃ plan ∈ plans, meets policy plan
  chosen : ∀ index ∈ s.chosen, ∃ plan ∈ plans[index]?, meets policy plan ∧
    ∀ other ∈ plans, meets policy other → other.ready = plan.ready → ¬ better policy other plan
  /-- Answer on a plan that is serving, if one qualifies, and report a better one that is not. -/
  readyFirst : policy.coldStart = .readyFirst →
    (∃ other ∈ plans, meets policy other ∧ other.ready) →
    ∀ plan ∈ planAt plans s.chosen, plan.ready ∧
      (s.betterCold.isSome ↔ ∃ cold ∈ plans, meets policy cold ∧ !cold.ready ∧
        plan.qualityTier < cold.qualityTier) ∧
      ∀ index ∈ s.betterCold, ∃ cold ∈ plans[index]?, meets policy cold ∧ !cold.ready ∧
        plan.qualityTier < cold.qualityTier ∧
        ∀ other ∈ plans, meets policy other → !other.ready → ¬ better policy other cold
  /-- Take the best plan, ready or not. -/
  best : policy.coldStart = .wait ∨ (∀ other ∈ plans, meets policy other → !other.ready) →
    s.betterCold = none ∧ ∀ plan ∈ planAt plans s.chosen, ∀ other ∈ plans, meets policy other →
      ¬ better policy other plan
  fallback_isSome : s.fallback.isSome ↔
    (∀ plan ∈ plans, ¬ meets policy plan) ∧ ∃ plan ∈ plans, slower policy plan
  fallback : ∀ index ∈ s.fallback, ∃ plan ∈ plans[index]?, slower policy plan ∧
    ∀ other ∈ plans, slower policy other → ¬ better policy other plan
  not_ineligible : ∀ index, (index ∈ s.chosen ∨ index ∈ s.betterCold ∨ index ∈ s.fallback) →
    ∃ plan ∈ plans[index]?, (assessPlan plan policy).verdict ≠ .ineligible

/-- The plan to use is one that meets the target, if there is one. -/
lemma chosenPlans_isSome : (chosenPlans policy plans).1.isSome ↔
    ∃ plan ∈ plans, meets policy plan := by
  rw [chosenPlans]
  split
  · rename_i ready hstart hready
    obtain ⟨hmem, hmeets, -⟩ := bestPlan_spec hready
    rw [Bool.and_eq_true] at hmeets
    exact iff_of_true rfl ⟨ready, hmem, hmeets.1⟩
  · exact bestPlan_isSome

lemma chosenPlans_spec (h : (chosenPlans policy plans).1 = some plan) :
    meets policy plan ∧ ∀ other ∈ plans, meets policy other → other.ready = plan.ready →
      ¬ better policy other plan := by
  rw [chosenPlans] at h
  split at h
  · rename_i ready hstart hready
    obtain rfl := Option.some.inj h
    obtain ⟨-, hmeets, hbest⟩ := bestPlan_spec hready
    rw [Bool.and_eq_true] at hmeets
    refine ⟨hmeets.1, fun other hother hmeets' hsame => hbest other hother ?_⟩
    rw [Bool.and_eq_true]
    exact ⟨hmeets', hsame.trans hmeets.2⟩
  · obtain ⟨-, hmeets, hbest⟩ := bestPlan_spec h
    exact ⟨hmeets, fun other hother hmeets' _ => hbest other hother hmeets'⟩

/-- Where a plan is serving, the choice is the best of those, and the hint the best of the others if
its tier is higher. -/
lemma chosenPlans_ready (hstart : policy.coldStart = .readyFirst)
    (hready : ∃ other ∈ plans, meets policy other ∧ other.ready)
    (h : (chosenPlans policy plans).1 = some plan) :
    plan.ready ∧ (chosenPlans policy plans).2 =
      (bestPlan policy (fun plan => meets policy plan && !plan.ready) plans).filter fun cold =>
        plan.qualityTier < cold.qualityTier := by
  have hsome : (bestPlan policy (fun plan => meets policy plan && plan.ready) plans).isSome := by
    rw [bestPlan_isSome]
    simpa using hready
  obtain ⟨found, hfound⟩ := Option.isSome_iff_exists.mp hsome
  obtain ⟨-, hmeets, -⟩ := bestPlan_spec hfound
  rw [Bool.and_eq_true] at hmeets
  rw [chosenPlans, hstart, hfound] at h ⊢
  obtain rfl := Option.some.inj h
  exact ⟨hmeets.2, rfl⟩

/-- Otherwise it is the best of all. -/
lemma chosenPlans_best (h : policy.coldStart = .wait ∨ ∀ other ∈ plans, meets policy other →
    !other.ready) :
    chosenPlans policy plans = (bestPlan policy (meets policy) plans, none) := by
  rw [chosenPlans]
  split
  · rename_i ready hstart hready
    obtain ⟨hmem, hmeets, -⟩ := bestPlan_spec hready
    rw [Bool.and_eq_true] at hmeets
    rcases h with hwait | hcold
    · rw [hwait] at hstart
      cases hstart
    · have hother := hcold ready hmem hmeets.1
      rw [hmeets.2] at hother
      cases hother
  · rfl

lemma chosenPlans_hint {cold : PlanEstimate D} (h : (chosenPlans policy plans).2 = some cold) :
    meets policy cold := by
  rw [chosenPlans] at h
  split at h
  · have hmeets := (bestPlan_spec (Option.eq_some_of_filter_eq_some h)).2.1
    rw [Bool.and_eq_true] at hmeets
    exact hmeets.1
  · cases h

/-- A plan of a higher tier is better. -/
lemma tier_le_of_not_better (h : ¬ better policy left right) :
    left.qualityTier ≤ right.qualityTier := by
  by_contra hlt
  refine h ?_
  rw [better, if_pos (not_le.mp hlt).ne', decide_eq_true_eq]
  exact not_le.mp hlt

/-- The hint is the best of the plans that are cold, if its tier is higher. -/
lemma hint_spec {tier : Int} {hint : Option (PlanEstimate D)}
    (h : hint = (bestPlan policy (fun plan => meets policy plan && !plan.ready) plans).filter
      fun cold =>
      tier < cold.qualityTier) :
    (hint.isSome ↔ ∃ cold ∈ plans, meets policy cold ∧ !cold.ready ∧ tier < cold.qualityTier) ∧
      ∀ cold ∈ hint, meets policy cold ∧ !cold.ready ∧ tier < cold.qualityTier ∧
        ∀ other ∈ plans, meets policy other → !other.ready → ¬ better policy other cold := by
  have hspec : ∀ cold ∈ hint, cold ∈ plans ∧ meets policy cold ∧ !cold.ready ∧
      tier < cold.qualityTier ∧
      ∀ other ∈ plans, meets policy other → !other.ready → ¬ better policy other cold := by
    intro cold hcold
    rw [h, Option.mem_def, Option.filter_eq_some_iff, decide_eq_true_eq] at hcold
    obtain ⟨hmem, hmeets, hbest⟩ := bestPlan_spec hcold.1
    rw [Bool.and_eq_true] at hmeets
    refine ⟨hmem, hmeets.1, hmeets.2, hcold.2,
      fun other hother hmeets' hready => hbest other hother ?_⟩
    rw [Bool.and_eq_true]
    exact ⟨hmeets', hready⟩
  refine ⟨⟨fun hsome => ?_, ?_⟩, fun cold hcold => (hspec cold hcold).2⟩
  · obtain ⟨cold, hcold⟩ := Option.isSome_iff_exists.mp hsome
    obtain ⟨hmem, hmeets, hready, htier, -⟩ := hspec cold hcold
    exact ⟨cold, hmem, hmeets, hready, htier⟩
  · rintro ⟨cold, hmem, hmeets, hready, htier⟩
    have hcold : (meets policy cold && !cold.ready) = true := by
      rw [Bool.and_eq_true]
      exact ⟨hmeets, hready⟩
    obtain ⟨best, hbest⟩ := Option.isSome_iff_exists.mp
      (bestPlan_isSome.mpr ⟨cold, hmem, hcold⟩ :
        (bestPlan policy (fun plan => meets policy plan && !plan.ready) plans).isSome)
    have hle := tier_le_of_not_better ((bestPlan_spec hbest).2.2 cold hmem hcold)
    rw [h, hbest, Option.filter_some, if_pos (decide_eq_true (htier.trans_le hle))]
    rfl

lemma not_ineligible_of_meets (h : meets policy plan) :
    (assessPlan plan policy).verdict ≠ .ineligible := by
  rw [of_decide_eq_true h]
  exact Verdict.noConfusion

lemma not_ineligible_of_slower (h : slower policy plan) :
    (assessPlan plan policy).verdict ≠ .ineligible := by
  rw [slower, Bool.or_eq_true, decide_eq_true_eq, decide_eq_true_eq] at h
  rcases h with h | h <;> rw [h] <;> exact Verdict.noConfusion

lemma selects (policy : SelectionPolicy D) (plans : List (PlanEstimate D)) :
    Selects policy plans (selectPlan plans policy) := by
  obtain ⟨hchosen, hhint, hfallback⟩ := located_selectPlan policy plans
  have hslower : ∀ plan, fallbackPlan policy plans = some plan →
      slower policy plan ∧ ∀ other ∈ plans, slower policy other → ¬ better policy other plan := by
    intro plan h
    rw [fallbackPlan] at h
    split_ifs at h
    exact (bestPlan_spec h).2
  refine ⟨?_, ?_, ?_, ?_, ?_, ?_, ?_⟩
  · rw [hchosen.isSome, chosenPlans_isSome]
  · intro index hindex
    obtain ⟨plan, hplan, hfound⟩ := hchosen.getElem? hindex
    exact ⟨plan, hplan, chosenPlans_spec hfound⟩
  · intro hstart hready plan hplan
    rw [hchosen.planAt] at hplan
    obtain ⟨hserving, hcold⟩ := chosenPlans_ready hstart hready hplan
    obtain ⟨hsome, hcold⟩ := hint_spec hcold
    refine ⟨hserving, hhint.isSome ▸ hsome, fun index hindex => ?_⟩
    obtain ⟨cold, hmem, hfound⟩ := hhint.getElem? hindex
    exact ⟨cold, hmem, hcold cold hfound⟩
  · intro hbest
    rw [hchosen.planAt, chosenPlans_best hbest]
    refine ⟨?_, fun plan hplan => (bestPlan_spec hplan).2.2⟩
    rw [← Option.isNone_iff_eq_none, ← Option.not_isSome, hhint.isSome, chosenPlans_best hbest]
    rfl
  · rw [hfallback.isSome, fallbackPlan]
    split_ifs with hsome
    · have hmeets := chosenPlans_isSome.mp hsome
      simp only [Option.isSome_none, Bool.false_eq_true, false_iff, not_and]
      intro hnone
      obtain ⟨plan, hmem, hplan⟩ := hmeets
      exact absurd hplan (hnone plan hmem)
    · rw [chosenPlans_isSome] at hsome
      rw [bestPlan_isSome]
      refine (and_iff_right fun plan hmem hplan => hsome ⟨plan, hmem, hplan⟩).symm
  · intro index hindex
    obtain ⟨plan, hplan, hfound⟩ := hfallback.getElem? hindex
    exact ⟨plan, hplan, hslower plan hfound⟩
  · rintro index (hindex | hindex | hindex)
    · obtain ⟨plan, hplan, hfound⟩ := hchosen.getElem? hindex
      exact ⟨plan, hplan, not_ineligible_of_meets (chosenPlans_spec hfound).1⟩
    · obtain ⟨plan, hplan, hfound⟩ := hhint.getElem? hindex
      exact ⟨plan, hplan, not_ineligible_of_meets (chosenPlans_hint hfound)⟩
    · obtain ⟨plan, hplan, hfound⟩ := hfallback.getElem? hindex
      exact ⟨plan, hplan, not_ineligible_of_slower (hslower plan hfound).1⟩

/-- The choice among plans with different labels does not depend on their order, and keeps what it
promises. -/
theorem selectPlan_spec (policy : SelectionPolicy D) (hlabels : (plans.map (·.label)).Nodup) :
    IsStrictWeakOrder (PlanEstimate D) (fun left right => better policy left right) ∧
    Selects policy plans (selectPlan plans policy) ∧
    ∀ plans', plans.Perm plans' →
      planAt plans' (selectPlan plans' policy).chosen =
        planAt plans (selectPlan plans policy).chosen ∧
      planAt plans' (selectPlan plans' policy).betterCold =
        planAt plans (selectPlan plans policy).betterCold ∧
      planAt plans' (selectPlan plans' policy).fallback =
        planAt plans (selectPlan plans policy).fallback := by
  refine ⟨better_strictWeakOrder policy, selects policy plans, fun plans' hperm => ?_⟩
  have hplans : chosenPlans policy plans' = chosenPlans policy plans := by
    simp only [chosenPlans, bestPlan_perm hlabels hperm]
  have hfallback : fallbackPlan policy plans' = fallbackPlan policy plans := by
    simp only [fallbackPlan, hplans, bestPlan_perm hlabels hperm]
  obtain ⟨hchosen, hhint, hslower⟩ := located_selectPlan policy plans
  obtain ⟨hchosen', hhint', hslower'⟩ := located_selectPlan policy plans'
  rw [hchosen.planAt, hchosen'.planAt, hhint.planAt, hhint'.planAt, hslower.planAt, hslower'.planAt,
    hplans, hfallback]
  exact ⟨rfl, rfl, rfl⟩

end

def smallPlan (label : String) (tier : Int) (ready : Bool) : PlanEstimate Time where
  label
  qualityTier := tier
  context := 32768
  providers := 2
  ready
  measured := true
  tokenMs := ofNat 20
  firstTokenMs := ofNat 800
  loadMs := ofNat 0
  stallP95Ms := ofNat 0
  cacheWarm := false
  resourceBytes := 1

def smallPolicy : SelectionPolicy Time where
  targetTokensPerS := ofNat 20
  firstTokenTargetMs := ofNat 2000
  firstTokenMaxMs := ofNat 5000
  context := 32768
  maxProviders := 5
  stallP95Ms := ofNat 1000
  margin := decimal 20 2
  coldStart := .readyFirst

theorem selectPlan_small :
    ∃ cold, (selectPlan [smallPlan "7b" 30 true, smallPlan "14b" 40 false] smallPolicy).chosen =
      some 0 ∧
      planAt [smallPlan "14b" 40 false, smallPlan "7b" 30 true]
        (selectPlan [smallPlan "14b" 40 false, smallPlan "7b" 30 true] smallPolicy).betterCold =
          some cold ∧
      cold.label = "14b" := by
  have hlabels : ([smallPlan "7b" 30 true, smallPlan "14b" 40 false].map (·.label)).Nodup := by
    decide
  obtain ⟨-, -, hsame⟩ := selectPlan_spec smallPolicy hlabels
  obtain ⟨-, hhint, -⟩ := hsame _ (List.Perm.swap _ _ [])
  exact ⟨smallPlan "14b" 40 false, by decide +kernel, hhint.trans (by decide +kernel), rfl⟩

end ProviderOwned.Planner
