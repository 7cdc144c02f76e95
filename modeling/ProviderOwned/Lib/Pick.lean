import Mathlib.Data.List.Induction
import Mathlib.Data.List.Perm.Basic
import Mathlib.Tactic.Common
import Mathlib.Tactic.TypeStar

/-!
# The best of a list

The loop that keeps the better of what it has and what comes next (`pick`). For a strict partial
order nothing in the list beats what is kept; where any two elements compare, the order of the list
does not matter.
-/

namespace Pick

variable {α : Type*} (better : α → α → Bool)

/-- The better one of what was kept and a new one, which has to beat it. -/
def keep : Option α → α → Option α
  | none, a => some a
  | some kept, a => if better a kept then some a else some kept

def pick (l : List α) : Option α := l.foldl (keep better) none

variable {better} {l l' : List α} {a b : α}

lemma foldl_keep_some (l : List α) (a : α) : ∃ b, l.foldl (keep better) (some a) = some b := by
  induction l generalizing a with
  | nil => exact ⟨a, rfl⟩
  | cons c l ih =>
    rw [List.foldl_cons, keep]
    split_ifs
    · exact ih c
    · exact ih a

lemma pick_eq_none : pick better l = none ↔ l = [] := by
  constructor
  · intro h
    cases l with
    | nil => rfl
    | cons a l =>
      obtain ⟨b, hb⟩ : ∃ b, l.foldl (keep better) (some a) = some b := foldl_keep_some l a
      rw [pick, List.foldl_cons, keep, hb] at h
      cases h
  · rintro rfl
    rfl

lemma pick_isSome : (pick better l).isSome ↔ l ≠ [] := by
  rw [← not_iff_not, not_not, Option.not_isSome_iff_eq_none]
  exact pick_eq_none

lemma pick_concat : pick better (l ++ [a]) = keep better (pick better l) a := List.foldl_concat ..

/-- What is kept is of the list. -/
lemma pick_mem (h : pick better l = some a) : a ∈ l := by
  induction l using List.reverseRecOn generalizing a with
  | nil => cases h
  | append_singleton l c ih =>
    rw [pick_concat] at h
    cases hpick : pick better l with
    | none =>
      rw [hpick] at h
      exact Option.some.inj h ▸ List.mem_append_right _ List.mem_cons_self
    | some kept =>
      rw [hpick, keep] at h
      split_ifs at h
      · exact Option.some.inj h ▸ List.mem_append_right _ List.mem_cons_self
      · exact Option.some.inj h ▸ List.mem_append_left _ (ih hpick)

/-- Nothing in the list beats what is kept. -/
lemma not_better_of_pick (hirrefl : ∀ a, ¬ better a a)
    (htrans : ∀ a b c, better a b → better b c → better a c) (h : pick better l = some a)
    (hb : b ∈ l) :
    ¬ better b a := by
  induction l using List.reverseRecOn generalizing a with
  | nil => cases hb
  | append_singleton l c ih =>
    rw [pick_concat] at h
    rw [List.mem_append, List.mem_singleton] at hb
    cases hpick : pick better l with
    | none =>
      rw [pick_eq_none.mp hpick] at hb
      rw [hpick] at h
      obtain rfl := hb.resolve_left List.not_mem_nil
      exact Option.some.inj h ▸ hirrefl b
    | some kept =>
      rw [hpick, keep] at h
      split_ifs at h with hbetter
      · obtain rfl := Option.some.inj h
        rcases hb with hb | rfl
        · exact fun hbeats => ih hpick hb (htrans _ _ _ hbeats hbetter)
        · exact hirrefl b
      · obtain rfl := Option.some.inj h
        rcases hb with hb | rfl
        · exact ih hpick hb
        · exact hbetter

/-- Where any two elements compare, every order of the list keeps the same. -/
lemma pick_perm (hirrefl : ∀ a, ¬ better a a)
    (htrans : ∀ a b c, better a b → better b c → better a c)
    (htotal : ∀ a ∈ l, ∀ b ∈ l, a ≠ b → better a b ∨ better b a) (h : l.Perm l') :
    pick better l = pick better l' := by
  cases hpick : pick better l with
  | none =>
    have hl' : l' = [] := List.nil_perm.mp (pick_eq_none.mp hpick ▸ h)
    rw [hl']
    rfl
  | some a =>
    cases hpick' : pick better l' with
    | none =>
      have hl : l = [] := List.perm_nil.mp (pick_eq_none.mp hpick' ▸ h)
      rw [hl] at hpick
      cases hpick
    | some b =>
      have ha := pick_mem hpick
      have hb := h.mem_iff.mpr (pick_mem hpick')
      by_contra hne
      rcases htotal a ha b hb (fun hab => hne (congrArg some hab)) with hab | hba
      · exact not_better_of_pick hirrefl htrans hpick' (h.mem_iff.mp ha) hab
      · exact not_better_of_pick hirrefl htrans hpick hb hba

/-- The loop that passes some elements over keeps the best of the others. -/
lemma foldl_if_keep (p : α → Bool) (kept : Option α) :
    l.foldl (fun kept a => if p a then keep better kept a else kept) kept =
      (l.filter p).foldl (keep better) kept := by
  induction l generalizing kept with
  | nil => rfl
  | cons a l ih =>
    rw [List.foldl_cons, ih, List.filter_cons]
    split_ifs <;> rfl

/-- Picking by what is read off the elements. -/
lemma pick_map {β : Type*} (f : β → α) (l : List β) :
    (pick (fun a b => better (f a) (f b)) l).map f = pick better (l.map f) := by
  have hfold : ∀ (l : List β) (kept : Option β),
      (l.foldl (keep fun a b => better (f a) (f b)) kept).map f =
        (l.map f).foldl (keep better) (kept.map f) := by
    intro l
    induction l with
    | nil => exact fun _ => rfl
    | cons a l ih =>
      intro kept
      rw [List.foldl_cons, List.map_cons, List.foldl_cons, ih]
      cases kept with
      | none => rfl
      | some b =>
        rw [keep, Option.map_some, keep]
        split_ifs <;> rfl
  exact hfold l none

end Pick
