import Mathlib.Data.List.Basic
import Mathlib.Order.Basic
import Mathlib.Order.Lattice
import Mathlib.Tactic.Common
import Mathlib.Tactic.TypeStar

/-!
# Improving a table

A table is filled by trying entries one after another: an entry takes the place of the one that
stands under its key if it is less. This is how a dynamic program relaxes the edges into one layer.

An entry of the table at the end stood there before or is one of those that were tried
(`improve_mem`), and where the comparison is that of a cost, it costs no more than any of them
(`improve_le_of_mem`).
-/

namespace Improve

variable {κ α γ : Type*} [DecidableEq κ]

def put (less : α → α → Bool) (table : κ → α) (entry : κ × α) : κ → α :=
  if less entry.2 (table entry.1) then Function.update table entry.1 entry.2 else table

def improve (less : α → α → Bool) (entries : List (κ × α)) (table : κ → α) : κ → α :=
  entries.foldl (put less) table

variable {less : α → α → Bool} {entries : List (κ × α)} {table : κ → α} {k : κ} {a : α}

@[simp] lemma improve_nil : improve less [] table = table := rfl

@[simp] lemma improve_cons {entry : κ × α} :
    improve less (entry :: entries) table = improve less entries (put less table entry) := rfl

lemma improve_append {entries' : List (κ × α)} :
    improve less (entries ++ entries') table = improve less entries' (improve less entries table) :=
  List.foldl_append

/-- After an entry is tried, it stands under its key or what stood there before does. -/
lemma put_eq (less : α → α → Bool) (table : κ → α) (entry : κ × α) (k : κ) :
    put less table entry k = table k ∨ (k = entry.1 ∧ put less table entry k = entry.2) := by
  unfold put
  split_ifs with hless
  · by_cases hk : k = entry.1
    · right
      exact ⟨hk, by rw [hk, Function.update_self]⟩
    · left
      exact Function.update_of_ne hk _ _
  · exact .inl rfl

lemma improve_mem (less : α → α → Bool) (entries : List (κ × α)) (table : κ → α) (k : κ) :
    improve less entries table k = table k ∨ (k, improve less entries table k) ∈ entries := by
  induction entries generalizing table with
  | nil => exact .inl rfl
  | cons entry entries ih =>
    rw [improve_cons]
    rcases ih (put less table entry) with heq | hmem
    · rw [heq]
      rcases put_eq less table entry k with hsame | ⟨rfl, hnew⟩
      · exact .inl hsame
      · right
        rw [hnew]
        exact List.mem_cons_self
    · exact .inr (List.mem_cons_of_mem _ hmem)

/-! ### Entries that beat the empty ones -/

/-- If every entry that is tried meets `P`, and what meets `P` is less than what stood under a key
before, then a key that is tried has an entry that meets `P`. -/
lemma improve_live {P : α → Prop} (hless : ¬ P (table k) → ∀ a, P a → less a (table k))
    (hentries : ∀ entry ∈ entries, P entry.2) (h : P (table k) ∨ (k, a) ∈ entries) :
    P (improve less entries table k) := by
  induction entries generalizing table with
  | nil => exact h.resolve_right List.not_mem_nil
  | cons entry entries ih =>
    obtain ⟨hentry, hrest⟩ := List.forall_mem_cons.mp hentries
    rw [improve_cons]
    rw [List.mem_cons, ← or_assoc] at h
    rcases put_eq less table entry k with hsame | ⟨-, hnew⟩
    · refine ih (hsame ▸ hless) hrest (h.imp_left fun hnow => ?_)
      rw [hsame]
      rcases hnow with htable | rfl
      · exact htable
      · by_contra hnot
        have hput : put less table (k, a) k = a := by
          rw [put, if_pos (hless hnot _ hentry), Function.update_self]
        exact hnot (hsame.symm.trans hput ▸ hentry)
    · exact ih (fun hnot => absurd (hnew ▸ hentry) hnot) hrest (.inl (hnew ▸ hentry))

/-! ### A comparison of costs -/

section

variable [LinearOrder γ] {cost : α → γ} (hless : ∀ a b, less a b ↔ cost a < cost b)

include hless

lemma put_le (entry : κ × α) : cost (put less table entry k) ≤ cost (table k) := by
  unfold put
  split_ifs with h
  · by_cases hk : k = entry.1
    · subst hk
      rw [Function.update_self]
      exact ((hless _ _).mp h).le
    · rw [Function.update_of_ne hk]
  · exact le_rfl

lemma put_le_self (entry : κ × α) : cost (put less table entry entry.1) ≤ cost entry.2 := by
  unfold put
  split_ifs with h
  · rw [Function.update_self]
  · exact not_lt.mp fun hlt => h ((hless _ _).mpr hlt)

lemma improve_le : cost (improve less entries table k) ≤ cost (table k) := by
  induction entries generalizing table with
  | nil => exact le_rfl
  | cons entry entries ih => exact ih.trans (put_le hless entry)

lemma improve_le_of_mem (table : κ → α) (h : (k, a) ∈ entries) :
    cost (improve less entries table k) ≤ cost a := by
  induction entries generalizing table with
  | nil => exact absurd h List.not_mem_nil
  | cons entry entries ih =>
    rw [improve_cons]
    rcases List.mem_cons.mp h with rfl | hmem
    · exact (improve_le hless).trans (put_le_self hless (k, a))
    · exact ih _ hmem

end

end Improve
