import Mathlib.Algebra.GroupWithZero.Nat
import Mathlib.Algebra.Order.BigOperators.Group.List
import Mathlib.Data.List.Perm.Subperm
import Mathlib.Tactic.Common

/-!
# Sums of the largest elements

In a list sorted from the largest element down, no choice of `n` elements has a larger sum than the
first `n`.
-/

namespace TopSum

variable {l l' : List Nat}

lemma sum_take_le_sum_take_cons {a : Nat} (h : (a :: l).Pairwise (· ≥ ·)) (n : Nat) :
    (l.take n).sum ≤ ((a :: l).take n).sum := by
  obtain ⟨hhead, htail⟩ := List.pairwise_cons.mp h
  cases n with
  | zero => simp
  | succ n =>
    rw [List.take_succ_cons, List.sum_cons, List.take_add_one, List.sum_append, Nat.add_comm]
    refine Nat.add_le_add_right ?_ _
    cases hn : l[n]? with
    | none => simp
    | some b =>
      simp only [Option.toList_some, List.sum_singleton]
      exact hhead b (List.mem_of_getElem? hn)

lemma sum_le_of_sublist (hsub : l'.Sublist l) (h : l.Pairwise (· ≥ ·)) :
    l'.sum ≤ (l.take l'.length).sum := by
  induction hsub with
  | slnil => simp
  | cons a _ ih =>
    exact (ih (List.pairwise_cons.mp h).2).trans (sum_take_le_sum_take_cons h _)
  | cons_cons a _ ih =>
    simpa using ih (List.pairwise_cons.mp h).2

/-- The first elements of a sorted list have the largest sum. -/
lemma sum_le_sum_take (hsub : l'.Subperm l) (h : l.Pairwise (· ≥ ·)) :
    l'.sum ≤ (l.take l'.length).sum := by
  obtain ⟨l₀, hperm, hsub⟩ := hsub
  rw [← hperm.sum_eq, ← hperm.length_eq]
  exact sum_le_of_sublist hsub h

end TopSum
