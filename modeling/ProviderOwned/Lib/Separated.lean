import Mathlib.Data.List.Basic
import Mathlib.Tactic.Common
import Mathlib.Tactic.TypeStar

/-!
# Lists ended by a separator

Fields that do not contain the separator can be read back from a list in which each of them is
followed by it.
-/

namespace Separated

variable {α : Type*} {sep : α}

/-- Two lists with the same first field have the same rest. -/
lemma append_cons_inj {x y r s : List α} (hx : sep ∉ x) (hy : sep ∉ y)
    (h : x ++ sep :: r = y ++ sep :: s) : x = y ∧ r = s := by
  rcases List.append_eq_append_iff.mp h with ⟨c, rfl, hc⟩ | ⟨c, rfl, hc⟩
  · cases c with
    | nil => exact ⟨by simp, (List.cons.inj hc).2⟩
    | cons d c =>
      obtain ⟨rfl, -⟩ := List.cons.inj hc
      simp at hy
  · cases c with
    | nil => exact ⟨by simp, (List.cons.inj hc).2.symm⟩
    | cons d c =>
      obtain ⟨rfl, -⟩ := List.cons.inj hc
      simp at hx

/-- The fields in order, each followed by the separator. -/
def terminated (sep : α) (fields : List (List α)) : List α :=
  fields.flatMap fun field => field ++ [sep]

@[simp] lemma terminated_nil : terminated sep [] = [] := rfl

@[simp] lemma terminated_cons (field : List α) (fields : List (List α)) :
    terminated sep (field :: fields) = field ++ sep :: terminated sep fields := by
  simp [terminated]

lemma terminated_append (fields more : List (List α)) :
    terminated sep (fields ++ more) = terminated sep fields ++ terminated sep more :=
  List.flatMap_append

lemma terminated_injective {fields others : List (List α)} (hf : ∀ x ∈ fields, sep ∉ x)
    (ho : ∀ x ∈ others, sep ∉ x) (h : terminated sep fields = terminated sep others) :
    fields = others := by
  induction fields generalizing others with
  | nil =>
    cases others with
    | nil => rfl
    | cons y ys => simp at h
  | cons x xs ih =>
    cases others with
    | nil => simp at h
    | cons y ys =>
      obtain ⟨hx, hxs⟩ := List.forall_mem_cons.mp hf
      obtain ⟨hy, hys⟩ := List.forall_mem_cons.mp ho
      rw [terminated_cons, terminated_cons] at h
      obtain ⟨rfl, hrest⟩ := append_cons_inj hx hy h
      rw [ih hxs hys hrest]

end Separated
