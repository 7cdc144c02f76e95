import Mathlib.Tactic.Common
import Mathlib.Tactic.TypeStar

/-!
# Lists up to a marker

`upTo p l` is `l` up to and including its first element that satisfies `p`: what a reader takes
from a stream that ends with a marked element.
-/

namespace List

variable {α : Type*} {p : α → Bool} {l m : List α} {a : α}

/-- The elements of a list up to and including the first that satisfies `p`. -/
def upTo (p : α → Bool) : List α → List α
  | [] => []
  | a :: l => if p a then [a] else a :: upTo p l

@[simp] lemma upTo_nil : upTo p [] = [] := rfl

lemma upTo_cons : upTo p (a :: l) = if p a then [a] else a :: upTo p l := rfl

lemma any_upTo : (upTo p l).any p = l.any p := by
  induction l with
  | nil => rfl
  | cons a l ih =>
    rw [upTo_cons]
    split_ifs with hp
    · simp [hp]
    · simp [ih]

/-- Past a marked element nothing counts. -/
lemma upTo_append_of_any (h : l.any p) : upTo p (l ++ m) = upTo p l := by
  induction l with
  | nil => simp at h
  | cons a l ih =>
    rw [cons_append, upTo_cons, upTo_cons]
    split_ifs with hp
    · rfl
    · rw [ih (by simpa [hp] using h)]

/-- Without a marked element in front, reading goes on. -/
lemma upTo_append_of_not_any (h : ¬ l.any p) : upTo p (l ++ m) = l ++ upTo p m := by
  induction l with
  | nil => rfl
  | cons a l ih =>
    simp only [any_cons, Bool.or_eq_true, not_or] at h
    rw [cons_append, upTo_cons, if_neg h.1, ih h.2, cons_append]

lemma upTo_eq_self_of_not_any (h : ¬ l.any p) : upTo p l = l := by
  simpa using upTo_append_of_not_any (m := []) h

lemma upTo_append_cons_of_marked (h : ¬ l.any p) (ha : p a) :
    upTo p (l ++ a :: m) = l ++ [a] := by
  rw [upTo_append_of_not_any h, upTo_cons, if_pos ha]

end List
