import Mathlib.Data.List.Perm.Basic
import Mathlib.Data.List.Nodup
import Mathlib.Tactic.Common
import Mathlib.Tactic.TypeStar

/-!
# Lists with keys, and lists of threads

A map as the list of its values, each with its key: at most one value for a key. Erasing or changing
the value of a key is then a matter of one element, which is all that a count needs to know
(`perm_erase`, `perm_modify`). The same is said of setting one element of a list (`countP_set`),
which is how a thread of many goes on.
-/

namespace Keyed

variable {α κ : Type*} [DecidableEq κ] {key : α → κ} {l : List α} {a : α} {k : κ}

/-- The value of a key and those of the others. -/
lemma perm_erase (hkeys : (l.map key).Nodup) (ha : a ∈ l) :
    l.Perm (a :: l.filter (key · ≠ key a)) := by
  induction l with
  | nil => simp at ha
  | cons b l ih =>
    obtain ⟨hb, hkeys⟩ := List.nodup_cons.mp hkeys
    rcases List.mem_cons.mp ha with rfl | ha
    · have hothers : l.filter (key · ≠ key a) = l := by
        refine List.filter_eq_self.mpr fun c hc => ?_
        simp only [decide_eq_true_eq]
        intro heq
        exact hb (List.mem_map.mpr ⟨c, hc, heq⟩)
      rw [List.filter_cons_of_neg (by simp), hothers]
    · have hne : key b ≠ key a := by
        intro heq
        exact hb (List.mem_map.mpr ⟨a, ha, heq.symm⟩)
      rw [List.filter_cons_of_pos (by simpa using hne)]
      exact ((ih hkeys ha).cons b).trans (List.Perm.swap a b _)

/-- Changing the value of a key. -/
lemma perm_modify (hkeys : (l.map key).Nodup) (ha : a ∈ l) (f : α → α) :
    (l.map fun b => if key b = key a then f b else b).Perm (f a :: l.filter (key · ≠ key a)) := by
  refine ((perm_erase hkeys ha).map _).trans ?_
  rw [List.map_cons, if_pos rfl]
  refine List.Perm.cons _ (List.Perm.of_eq ?_)
  refine (List.map_congr_left fun b hb => ?_).trans (List.map_id _)
  have hne : key b ≠ key a := by simpa using (List.mem_filter.mp hb).2
  simp [hne]

/-- Changing a value in place keeps the keys. -/
lemma map_key_modify {f : α → α} (hf : ∀ b, key (f b) = key b) :
    (l.map fun b => if key b = k then f b else b).map key = l.map key := by
  rw [List.map_map]
  refine List.map_congr_left fun b _ => ?_
  simp only [Function.comp_apply]
  split_ifs
  · exact hf b
  · rfl

/-- Erasing a value after changing it. -/
lemma filter_modify {f : α → α} (hf : ∀ b, key (f b) = key b) :
    (l.map fun b => if key b = k then f b else b).filter (key · ≠ k) = l.filter (key · ≠ k) := by
  induction l with
  | nil => rfl
  | cons b l ih =>
    rw [List.map_cons]
    by_cases hb : key b = k
    · rw [if_pos hb, List.filter_cons_of_neg (by simp [hf, hb]),
        List.filter_cons_of_neg (by simp [hb]), ih]
    · rw [if_neg hb, List.filter_cons_of_pos (by simp [hb]), List.filter_cons_of_pos (by simp [hb]),
        ih]

/-- Finding a value after changing it. -/
lemma find?_modify {f : α → α} (hf : ∀ b, key (f b) = key b) :
    (l.map fun b => if key b = k then f b else b).find? (key · = k) =
      (l.find? (key · = k)).map f := by
  induction l with
  | nil => rfl
  | cons b l ih =>
    rw [List.map_cons, List.find?_cons, List.find?_cons]
    by_cases hb : key b = k
    · simp [hf, hb]
    · simp [hb, ih]

omit [DecidableEq κ] in
lemma nodup_filter (hkeys : (l.map key).Nodup) (p : α → Bool) : ((l.filter p).map key).Nodup :=
  hkeys.sublist (List.filter_sublist.map key)

/-- What `find?` finds for a key is the value of the key. -/
lemma mem_of_find? (h : l.find? (key · = k) = some a) : a ∈ l ∧ key a = k :=
  ⟨List.mem_of_find?_eq_some h, by simpa using List.find?_some h⟩

lemma find?_eq (hkeys : (l.map key).Nodup) (ha : a ∈ l) : l.find? (key · = key a) = some a := by
  cases h : l.find? (key · = key a) with
  | none => exact absurd (List.find?_eq_none.mp h a ha) (by simp)
  | some b =>
    obtain ⟨hb, heq⟩ := mem_of_find? h
    rw [List.inj_on_of_nodup_map hkeys hb ha heq]

/-- One element for another. -/
lemma countP_set {b : α} {i : Nat} (ha : l[i]? = some a) (p : α → Bool) :
    (l.set i b).countP p + (if p a then 1 else 0) = l.countP p + (if p b then 1 else 0) := by
  induction l generalizing i with
  | nil => simp at ha
  | cons c l ih =>
    cases i with
    | zero =>
      obtain rfl : c = a := by simpa using ha
      simp only [List.set_cons_zero, List.countP_cons]
      omega
    | succ i =>
      have hrest := ih (by simpa using ha)
      simp only [List.set_cons_succ, List.countP_cons]
      omega

end Keyed
