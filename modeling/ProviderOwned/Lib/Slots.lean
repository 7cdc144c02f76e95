import Mathlib.Data.List.Basic
import Mathlib.Logic.Function.Basic

/-!
# Slots with owners

A bitmap of slots and the slot each key owns. The first free slot goes to a new key and comes back
with it: two keys never own one slot, and the bitmap marks the owned slots and no others (`Owned`).
-/

namespace Slots

variable {κ : Type*} [DecidableEq κ] {used : List Bool} {slot : κ → Option Nat} {a : κ} {i : Nat}

/-- No two keys own one slot, and the marked slots are the owned ones. -/
structure Owned (used : List Bool) (slot : κ → Option Nat) : Prop where
  apart : ∀ a b i, slot a = some i → slot b = some i → a = b
  marked : ∀ i, used[i]? = some true ↔ ∃ a, slot a = some i

omit [DecidableEq κ] in
lemma owned_replicate (n : Nat) : Owned (List.replicate n false) fun _ : κ => none where
  apart a b i ha := by cases ha
  marked i := by
    constructor
    · intro h
      rw [List.getElem?_replicate] at h
      split_ifs at h
      cases h
    · rintro ⟨a, ha⟩
      cases ha

omit [DecidableEq κ] in
/-- A free slot has no owner. -/
lemma Owned.ne_of_free (h : Owned used slot) (hfree : used[i]? = some false) (b : κ) :
    slot b ≠ some i := by
  intro hb
  have hmarked := (h.marked i).mpr ⟨b, hb⟩
  rw [hfree] at hmarked
  cases hmarked

lemma Owned.take (h : Owned used slot) (hnew : slot a = none) (hfree : used[i]? = some false) :
    Owned (used.set i true) (Function.update slot a (some i)) where
  apart b c j hb hc := by
    have hi := h.ne_of_free hfree
    by_cases hba : b = a <;> by_cases hca : c = a
    · rw [hba, hca]
    · rw [hba, Function.update_self] at hb
      rw [Function.update_of_ne hca] at hc
      cases hb
      exact absurd hc (hi c)
    · rw [hca, Function.update_self] at hc
      rw [Function.update_of_ne hba] at hb
      cases hc
      exact absurd hb (hi b)
    · rw [Function.update_of_ne hba] at hb
      rw [Function.update_of_ne hca] at hc
      exact h.apart b c j hb hc
  marked j := by
    have hlt : i < used.length := (List.getElem?_eq_some_iff.mp hfree).1
    by_cases hij : i = j
    · subst hij
      rw [List.getElem?_set_self hlt]
      exact ⟨fun _ => ⟨a, Function.update_self ..⟩, fun _ => rfl⟩
    · rw [List.getElem?_set_ne hij, h.marked j]
      constructor
      · rintro ⟨b, hb⟩
        have hba : b ≠ a := by
          rintro rfl
          rw [hnew] at hb
          cases hb
        exact ⟨b, (Function.update_of_ne hba ..).trans hb⟩
      · rintro ⟨b, hb⟩
        by_cases hba : b = a
        · rw [hba, Function.update_self] at hb
          exact absurd (Option.some.inj hb) hij
        · rw [Function.update_of_ne hba] at hb
          exact ⟨b, hb⟩

lemma Owned.give (h : Owned used slot) (ha : slot a = some i) :
    Owned (used.set i false) (Function.update slot a none) where
  apart b c j hb hc := by
    by_cases hba : b = a
    · rw [hba, Function.update_self] at hb
      cases hb
    by_cases hca : c = a
    · rw [hca, Function.update_self] at hc
      cases hc
    rw [Function.update_of_ne hba] at hb
    rw [Function.update_of_ne hca] at hc
    exact h.apart b c j hb hc
  marked j := by
    have hlt : i < used.length := (List.getElem?_eq_some_iff.mp ((h.marked i).mpr ⟨a, ha⟩)).1
    by_cases hij : i = j
    · subst hij
      rw [List.getElem?_set_self hlt]
      constructor
      · intro hfalse
        cases hfalse
      · rintro ⟨b, hb⟩
        by_cases hba : b = a
        · rw [hba, Function.update_self] at hb
          cases hb
        · rw [Function.update_of_ne hba] at hb
          exact absurd (h.apart b a i hb ha) hba
    · rw [List.getElem?_set_ne hij, h.marked j]
      constructor
      · rintro ⟨b, hb⟩
        have hba : b ≠ a := by
          rintro rfl
          rw [ha] at hb
          exact hij (Option.some.inj hb)
        exact ⟨b, (Function.update_of_ne hba ..).trans hb⟩
      · rintro ⟨b, hb⟩
        by_cases hba : b = a
        · rw [hba, Function.update_self] at hb
          cases hb
        · rw [Function.update_of_ne hba] at hb
          exact ⟨b, hb⟩

end Slots
