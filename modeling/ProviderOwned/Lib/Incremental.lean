import Mathlib.Tactic.Common

/-!
# Readers of a stream that is still growing

A reader takes what it needs from the front of a list and leaves the rest, or it fails; one failure
(`more`) only says that there is too little to read. A reader is steady when what it makes of a list
does not change as the list grows, except that it may stop asking for more, and when it does not
look further than it reads. Steady readers are put together to steady ones.
-/

namespace Incremental

variable {σ ε α β : Type}

/-- A reader of a list of `σ`. -/
abbrev Reader (σ ε α : Type) := List σ → Except ε (α × List σ)

/-- The result of a reader does not depend on what follows, unless it asks for more. -/
structure Steady (more : ε) (r : Reader σ ε α) : Prop where
  length_le : ∀ {input a rest}, r input = .ok (a, rest) → rest.length ≤ input.length
  ok : ∀ {input a rest} (next : List σ), r input = .ok (a, rest) →
    r (input ++ next) = .ok (a, rest ++ next)
  error : ∀ {input e} (next : List σ), r input = .error e → e ≠ more → r (input ++ next) = .error e
  early : ∀ {input next a rest}, r (input ++ next) = .ok (a, rest) → next.length ≤ rest.length →
    ∃ rest', rest = rest' ++ next ∧ r input = .ok (a, rest')

namespace Steady

variable {more : ε} {r s : Reader σ ε α} {k : α × List σ → Except ε (β × List σ)}

lemma pure (a : α) : Steady more (fun input : List σ => Except.ok (a, input)) where
  length_le h := by
    cases h
    exact Nat.le_refl _
  ok next h := by
    cases h
    rfl
  error _ h := by cases h
  early h _ := by
    cases h
    exact ⟨_, rfl, rfl⟩

lemma fail (e : ε) : Steady more (fun _ : List σ => (Except.error e : Except ε (α × List σ))) where
  length_le h := by cases h
  ok _ h := by cases h
  error _ h _ := h
  early h := by cases h

lemma ite {c : Prop} [Decidable c] (hr : Steady more r) (hs : Steady more s) :
    Steady more (fun input => if c then r input else s input) := by
  by_cases hc : c
  · simp only [if_pos hc]
    exact hr
  · simp only [if_neg hc]
    exact hs

/-- One reader after another. -/
lemma bind (hr : Steady more r) (hk : ∀ a, Steady more fun rest => k (a, rest)) :
    Steady more (fun input => r input >>= k) where
  length_le {input b rest} h := by
    cases hread : r input with
    | error e =>
      rw [hread] at h
      cases h
    | ok x =>
      rw [hread] at h
      exact Nat.le_trans ((hk x.1).length_le h) (hr.length_le hread)
  ok {input b rest} next h := by
    cases hread : r input with
    | error e =>
      rw [hread] at h
      cases h
    | ok x =>
      rw [hread] at h
      rw [hr.ok next hread]
      exact (hk x.1).ok next h
  error {input e} next h hne := by
    cases hread : r input with
    | error e' =>
      rw [hread] at h
      cases h
      rw [hr.error next hread hne]
      rfl
    | ok x =>
      rw [hread] at h
      rw [hr.ok next hread]
      exact (hk x.1).error next h hne
  early {input next b rest} h hle := by
    cases hread : r (input ++ next) with
    | error e =>
      rw [hread] at h
      cases h
    | ok x =>
      rw [hread] at h
      have hlength := (hk x.1).length_le h
      obtain ⟨rest', hrest, hinput⟩ := hr.early hread (Nat.le_trans hle hlength)
      change k (x.1, x.2) = _ at h
      rw [hrest] at h
      obtain ⟨last, hlast, hbind⟩ := (hk x.1).early h hle
      refine ⟨last, hlast, ?_⟩
      rw [hinput]
      exact hbind

/-- What a reader leaves is the end of what it was given. -/
lemma ok_of_append {input next rest : List σ} {a : α} (hr : Steady more r)
    (h : r input = .ok (a, rest)) :
    (input ++ next).length - (rest ++ next).length = input.length - rest.length := by
  have hle := hr.length_le h
  rw [List.length_append, List.length_append]
  omega

end Steady

end Incremental
