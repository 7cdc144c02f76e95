import Mathlib.Tactic.Common
import Mathlib.Tactic.TypeStar

/-!
# Ledgers

A ledger says who holds what: `holds x s` when `x` holds the item `s`. An item never has two holders
(`Exclusive`), and every item that was handed out has one (`Complete`). Both are kept by a step that
hands some items to new holders and leaves the others where they are.
-/

namespace Ledger

variable {χ σ : Type*} {holds holds' : χ → σ → Prop} {known known' : σ → Prop}

/-- No item has two holders, and only known items have one. -/
structure Exclusive (holds : χ → σ → Prop) (known : σ → Prop) : Prop where
  unique : ∀ x y s, holds x s → holds y s → x = y
  known : ∀ x s, holds x s → known s

def Complete (holds : χ → σ → Prop) (known : σ → Prop) : Prop :=
  ∀ s, known s → ∃ x, holds x s

/-- An item that moves has its new holder only, every other item keeps its own or loses it. -/
lemma Exclusive.move (h : Exclusive holds known) (moved : σ → Prop) (dest : σ → χ)
    (hknown : ∀ s, known s ∨ moved s → known' s)
    (hholds : ∀ x s, holds' x s → (moved s ∧ x = dest s) ∨ (¬ moved s ∧ holds x s)) :
    Exclusive holds' known' where
  unique x y s hx hy := by
    rcases hholds x s hx with ⟨hs, rfl⟩ | ⟨hs, hx⟩
    · rcases hholds y s hy with ⟨-, rfl⟩ | ⟨hno, -⟩
      · rfl
      · exact absurd hs hno
    · rcases hholds y s hy with ⟨hyes, -⟩ | ⟨-, hy⟩
      · exact absurd hyes hs
      · exact h.unique x y s hx hy
  known x s hx := by
    rcases hholds x s hx with ⟨hs, -⟩ | ⟨-, hx⟩
    · exact hknown s (.inr hs)
    · exact hknown s (.inl (h.known x s hx))

/-- No item loses its holder. -/
lemma Complete.move (h : Complete holds known) (moved : σ → Prop) (dest : σ → χ)
    (hknown : ∀ s, known' s → known s ∨ moved s) (hmoved : ∀ s, moved s → holds' (dest s) s)
    (hkept : ∀ x s, ¬ moved s → holds x s → ∃ y, holds' y s) : Complete holds' known' := by
  intro s hs
  by_cases hm : moved s
  · exact ⟨dest s, hmoved s hm⟩
  · obtain ⟨x, hx⟩ := h s ((hknown s hs).resolve_right hm)
    exact hkept x s hm hx

lemma Exclusive.mono (h : Exclusive holds known) (hknown : ∀ s, known s → known' s)
    (hholds : ∀ x s, holds' x s → holds x s) : Exclusive holds' known' where
  unique x y s hx hy := h.unique x y s (hholds x s hx) (hholds y s hy)
  known x s hx := hknown s (h.known x s (hholds x s hx))

/-- The item `s₀` goes from `x₀` to `x₁`. -/
lemma Exclusive.handover (h : Exclusive holds known) (x₀ x₁ : χ) (s₀ : σ) (h₀ : holds x₀ s₀)
    (hknown : ∀ s, known s → known' s)
    (hholds : ∀ x s, holds' x s → (x = x₁ ∧ s = s₀) ∨ (holds x s ∧ (x = x₀ → s ≠ s₀))) :
    Exclusive holds' known' := by
  refine h.move (· = s₀) (fun _ => x₁) ?_ ?_
  · rintro s (hs | rfl)
    · exact hknown s hs
    · exact hknown s (h.known x₀ s h₀)
  · intro x s hx
    rcases hholds x s hx with ⟨rfl, rfl⟩ | ⟨hx, hother⟩
    · exact .inl ⟨rfl, rfl⟩
    · refine .inr ⟨?_, hx⟩
      rintro rfl
      exact hother (h.unique x x₀ s hx h₀) rfl

/-- An item nobody knows of is given to `x₁`. -/
lemma Exclusive.give (h : Exclusive holds known) (x₁ : χ) (s₀ : σ) (h₀ : ¬ known s₀)
    (hknown : ∀ s, known s ∨ s = s₀ → known' s)
    (hholds : ∀ x s, holds' x s → (x = x₁ ∧ s = s₀) ∨ holds x s) : Exclusive holds' known' := by
  refine h.move (· = s₀) (fun _ => x₁) hknown ?_
  intro x s hx
  rcases hholds x s hx with ⟨rfl, rfl⟩ | hx
  · exact .inl ⟨rfl, rfl⟩
  · refine .inr ⟨?_, hx⟩
    rintro rfl
    exact h₀ (h.known x s hx)

lemma Complete.mono (h : Complete holds known) (hknown : ∀ s, known' s → known s)
    (hholds : ∀ x s, holds x s → holds' x s) : Complete holds' known' := by
  intro s hs
  obtain ⟨x, hx⟩ := h s (hknown s hs)
  exact ⟨x, hholds x s hx⟩

/-- The item `s₀` is with `x₁` now, and every other one is where it was. -/
lemma Complete.handover (h : Complete holds known) (x₁ : χ) (s₀ : σ)
    (hknown : ∀ s, known' s → known s ∨ s = s₀) (h₁ : holds' x₁ s₀)
    (hkept : ∀ x s, s ≠ s₀ → holds x s → holds' x s) : Complete holds' known' := by
  refine h.move (· = s₀) (fun _ => x₁) hknown ?_
    fun x s hs hx => ⟨x, hkept x s hs hx⟩
  rintro s rfl
  exact h₁

/-- Every known item has exactly one holder. -/
lemma existsUnique_holder (h : Exclusive holds known) (hc : Complete holds known) {s : σ}
    (hs : known s) : ∃! x, holds x s := by
  obtain ⟨x, hx⟩ := hc s hs
  exact ⟨x, hx, fun y hy => h.unique y x s hy hx⟩

end Ledger
