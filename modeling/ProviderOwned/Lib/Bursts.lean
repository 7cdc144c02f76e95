import Mathlib.Data.List.Infix
import Mathlib.Tactic.Common
import Mathlib.Tactic.TypeStar

/-!
# Bursts of a machine's outputs

A machine that reads one input at a time and may put something out at each. Where a measure of its
state falls with every output of one kind, and is left alone by inputs without output, there are no
more outputs of that kind in a row than the measure can be (`length_le_of_isInfix`).
-/

namespace Bursts

variable {σ α β : Type*}

/-- What is put out over a list of inputs. -/
def outputs (step : σ → α → σ) (out : σ → α → Option β) (s : σ) : List α → List β
  | [] => []
  | a :: as => (out s a).toList ++ outputs step out (step s a) as

section

variable {step : σ → α → σ} {out : σ → α → Option β} {Inv : σ → Prop} {P : β → Prop} {μ : σ → Nat}
  (hinv : ∀ s a, Inv s → Inv (step s a)) (hnone : ∀ s a, Inv s → out s a = none →
    μ (step s a) = μ s)
  (hsome : ∀ s a b, Inv s → out s a = some b → P b → μ (step s a) + 1 ≤ μ s)
include hinv hnone hsome

/-- A burst at the start is no longer than the measure of the state. -/
lemma length_le_of_isPrefix {l : List β} (hl : ∀ b ∈ l, P b) {s : σ} (hs : Inv s) {as : List α}
    (h : l <+: outputs step out s as) : l.length ≤ μ s := by
  induction as generalizing s l with
  | nil =>
    rw [List.prefix_nil.mp h]
    exact Nat.zero_le _
  | cons a as ih =>
    rw [outputs] at h
    cases hout : out s a with
    | none =>
      rw [hout] at h
      rw [← hnone s a hs hout]
      exact ih hl (hinv s a hs) h
    | some b =>
      rw [hout, Option.toList_some, List.singleton_append] at h
      cases l with
      | nil => exact Nat.zero_le _
      | cons b' l =>
        obtain ⟨rfl, hrest⟩ := List.cons_prefix_cons.mp h
        have hfalls := hsome s a b' hs hout (hl b' List.mem_cons_self)
        have hlength := ih (fun b hb => hl b (List.mem_cons_of_mem _ hb)) (hinv s a hs) hrest
        rw [List.length_cons]
        omega

/-- No burst is longer than the measure can be. -/
theorem length_le_of_isInfix {n : Nat} (hle : ∀ s, Inv s → μ s ≤ n) {l : List β} (hl : ∀ b ∈ l, P b)
    {s : σ} (hs : Inv s) {as : List α} (h : l <:+: outputs step out s as) : l.length ≤ n := by
  have hstart : ∀ {s as}, Inv s → l <+: outputs step out s as → l.length ≤ n := fun hs h =>
    (length_le_of_isPrefix hinv hnone hsome hl hs h).trans (hle _ hs)
  induction as generalizing s with
  | nil =>
    rw [List.infix_nil.mp h]
    exact Nat.zero_le _
  | cons a as ih =>
    cases hout : out s a with
    | none =>
      rw [outputs, hout] at h
      exact ih (hinv s a hs) h
    | some b =>
      have hcons : outputs step out s (a :: as) = b :: outputs step out (step s a) as := by
        rw [outputs, hout]
        rfl
      rcases List.infix_cons_iff.mp (hcons ▸ h) with hhere | hlater
      · exact hstart hs (hcons.symm ▸ hhere)
      · exact ih (hinv s a hs) hlater

end

end Bursts
