import Mathlib.Tactic.Common
import Mathlib.Tactic.TypeStar

/-!
# Transition systems

A transition system is a guarded, executable step function: `step s e` is `none` when the event
`e` cannot happen in `s`. Runs are taken relative to a condition `ok` on the steps, so that
"every run whose steps meet `ok`" is a notion of its own (`Reachable`), with one induction rule
(`Reachable.invariant`), a rule for the end of all runs (`acc_of_measure`) and a way to run a given
list of events (`exec`).
-/

namespace Transition

variable {σ ε : Type*}

/-- A transition system: an initial state and a step function. -/
structure System (σ ε : Type*) where
  init : σ
  step : σ → ε → Option σ

namespace System

variable {t : System σ ε} {ok ok' : σ → ε → Prop} {s s' : σ}

/-- The states reached by steps that all meet `ok`. -/
inductive Reachable (t : System σ ε) (ok : σ → ε → Prop) : σ → Prop
  | init : Reachable t ok t.init
  | step {s s' : σ} (e : ε) :
      Reachable t ok s → ok s e → t.step s e = some s' → Reachable t ok s'

/-- What holds initially and is kept by every step holds in every reachable state. The step may
use that the state it leaves is reachable. -/
lemma Reachable.invariant {I : σ → Prop} (hinit : I t.init)
    (hstep : ∀ s e s', t.Reachable ok s → I s → ok s e → t.step s e = some s' → I s')
    (h : t.Reachable ok s) : I s := by
  induction h with
  | init => exact hinit
  | step e hs hok hse ih => exact hstep _ e _ hs ih hok hse

lemma Reachable.mono (himp : ∀ s e, ok s e → ok' s e) (h : t.Reachable ok s) :
    t.Reachable ok' s := by
  induction h with
  | init => exact .init
  | step e _ hok hse ih => exact ih.step e (himp _ _ hok) hse

/-- A run from one state to another, all of whose states meet `P`. -/
inductive Within (t : System σ ε) (P : σ → Prop) : σ → σ → Prop
  | refl {s : σ} : P s → Within t P s s
  | step {s s' s'' : σ} (e : ε) : P s → t.step s e = some s' → Within t P s' s'' → Within t P s s''

lemma Within.mono {P Q : σ → Prop} (himp : ∀ s, P s → Q s) (h : t.Within P s s') :
    t.Within Q s s' := by
  induction h with
  | refl hs => exact .refl (himp _ hs)
  | step e hs hstep _ ih => exact ih.step e (himp _ hs) hstep

/-- One step of a run whose steps meet `ok`, from the later state to the earlier one. -/
def Next (t : System σ ε) (ok : σ → ε → Prop) (s' s : σ) : Prop :=
  ∃ e, ok s e ∧ t.step s e = some s'

/-- If every step lessens a measure then no run goes on forever. -/
lemma acc_of_measure {I : σ → Prop} (μ : σ → Nat)
    (hstep : ∀ s e s', I s → ok s e → t.step s e = some s' → I s' ∧ μ s' < μ s) (hs : I s) :
    Acc (t.Next ok) s := by
  induction hμ : μ s using Nat.strongRecOn generalizing s with
  | _ n ih =>
    constructor
    rintro s' ⟨e, hok, hse⟩
    obtain ⟨hs', hlt⟩ := hstep s e s' hs hok hse
    exact ih (μ s') (hμ ▸ hlt) hs' rfl

/-- Runs a list of events, each of which has to meet `ok`. -/
def exec (t : System σ ε) (ok : σ → ε → Prop) [∀ s e, Decidable (ok s e)] :
    σ → List ε → Option σ
  | s, [] => some s
  | s, e :: es => if ok s e then (t.step s e).bind fun s' => exec t ok s' es else none

lemma Reachable.exec [∀ s e, Decidable (ok s e)] (h : t.Reachable ok s) (es : List ε)
    (hexec : t.exec ok s es = some s') : t.Reachable ok s' := by
  induction es generalizing s with
  | nil =>
    cases hexec
    exact h
  | cons e es ih =>
    unfold System.exec at hexec
    split_ifs at hexec with hok
    obtain ⟨s'', hstep, hrest⟩ := Option.bind_eq_some_iff.mp hexec
    exact ih (h.step e hok hstep) hrest

end System

end Transition
