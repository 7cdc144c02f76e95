import Mathlib.Tactic.Common
import Mathlib.Tactic.TypeStar

/-!
# Programs that may be cut short

A program gives commands to a machine and goes on with the answers. A machine says which answers a
command may have and what state each leaves, and what is left if the program is cut short in the
middle of the command (`torn`). `Finishes` are the runs to the end and `Stops` the runs up to any
cut.

`Always Q K` is what has to hold for every finished run to meet `Q` and for every cut to leave a
state that meets `K` (`always_iff`). It is computed along the program (`always_bind`,
`always_foldlM`), so the states between two commands are part of every proof. What every program
keeps at every cut holds after any number of runs, each started where the one before it was cut
(`Restarts.invariant`).
-/

namespace Interrupted

variable {C : Type} {A : C → Type} {α β ε σ : Type}

/-- A program: the commands it gives, and how it goes on after each answer. -/
inductive Program (C : Type) (A : C → Type) (α : Type)
  | done (a : α)
  | ask (c : C) (next : A c → Program C A α)

namespace Program

def bind (f : α → Program C A β) : Program C A α → Program C A β
  | done a => f a
  | ask c next => ask c fun x => bind f (next x)

instance : Monad (Program C A) where
  pure := done
  bind p f := p.bind f

def give (c : C) : Program C A (A c) := ask c done

/-- What the program does on a machine that is a function. -/
def run (exec : σ → (c : C) → A c × σ) : Program C A α → σ → α × σ
  | done a, s => (a, s)
  | ask c next, s => run exec (next (exec s c).1) (exec s c).2

end Program

/-- A machine: the answers a command may have with the states they leave, and the states a cut in
the middle of the command may leave. -/
structure Machine (C : Type) (A : C → Type) (σ : Type) where
  answers : σ → (c : C) → A c → σ → Prop
  torn : σ → C → σ → Prop

variable {m : Machine C A σ} {Q Q' : α → σ → Prop} {K K' : σ → Prop} {s t : σ} {a : α}
  {p : Program C A α}

/-- The program may finish with `b` and leave `t`. -/
def Finishes (m : Machine C A σ) : Program C A α → σ → α → σ → Prop
  | .done a, s, b, t => b = a ∧ t = s
  | .ask c next, s, b, t => ∃ x s', m.answers s c x s' ∧ Finishes m (next x) s' b t

/-- The program may have come as far as `t`. -/
def Stops (m : Machine C A σ) : Program C A α → σ → σ → Prop
  | .done _, s, t => t = s
  | .ask c next, s, t =>
    t = s ∨ m.torn s c t ∨ ∃ x s', m.answers s c x s' ∧ Stops m (next x) s' t

lemma Finishes.stops (h : Finishes m p s a t) : Stops m p s t := by
  induction p generalizing s with
  | done _ => exact h.2
  | ask c next ih =>
    obtain ⟨x, s', hx, h⟩ := h
    exact .inr (.inr ⟨x, s', hx, ih x h⟩)

/-- A function that answers as the machine may answer runs the program to an end it may have. -/
lemma finishes_run {exec : σ → (c : C) → A c × σ}
    (hexec : ∀ s c, m.answers s c (exec s c).1 (exec s c).2) (p : Program C A α) (s : σ) :
    Finishes m p s (p.run exec s).1 (p.run exec s).2 := by
  induction p generalizing s with
  | done a => exact ⟨rfl, rfl⟩
  | ask c next ih => exact ⟨_, _, hexec s c, ih _ _⟩

/-- Every finished run meets `Q` and every cut meets `K`. -/
def Always (m : Machine C A σ) (Q : α → σ → Prop) (K : σ → Prop) : Program C A α → σ → Prop
  | .done a, s => Q a s ∧ K s
  | .ask c next, s =>
    K s ∧ (∀ t, m.torn s c t → K t) ∧ ∀ x t, m.answers s c x t → Always m Q K (next x) t

lemma Always.now (h : Always m Q K p s) : K s := by
  cases p with
  | done a => exact h.2
  | ask c next => exact h.1

theorem always_iff : Always m Q K p s ↔
    (∀ a t, Finishes m p s a t → Q a t) ∧ ∀ t, Stops m p s t → K t := by
  induction p generalizing s with
  | done a =>
    constructor
    · rintro ⟨hQ, hK⟩
      refine ⟨?_, ?_⟩
      · rintro b t ⟨rfl, rfl⟩
        exact hQ
      · rintro t rfl
        exact hK
    · rintro ⟨hQ, hK⟩
      exact ⟨hQ a s ⟨rfl, rfl⟩, hK s rfl⟩
  | ask c next ih =>
    constructor
    · rintro ⟨hnow, htorn, hnext⟩
      refine ⟨?_, ?_⟩
      · rintro b t ⟨x, s', hx, h⟩
        exact (ih x).mp (hnext x s' hx) |>.1 b t h
      · rintro t (rfl | h | ⟨x, s', hx, h⟩)
        · exact hnow
        · exact htorn t h
        · exact (ih x).mp (hnext x s' hx) |>.2 t h
    · rintro ⟨hQ, hK⟩
      refine ⟨hK s (.inl rfl), fun t ht => hK t (.inr (.inl ht)),
        fun x s' hx => (ih x).mpr ⟨?_, ?_⟩⟩
      · exact fun b t h => hQ b t ⟨x, s', hx, h⟩
      · exact fun t h => hK t (.inr (.inr ⟨x, s', hx, h⟩))

lemma Always.mono (hQ : ∀ a t, K t → Q a t → Q' a t) (hK : ∀ t, K t → K' t) (h : Always m Q K p s) :
    Always m Q' K' p s := by
  induction p generalizing s with
  | done a => exact ⟨hQ a s h.2 h.1, hK s h.2⟩
  | ask c next ih =>
    exact ⟨hK s h.1, fun t ht => hK t (h.2.1 t ht), fun x t hx => ih x (h.2.2 x t hx)⟩

/-! ### Rules -/

@[simp] lemma always_done : Always m Q K (.done a) s ↔ Q a s ∧ K s := Iff.rfl

@[simp] lemma always_pure : Always m Q K (pure a : Program C A α) s ↔ Q a s ∧ K s := Iff.rfl

lemma always_bind {Q : β → σ → Prop} {f : α → Program C A β} :
    Always m Q K (p >>= f) s ↔ Always m (fun a t => Always m Q K (f a) t) K p s := by
  induction p generalizing s with
  | done a => exact ⟨fun h => ⟨h, h.now⟩, fun h => h.1⟩
  | ask c next ih =>
    exact and_congr_right fun _ => and_congr_right fun _ =>
      forall_congr' fun x => forall_congr' fun t => forall_congr' fun _ => ih x

/-- A program that may fail. -/
abbrev Fallible (C : Type) (A : C → Type) (ε α : Type) := ExceptT ε (Program C A) α

/-- What an attempt has to meet, by how it ends. -/
def Either (Q : α → σ → Prop) (E : ε → σ → Prop) : Except ε α → σ → Prop
  | .ok a, t => Q a t
  | .error e, t => E e t

/-- Every successful attempt meets `Q`, every failed one `E`, and every cut `K`. -/
def Tries (m : Machine C A σ) (Q : α → σ → Prop) (E : ε → σ → Prop) (K : σ → Prop)
    (p : Fallible C A ε α) (s : σ) : Prop :=
  Always m (Either Q E) K p.run s

variable {E E' : ε → σ → Prop} {q : Fallible C A ε α} {e : ε}

lemma Tries.now (h : Tries m Q E K q s) : K s := Always.now h

lemma Tries.mono (hQ : ∀ a t, K t → Q a t → Q' a t) (hE : ∀ e t, K t → E e t → E' e t)
    (hK : ∀ t, K t → K' t) (h : Tries m Q E K q s) : Tries m Q' E' K' q s := by
  refine Always.mono (fun r t ht => ?_) hK h
  cases r with
  | ok a => exact hQ a t ht
  | error e => exact hE e t ht

@[simp] lemma tries_pure : Tries m Q E K (pure a : Fallible C A ε α) s ↔ Q a s ∧ K s := Iff.rfl

@[simp] lemma tries_throw : Tries m Q E K (throw e : Fallible C A ε α) s ↔ E e s ∧ K s := Iff.rfl

lemma run_bind (q : Fallible C A ε α) (f : α → Fallible C A ε β) :
    (q >>= f).run = q.run >>= fun r => (match r with
      | .ok a => (f a).run
      | .error e => pure (.error e) : Program C A (Except ε β)) :=
  congrArg (q.run >>= ·) (funext fun r => by cases r <;> rfl)

lemma run_tryCatch (q : Fallible C A ε α) (f : ε → Fallible C A ε α) :
    (tryCatch q f : Fallible C A ε α).run = q.run >>= fun r => (match r with
      | .ok a => pure (.ok a)
      | .error e => (f e).run : Program C A (Except ε α)) :=
  congrArg (q.run >>= ·) (funext fun r => by cases r <;> rfl)

lemma tries_bind {Q : β → σ → Prop} {f : α → Fallible C A ε β} :
    Tries m Q E K (q >>= f) s ↔ Tries m (fun a t => Tries m Q E K (f a) t) E K q s := by
  unfold Tries
  rw [run_bind, always_bind]
  constructor
  all_goals
    refine Always.mono (fun r t ht h => ?_) fun _ h => h
    cases r with
    | ok a => exact h
    | error e => first | exact h.1 | exact ⟨h, ht⟩

/-- A program that cannot fail, in an attempt. -/
lemma tries_lift {p : Program C A α} :
    Tries m Q E K (ExceptT.lift p) s ↔ Always m Q K p s := by
  have hrun : (ExceptT.lift p : Fallible C A ε α).run =
      p >>= fun a => (pure (.ok a) : Program C A (Except ε α)) := by
    change (Except.ok <$> p : Program C A (Except ε α)) = _
    rfl
  unfold Tries
  rw [hrun, always_bind]
  constructor
  · exact Always.mono (fun _ _ _ h => h.1) fun _ h => h
  · exact Always.mono (fun _ _ hK h => ⟨h, hK⟩) fun _ h => h

/-- An attempt whose failure is handled. -/
lemma tries_catch {f : ε → Fallible C A ε α} :
    Tries m Q E K (tryCatch q f) s ↔ Tries m Q (fun e t => Tries m Q E K (f e) t) K q s := by
  unfold Tries
  rw [run_tryCatch, always_bind]
  constructor
  all_goals
    refine Always.mono (fun r t ht h => ?_) fun _ h => h
    cases r with
    | ok a => first | exact h.1 | exact ⟨h, ht⟩
    | error e => exact h

/-- An attempt that cannot fail succeeds on a machine that is a function. -/
lemma Tries.succeeds {exec : σ → (c : C) → A c × σ}
    (hexec : ∀ s c, m.answers s c (exec s c).1 (exec s c).2)
    (h : Tries m Q (fun _ _ => False) K q s) :
    ∃ a t, Finishes m q.run s (.ok a) t ∧ Q a t := by
  have hrun := finishes_run hexec q.run s
  have hresult := (always_iff.mp h).1 _ _ hrun
  cases hvalue : (q.run.run exec s).1 with
  | ok a =>
    rw [hvalue] at hrun hresult
    exact ⟨a, _, hrun, hresult⟩
  | error e =>
    rw [hvalue] at hresult
    exact hresult.elim

lemma stops_now (p : Program C A α) (s : σ) : Stops m p s s := by
  cases p with
  | done a => rfl
  | ask c next => exact .inl rfl

/-- A cut in the first of two programs. -/
lemma Stops.bind {f : α → Program C A β} (h : Stops m p s t) : Stops m (p >>= f) s t := by
  induction p generalizing s with
  | done a =>
    obtain rfl : t = s := h
    exact stops_now (f a) t
  | ask c next ih =>
    obtain h | h | ⟨x, s', hx, h⟩ := h
    · exact .inl h
    · exact .inr (.inl h)
    · exact .inr (.inr ⟨x, s', hx, ih x h⟩)

/-- A cut in the second of two programs. -/
lemma Finishes.stops_bind {f : α → Program C A β} (h : Finishes m p s a t) {u : σ}
    (hstops : Stops m (f a) t u) : Stops m (p >>= f) s u := by
  induction p generalizing s with
  | done b =>
    obtain ⟨rfl, rfl⟩ := h
    exact hstops
  | ask c next ih =>
    obtain ⟨x, s', hx, h⟩ := h
    exact .inr (.inr ⟨x, s', hx, ih x h⟩)

/-- A cut in the second of two attempts. -/
lemma Finishes.stops_attempt {f : α → Fallible C A ε β} (h : Finishes m q.run s (.ok a) t) {u : σ}
    (hstops : Stops m (f a).run t u) : Stops m (q >>= f).run s u := by
  rw [run_bind]
  exact h.stops_bind hstops

/-- A cut in an attempt whose failure is handled. -/
lemma Stops.tryCatch {f : ε → Fallible C A ε α} (h : Stops m q.run s t) :
    Stops m (tryCatch q f : Fallible C A ε α).run s t := by
  rw [run_tryCatch]
  exact h.bind

/-- A loop over a list keeps what every round keeps. -/
lemma tries_foldlM {f : α → β → Fallible C A ε α} {I : List β → α → σ → Prop} {l : List β}
    (hstep : ∀ front b rest a s, l = front ++ b :: rest → I front a s → K s →
      Tries m (fun a t => I (front ++ [b]) a t) E K (f a b) s)
    (hend : ∀ a t, K t → I l a t → Q a t) (h : I [] a s) (hK : K s) :
    Tries m Q E K (l.foldlM f a) s := by
  suffices hloop : ∀ front rest a s, l = front ++ rest → I front a s → K s →
      Tries m Q E K (rest.foldlM f a) s from hloop [] l a s rfl h hK
  intro front rest
  induction rest generalizing front with
  | nil =>
    rintro a s rfl h hK
    rw [List.append_nil] at *
    exact ⟨hend a s hK h, hK⟩
  | cons b rest ih =>
    intro a s hl h hK
    rw [List.foldlM_cons, tries_bind]
    refine (hstep front b rest a s hl h hK).mono (fun a' t ht h' => ?_) (fun _ _ _ h => h)
      fun _ h => h
    exact ih (front ++ [b]) a' t (by rw [hl, List.append_assoc, List.singleton_append]) h' ht

/-! ### Runs one after another -/

/-- The states left by any number of runs of the programs, each cut anywhere or finished. -/
inductive Restarts (m : Machine C A σ) (programs : Program C A α → Prop) (init : σ) : σ → Prop
  | fresh : Restarts m programs init init
  | again {s t : σ} {p : Program C A α} :
      Restarts m programs init s → programs p → Stops m p s t → Restarts m programs init t

/-- What every program keeps at every cut holds after any number of runs. -/
theorem Restarts.invariant {programs : Program C A α → Prop} {init : σ} (hinit : K init)
    (hkeep : ∀ p s, programs p → K s → Always m (fun _ _ => True) K p s)
    (h : Restarts m programs init s) : K s := by
  induction h with
  | fresh => exact hinit
  | again _ hp hstops ih => exact (always_iff.mp (hkeep _ _ hp ih)).2 _ hstops

end Interrupted
