import Mathlib.Tactic.Common
import Mathlib.Tactic.TypeStar

/-!
# Chains of queued machines

A chain is a list of machines, each of which takes symbols from its inbox in order and answers
every symbol with one of its own in its outbox; the answers of one machine are the symbols of the
next. Machines and carriers move at any time, in any order.

What a chain will have produced once everything in it has moved on (`feed`) does not depend on that
order: taking a symbol and carrying an answer leave it as it is (`Moved.work`, `Moved.carry`), and
a symbol that enters the chain adds what it would give on its own, after all others (`feed_concat`,
in terms of `serial`). So a chain that is used from its two ends behaves like one machine that
answers at once.
-/

namespace Chain

variable {σ α : Type*}

structure Node (σ α : Type*) where
  inbox : List α
  state : σ
  outbox : List α

def run (step : σ → α → σ × α) : σ → List α → σ × List α
  | s, [] => (s, [])
  | s, x :: xs =>
    ((run step (step s x).1 xs).1, (step s x).2 :: (run step (step s x).1 xs).2)

/-- The machines and the answers of the last one once everything has moved on, `xs` included. -/
def feed (step : σ → α → σ × α) : List (Node σ α) → List α → List σ × List α
  | [], xs => ([], xs)
  | n :: rest, xs =>
    ((run step n.state (n.inbox ++ xs)).1 ::
      (feed step rest (n.outbox ++ (run step n.state (n.inbox ++ xs)).2)).1,
     (feed step rest (n.outbox ++ (run step n.state (n.inbox ++ xs)).2)).2)

/-- One symbol through machines whose queues are empty. -/
def serial (step : σ → α → σ × α) : List σ → α → List σ × α
  | [], x => ([], x)
  | s :: rest, x =>
    ((step s x).1 :: (serial step rest (step s x).2).1, (serial step rest (step s x).2).2)

/-- Every answer that is or will be carried from one machine to the next satisfies `pass`. -/
def Passes (step : σ → α → σ × α) (pass : α → Prop) : List (Node σ α) → List α → Prop
  | [], _ => True
  | [_], _ => True
  | n :: rest, xs =>
    (∀ y ∈ n.outbox ++ (run step n.state (n.inbox ++ xs)).2, pass y) ∧
      Passes step pass rest (n.outbox ++ (run step n.state (n.inbox ++ xs)).2)

/-- The answers to one symbol on its way through idle machines satisfy `pass`. -/
def SerialPasses (step : σ → α → σ × α) (pass : α → Prop) : List σ → α → Prop
  | [], _ => True
  | [_], _ => True
  | s :: rest, x => pass (step s x).2 ∧ SerialPasses step pass rest (step s x).2

def load : List (Node σ α) → Nat
  | [] => 0
  | n :: rest => n.inbox.length + n.outbox.length + load rest

variable {step : σ → α → σ × α} {pass : α → Prop}

@[simp] lemma run_nil (s : σ) : run step s [] = (s, []) := rfl

lemma run_concat (s : σ) (xs : List α) (x : α) :
    run step s (xs ++ [x]) =
      ((step (run step s xs).1 x).1, (run step s xs).2 ++ [(step (run step s xs).1 x).2]) := by
  induction xs generalizing s with
  | nil => rfl
  | cons y xs ih =>
    rw [List.cons_append, run, ih]
    rfl

@[simp] lemma length_run (s : σ) (xs : List α) : (run step s xs).2.length = xs.length := by
  induction xs generalizing s with
  | nil => rfl
  | cons x xs ih => simp [run, ih]

/-- A symbol at the end of the input comes after all others. -/
lemma feed_concat (nodes : List (Node σ α)) (xs : List α) (x : α) :
    feed step nodes (xs ++ [x]) =
      ((serial step (feed step nodes xs).1 x).1,
       (feed step nodes xs).2 ++ [(serial step (feed step nodes xs).1 x).2]) := by
  induction nodes generalizing xs x with
  | nil => rfl
  | cons n rest ih =>
    simp only [feed, serial, ← List.append_assoc, run_concat, ih]

lemma passes_cons {n n' : Node σ α} {rest : List (Node σ α)} {xs : List α} :
    Passes step pass (n :: n' :: rest) xs ↔
      (∀ y ∈ n.outbox ++ (run step n.state (n.inbox ++ xs)).2, pass y) ∧
        Passes step pass (n' :: rest) (n.outbox ++ (run step n.state (n.inbox ++ xs)).2) :=
  Iff.rfl

lemma Passes.concat {nodes : List (Node σ α)} {xs : List α} {x : α}
    (h : Passes step pass nodes xs) (hx : SerialPasses step pass (feed step nodes xs).1 x) :
    Passes step pass nodes (xs ++ [x]) := by
  induction nodes generalizing xs x with
  | nil => trivial
  | cons n rest ih =>
    cases rest with
    | nil => trivial
    | cons n' rest =>
      obtain ⟨hhere, hrest⟩ := h
      obtain ⟨hx, hxrest⟩ := hx
      rw [passes_cons, ← List.append_assoc, run_concat, ← List.append_assoc]
      refine ⟨?_, ih hrest hxrest⟩
      intro y hy
      rcases List.mem_append.mp hy with hold | hnew
      · exact hhere y hold
      · rw [List.mem_singleton.mp hnew]
        exact hx

@[simp] lemma length_feed_fst (nodes : List (Node σ α)) (xs : List α) :
    (feed step nodes xs).1.length = nodes.length := by
  induction nodes generalizing xs with
  | nil => rfl
  | cons n rest ih => simp [feed, ih]

/-- Every symbol is answered once. -/
lemma length_feed (nodes : List (Node σ α)) (xs : List α) :
    (feed step nodes xs).2.length = load nodes + xs.length := by
  induction nodes generalizing xs with
  | nil => simp [feed, load]
  | cons n rest ih =>
    simp only [feed, load, ih, List.length_append, length_run]
    omega

/-- With empty queues nothing moves on. -/
lemma feed_idle {nodes : List (Node σ α)}
    (h : ∀ n ∈ nodes, n.inbox = [] ∧ n.outbox = []) :
    feed step nodes [] = (nodes.map (·.state), []) := by
  induction nodes with
  | nil => rfl
  | cons n rest ih =>
    obtain ⟨hin, hout⟩ := h n List.mem_cons_self
    simp [feed, hin, hout, ih fun m hm => h m (List.mem_cons_of_mem _ hm)]

lemma passes_idle {nodes : List (Node σ α)}
    (h : ∀ n ∈ nodes, n.inbox = [] ∧ n.outbox = []) : Passes step pass nodes [] := by
  induction nodes with
  | nil => trivial
  | cons n rest ih =>
    obtain ⟨hin, hout⟩ := h n List.mem_cons_self
    cases rest with
    | nil => trivial
    | cons n' rest =>
      rw [passes_cons, hin, hout]
      exact ⟨by simp, ih fun m hm => h m (List.mem_cons_of_mem _ hm)⟩

/-! ### Moves inside the chain -/

/-- A change of the queues and states that leaves what the chain will have produced as it is. -/
structure Moved (step : σ → α → σ × α) (pass : α → Prop) (nodes nodes' : List (Node σ α)) :
    Prop where
  length : nodes'.length = nodes.length
  feed : ∀ xs, feed step nodes' xs = feed step nodes xs
  passes : ∀ xs, Passes step pass nodes xs → Passes step pass nodes' xs

namespace Moved

variable {nodes nodes' : List (Node σ α)}

/-- A move further down the chain. -/
lemma cons (h : Moved step pass nodes nodes') (n : Node σ α) :
    Moved step pass (n :: nodes) (n :: nodes') where
  length := by simp [h.length]
  feed xs := by simp only [Chain.feed, h.feed]
  passes xs hpasses := by
    have hlength := h.length
    cases nodes with
    | nil =>
      rw [List.length_eq_zero_iff.mp hlength]
      exact hpasses
    | cons a nodes =>
      cases nodes' with
      | nil => cases hlength
      | cons b nodes' => exact ⟨hpasses.1, h.passes _ hpasses.2⟩

/-- A machine takes a symbol. -/
lemma work (x : α) (xs : List α) (s : σ) (out : List α) (rest : List (Node σ α)) :
    Moved step pass (⟨x :: xs, s, out⟩ :: rest)
      (⟨xs, (step s x).1, out ++ [(step s x).2]⟩ :: rest) where
  length := rfl
  feed ys := by
    simp only [Chain.feed, List.cons_append, run, List.append_assoc, List.nil_append]
  passes ys hpasses := by
    cases rest with
    | nil => trivial
    | cons n rest =>
      rw [passes_cons] at hpasses ⊢
      simpa [run] using hpasses

/-- An answer is carried to the next machine. -/
lemma carry (y : α) (ins ys : List α) (s : σ) (n : Node σ α) (rest : List (Node σ α)) :
    Moved step pass (⟨ins, s, y :: ys⟩ :: n :: rest)
      (⟨ins, s, ys⟩ :: { n with inbox := n.inbox ++ [y] } :: rest) where
  length := rfl
  feed xs := by
    simp only [Chain.feed, List.cons_append, List.append_assoc, List.nil_append]
  passes xs hpasses := by
    rw [passes_cons] at hpasses ⊢
    refine ⟨fun z hz => hpasses.1 z (List.mem_cons_of_mem _ hz), ?_⟩
    cases rest with
    | nil => trivial
    | cons n' rest =>
      have hrest := hpasses.2
      rw [passes_cons] at hrest ⊢
      simpa using hrest

end Moved

/-! ### The two ends -/

/-- A symbol enters the chain. -/
lemma feed_push (n : Node σ α) (rest : List (Node σ α)) (x : α) (xs : List α) :
    feed step ({ n with inbox := n.inbox ++ [x] } :: rest) xs =
      feed step (n :: rest) (x :: xs) := by
  simp [feed]

lemma passes_push (n : Node σ α) (rest : List (Node σ α)) (x : α) (xs : List α) :
    Passes step pass ({ n with inbox := n.inbox ++ [x] } :: rest) xs ↔
      Passes step pass (n :: rest) (x :: xs) := by
  cases rest with
  | nil => exact Iff.rfl
  | cons n' rest => simp [passes_cons]

/-- The last machine's answers are the first to leave the chain. -/
lemma feed_pop (front : List (Node σ α)) (ins : List α) (s : σ) (y : α) (ys xs : List α) :
    feed step (front ++ [⟨ins, s, y :: ys⟩]) xs =
      ((feed step (front ++ [⟨ins, s, ys⟩]) xs).1,
       y :: (feed step (front ++ [⟨ins, s, ys⟩]) xs).2) := by
  induction front generalizing xs with
  | nil => simp [feed]
  | cons n front ih => simp [feed, ih]

lemma Passes.pop {front : List (Node σ α)} {ins : List α} {s : σ} {y : α} {ys xs : List α}
    (h : Passes step pass (front ++ [⟨ins, s, y :: ys⟩]) xs) :
    Passes step pass (front ++ [⟨ins, s, ys⟩]) xs := by
  induction front generalizing xs with
  | nil => trivial
  | cons n front ih =>
    cases front with
    | nil => exact ⟨h.1, trivial⟩
    | cons n' front => exact ⟨h.1, ih h.2⟩

/-- What waits at a machine that is not the last passes. -/
lemma Passes.head {n n' : Node σ α} {rest : List (Node σ α)} {xs : List α}
    (h : Passes step pass (n :: n' :: rest) xs) {y : α} (hy : y ∈ n.outbox) : pass y :=
  h.1 y (List.mem_append_left _ hy)

end Chain
