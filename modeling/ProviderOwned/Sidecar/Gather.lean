import Mathlib.Algebra.Group.Nat.Defs
import Mathlib.Data.List.Nodup
import Mathlib.Data.List.Perm.Subperm
import Mathlib.Logic.Function.Basic
import Mathlib.Order.Lattice
import ProviderOwned.Lib.Keyed
import ProviderOwned.Lib.Transition

/-!
# Asking the peers of a lookup

`gather.go`: the main loop takes peers from the lookup, answers from a buffered channel and the end
of the grace period, in any order. One goroutine for each peer takes one of eight slots, asks, notes
whether the peer was reached, sends its answer and gives the slot back. Other searches share the
table of failures.

Time is in nanoseconds and passes between the steps. What a search has sent, received and noted is
kept as history, which no step reads.
-/

namespace ProviderOwned.Gather

open Transition

def maxCandidates : Nat := 64

def gatherParallel : Nat := 8

def failureMemory : Nat := 120 * 10 ^ 9

variable {Id T : Type} [DecidableEq Id]

/-! ### Recent failures -/

/-- `recentFailures`: when each peer failed; there may be no table. -/
abbrev Failures (Id : Type) := Option (Id → Option Nat)

/-- `recent`, with the table it leaves. -/
def recent (failures : Failures Id) (now : Nat) (id : Id) : Bool × Failures Id :=
  match failures with
  | none => (false, none)
  | some failedAt =>
    match failedAt id with
    | none => (false, some failedAt)
    | some failed =>
      if failed + failureMemory ≤ now then (false, some (Function.update failedAt id none))
      else (true, some failedAt)

def note (failures : Failures Id) (now : Nat) (id : Id) (failed : Bool) : Failures Id :=
  failures.map fun failedAt => Function.update failedAt id (if failed then some now else none)

/-- A call of `note`, as history. -/
structure Note (Id : Type) where
  peer : Id
  failed : Bool
  time : Nat
  deriving DecidableEq

/-! ### The goroutines -/

structure Answer (T : Type) where
  value : T
  usable : Bool
  deriving DecidableEq

/-- How far a goroutine is. The answer is kept as history once it is sent. -/
inductive Phase (T : Type)
  | waiting
  | asking
  | sending (answer : Answer T)
  | leaving (answer : Answer T)
  | done (answer : Answer T)
  deriving DecidableEq

structure Asker (Id T : Type) where
  peer : Id
  phase : Phase T
  deriving DecidableEq

def Asker.holding (asker : Asker Id T) : Bool :=
  match asker.phase with
  | .waiting | .done _ => false
  | .asking | .sending _ | .leaving _ => true

/-- The steps a goroutine has still to do. -/
def Asker.left (asker : Asker Id T) : Nat :=
  match asker.phase with
  | .waiting => 4
  | .asking => 3
  | .sending _ => 2
  | .leaving _ => 1
  | .done _ => 0

/-- The answer of a goroutine that has sent it. -/
def Asker.sentAnswer (asker : Asker Id T) : Option (Answer T) :=
  match asker.phase with
  | .leaving answer | .done answer => some answer
  | .waiting | .asking | .sending _ => none

/-- An answer that the main loop received, as history: from which goroutine and when. -/
structure Received (T : Type) where
  asker : Nat
  answer : Answer T
  time : Nat

/-! ### One search -/

/-- The variables of `gather`, its channels and goroutines. -/
structure State (Id T : Type) where
  now : Nat
  failures : Failures Id
  closed : Bool
  pending : Nat
  deadline : Option Nat
  results : List T
  providers : Nat
  seen : List Id
  returned : Bool
  answers : List (Nat × Answer T)
  slots : Nat
  askers : List (Asker Id T)
  sent : List (Nat × Answer T)
  received : List (Received T)
  notes : List (Note Id)

inductive Event (Id T : Type)
  /-- The main loop takes a peer from the lookup, or finds it closed. -/
  | arrive (id : Id)
  | close
  /-- The main loop takes an answer, sees the deadline, or ends. -/
  | receive
  | expire
  | finish
  /-- A goroutine takes a slot, has the result of its query, sends it, gives the slot back. -/
  | start (i : Nat)
  | answer (i : Nat) (value : T) (usable failed : Bool)
  | send (i : Nat)
  | leave (i : Nat)
  /-- Another search looks up a failure or notes one. -/
  | lookUp (id : Id)
  | remark (id : Id) (failed : Bool)
  | tick (nanoseconds : Nat)

namespace State

def running (s : State Id T) : Bool := !s.returned && (!s.closed || 0 < s.pending)

def arrive (self : Id) (s : State Id T) (id : Id) : State Id T :=
  if id = self then s
  else
    let found := recent s.failures s.now id
    let s := { s with providers := s.providers + 1, seen := s.seen ++ [id], failures := found.2 }
    if found.1 then s
    else { s with pending := s.pending + 1, askers := s.askers ++ [⟨id, .waiting⟩] }

def receive (grace : Nat) (s : State Id T) (i : Nat) (answer : Answer T)
    (rest : List (Nat × Answer T)) :
    State Id T :=
  let s := { s with
    answers := rest
    pending := s.pending - 1
    received := s.received ++ [⟨i, answer, s.now⟩] }
  if answer.usable then
    { s with results := s.results ++ [answer.value],
             deadline := s.deadline.or (some (s.now + grace)) }
  else s

def setPhase (s : State Id T) (i : Nat) (peer : Id) (phase : Phase T) : State Id T :=
  { s with askers := s.askers.set i ⟨peer, phase⟩ }

def noted (s : State Id T) (id : Id) (failed : Bool) : State Id T :=
  { s with failures := note s.failures s.now id failed, notes := ⟨id, failed, s.now⟩ :: s.notes }

end State

/-- The step of a goroutine, `gather`'s own or of another search, or of time. -/
def step (self : Id) (grace : Nat) (s : State Id T) : Event Id T → Option (State Id T)
  | .arrive id => if s.running ∧ !s.closed then some (s.arrive self id) else none
  | .close => if s.running ∧ !s.closed then some { s with closed := true } else none
  | .receive =>
    match s.answers with
    | [] => none
    | (i, answer) :: rest => if s.running then some (s.receive grace i answer rest) else none
  | .expire =>
    if s.running ∧ (s.deadline.any fun deadline => deadline ≤ s.now)
      then some { s with returned := true }
    else none
  | .finish => if !s.returned ∧ !s.running then some { s with returned := true } else none
  | .start i =>
    match s.askers[i]? with
    | some ⟨peer, .waiting⟩ =>
      if s.slots < gatherParallel then some { s.setPhase i peer .asking with slots := s.slots + 1 }
        else none
    | _ => none
  | .answer i value usable failed =>
    match s.askers[i]? with
    | some ⟨peer, .asking⟩ =>
      some ((s.noted peer failed).setPhase i peer (.sending ⟨value, usable && !failed⟩))
    | _ => none
  | .send i =>
    match s.askers[i]? with
    | some ⟨peer, .sending answer⟩ =>
      if s.answers.length < maxCandidates + 1 then
        some { s.setPhase i peer (.leaving answer) with
          answers := s.answers ++ [(i, answer)]
          sent := s.sent ++ [(i, answer)] }
      else none
    | _ => none
  | .leave i =>
    match s.askers[i]? with
    | some ⟨peer, .leaving answer⟩ =>
        some { s.setPhase i peer (.done answer) with slots := s.slots - 1 }
    | _ => none
  | .lookUp id => some { s with failures := (recent s.failures s.now id).2 }
  | .remark id failed => some (s.noted id failed)
  | .tick nanoseconds => some { s with now := s.now + nanoseconds }

/-- A search, with a table of failures or without. -/
def system (self : Id) (grace : Nat) (remembers : Bool) : System (State Id T) (Event Id T) where
  init :=
    { now := 0, failures := if remembers then some fun _ => none else none, closed := false,
      pending := 0,
      deadline := none, results := [], providers := 0, seen := [], returned := false, answers := [],
      slots := 0, askers := [], sent := [], received := [], notes := [] }
  step := step self grace

variable {self : Id} {grace : Nat} {remembers : Bool} {s s' : State Id T}

/-! ### What a step does -/

inductive Steps (self : Id) (grace : Nat) (s : State Id T) : Event Id T → State Id T → Prop
  | itself : s.running → !s.closed → Steps self grace s (.arrive self) s
  | skip (id : Id) : s.running → !s.closed → id ≠ self → (recent s.failures s.now id).1 →
      Steps self grace s (.arrive id)
        { s with providers := s.providers + 1, seen := s.seen ++ [id],
                 failures := (recent s.failures s.now id).2 }
  | ask (id : Id) : s.running → !s.closed → id ≠ self → ¬ (recent s.failures s.now id).1 →
      Steps self grace s (.arrive id)
        { s with providers := s.providers + 1, seen := s.seen ++ [id],
                 failures := (recent s.failures s.now id).2,
                 pending := s.pending + 1, askers := s.askers ++ [⟨id, .waiting⟩] }
  | close : s.running → !s.closed → Steps self grace s .close { s with closed := true }
  | receive (i : Nat) (answer : Answer T) (rest : List (Nat × Answer T)) : s.running →
      s.answers = (i, answer) :: rest → Steps self grace s .receive (s.receive grace i answer rest)
  | expire (deadline : Nat) : s.running → s.deadline = some deadline → deadline ≤ s.now →
      Steps self grace s .expire { s with returned := true }
  | finish : !s.returned → !s.running → Steps self grace s .finish { s with returned := true }
  | start (i : Nat) (peer : Id) : s.askers[i]? = some ⟨peer, .waiting⟩ → s.slots < gatherParallel →
      Steps self grace s (.start i) { s.setPhase i peer .asking with slots := s.slots + 1 }
  | answer (i : Nat) (peer : Id) (value : T) (usable failed : Bool) : s.askers[i]? =
      some ⟨peer, .asking⟩ →
      Steps self grace s (.answer i value usable failed)
        ((s.noted peer failed).setPhase i peer (.sending ⟨value, usable && !failed⟩))
  | send (i : Nat) (peer : Id) (answer : Answer T) : s.askers[i]? = some ⟨peer, .sending answer⟩ →
      s.answers.length < maxCandidates + 1 →
      Steps self grace s (.send i)
        { s.setPhase i peer (.leaving answer) with
          answers := s.answers ++ [(i, answer)], sent := s.sent ++ [(i, answer)] }
  | leave (i : Nat) (peer : Id) (answer : Answer T) : s.askers[i]? = some ⟨peer, .leaving answer⟩ →
      Steps self grace s (.leave i) { s.setPhase i peer (.done answer) with slots := s.slots - 1 }
  | lookUp (id : Id) :
      Steps self grace s (.lookUp id) { s with failures := (recent s.failures s.now id).2 }
  | remark (id : Id) (failed : Bool) : Steps self grace s (.remark id failed) (s.noted id failed)
  | tick (nanoseconds : Nat) :
      Steps self grace s (.tick nanoseconds) { s with now := s.now + nanoseconds }

lemma steps_arrive {id : Id} (hrunning : s.running) (hopen : !s.closed) :
    Steps self grace s (.arrive id) (s.arrive self id) := by
  rw [State.arrive]
  split_ifs with hself
  · exact hself ▸ .itself hrunning hopen
  · dsimp only
    split_ifs with hskip
    · exact .skip id hrunning hopen hself hskip
    · exact .ask id hrunning hopen hself hskip

lemma steps_of_step {e : Event Id T} (h : step self grace s e = some s') :
    Steps self grace s e s' := by
  cases e with
  | arrive id =>
    obtain ⟨⟨hrunning, hopen⟩, hs'⟩ := Option.ite_none_right_eq_some.mp h
    exact Option.some.inj hs' ▸ steps_arrive hrunning hopen
  | close =>
    obtain ⟨⟨hrunning, hopen⟩, hs'⟩ := Option.ite_none_right_eq_some.mp h
    exact Option.some.inj hs' ▸ .close hrunning hopen
  | receive =>
    cases hanswers : s.answers with
    | nil =>
      rw [step, hanswers] at h
      cases h
    | cons found rest =>
      rw [step, hanswers] at h
      obtain ⟨hrunning, hs'⟩ := Option.ite_none_right_eq_some.mp h
      exact Option.some.inj hs' ▸ .receive found.1 found.2 rest hrunning hanswers
  | expire =>
    obtain ⟨⟨hrunning, hover⟩, hs'⟩ := Option.ite_none_right_eq_some.mp h
    obtain ⟨deadline, hdeadline, hle⟩ := (Option.any_eq_true _ _).mp hover
    exact Option.some.inj hs' ▸ .expire deadline hrunning hdeadline (of_decide_eq_true hle)
  | finish =>
    obtain ⟨⟨hreturned, hrunning⟩, hs'⟩ := Option.ite_none_right_eq_some.mp h
    exact Option.some.inj hs' ▸ .finish hreturned hrunning
  | start i =>
    simp only [step] at h
    split at h
    · rename_i peer hasker
      obtain ⟨hslot, hs'⟩ := Option.ite_none_right_eq_some.mp h
      exact Option.some.inj hs' ▸ .start i peer hasker hslot
    · cases h
  | answer i value usable failed =>
    simp only [step] at h
    split at h
    · rename_i peer hasker
      exact Option.some.inj h ▸ .answer i peer value usable failed hasker
    · cases h
  | send i =>
    simp only [step] at h
    split at h
    · rename_i peer answer hasker
      obtain ⟨hroom, hs'⟩ := Option.ite_none_right_eq_some.mp h
      exact Option.some.inj hs' ▸ .send i peer answer hasker hroom
    · cases h
  | leave i =>
    simp only [step] at h
    split at h
    · rename_i peer answer hasker
      exact Option.some.inj h ▸ .leave i peer answer hasker
    · cases h
  | lookUp id => exact Option.some.inj h ▸ .lookUp id
  | remark id failed => exact Option.some.inj h ▸ .remark id failed
  | tick nanoseconds => exact Option.some.inj h ▸ .tick nanoseconds

/-! ### The goroutines -/

/-- What the goroutine `i` has sent. -/
def State.gave (s : State Id T) (i : Nat) : Option (Answer T) := s.askers[i]?.bind Asker.sentAnswer

/-- Slots are held, and each goroutine sends once. -/
structure Goroutines (s : State Id T) : Prop where
  slots : s.slots = s.askers.countP Asker.holding
  nodup : (s.sent.map (·.1)).Nodup
  mem_sent : ∀ i answer, (i, answer) ∈ s.sent ↔ s.gave i = some answer

section

variable {i : Nat} {asker : Asker Id T} {answer : Answer T} (peer : Id) (phase : Phase T)

omit [DecidableEq Id] in
lemma gave_of_askers {s : State Id T} {i : Nat} {asker : Asker Id T}
    (h : s.askers[i]? = some asker) : s.gave i = asker.sentAnswer := by
  rw [State.gave, h, Option.bind_some]

omit [DecidableEq Id] in
lemma gave_setPhase (h : s.askers[i]? = some asker) (j : Nat) :
    (s.setPhase i peer phase).gave j = if i = j then (⟨peer, phase⟩ : Asker Id T).sentAnswer
      else s.gave j := by
  obtain ⟨hlt, -⟩ := List.getElem?_eq_some_iff.mp h
  rw [State.gave, State.setPhase, List.getElem?_set, if_pos hlt]
  split_ifs
  · rfl
  · rfl

omit [DecidableEq Id] in
/-- A step of a goroutine that sends nothing. -/
lemma gave_setPhase_of_eq (h : s.askers[i]? = some asker)
    (hsame : (⟨peer, phase⟩ : Asker Id T).sentAnswer = asker.sentAnswer) (j : Nat) :
    (s.setPhase i peer phase).gave j = s.gave j := by
  rw [gave_setPhase peer phase h, hsame]
  split_ifs with hj
  · rw [← hj, gave_of_askers h]
  · rfl

omit [DecidableEq Id] in
lemma countP_setPhase (h : s.askers[i]? = some asker) :
    (s.setPhase i peer phase).askers.countP Asker.holding + (if asker.holding then 1 else 0) =
      s.askers.countP Asker.holding + (if (⟨peer, phase⟩ : Asker Id T).holding then 1 else 0) :=
  Keyed.countP_set h _

end

omit [DecidableEq Id] in
/-- A new goroutine has sent nothing. -/
lemma gave_append (s : State Id T) (id : Id) (i : Nat) :
    (s.askers ++ [(⟨id, .waiting⟩ : Asker Id T)])[i]?.bind Asker.sentAnswer = s.gave i := by
  rw [State.gave]
  rcases Nat.lt_trichotomy i s.askers.length with hlt | rfl | hgt
  · rw [List.getElem?_append_left hlt]
  · rw [List.getElem?_concat_length, List.getElem?_eq_none le_rfl]
    rfl
  · rw [List.getElem?_eq_none hgt.le, List.getElem?_eq_none]
    rw [List.length_append, List.length_singleton]
    exact hgt

omit [DecidableEq Id] in
/-- A step that sends nothing, with the slot it takes or gives back. -/
lemma Goroutines.turn (h : Goroutines s) {i : Nat} {asker : Asker Id T} (peer : Id)
    (phase : Phase T) (hasker : s.askers[i]? = some asker)
    (hsame : (⟨peer, phase⟩ : Asker Id T).sentAnswer = asker.sentAnswer)
    (haskers : s'.askers = (s.setPhase i peer phase).askers) (hsent : s'.sent = s.sent)
    (hslots : s'.slots + (if asker.holding then 1 else 0) =
      s.slots + (if (⟨peer, phase⟩ : Asker Id T).holding then 1 else 0)) : Goroutines s' := by
  refine ⟨?_, hsent ▸ h.nodup, fun j answer => ?_⟩
  · have hcount := countP_setPhase peer phase hasker
    have hholding := h.slots
    rw [haskers]
    omega
  · have hgave : s'.gave j = s.gave j := by
      rw [← gave_setPhase_of_eq peer phase hasker hsame j, State.gave, State.gave, haskers]
    rw [hsent, hgave]
    exact h.mem_sent j answer

lemma Goroutines.steps {e : Event Id T} (h : Goroutines s) (hstep : Steps self grace s e s') :
    Goroutines s' := by
  cases hstep with
  | itself | skip | close | expire | finish | lookUp | remark | tick =>
      exact ⟨h.slots, h.nodup, h.mem_sent⟩
  | receive i answer rest =>
    rw [State.receive]
    dsimp only
    split_ifs
    · exact ⟨h.slots, h.nodup, h.mem_sent⟩
    · exact ⟨h.slots, h.nodup, h.mem_sent⟩
  | ask id =>
    refine ⟨?_, h.nodup, fun i answer => ?_⟩
    · exact h.slots.trans (by simp [Asker.holding])
    · rw [State.gave, gave_append]
      exact h.mem_sent i answer
  | start i peer hasker => exact h.turn peer .asking hasker rfl rfl rfl rfl
  | answer i peer value usable failed hasker =>
      exact h.turn peer (.sending _) hasker rfl rfl rfl rfl
  | send i peer answer hasker =>
    have hnew : ∀ found, (i, found) ∉ s.sent := by
      intro found hfound
      have hgave := (h.mem_sent i found).mp hfound
      rw [gave_of_askers hasker] at hgave
      cases hgave
    refine ⟨?_, ?_, fun j found => ?_⟩
    · have hcount := countP_setPhase peer (.leaving answer) hasker
      exact h.slots.trans (Nat.add_right_cancel hcount).symm
    · rw [List.map_append, List.map_singleton, List.nodup_append]
      refine ⟨h.nodup, List.nodup_singleton _, ?_⟩
      rintro k hk l hl rfl
      obtain ⟨⟨k, found⟩, hfound, rfl⟩ := List.mem_map.mp hk
      obtain rfl : k = i := List.mem_singleton.mp hl
      exact hnew found hfound
    · have hgave := gave_setPhase peer (.leaving answer) hasker j
      change _ ↔ (s.setPhase i peer (.leaving answer)).gave j = some found
      rw [hgave, List.mem_append, List.mem_singleton, Prod.mk.injEq]
      split_ifs with hj
      · subst hj
        exact ⟨fun hor => (hor.resolve_left (hnew found)).2 ▸ rfl,
          fun heq => .inr ⟨rfl, (Option.some.inj heq).symm⟩⟩
      · rw [← h.mem_sent]
        exact or_iff_left fun heq => hj heq.1.symm
  | leave i peer answer hasker =>
    refine h.turn peer (.done answer) hasker rfl rfl rfl ?_
    have hpos : 0 < s.askers.countP Asker.holding :=
      List.countP_pos_iff.mpr ⟨_, List.mem_of_getElem? hasker, rfl⟩
    have hslots := h.slots
    change s.slots - 1 + 1 = s.slots + 0
    omega

omit [DecidableEq Id] in
/-- Only goroutines that are there have sent. -/
lemma Goroutines.lt_length (h : Goroutines s) {i : Nat} (hi : i ∈ s.sent.map (·.1)) :
    i < s.askers.length := by
  obtain ⟨⟨i, answer⟩, hsent, rfl⟩ := List.mem_map.mp hi
  have hgave := (h.mem_sent i answer).mp hsent
  by_contra hge
  rw [State.gave, List.getElem?_eq_none (not_lt.mp hge)] at hgave
  cases hgave

omit [DecidableEq Id] in
lemma Goroutines.sent_length_le (h : Goroutines s) : s.sent.length ≤ s.askers.length := by
  have hsubset : s.sent.map (·.1) ⊆ List.range s.askers.length :=
    fun i hi => List.mem_range.mpr (h.lt_length hi)
  simpa using (List.subperm_of_subset h.nodup hsubset).length_le

omit [DecidableEq Id] in
/-- A goroutine that is sending is not among those that have sent. -/
lemma Goroutines.sent_length_lt (h : Goroutines s) {i : Nat} {asker : Asker Id T}
    (hasker : s.askers[i]? = some asker)
    (hnone : asker.sentAnswer = none) : s.sent.length < s.askers.length := by
  obtain ⟨hlt, -⟩ := List.getElem?_eq_some_iff.mp hasker
  have hi : i ∉ s.sent.map (·.1) := by
    rw [List.mem_map]
    rintro ⟨⟨i, answer⟩, hsent, rfl⟩
    have hgave := (h.mem_sent i answer).mp hsent
    rw [gave_of_askers hasker, hnone] at hgave
    cases hgave
  have hsubset : i :: s.sent.map (·.1) ⊆ List.range s.askers.length :=
    List.cons_subset.mpr ⟨List.mem_range.mpr hlt, fun j hj => List.mem_range.mpr (h.lt_length hj)⟩
  have hle := (List.subperm_of_subset (List.nodup_cons.mpr ⟨hi, h.nodup⟩) hsubset).length_le
  rwa [List.length_cons, List.length_map, List.length_range] at hle

/-! ### The main loop -/

/-- What was received was sent first, and makes up the results and the deadline. -/
structure Main (grace : Nat) (s : State Id T) : Prop where
  sent : s.sent = s.received.map (fun r => (r.asker, r.answer)) ++ s.answers
  results : s.results = (s.received.filter (·.answer.usable)).map (·.answer.value)
  deadline : s.deadline = (s.received.find? (·.answer.usable)).map (·.time + grace)
  pending : s.pending + s.received.length = s.askers.length
  askers_le : s.askers.length ≤ s.providers
  stopped : s.returned → (s.closed ∧ s.pending = 0) ∨ ∃ deadline ∈ s.deadline, deadline ≤ s.now

omit [DecidableEq Id] in
lemma State.not_returned (h : s.running) : ¬ s.returned := by
  rw [State.running, Bool.and_eq_true, Bool.not_eq_true'] at h
  simp [h.1]

lemma Main.steps {e : Event Id T} (h : Main grace s) (hg : Goroutines s)
    (hstep : Steps self grace s e s') :
    Main grace s' := by
  cases hstep with
  | itself => exact h
  | skip id hrunning =>
    refine ⟨h.sent, h.results, h.deadline, h.pending, h.askers_le.trans (Nat.le_succ _), h.stopped⟩
  | ask id hrunning =>
    have hnot := State.not_returned hrunning
    refine ⟨h.sent, h.results, h.deadline, ?_, ?_, fun hreturned => absurd hreturned hnot⟩
    · have := h.pending
      simp only [List.length_append, List.length_singleton]
      omega
    · simpa using h.askers_le
  | close hrunning =>
    have hnot := State.not_returned hrunning
    exact ⟨h.sent, h.results, h.deadline, h.pending, h.askers_le,
      fun hreturned => absurd hreturned hnot⟩
  | receive i answer rest hrunning hanswers =>
    have hnot := State.not_returned hrunning
    have hsent : s.sent = (s.received ++ [(⟨i, answer, s.now⟩ : Received T)]).map
        (fun r => (r.asker, r.answer)) ++ rest := by
      rw [h.sent, hanswers, List.map_append, List.map_singleton, List.append_assoc,
        List.singleton_append]
    have hpending : s.pending - 1 + (s.received ++ [(⟨i, answer, s.now⟩ : Received T)]).length =
        s.askers.length := by
      have hle := hg.sent_length_le
      have hcount := h.pending
      rw [hsent, List.length_append, List.length_map] at hle
      rw [List.length_append, List.length_singleton] at hle ⊢
      omega
    rw [State.receive]
    dsimp only
    split_ifs with husable
    · refine ⟨hsent, ?_, ?_, hpending, h.askers_le, fun hreturned => absurd hreturned hnot⟩
      · simp [h.results, husable]
      · simp only [h.deadline, List.find?_append, List.find?_singleton, husable, if_true]
        cases s.received.find? (·.answer.usable) with
        | none => rfl
        | some first => rfl
    · refine ⟨hsent, ?_, ?_, hpending, h.askers_le, fun hreturned => absurd hreturned hnot⟩
      · simp [h.results, husable]
      · simp [h.deadline, List.find?_append, husable]
  | expire deadline hrunning hdeadline hle =>
    exact ⟨h.sent, h.results, h.deadline, h.pending, h.askers_le,
      fun _ => .inr ⟨deadline, hdeadline, hle⟩⟩
  | finish hreturned hrunning =>
    refine ⟨h.sent, h.results, h.deadline, h.pending, h.askers_le, fun _ => .inl ?_⟩
    simp only [State.running, hreturned, Bool.true_and, Bool.not_eq_true', Bool.or_eq_false_iff,
      Bool.not_eq_false', decide_eq_false_iff_not, not_lt, Nat.le_zero] at hrunning
    exact hrunning
  | start | answer | leave =>
    refine ⟨h.sent, h.results, h.deadline, ?_, ?_, h.stopped⟩
    · simpa [State.setPhase, State.noted] using h.pending
    · simpa [State.setPhase, State.noted] using h.askers_le
  | send i peer answer =>
    refine ⟨?_, h.results, h.deadline, ?_, ?_, h.stopped⟩
    · simp only [State.setPhase, h.sent, List.append_assoc]
    · simpa [State.setPhase] using h.pending
    · simpa [State.setPhase] using h.askers_le
  | lookUp | remark => exact ⟨h.sent, h.results, h.deadline, h.pending, h.askers_le, h.stopped⟩
  | tick nanoseconds =>
    refine ⟨h.sent, h.results, h.deadline, h.pending, h.askers_le, fun hreturned => ?_⟩
    rcases h.stopped hreturned with hclosed | ⟨deadline, hdeadline, hle⟩
    · exact .inl hclosed
    · exact .inr ⟨deadline, hdeadline, hle.trans (Nat.le_add_right _ _)⟩

/-! ### Failures -/

/-- What the table holds of a peer is the newest note of it, which is of a failure. -/
def Remembers (s : State Id T) : Prop :=
  ∀ failedAt ∈ s.failures, ∀ id time, failedAt id = some time →
    s.notes.find? (·.peer = id) = some ⟨id, true, time⟩

lemma recent_eq (failures : Failures Id) (now : Nat) (id : Id) (h : (recent failures now id).1) :
    ∃ failedAt ∈ failures, ∃ failed, failedAt id = some failed ∧ now < failed + failureMemory := by
  cases failures with
  | none => cases h
  | some failedAt =>
    rw [recent] at h
    cases hfailed : failedAt id with
    | none =>
      rw [hfailed] at h
      cases h
    | some failed =>
      rw [hfailed] at h
      dsimp only at h
      split_ifs at h with hold
      exact ⟨failedAt, rfl, failed, hfailed, not_le.mp hold⟩

/-- Looking up a failure forgets one at most. -/
lemma recent_subset {failures : Failures Id} {now : Nat} {id : Id} {failedAt : Id → Option Nat}
    (h : failedAt ∈ (recent failures now id).2) :
    ∃ before ∈ failures, ∀ peer time, failedAt peer = some time → before peer = some time := by
  cases failures with
  | none => cases h
  | some before =>
    refine ⟨before, rfl, fun peer time htime => ?_⟩
    rw [recent] at h
    cases hfailed : before id with
    | none =>
      rw [hfailed] at h
      exact Option.some.inj h ▸ htime
    | some failed =>
      rw [hfailed] at h
      dsimp only at h
      split_ifs at h
      · obtain rfl := Option.some.inj h
        by_cases hpeer : peer = id
        · rw [hpeer, Function.update_self] at htime
          cases htime
        · rwa [Function.update_of_ne hpeer] at htime
      · exact Option.some.inj h ▸ htime

lemma Remembers.lookUp (h : Remembers s) (id : Id) {t : State Id T}
    (hfailures : t.failures = (recent s.failures s.now id).2) (hnotes : t.notes = s.notes) :
    Remembers t := by
  intro failedAt hmem peer time htime
  rw [hfailures] at hmem
  obtain ⟨before, hbefore, himp⟩ := recent_subset hmem
  rw [hnotes]
  exact h before hbefore peer time (himp peer time htime)

lemma Remembers.noted (h : Remembers s) (id : Id) (failed : Bool) :
    Remembers (s.noted id failed) := by
  intro failedAt hmem peer time htime
  obtain ⟨before, hbefore, rfl⟩ := Option.map_eq_some_iff.mp hmem
  rw [State.noted, List.find?_cons]
  by_cases hpeer : peer = id
  · subst hpeer
    rw [Function.update_self] at htime
    cases failed with
    | false => cases htime
    | true =>
      obtain rfl := Option.some.inj htime
      simp
  · rw [Function.update_of_ne hpeer] at htime
    rw [decide_eq_false (fun heq => hpeer heq.symm)]
    exact h before hbefore peer time htime

lemma Remembers.steps {e : Event Id T} (h : Remembers s) (hstep : Steps self grace s e s') :
    Remembers s' := by
  cases hstep with
  | itself | close | expire | finish | start | send | leave | tick => exact h
  | receive =>
    rw [State.receive]
    dsimp only
    split_ifs
    · exact h
    · exact h
  | skip id | ask id | lookUp id => exact h.lookUp id rfl rfl
  | answer i peer value usable failed => exact h.noted peer failed
  | remark id failed => exact h.noted id failed

/-! ### Whole runs -/

/-- What holds at any time. -/
structure Inv (grace : Nat) (s : State Id T) : Prop where
  goroutines : Goroutines s
  main : Main grace s
  remembers : Remembers s

lemma inv_of_reachable (h : (system self grace remembers).Reachable (fun _ _ => True) s) :
    Inv grace s := by
  refine h.invariant ?_ fun s e s' _ hs _ hstep => ?_
  · refine ⟨⟨rfl, List.nodup_nil, fun i answer => ?_⟩, ⟨rfl, rfl, rfl, rfl, le_rfl, ?_⟩, ?_⟩
    · simp [system, State.gave]
    · simp [system]
    · rintro failedAt hmem id time htime
      cases remembers with
      | false => cases hmem
      | true =>
        obtain rfl := Option.some.inj hmem
        cases htime
  · have hsteps := steps_of_step hstep
    exact ⟨hs.goroutines.steps hsteps, hs.main.steps hs.goroutines hsteps,
      hs.remembers.steps hsteps⟩

def Event.asks : Event Id T → Prop
  | .start _ | .answer .. | .send _ | .leave _ => True
  | _ => False

def stepsLeft (askers : List (Asker Id T)) : Nat := askers.foldr (fun asker n => asker.left + n) 0

omit [DecidableEq Id] in
lemma stepsLeft_set {askers : List (Asker Id T)} {i : Nat} {asker : Asker Id T}
    (h : askers[i]? = some asker) (next : Asker Id T) : stepsLeft (askers.set i next) + asker.left =
      stepsLeft askers + next.left := by
  induction askers generalizing i with
  | nil => cases h
  | cons first askers ih =>
    cases i with
    | zero =>
      obtain rfl := Option.some.inj h
      simp only [List.set_cons_zero, stepsLeft, List.foldr_cons]
      omega
    | succ i =>
      have hrest := ih (i := i) (by simpa using h)
      simp only [List.set_cons_succ, stepsLeft, List.foldr_cons] at hrest ⊢
      omega

/-- Goroutines cannot go on forever. -/
lemma stepsLeft_lt {e : Event Id T} (hasks : e.asks) (hstep : Steps self grace s e s') :
    stepsLeft s'.askers < stepsLeft s.askers := by
  have hset : ∀ {i : Nat} {asker next : Asker Id T}, s.askers[i]? = some asker →
      next.left < asker.left →
      stepsLeft (s.askers.set i next) < stepsLeft s.askers := by
    intro i asker next hasker hlt
    have := stepsLeft_set hasker next
    omega
  cases hstep with
  | start i peer hasker => exact hset hasker (by simp [Asker.left])
  | answer i peer value usable failed hasker => exact hset hasker (by simp [Asker.left])
  | send i peer answer hasker => exact hset hasker (by simp [Asker.left])
  | leave i peer answer hasker => exact hset hasker (by simp [Asker.left])
  | _ => exact hasks.elim

/-- The channel has room for every goroutine that is sending. -/
lemma Inv.isSome_send (h : Inv grace s) (self : Id) (hproviders : s.providers ≤ maxCandidates)
    {i : Nat} {peer : Id}
    {answer : Answer T} (hasker : s.askers[i]? = some ⟨peer, .sending answer⟩) :
    (step self grace s (.send i)).isSome := by
  have hlt := h.goroutines.sent_length_lt hasker rfl
  have hle := h.main.askers_le
  have hroom : s.answers.length < maxCandidates + 1 := by
    rw [h.main.sent, List.length_append] at hlt
    omega
  simp [step, hasker, hroom]

/-- Where no goroutine can go on, all are done. -/
lemma Inv.done (h : Inv grace s) (hproviders : s.providers ≤ maxCandidates) [Inhabited T]
    (hstuck : ∀ e : Event Id T, e.asks → step self grace s e = none) :
    ∀ asker ∈ s.askers, asker.left = 0 := by
  -- a goroutine with a slot can go on
  have hheld : ∀ (i : Nat) (asker : Asker Id T), s.askers[i]? = some asker → ¬ asker.holding := by
    rintro i ⟨peer, phase⟩ hasker hholding
    cases phase with
    | waiting => cases hholding
    | asking =>
      have hnone := hstuck (.answer i default true false) trivial
      simp [step, hasker] at hnone
    | sending answer =>
      have hsome := h.isSome_send self hproviders hasker
      rw [hstuck (.send i) trivial] at hsome
      cases hsome
    | leaving answer =>
      have hnone := hstuck (.leave i) trivial
      simp [step, hasker] at hnone
    | done answer => cases hholding
  have hslots : s.slots = 0 := by
    rw [h.goroutines.slots, List.countP_eq_zero]
    intro asker hmem
    obtain ⟨i, hi⟩ := List.mem_iff_getElem?.mp hmem
    exact hheld i asker hi
  rintro ⟨peer, phase⟩ hmem
  obtain ⟨i, hi⟩ := List.mem_iff_getElem?.mp hmem
  cases phase with
  | waiting =>
    have hnone := hstuck (.start i) trivial
    simp [step, hi, hslots, gatherParallel] at hnone
  | done answer => rfl
  | asking | sending | leaving => exact absurd rfl (hheld i _ hi)

/-- What `gather` promises, in any state of a run. -/
structure Sound (self : Id) (grace : Nat) (s : State Id T) : Prop where
  /-- The results are the usable answers received, each once, in the order in which they were
  sent. -/
  results : s.results = (s.received.filter (·.answer.usable)).map (·.answer.value)
  order : s.received.map (fun r => (r.asker, r.answer)) <+: s.sent
  once : (s.received.map (·.asker)).Nodup
  given : ∀ r ∈ s.received, s.gave r.asker = some r.answer
  /-- The grace period is over, or all were waited for. -/
  stopped : s.returned →
    (∃ first ∈ s.received.find? (·.answer.usable), first.time + grace ≤ s.now) ∨
    (s.closed ∧ ∀ i < s.askers.length, i ∈ s.received.map (·.asker))
  waited : s.returned → s.results = [] → s.closed ∧ ∀ i < s.askers.length, i ∈
    s.received.map (·.asker)
  /-- A peer that is not asked has failed lately, and nothing newer is known of it. -/
  skipped : ∀ id s', id ≠ self → step self grace s (.arrive id) = some s' → s'.askers = s.askers →
    ∃ note ∈ s.notes.find? (·.peer = id), note.failed ∧ s.now < note.time + failureMemory
  /-- No goroutine is left blocked. -/
  unblocked : s.providers ≤ maxCandidates →
    (∀ i peer answer, s.askers[i]? = some ⟨peer, .sending answer⟩ →
      (step self grace s (.send i)).isSome) ∧
      ((∀ e : Event Id T, e.asks → step self grace s e = none) → ∀ asker ∈ s.askers, asker.left = 0)
  ends : ∀ remembers, Acc ((system self grace remembers).Next fun _ e => e.asks) s

lemma Inv.received_sublist (h : Inv grace s) :
    (s.received.map (·.asker)).Sublist (s.sent.map (·.1)) := by
  rw [h.main.sent, List.map_append, List.map_map]
  exact List.sublist_append_left _ _

/-- Where no answer is outstanding, every goroutine's was received. -/
lemma Inv.received_all (h : Inv grace s) (hpending : s.pending = 0) :
    ∀ i < s.askers.length, i ∈ s.received.map (·.asker) := by
  intro i hi
  have hsublist := h.received_sublist
  have hsubset : s.received.map (·.asker) ⊆ List.range s.askers.length :=
    fun j hj => List.mem_range.mpr (h.goroutines.lt_length (hsublist.subset hj))
  have hlength : (List.range s.askers.length).length ≤ (s.received.map (·.asker)).length := by
    have := h.main.pending
    rw [List.length_range, List.length_map]
    omega
  have hperm :=
    (List.subperm_of_subset (hsublist.nodup h.goroutines.nodup) hsubset).perm_of_length_le hlength
  exact hperm.mem_iff.mpr (List.mem_range.mpr hi)

lemma Inv.stopped (h : Inv grace s) (hreturned : s.returned) :
    (∃ first ∈ s.received.find? (·.answer.usable), first.time + grace ≤ s.now) ∨
      (s.closed ∧ ∀ i < s.askers.length, i ∈ s.received.map (·.asker)) := by
  rcases h.main.stopped hreturned with ⟨hclosed, hpending⟩ | ⟨deadline, hdeadline, hle⟩
  · exact .inr ⟨hclosed, h.received_all hpending⟩
  · rw [h.main.deadline] at hdeadline
    obtain ⟨first, hfirst, rfl⟩ := Option.map_eq_some_iff.mp hdeadline
    exact .inl ⟨first, hfirst, hle⟩

lemma Inv.waited (h : Inv grace s) (hreturned : s.returned) (hresults : s.results = []) :
    s.closed ∧ ∀ i < s.askers.length, i ∈ s.received.map (·.asker) := by
  refine (h.stopped hreturned).resolve_left ?_
  rintro ⟨first, hfirst, -⟩
  rw [h.main.results, List.map_eq_nil_iff, List.filter_eq_nil_iff] at hresults
  have husable : first.answer.usable := by simpa using List.find?_some (Option.mem_def.mp hfirst)
  exact hresults first (List.mem_of_find?_eq_some hfirst) husable

lemma Inv.skipped (h : Inv grace s) {id : Id} (hself : id ≠ self)
    (hstep : step self grace s (.arrive id) = some s') (hasked : s'.askers = s.askers) :
    ∃ note ∈ s.notes.find? (·.peer = id), note.failed ∧ s.now < note.time + failureMemory := by
  cases steps_of_step hstep with
  | itself => exact absurd rfl hself
  | skip id hrunning hopen hne hrecent =>
    obtain ⟨failedAt, hmem, failed, hfailed, hlt⟩ := recent_eq _ _ _ hrecent
    exact ⟨_, h.remembers failedAt hmem id failed hfailed, rfl, hlt⟩
  | ask => exact absurd (congrArg List.length hasked) (by simp)

/-- No answer is lost or comes twice, no peer is given up too early, and no goroutine is left
blocked. -/
theorem gather_sound [Inhabited T]
    (h : (system self grace remembers).Reachable (fun _ _ => True) s) :
    Sound self grace s := by
  have hinv : Inv grace s := inv_of_reachable h
  exact
    { results := hinv.main.results
      order := ⟨_, hinv.main.sent.symm⟩
      once := hinv.received_sublist.nodup hinv.goroutines.nodup
      given := fun r hr => (hinv.goroutines.mem_sent _ _).mp
        (hinv.main.sent ▸ List.mem_append_left _ (List.mem_map.mpr ⟨r, hr, rfl⟩))
      stopped := hinv.stopped
      waited := hinv.waited
      skipped := fun _ _ => hinv.skipped
      unblocked := fun hproviders => ⟨fun _ _ _ => hinv.isSome_send self hproviders,
        hinv.done hproviders⟩
      ends := fun remembers => System.acc_of_measure (I := fun _ => True)
        (fun s => stepsLeft s.askers)
        (fun _ _ _ _ hasks hstep => ⟨trivial, stepsLeft_lt hasks (steps_of_step hstep)⟩) trivial }

/-- One peer answers, another one is slow, and the grace period ends. -/
def slowPeer : List (Event String String) :=
  [.arrive "fast", .arrive "self", .arrive "slow", .start 0, .start 1, .answer 0 "here" true false,
    .send 0, .receive, .tick 5, .expire]

theorem gather_sound_small :
    ∃ s : State String String, s.returned ∧ s.results = ["here"] ∧ Sound "self" 5 s := by
  obtain ⟨s, hexec, hreturned, hresults⟩ : ∃ s, (system "self" 5 true).exec (fun _ _ => True)
      (system "self" 5 true).init slowPeer = some s ∧ s.returned ∧ s.results = ["here"] :=
    ⟨_, rfl, rfl, rfl⟩
  exact ⟨s, hreturned, hresults, gather_sound (System.Reachable.init.exec slowPeer hexec)⟩

end ProviderOwned.Gather
