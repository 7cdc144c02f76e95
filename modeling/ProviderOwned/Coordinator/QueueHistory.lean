import Mathlib.Algebra.GroupWithZero.Nat
import ProviderOwned.Coordinator.FairQueue
import ProviderOwned.Lib.Transition

/-!
# The history of a fair queue

A fair queue under any interleaving of its operations, with what was accepted and what left it, and
how. The map of the lines may be iterated in another order after any step.
-/

namespace ProviderOwned

open Transition

namespace FairQueue

variable {α : Type*} {q q' : FairQueue α} {queues : List (Nat × List α)} {key : Nat} {value : α}

/-- The key that is served next: the first that is ready and has a line. -/
def served (q : FairQueue α) : Option Nat := q.ready.find? fun key => !(line q.queues key).isEmpty

/-! ### What an operation does to the lines -/

lemma push_line (h : q.Valid) (hpush : q.push key value = some q') (k : Nat) :
    line q'.queues k = if k = key then line q.queues key ++ [value] else line q.queues k := by
  unfold push at hpush
  split_ifs at hpush
  all_goals
    obtain rfl := Option.some.inj hpush
    exact line_setLine h.keys k

/-- The value that is popped is the first of the line of the key that is served. -/
lemma pop_line (h : q.Valid) (hpop : q.popLocked = (some value, q')) :
    ∃ key, q.served = some key ∧ line q.queues key = value :: line q'.queues key ∧
      ∀ k, k ≠ key → line q'.queues k = line q.queues k := by
  unfold popLocked at hpop
  cases hready : q.ready with
  | nil => simp [hready, popFrom] at hpop
  | cons key ready =>
    have hline := (h.ready key).mp (by simp [hready])
    rw [hready, popFrom] at hpop
    cases hcase : line q.queues key with
    | nil => exact absurd hcase hline
    | cons first rest =>
      simp only [hcase] at hpop
      obtain ⟨hvalue, rfl⟩ := Prod.mk.inj hpop
      obtain rfl := Option.some.inj hvalue
      refine ⟨key, by simp [served, hready, hcase], ?_, fun k hk => ?_⟩
      · rw [hcase, line_setLine h.keys, if_pos rfl]
      · rw [line_setLine h.keys, if_neg hk]

/-- A removal takes a value out of one line. -/
lemma removeIf_line {predicate : α → Bool} (h : q.Valid) (k : Nat) :
    (line (q.removeIf predicate).2.queues k).Sublist (line q.queues k) := by
  unfold removeIf
  cases hfind : q.queues.find? (·.2.any predicate) with
  | none => exact List.Sublist.refl _
  | some e =>
    obtain ⟨key, values⟩ := e
    have hline := line_eq_of_mem h.keys (List.mem_of_find?_eq_some hfind)
    dsimp only
    rw [line_setLine h.keys]
    split_ifs with hk
    · rw [hk, hline]
      exact List.eraseP_sublist
    · exact List.Sublist.refl _

/-- The lines do not depend on the order in which the map is iterated. -/
lemma line_perm (hkeys : (q.queues.map Prod.fst).Nodup) (hperm : queues.Perm q.queues) (k : Nat) :
    line queues k = line q.queues k := by
  have hkeys' : (queues.map Prod.fst).Nodup := (hperm.map Prod.fst).nodup_iff.mpr hkeys
  by_cases hk : k ∈ q.queues.map Prod.fst
  · obtain ⟨⟨k, values⟩, he, rfl⟩ := List.mem_map.mp hk
    rw [line_eq_of_mem hkeys he, line_eq_of_mem hkeys' (hperm.mem_iff.mpr he)]
  · rw [line_eq_nil hk, line_eq_nil]
    exact fun hk' => hk ((hperm.map Prod.fst).mem_iff.mp hk')

lemma line_of_items (hkeys : (q.queues.map Prod.fst).Nodup) (hitems : q.items = []) (k : Nat) :
    line q.queues k = [] := by
  have hperm := flatMap_perm hkeys k
  rw [← items, hitems] at hperm
  exact (List.append_eq_nil_iff.mp hperm.nil_eq.symm).1

lemma Valid.rehash (h : q.Valid) (hperm : queues.Perm q.queues) : Valid { q with queues } where
  keys := (hperm.map Prod.fst).nodup_iff.mpr h.keys
  lines e he := h.lines e (hperm.mem_iff.mp he)
  nodup := h.nodup
  ready k := by
    rw [line_perm h.keys hperm]
    exact h.ready k
  size := h.size.trans (hperm.flatMap_right Prod.snd).length_eq.symm
  bound := h.bound
  closed hc := by
    have hnil := h.closed hc
    exact List.Perm.eq_nil (hnil ▸ hperm.flatMap_right Prod.snd)

end FairQueue

/-! ### Histories -/

/-- A fair queue, the values that were accepted and popped with their keys, those that were removed
and drained, and how many had been accepted when it was closed. -/
structure QueueHistory (α : Type*) where
  queue : FairQueue α
  pushed : List (Nat × α) := []
  popped : List (Nat × α) := []
  removed : List α := []
  drained : List α := []
  closing : Option Nat := none

/-- An operation of a fair queue, or the map of its lines is iterated in another order from now
on. -/
inductive QueueEvent (α : Type*)
  | push (key : Nat) (value : α)
  | pop
  | removeIf (predicate : α → Bool)
  | drain
  | close
  | rehash (queues : List (Nat × List α))

namespace QueueHistory

variable {α : Type*}

def step [DecidableEq α] (h : QueueHistory α) : QueueEvent α → Option (QueueHistory α)
  | .push key value =>
    match h.queue.push key value with
    | some queue => some { h with queue, pushed := h.pushed ++ [(key, value)] }
    | none => some h
  | .pop =>
    match h.queue.popLocked with
    | (some value, queue) =>
      some { h with queue, popped := h.popped ++ [(h.queue.served.getD 0, value)] }
    | (none, queue) => some { h with queue }
  | .removeIf predicate =>
    let removed := h.queue.removeIf predicate
    some { h with queue := removed.2, removed := h.removed ++ removed.1.toList }
  | .drain => some { h with queue := h.queue.drain.2, drained := h.drained ++ h.queue.drain.1 }
  | .close => some { h with
      queue := h.queue.close.2, drained := h.drained ++ h.queue.close.1
      closing := h.closing.or (some h.pushed.length) }
  | .rehash queues =>
    if queues.Perm h.queue.queues then some { h with queue := { h.queue with queues } } else none

def system [DecidableEq α] (capacity : Nat) : System (QueueHistory α) (QueueEvent α) where
  init := { queue := { capacity } }
  step := step

def ofKey (key : Nat) (values : List (Nat × α)) : List α :=
  (values.filter (·.1 = key)).map Prod.snd

@[simp] lemma ofKey_append {key : Nat} {values values' : List (Nat × α)} :
    ofKey key (values ++ values') = ofKey key values ++ ofKey key values' := by
  simp [ofKey]

@[simp] lemma ofKey_self {key : Nat} {value : α} : ofKey key [(key, value)] = [value] := by
  simp [ofKey]

lemma ofKey_of_ne {key k : Nat} {value : α} (h : k ≠ key) : ofKey k [(key, value)] = [] := by
  simp [ofKey, Ne.symm h]

/-- What a fair queue promises. -/
structure Conserved (capacity : Nat) (h : QueueHistory α) : Prop where
  /-- The size is the sum of the lengths of the lines, and never exceeds the capacity. -/
  size : h.queue.size = (h.queue.queues.map fun e => e.2.length).sum ∧ h.queue.size ≤ capacity
  /-- The keys that are ready are those that have a line, each once. -/
  ready : h.queue.ready.Nodup ∧
    ∀ key, key ∈ h.queue.ready ↔ FairQueue.line h.queue.queues key ≠ []
  /-- The values that were accepted are those that left, each in one way, and those that are
  queued. -/
  conserved : (h.pushed.map Prod.snd).Perm
    (h.popped.map Prod.snd ++ h.removed ++ h.drained ++ h.queue.items)
  /-- The values of a key are popped in the order in which they were accepted. -/
  order : ∀ key, (ofKey key h.popped ++ FairQueue.line h.queue.queues key).Sublist
    (ofKey key h.pushed)
  /-- Nothing is accepted after the queue was closed. -/
  closing : ∀ n, h.closing = some n → h.pushed.length = n ∧
    ∀ key value, h.queue.push key value = none

variable {capacity : Nat} {h h' : QueueHistory α}

/-- What every operation keeps. -/
structure Inv (capacity : Nat) (h : QueueHistory α) : Prop where
  valid : h.queue.Valid
  capacity : h.queue.capacity = capacity
  conserved : (h.pushed.map Prod.snd).Perm
    (h.popped.map Prod.snd ++ h.removed ++ h.drained ++ h.queue.items)
  order : ∀ key, (ofKey key h.popped ++ FairQueue.line h.queue.queues key).Sublist
    (ofKey key h.pushed)
  closing : ∀ n, h.closing = some n → h.pushed.length = n ∧ h.queue.closed

lemma Inv.push {key : Nat} {value : α} {queue : FairQueue α} (hinv : h.Inv capacity)
    (hpush : h.queue.push key value = some queue) :
    Inv capacity { h with queue, pushed := h.pushed ++ [(key, value)] } := by
  obtain ⟨hvalid, hcapacity, hconserved, horder, hclosing⟩ := hinv
  obtain ⟨hvalid', hitems⟩ := FairQueue.push_spec hvalid hpush
  constructor
  · exact hvalid'
  · exact (FairQueue.push_capacity hpush).trans hcapacity
  · simp only [List.map_append, List.map_singleton]
    refine (List.perm_append_singleton value _).trans ?_
    exact (hconserved.cons value).trans (List.perm_middle.symm.trans (hitems.symm.append_left _))
  · intro k
    have hk := horder k
    rw [FairQueue.push_line hvalid hpush, ofKey_append]
    split_ifs with heq
    · subst heq
      rw [ofKey_self, ← List.append_assoc]
      exact hk.append (List.Sublist.refl _)
    · rw [ofKey_of_ne heq, List.append_nil]
      exact hk
  · intro n hn
    have hrefused : h.queue.push key value = none := by
      simp [FairQueue.push, (hclosing n hn).2]
    rw [hpush] at hrefused
    contradiction

lemma Inv.pop {value : α} {queue : FairQueue α} (hinv : h.Inv capacity)
    (hpop : h.queue.popLocked = (some value, queue)) :
    Inv capacity { h with queue, popped := h.popped ++ [(h.queue.served.getD 0, value)] } := by
  obtain ⟨hvalid, hcapacity, hconserved, horder, hclosing⟩ := hinv
  obtain ⟨hvalid', hitems⟩ := FairQueue.pop_some hvalid hpop
  obtain ⟨key, hserved, hline, hothers⟩ := FairQueue.pop_line hvalid hpop
  have hframe := FairQueue.pop_capacity (q := h.queue)
  have hclosed := FairQueue.pop_closed (q := h.queue)
  rw [hpop] at hframe hclosed
  rw [hserved, Option.getD_some]
  constructor
  · exact hvalid'
  · exact hframe.trans hcapacity
  · have hleave := hconserved.trans (hitems.append_left _)
    refine hleave.trans ?_
    simp only [List.map_append, List.map_singleton, List.append_assoc, List.singleton_append]
    refine List.Perm.append_left _ ?_
    rw [← List.append_assoc, ← List.append_assoc]
    exact List.perm_middle
  · intro k
    have hk := horder k
    rw [ofKey_append]
    by_cases heq : k = key
    · subst heq
      rw [hline] at hk
      rwa [ofKey_self, List.append_assoc, List.singleton_append]
    · rw [ofKey_of_ne heq, List.append_nil, hothers k heq]
      exact hk
  · exact fun n hn => ⟨(hclosing n hn).1, hclosed.trans (hclosing n hn).2⟩

lemma Inv.removeIf {predicate : α → Bool} (hinv : h.Inv capacity) :
    Inv capacity { h with
      queue := (h.queue.removeIf predicate).2
      removed := h.removed ++ (h.queue.removeIf predicate).1.toList } := by
  obtain ⟨hvalid, hcapacity, hconserved, horder, hclosing⟩ := hinv
  have hlines : ∀ k, (FairQueue.line (h.queue.removeIf predicate).2.queues k).Sublist
      (FairQueue.line h.queue.queues k) := FairQueue.removeIf_line hvalid
  have hframe : (h.queue.removeIf predicate).2.capacity = h.queue.capacity :=
    FairQueue.removeIf_capacity
  have hclosed : (h.queue.removeIf predicate).2.closed = h.queue.closed :=
    FairQueue.removeIf_closed
  have hrest : (h.queue.removeIf predicate).2.Valid ∧
      h.queue.items.Perm
          ((h.queue.removeIf predicate).1.toList ++ (h.queue.removeIf predicate).2.items) := by
    rcases hremove : h.queue.removeIf predicate with ⟨removed, queue⟩
    cases removed with
    | none =>
      obtain ⟨rfl, -⟩ := FairQueue.removeIf_none hremove
      exact ⟨hvalid, List.Perm.refl _⟩
    | some value =>
      obtain ⟨hvalid', -, hitems⟩ := FairQueue.removeIf_some hvalid hremove
      exact ⟨hvalid', hitems⟩
  constructor
  · exact hrest.1
  · exact hframe.trans hcapacity
  · refine (hconserved.trans (hrest.2.append_left _)).trans ?_
    simp only [List.append_assoc]
    refine List.Perm.append_left _ (List.Perm.append_left _ ?_)
    rw [← List.append_assoc, ← List.append_assoc]
    exact List.perm_append_comm.append_right _
  · exact fun k => ((List.Sublist.refl _).append (hlines k)).trans (horder k)
  · exact fun n hn => ⟨(hclosing n hn).1, hclosed.trans (hclosing n hn).2⟩

/-- All lines are taken out. -/
lemma Inv.drain {queue : FairQueue α} (hinv : h.Inv capacity) (hvalid' : queue.Valid)
    (hcapacity' : queue.capacity = h.queue.capacity) (hitems : queue.items = [])
    (hlines : ∀ k, FairQueue.line queue.queues k = []) (closing : Option Nat)
    (hclosing' : ∀ n, closing = some n → h.pushed.length = n ∧ queue.closed) :
    Inv capacity { h with queue, drained := h.drained ++ h.queue.items, closing } := by
  obtain ⟨hvalid, hcapacity, hconserved, horder, -⟩ := hinv
  constructor
  · exact hvalid'
  · exact hcapacity'.trans hcapacity
  · simp only [hitems, List.append_nil]
    rw [← List.append_assoc]
    exact hconserved
  · intro k
    rw [hlines k, List.append_nil]
    exact (List.sublist_append_left _ _).trans (horder k)
  · exact hclosing'

lemma Inv.step [DecidableEq α] (hinv : h.Inv capacity) {e : QueueEvent α}
    (hstep : h.step e = some h') :
    h'.Inv capacity := by
  cases e <;> dsimp only [QueueHistory.step] at hstep
  case push key value =>
    cases hpush : h.queue.push key value with
    | none =>
      simp only [hpush] at hstep
      obtain rfl := Option.some.inj hstep
      exact hinv
    | some queue =>
      simp only [hpush] at hstep
      obtain rfl := Option.some.inj hstep
      exact hinv.push hpush
  case pop =>
    rcases hpop : h.queue.popLocked with ⟨popped, queue⟩
    rw [hpop] at hstep
    cases popped with
    | none =>
      obtain rfl := Option.some.inj hstep
      obtain ⟨hvalid', hitems, hitems'⟩ := FairQueue.pop_none hinv.valid hpop
      have hframe := FairQueue.pop_capacity (q := h.queue)
      have hclosed := FairQueue.pop_closed (q := h.queue)
      rw [hpop] at hframe hclosed
      -- no line is left, so nothing changes but the keys that are ready
      have hdrained :=
        hinv.drain hvalid' hframe hitems' (FairQueue.line_of_items hvalid'.keys hitems')
        h.closing fun n hn => ⟨(hinv.closing n hn).1, hclosed.trans (hinv.closing n hn).2⟩
      rwa [hitems, List.append_nil] at hdrained
    | some value =>
      obtain rfl := Option.some.inj hstep
      exact hinv.pop hpop
  case removeIf predicate =>
    obtain rfl := Option.some.inj hstep
    exact hinv.removeIf
  case drain =>
    obtain rfl := Option.some.inj hstep
    exact hinv.drain FairQueue.drain_spec.1 rfl rfl (fun _ => rfl) h.closing hinv.closing
  case close =>
    obtain rfl := Option.some.inj hstep
    refine hinv.drain FairQueue.close_spec.1 rfl rfl (fun _ => rfl) _ fun n hn => ⟨?_, rfl⟩
    cases hclosing : h.closing with
    | none => simpa [hclosing] using hn
    | some m =>
      have hm := (hinv.closing m hclosing).1
      simp only [hclosing, Option.some_or, Option.some.injEq] at hn
      exact hm.trans hn
  case rehash queues =>
    split_ifs at hstep with hperm
    obtain rfl := Option.some.inj hstep
    refine ⟨hinv.valid.rehash hperm, hinv.capacity, ?_, fun k => ?_, hinv.closing⟩
    · exact hinv.conserved.trans ((hperm.flatMap_right Prod.snd).symm.append_left _)
    · rw [FairQueue.line_perm hinv.valid.keys hperm]
      exact hinv.order k

lemma Inv.toConserved (hinv : h.Inv capacity) : h.Conserved capacity := by
  obtain ⟨hvalid, hcapacity, hconserved, horder, hclosing⟩ := hinv
  refine ⟨⟨?_, hcapacity ▸ hvalid.bound⟩, ⟨hvalid.nodup, hvalid.ready⟩, hconserved, horder,
    fun n hn => ?_⟩
  · rw [hvalid.size, FairQueue.items, List.length_flatMap]
  · obtain ⟨hlength, hclosed⟩ := hclosing n hn
    exact ⟨hlength, fun key value => by simp [FairQueue.push, hclosed]⟩

lemma Inv.reachable [DecidableEq α] (hreach : (system capacity).Reachable (fun _ _ => True) h) :
    h.Inv capacity := by
  refine hreach.invariant ?_ fun s e s' _ ih _ hstep => ih.step hstep
  constructor
  · constructor <;> simp [system, FairQueue.items, FairQueue.line]
  all_goals simp [system, FairQueue.items, FairQueue.line, ofKey]

/-- A fair queue conserves its values, whatever is done with it. -/
theorem conserved [DecidableEq α] (hreach : (system capacity).Reachable (fun _ _ => True) h) :
    h.Conserved capacity :=
  (Inv.reachable hreach).toConserved

/-- Two keys in turn: the second value of the first key leaves last. -/
theorem conserved_two_keys : ∃ h : QueueHistory Nat,
    h.popped = [(1, 10), (2, 20)] ∧ h.removed = [11] ∧ h.Conserved 3 := by
  have hrun : ((system 3).exec (fun _ _ => True) (system 3).init
      [.push 1 10, .push 1 11, .push 2 20, .pop, .pop, .removeIf (· = 11), .close, .push 1 12]).map
      (fun h : QueueHistory Nat => (h.popped, h.removed)) = some ([(1, 10), (2, 20)], [11]) := by
    decide +kernel
  obtain ⟨h, hexec, hview⟩ := Option.map_eq_some_iff.mp hrun
  exact ⟨h, (Prod.mk.inj hview).1, (Prod.mk.inj hview).2,
    conserved (System.Reachable.init.exec _ hexec)⟩

end QueueHistory

end ProviderOwned
