import ProviderOwned.Coordinator.QueueHistory
import ProviderOwned.Lib.Rotation
import Mathlib.Data.Finset.Card

/-!
# The fairness of a fair queue

The keys that are ready are a rotation: a pop serves the first one, which joins again at the end
when its line is not empty, a push to an empty line lets its key join, and a removal that empties a
line lets its key leave. So every key that waits is served in turn, whatever else is done with the
queue.
-/

namespace ProviderOwned

open Transition Rotation

namespace QueueHistory

variable {α : Type*}

/-- The line of a key is not empty. -/
def Waits (key : Nat) (h : QueueHistory α) : Prop := FairQueue.line h.queue.queues key ≠ []

/-- The keys whose line is not empty. -/
def waiting (h : QueueHistory α) : Finset Nat :=
  ((h.queue.queues.filter fun e => !e.2.isEmpty).map Prod.fst).toFinset

/-- A pop that returns a value of a key. -/
def Pops [DecidableEq α] (key : Nat) (h h' : QueueHistory α) : Prop :=
  h.step .pop = some h' ∧ ∃ value, h'.popped = h.popped ++ [(key, value)]

/-- The keys of the pops from `h` to `h'`, in order. -/
def popsSince (h h' : QueueHistory α) : List Nat := (h'.popped.drop h.popped.length).map Prod.fst

/-- What a fair queue promises to the keys that wait, from a state on. -/
structure Fair [DecidableEq α] (capacity : Nat) (h : QueueHistory α) : Prop where
  /-- Between two pops of a key every other key that waits throughout is popped. -/
  served : ∀ {j k h₁ h₂ h₃}, j ≠ k → Pops k h h₁ → (system capacity).Within (Waits j) h₁ h₂ →
    k ∉ popsSince h₁ h₂ → Pops k h₂ h₃ → j ∈ popsSince h₁ h₂
  /-- It is popped once if both keys wait throughout. -/
  once : ∀ {j k h₁ h₂ h₃}, j ≠ k → Pops k h h₁ →
    (system capacity).Within (fun s => Waits j s ∧ Waits k s) h₁ h₂ →
    k ∉ popsSince h₁ h₂ → Pops k h₂ h₃ → (popsSince h₁ h₂).count j = 1
  /-- While a key waits and is not popped there are fewer pops than keys that waited at first. -/
  soon : ∀ {k h'}, (system capacity).Within (Waits k) h h' → k ∉ popsSince h h' →
    (popsSince h h').length < h.waiting.card

variable {capacity : Nat} {h h' : QueueHistory α} {key : Nat}

lemma Inv.waits_iff (hinv : h.Inv capacity) : Waits key h ↔ key ∈ h.queue.ready :=
  (hinv.valid.ready key).symm

/-- The keys that wait are those that are ready. -/
lemma Inv.card_waiting (hinv : h.Inv capacity) : h.waiting.card = h.queue.ready.length := by
  have hsame : h.waiting = h.queue.ready.toFinset := by
    ext key
    rw [List.mem_toFinset, hinv.valid.ready key]
    simp only [waiting, List.mem_toFinset, List.mem_map, List.mem_filter]
    constructor
    · rintro ⟨e, ⟨he, hline⟩, rfl⟩
      rw [FairQueue.line_eq_of_mem hinv.valid.keys he]
      simpa using hline
    · intro hline
      by_cases hmem : key ∈ h.queue.queues.map Prod.fst
      · obtain ⟨e, he, rfl⟩ := List.mem_map.mp hmem
        rw [FairQueue.line_eq_of_mem hinv.valid.keys he] at hline
        exact ⟨e, ⟨he, by simpa using hline⟩, rfl⟩
      · exact absurd (FairQueue.line_eq_nil hmem) hline
  rw [hsame, List.toFinset_card_of_nodup hinv.valid.nodup]

/-! ### Turns -/

/-- What a step adds to the pops is the key that the rotation serves. -/
def Turned (h h' : QueueHistory α) : Prop :=
  ∃ key, Turn h.queue.ready key h'.queue.ready ∧
    ∃ new, h'.popped = h.popped ++ new ∧ new.map Prod.fst = key.toList

lemma Turned.silent (hturn : Turn h.queue.ready none h'.queue.ready)
    (hpopped : h'.popped = h.popped) :
    Turned h h' :=
  ⟨none, hturn, [], by simp [hpopped], rfl⟩

lemma turned_push {value : α} {queue : FairQueue α} (hinv : h.Inv capacity)
    (hpush : h.queue.push key value = some queue) :
    Turned h { h with queue, pushed := h.pushed ++ [(key, value)] } := by
  refine Turned.silent ?_ rfl
  unfold FairQueue.push at hpush
  by_cases hrefused : h.queue.closed ∨ h.queue.capacity ≤ h.queue.size
  · simp [hrefused] at hpush
  rw [if_neg hrefused] at hpush
  obtain rfl := Option.some.inj hpush
  dsimp only
  split_ifs with hempty
  · refine Turn.join fun hmem => ?_
    exact (hinv.valid.ready key).mp hmem (by simpa using hempty)
  · exact Turn.same _

lemma turned_pop {value : α} {queue : FairQueue α} (hinv : h.Inv capacity)
    (hpop : h.queue.popLocked = (some value, queue)) :
    Turned h { h with queue, popped := h.popped ++ [(h.queue.served.getD 0, value)] } := by
  unfold FairQueue.popLocked at hpop
  unfold Turned FairQueue.served
  cases hready : h.queue.ready with
  | nil => simp [hready, FairQueue.popFrom] at hpop
  | cons key ready =>
    have hline := (hinv.valid.ready key).mp (by simp [hready])
    rw [hready, FairQueue.popFrom] at hpop
    cases hcase : FairQueue.line h.queue.queues key with
    | nil => exact absurd hcase hline
    | cons first rest =>
      simp only [hcase] at hpop
      obtain ⟨hvalue, rfl⟩ := Prod.mk.inj hpop
      refine ⟨some key, ?_, _, rfl, by simp [hcase]⟩
      dsimp only
      split_ifs
      · exact Turn.retire key ready
      · exact Turn.rejoin key ready

lemma turned_removeIf {predicate : α → Bool} :
    Turned h { h with
      queue := (h.queue.removeIf predicate).2
      removed := h.removed ++ (h.queue.removeIf predicate).1.toList } := by
  refine Turned.silent ?_ rfl
  unfold FairQueue.removeIf
  cases hfind : h.queue.queues.find? (·.2.any predicate) with
  | none => exact Turn.same _
  | some e =>
    dsimp only
    split_ifs
    · exact Turn.leave _ _
    · exact Turn.same _

lemma turn_clear (l : List Nat) : Turn l none [] := by
  have hturn := Turn.leave (fun _ => false) l
  rwa [List.filter_false] at hturn

/-- Every operation is a turn of the keys that are ready. -/
lemma turned [DecidableEq α] (hinv : h.Inv capacity) {e : QueueEvent α}
    (hstep : h.step e = some h') :
    Turned h h' := by
  cases e <;> dsimp only [QueueHistory.step] at hstep
  case push key value =>
    cases hpush : h.queue.push key value with
    | none =>
      simp only [hpush] at hstep
      obtain rfl := Option.some.inj hstep
      exact Turned.silent (Turn.same _) rfl
    | some queue =>
      simp only [hpush] at hstep
      obtain rfl := Option.some.inj hstep
      exact turned_push hinv hpush
  case pop =>
    rcases hpop : h.queue.popLocked with ⟨popped, queue⟩
    rw [hpop] at hstep
    cases popped with
    | none =>
      obtain rfl := Option.some.inj hstep
      obtain ⟨hvalid', -, hitems'⟩ := FairQueue.pop_none hinv.valid hpop
      have hnone : queue.ready = [] := by
        refine List.eq_nil_iff_forall_not_mem.mpr fun key hkey => ?_
        exact (hvalid'.ready key).mp hkey (FairQueue.line_of_items hvalid'.keys hitems' key)
      refine Turned.silent ?_ rfl
      rw [hnone]
      exact turn_clear _
    | some value =>
      obtain rfl := Option.some.inj hstep
      exact turned_pop hinv hpop
  case removeIf predicate =>
    obtain rfl := Option.some.inj hstep
    exact turned_removeIf
  case drain =>
    obtain rfl := Option.some.inj hstep
    exact Turned.silent (turn_clear _) rfl
  case close =>
    obtain rfl := Option.some.inj hstep
    exact Turned.silent (turn_clear _) rfl
  case rehash queues =>
    split_ifs at hstep
    obtain rfl := Option.some.inj hstep
    exact Turned.silent (Turn.same _) rfl

/-! ### Runs -/

/-- A run of the queue is a run of the keys that are ready. -/
lemma run_ready [DecidableEq α] {P : QueueHistory α → Prop} {Q : List Nat → Prop}
    (hrun : (system capacity).Within P h h') (hinv : h.Inv capacity)
    (himp : ∀ s : QueueHistory α, s.Inv capacity → P s → Q s.queue.ready) :
    h'.Inv capacity ∧ Run Q h.queue.ready (popsSince h h') h'.queue.ready ∧
      ∃ new, h'.popped = h.popped ++ new := by
  induction hrun with
  | refl hs =>
    refine ⟨hinv, ?_, [], by simp⟩
    rw [popsSince, List.drop_length]
    exact Run.refl (himp _ hinv hs)
  | @step s s' s'' e hs hstep _ ih =>
    obtain ⟨key, hturn, new, hnew, hkeys⟩ := turned hinv hstep
    obtain ⟨hinv'', hrest, later, hlater⟩ := ih (hinv.step hstep)
    refine ⟨hinv'', ?_, new ++ later, by rw [hlater, hnew, List.append_assoc]⟩
    have hpops : popsSince s s'' = key.toList ++ popsSince s' s'' := by
      simp only [popsSince]
      rw [hlater, List.drop_left, hnew, List.append_assoc, List.drop_left, List.map_append, hkeys]
    rw [hpops]
    exact Run.turn (himp _ hinv hs) hturn hrest

/-- A pop of a key serves the key that is ready first. -/
lemma Pops.turn [DecidableEq α] (hpops : Pops key h h') (hinv : h.Inv capacity) :
    ∃ rest, h.queue.ready = key :: rest ∧ Turn (key :: rest) (some key) h'.queue.ready := by
  obtain ⟨hstep, value, hpopped⟩ := hpops
  obtain ⟨served, hturn, new, hnew, hkeys⟩ := turned hinv hstep
  rw [hpopped] at hnew
  obtain rfl := List.append_cancel_left hnew
  obtain rfl : served = some key := by
    cases served <;> simp_all
  generalize h.queue.ready = ready, h'.queue.ready = ready' at hturn ⊢
  cases hturn with
  | retire => exact ⟨_, rfl, .retire _ _⟩
  | rejoin => exact ⟨_, rfl, .rejoin _ _⟩

lemma Inv.toFair [DecidableEq α] (hinv : h.Inv capacity) : h.Fair capacity := by
  have hserved : ∀ {j k h₁ h₂ h₃}, j ≠ k → Pops k h h₁ → (system capacity).Within (Waits j) h₁ h₂ →
      k ∉ popsSince h₁ h₂ → Pops k h₂ h₃ → j ∈ popsSince h₁ h₂ := by
    intro j k h₁ h₂ h₃ hjk hfirst hrun hk hlast
    obtain ⟨m, hready, hturn⟩ := hfirst.turn hinv
    obtain ⟨hinv₂, hrun, -⟩ := run_ready hrun (hinv.step hfirst.1) fun s hs => hs.waits_iff.mp
    obtain ⟨m', hready₂, -⟩ := hlast.turn hinv₂
    rw [hready₂] at hrun
    exact hrun.mem_between hturn (hready ▸ hinv.valid.nodup) hjk hk
  refine ⟨hserved, ?_, ?_⟩
  · intro j k h₁ h₂ h₃ hjk hfirst hrun hk hlast
    have hinv₁ := hinv.step hfirst.1
    obtain ⟨-, hready, -⟩ := run_ready (Q := (k ∈ ·)) hrun hinv₁ fun s hs h => hs.waits_iff.mp h.2
    have hmem := hserved hjk hfirst (hrun.mono fun s h => h.1) hk hlast
    exact le_antisymm (hready.count_le hinv₁.valid.nodup hk j) (List.count_pos_iff.mpr hmem)
  · intro k h' hrun hk
    obtain ⟨-, hready, -⟩ := run_ready (Q := (k ∈ ·)) hrun hinv fun s hs => hs.waits_iff.mp
    rw [hinv.card_waiting]
    exact hready.length_lt hk

/-- A fair queue is fair to every key that waits, from every state it can reach. -/
theorem fair [DecidableEq α] (hreach : (system (α := α) capacity).Reachable (fun _ _ => True) h) :
    h.Fair capacity :=
  (Inv.reachable hreach).toFair

/-- Two keys wait: the second one is served before the first one is served again. -/
theorem fair_two_keys : ∃ h h' : QueueHistory Nat, h.waiting = {1, 2} ∧ Pops 1 h h' ∧ h.Fair 3 := by
  have hrun : ((system 3).exec (fun _ _ => True) (system 3).init
      [.push 1 10, .push 1 11, .push 2 20]).map
      (fun h : QueueHistory Nat => (h.waiting, (h.step .pop).map (·.popped), h.popped))
      = some ({1, 2}, some [(1, 10)], []) := by
    decide +kernel
  obtain ⟨h, hexec, hview⟩ := Option.map_eq_some_iff.mp hrun
  obtain ⟨hwaiting, hpop, hpopped⟩ := Prod.mk.injEq .. ▸ Prod.mk.injEq .. ▸ hview
  obtain ⟨h', hstep, hnew⟩ := Option.map_eq_some_iff.mp hpop
  exact ⟨h, h', hwaiting, ⟨hstep, 10, by rw [hnew, hpopped]; rfl⟩,
    fair (System.Reachable.init.exec _ hexec)⟩

end QueueHistory

end ProviderOwned
