import Mathlib.Logic.Function.Basic
import ProviderOwned.Lib.Transition
import ProviderOwned.Protocol

/-!
# The worker's lease

`lease.hpp` and the part of `serve_connection` that uses it. A worker has one lease; any number of
control connections ask for it at once, each on its own thread. `WorkerLease` locks every method,
so a thread takes one method at a time and the rest of what it does is its own; a step below is one
method together with the thread's own bookkeeping. A thread reads the clock before it takes the
lock, so the time it passes may be behind the clock.
-/

namespace ProviderOwned

open Transition

/-- `struct StageRequest`, parsed. -/
structure StageRequest where
  routeId : String := ""
  modelSha256 : String := ""
  beginLayer : Int := 0
  endLayer : Int := 0
  context : Nat := 0
  sessions : Nat := 0
  leaseMs : Nat := 0
  draftSha256 : String := ""
  activations : DType := .f32le
  deriving DecidableEq, Repr

def maxLeaseMs : Nat := 60000

def hexString (value : String) (length : Nat) : Bool :=
  value.toList.length = length && value.toList.all fun c =>
    ('0' ≤ c && c ≤ '9') || ('a' ≤ c && c ≤ 'f') || ('A' ≤ c && c ≤ 'F')

namespace StageRequest

/-- `StageRequest::same_stage`: everything but the lease time. -/
def sameStage (r other : StageRequest) : Bool :=
  r.routeId = other.routeId && r.modelSha256 = other.modelSha256 &&
    r.beginLayer = other.beginLayer && r.endLayer = other.endLayer &&
    r.context = other.context && r.sessions = other.sessions &&
    r.draftSha256 = other.draftSha256 && r.activations = other.activations

/-- What `parse_stage_request` accepts once every line is read. -/
def valid (r : StageRequest) : Bool :=
  hexString r.routeId 32 && hexString r.modelSha256 64 && 0 ≤ r.beginLayer &&
    r.beginLayer < r.endLayer && r.context ≠ 0 && r.sessions ≠ 0 && r.leaseMs ≤ maxLeaseMs &&
    (r.draftSha256.isEmpty || hexString r.draftSha256 64)

lemma routeId_ne_empty {r : StageRequest} (h : r.valid) : r.routeId ≠ "" := by
  intro hempty
  simp [valid, hempty, hexString] at h

lemma routeId_of_sameStage {r other : StageRequest} (h : r.sameStage other) :
    r.routeId = other.routeId := by
  simp only [sameStage, Bool.and_eq_true, decide_eq_true_eq] at h
  exact h.1.1.1.1.1.1.1

end StageRequest

/-- `WorkerLease::State`. -/
inductive LeaseState
  | available | reserved | loading | serving
  deriving DecidableEq, Repr

structure WorkerLease where
  state : LeaseState := .available
  request : StageRequest := {}
  deadline : Nat := 0
  deriving DecidableEq, Repr

namespace WorkerLease

/-- `expire_locked`. -/
def expire (l : WorkerLease) (now : Nat) : WorkerLease :=
  if l.state = .reserved ∧ l.deadline ≤ now then { l with state := .available, request := {} }
  else l

def reserve (l : WorkerLease) (request : StageRequest) (now : Nat) : Bool × WorkerLease :=
  if (l.expire now).state ≠ .available ∨ request.leaseMs = 0 then (false, l.expire now)
  else (true, { state := .reserved, request, deadline := now + request.leaseMs })

def beginLoading (l : WorkerLease) (assignment : StageRequest) (now : Nat) : Bool × WorkerLease :=
  if (l.expire now).state ≠ .reserved ∨ !(l.expire now).request.sameStage assignment then
    (false, l.expire now)
  else (true, { l.expire now with state := .loading })

/-- `WorkerLease::serving`. -/
def serve (l : WorkerLease) (routeId : String) : Bool × WorkerLease :=
  if l.state ≠ .loading ∨ l.request.routeId ≠ routeId then (false, l)
  else (true, { l with state := .serving })

def release (l : WorkerLease) (routeId : String) : Bool × WorkerLease :=
  if l.state = .available ∨ l.request.routeId ≠ routeId then (false, l)
  else (true, { l with state := .available, request := {} })

variable {l : WorkerLease} {r : StageRequest} {now : Nat} {route : String}

lemma expire_of_ne_reserved (h : l.state ≠ .reserved) (now : Nat) : l.expire now = l := by
  simp [expire, h]

/-- An expiry frees the lease or does nothing. -/
lemma expire_cases (l : WorkerLease) (now : Nat) :
    (l.expire now).state = .available ∨ l.expire now = l := by
  unfold expire
  split_ifs
  · exact .inl rfl
  · exact .inr rfl

/-- Only an available lease is reserved. -/
lemma reserve_cases (l : WorkerLease) (r : StageRequest) (now : Nat) :
    l.reserve r now = (false, l.expire now) ∨
    ((l.expire now).state = .available ∧
      l.reserve r now =
        (true, { state := .reserved, request := r, deadline := now + r.leaseMs })) := by
  unfold reserve
  split_ifs with h
  · exact .inl rfl
  · exact .inr ⟨by tauto, rfl⟩

/-- Loading begins from a reservation of the same stage that has not expired. -/
lemma beginLoading_cases (l : WorkerLease) (r : StageRequest) (now : Nat) :
    l.beginLoading r now = (false, l.expire now) ∨
    (l.state = .reserved ∧ now < l.deadline ∧ l.request.sameStage r ∧
      l.beginLoading r now = (true, { l with state := .loading })) := by
  unfold beginLoading expire
  split_ifs with hexpired h h
  · exact .inl rfl
  · simp at h
  · exact .inl rfl
  · simp only [not_or, not_not, Bool.not_eq_true, Bool.not_eq_false'] at h
    exact .inr ⟨h.1, by_contra fun hlate => hexpired ⟨h.1, Nat.le_of_not_lt hlate⟩, h.2, rfl⟩

/-- A release names the route that holds the lease, or does nothing. -/
lemma release_cases (l : WorkerLease) (route : String) :
    (l.release route).2 = l ∨
    (l.state ≠ .available ∧ l.request.routeId = route ∧
      (l.release route).2 = { l with state := .available, request := {} }) := by
  unfold release
  split_ifs with h
  · exact .inl rfl
  · simp only [not_or, not_not] at h
    exact .inr ⟨h.1, h.2, rfl⟩

end WorkerLease

/-! ### Control connections -/

/-- Where the thread of a control connection is in `serve_connection`. `leaving` is after the loop,
before the lease is given back. -/
inductive Phase
  | absent | waiting | loading | serving | leaving | closed
  deriving DecidableEq, Repr

/-- The lease state that goes with a thread which loads or serves. -/
def Phase.uses : Phase → Option LeaseState
  | .loading => some .loading
  | .serving => some .serving
  | _ => none

/-- A control connection: its place in `serve_connection` and the route it holds (`held`). -/
structure ControlConnection where
  phase : Phase := .absent
  held : String := ""
  deriving DecidableEq, Repr

structure Grant where
  connection : Nat
  request : StageRequest
  time : Nat
  deriving DecidableEq, Repr

/-- The worker's lease and everyone who asks for it. `grants` is the history of accepted
reservations, which the code does not keep. -/
structure LeasedWorker where
  clock : Nat := 0
  lease : WorkerLease := {}
  connections : Nat → ControlConnection := fun _ => {}
  grants : List Grant := []

/-- What can happen. `now` is the time the thread read, `problem` is what `reservation_problem`
answered, and `replied` says whether the reply could be sent. -/
inductive LeaseEvent
  | advance (ms : Nat)
  | look (now : Nat)
  | connect (c : Nat)
  | reserve (c : Nat) (request : StageRequest) (problem : String) (now : Nat) (replied : Bool)
  | releaseRoute (c : Nat) (text : String) (replied : Bool)
  | assign (c : Nat) (request : StageRequest) (now : Nat)
  | loaded (c : Nat) (replied : Bool)
  | stop (c : Nat)
  | close (c : Nat)

/-- The connection whose thread takes the step. -/
def LeaseEvent.connection : LeaseEvent → Option Nat
  | .advance _ | .look _ => none
  | .connect c | .reserve c _ _ _ _ | .releaseRoute c _ _ | .assign c _ _ | .loaded c _ | .stop c
  | .close c => some c

/-- The time a step has read, if it looks at the clock. -/
def LeaseEvent.now : LeaseEvent → Option Nat
  | .look now | .reserve _ _ _ now _ | .assign _ _ now => some now
  | _ => none

namespace LeasedWorker

/-- The thread of `c` goes on with `connection`, and the lease is now `lease`. -/
def put (w : LeasedWorker) (c : Nat) (connection : ControlConnection) (lease : WorkerLease) :
    LeasedWorker :=
  { w with connections := Function.update w.connections c connection, lease }

/-- Where a thread is after a reply in its loop. -/
def afterReply (replied : Bool) (phase : Phase) : Phase :=
  if replied then phase else .leaving

/-- The `reserve` branch of `serve_connection`. -/
def onReserve (w : LeasedWorker) (c : Nat) (request : StageRequest) (problem : String) (now : Nat)
    (replied : Bool) : LeasedWorker :=
  if (w.connections c).held ≠ "" ∨ !request.valid ∨ problem ≠ "" then
    w.put c { w.connections c with phase := afterReply replied .waiting } w.lease
  else if (w.lease.reserve request now).1 then
    { w.put c { phase := afterReply replied .waiting, held := request.routeId }
        (w.lease.reserve request now).2 with
      grants := w.grants ++ [⟨c, request, now⟩] }
  else
    w.put c { w.connections c with phase := afterReply replied .waiting }
      (w.lease.reserve request now).2

/-- The `release_route` branch of `serve_connection`. -/
def onRelease (w : LeasedWorker) (c : Nat) (text : String) (replied : Bool) : LeasedWorker :=
  if (w.connections c).held = "" ∨ text ≠ (w.connections c).held then
    w.put c { w.connections c with phase := afterReply replied .waiting } w.lease
  else
    w.put c { phase := afterReply replied .waiting, held := "" }
      (w.lease.release (w.connections c).held).2

/-- The `assign_stage` branch of `serve_connection`, up to the load. -/
def onAssign (w : LeasedWorker) (c : Nat) (request : StageRequest) (now : Nat) : LeasedWorker :=
  if (w.connections c).held = "" ∨ !request.valid ∨ request.routeId ≠ (w.connections c).held then
    w.put c { w.connections c with phase := .leaving } w.lease
  else if (w.lease.beginLoading request now).1 then
    w.put c { w.connections c with phase := .loading } (w.lease.beginLoading request now).2
  else w.put c { w.connections c with phase := .leaving } (w.lease.beginLoading request now).2

/-- The end of `serve_connection`. -/
def onClose (w : LeasedWorker) (c : Nat) : LeasedWorker :=
  if (w.connections c).held = "" then w.put c { phase := .closed } w.lease
  else w.put c { phase := .closed } (w.lease.release (w.connections c).held).2

/-- One step of the worker. A load that fails, a lost connection, a frame of another type and the
end of `serve_control` all leave the loop (`stop`). -/
def step (w : LeasedWorker) : LeaseEvent → Option LeasedWorker
  | .advance ms => some { w with clock := w.clock + ms }
  | .look now => if now ≤ w.clock then some { w with lease := w.lease.expire now } else none
  | .connect c =>
    if (w.connections c).phase = .absent then
      some (w.put c { w.connections c with phase := .waiting } w.lease)
    else none
  | .reserve c request problem now replied =>
    if (w.connections c).phase = .waiting ∧ now ≤ w.clock then
      some (w.onReserve c request problem now replied)
    else none
  | .releaseRoute c text replied =>
    if (w.connections c).phase = .waiting then some (w.onRelease c text replied) else none
  | .assign c request now =>
    if (w.connections c).phase = .waiting ∧ now ≤ w.clock then some (w.onAssign c request now)
    else none
  | .loaded c replied =>
    if (w.connections c).phase = .loading then
      some (w.put c { w.connections c with phase := afterReply replied .serving }
        (w.lease.serve (w.connections c).held).2)
    else none
  | .stop c =>
    if (w.connections c).phase = .waiting ∨ (w.connections c).phase = .loading ∨
        (w.connections c).phase = .serving then
      some (w.put c { w.connections c with phase := .leaving } w.lease)
    else none
  | .close c =>
    if (w.connections c).phase = .leaving then some (w.onClose c) else none

def system : System LeasedWorker LeaseEvent where
  init := {}
  step := step

/-- Connections have distinct route ids: `owner` is the one connection that uses a route id. -/
def Distinct (owner : String → Nat) (_ : LeasedWorker) : LeaseEvent → Prop
  | .reserve c request _ _ _ => owner request.routeId = c
  | _ => True

instance (owner : String → Nat) (w : LeasedWorker) (e : LeaseEvent) :
    Decidable (Distinct owner w e) :=
  match e with
  | .reserve c request _ _ _ => inferInstanceAs (Decidable (owner request.routeId = c))
  | .advance _ | .look _ | .connect _ | .releaseRoute _ _ _ | .assign _ _ _ | .loaded _ _ | .stop _
  | .close _ => .isTrue trivial

/-- The connection `c` is loading or serving. -/
def Busy (w : LeasedWorker) (c : Nat) : Prop :=
  (w.connections c).phase = .loading ∨ (w.connections c).phase = .serving

/-- The lease is taken, for the route that `c` holds. -/
def Holds (w : LeasedWorker) (c : Nat) : Prop :=
  w.lease.state ≠ .available ∧ (w.connections c).held = w.lease.request.routeId

/-- What every reachable state of the worker has in common. -/
structure Inv (owner : String → Nat) (w : LeasedWorker) : Prop where
  owned : ∀ c, (w.connections c).held ≠ "" → owner (w.connections c).held = c
  granted : w.lease.state ≠ .available → ∃ g, w.grants.getLast? = some g ∧
    g.request = w.lease.request ∧ w.lease.deadline = g.time + g.request.leaseMs ∧
    w.lease.request.routeId ≠ "" ∧ w.Holds g.connection
  uses : ∀ c state, (w.connections c).phase.uses = some state → w.lease.state = state ∧ w.Holds c

@[simp] lemma put_lease (w : LeasedWorker) (c : Nat) (conn : ControlConnection) (l : WorkerLease) :
    (w.put c conn l).lease = l := rfl

@[simp] lemma put_connections_self (w : LeasedWorker) (c : Nat) (conn : ControlConnection)
    (l : WorkerLease) : (w.put c conn l).connections c = conn :=
  Function.update_self ..

lemma put_connections_of_ne (w : LeasedWorker) {c d : Nat} (h : d ≠ c) (conn : ControlConnection)
    (l : WorkerLease) : (w.put c conn l).connections d = w.connections d :=
  Function.update_of_ne h ..

lemma busy_iff {w : LeasedWorker} {c : Nat} :
    w.Busy c ↔ ∃ state, (w.connections c).phase.uses = some state := by
  unfold Busy
  cases (w.connections c).phase <;> simp [Phase.uses]

namespace Inv

variable {owner : String → Nat} {w : LeasedWorker} (h : w.Inv owner) {c d : Nat}
include h

/-- At most one connection holds the lease. -/
lemma holds_unique (hc : w.Holds c) (hd : w.Holds d) : c = d := by
  obtain ⟨g, -, -, -, hroute, -⟩ := h.granted hc.1
  rw [← h.owned c (hc.2 ▸ hroute), ← h.owned d (hd.2 ▸ hroute), hc.2, hd.2]

/-- A busy connection holds the lease, and it is not merely reserved. -/
lemma busy (hc : w.Busy c) : w.Holds c ∧ w.lease.state ≠ .reserved := by
  rcases hc with hc | hc
  · obtain ⟨hstate, hholds⟩ := h.uses c .loading (by rw [hc]; rfl)
    exact ⟨hholds, by simp [hstate]⟩
  · obtain ⟨hstate, hholds⟩ := h.uses c .serving (by rw [hc]; rfl)
    exact ⟨hholds, by simp [hstate]⟩

/-- Time passes over a lease in use. -/
lemma expire_of_busy (hc : w.Busy c) (now : Nat) : w.lease.expire now = w.lease :=
  WorkerLease.expire_of_ne_reserved (h.busy hc).2 now

lemma not_busy_of_expired {now : Nat} (hfree : (w.lease.expire now).state = .available) :
    ¬ w.Busy c := by
  intro hc
  rw [h.expire_of_busy hc] at hfree
  exact (h.busy hc).1.1 hfree

/-- A thread that neither loads nor serves keeps the lease as it is; it gives up its route only
when that route does not hold the lease. -/
lemma put_quiet {conn : ControlConnection} (hphase : conn.phase.uses = none)
    (hheld : conn.held = (w.connections c).held ∨ (conn.held = "" ∧ ¬ w.Holds c)) :
    (w.put c conn w.lease).Inv owner where
  owned d := by
    by_cases hd : d = c
    · subst hd
      rw [put_connections_self]
      rcases hheld with heq | ⟨heq, -⟩
      · rw [heq]; exact h.owned d
      · simp [heq]
    · rw [put_connections_of_ne _ hd]
      exact h.owned d
  granted hstate := by
    obtain ⟨g, hlast, hreq, hdead, hroute, hholds⟩ := h.granted hstate
    refine ⟨g, hlast, hreq, hdead, hroute, hstate, ?_⟩
    by_cases hg : g.connection = c
    · rw [hg, put_connections_self]
      rcases hheld with heq | ⟨-, hnot⟩
      · rw [heq, ← hg]; exact hholds.2
      · exact absurd (hg ▸ hholds) hnot
    · rw [put_connections_of_ne _ hg]
      exact hholds.2
  uses d state hd := by
    have hne : d ≠ c := by
      rintro rfl
      simp [hphase] at hd
    rw [put_connections_of_ne _ hne] at hd
    obtain ⟨hstate, hholds⟩ := h.uses d state hd
    exact ⟨hstate, hholds.1, by rw [put_connections_of_ne _ hne]; exact hholds.2⟩

/-- The lease is free, and no thread but `c` had it in use. -/
lemma put_free {conn : ControlConnection} {l : WorkerLease} (hfree : l.state = .available)
    (hphase : conn.phase.uses = none) (hheld : conn.held ≠ "" → owner conn.held = c)
    (hothers : ∀ d ≠ c, ¬ w.Busy d) : (w.put c conn l).Inv owner where
  owned d := by
    by_cases hd : d = c
    · subst hd
      rwa [put_connections_self]
    · rw [put_connections_of_ne _ hd]
      exact h.owned d
  granted hstate := absurd hfree hstate
  uses d state hd := by
    have hne : d ≠ c := by
      rintro rfl
      simp [hphase] at hd
    rw [put_connections_of_ne _ hne] at hd
    exact absurd (busy_iff.mpr ⟨state, hd⟩) (hothers d hne)

/-- A thread goes on outside the load after the lease was looked at. -/
lemma put_expired {conn : ControlConnection} (now : Nat) (hphase : conn.phase.uses = none)
    (hheld : conn.held = (w.connections c).held) :
    (w.put c conn (w.lease.expire now)).Inv owner := by
  rcases w.lease.expire_cases now with hfree | hsame
  · refine h.put_free hfree hphase ?_ fun d _ => h.not_busy_of_expired hfree
    rw [hheld]
    exact h.owned c
  · rw [hsame]
    exact h.put_quiet hphase (.inl hheld)

/-- A thread gives the lease back. -/
lemma put_released {conn : ControlConnection} (hphase : conn.phase.uses = none)
    (hheld : conn.held = "") :
    (w.put c conn (w.lease.release (w.connections c).held).2).Inv owner := by
  rcases w.lease.release_cases (w.connections c).held with hsame | ⟨htaken, hroute, hfree⟩
  · rw [hsame]
    by_cases hholds : w.Holds c
    · -- its own route holds the lease, so the release does not leave it as it is
      simp [WorkerLease.release, hholds.1, hholds.2] at hsame
      exact absurd (congrArg WorkerLease.state hsame).symm hholds.1
    · exact h.put_quiet hphase (.inr ⟨hheld, hholds⟩)
  · rw [hfree]
    refine h.put_free rfl hphase (by simp [hheld]) fun d hd hbusy => hd ?_
    exact h.holds_unique (h.busy hbusy).1 ⟨htaken, hroute.symm⟩

/-- The holder of a reservation begins to load. -/
lemma put_loading (hres : w.lease.state = .reserved) (hholds : w.Holds c) :
    (w.put c { w.connections c with phase := .loading }
      { w.lease with state := .loading }).Inv owner where
  owned d := by
    by_cases hd : d = c
    · subst hd
      rw [put_connections_self]
      exact h.owned d
    · rw [put_connections_of_ne _ hd]
      exact h.owned d
  granted _ := by
    obtain ⟨g, hlast, hreq, hdead, hroute, hg⟩ := h.granted hholds.1
    obtain rfl := h.holds_unique hg hholds
    exact ⟨g, hlast, hreq, hdead, hroute, by simp, by simpa using hg.2⟩
  uses d state hd := by
    by_cases hdc : d = c
    · subst hdc
      rw [put_connections_self] at hd
      exact ⟨Option.some.inj hd, by simp, by simpa using hholds.2⟩
    · rw [put_connections_of_ne _ hdc] at hd
      exact absurd hres (h.busy (busy_iff.mpr ⟨state, hd⟩)).2

/-- The load is done: the holder serves, or its last reply failed. -/
lemma put_serving (hload : (w.connections c).phase = .loading) (replied : Bool) :
    (w.put c { w.connections c with phase := afterReply replied .serving }
      { w.lease with state := .serving }).Inv owner where
  owned d := by
    by_cases hd : d = c
    · subst hd
      rw [put_connections_self]
      exact h.owned d
    · rw [put_connections_of_ne _ hd]
      exact h.owned d
  granted _ := by
    have hholds := (h.busy (.inl hload)).1
    obtain ⟨g, hlast, hreq, hdead, hroute, hg⟩ := h.granted hholds.1
    obtain rfl := h.holds_unique hg hholds
    exact ⟨g, hlast, hreq, hdead, hroute, by simp, by simpa using hg.2⟩
  uses d state hd := by
    have hholds := (h.busy (.inl hload)).1
    by_cases hdc : d = c
    · subst hdc
      rw [put_connections_self] at hd
      refine ⟨?_, by simp, by simpa using hholds.2⟩
      cases replied
      · simp [afterReply, Phase.uses] at hd
      · exact Option.some.inj hd
    · rw [put_connections_of_ne _ hdc] at hd
      exact absurd (h.holds_unique (h.uses d state hd).2 hholds) hdc

lemma look (now : Nat) : Inv owner { w with lease := w.lease.expire now } := by
  rcases w.lease.expire_cases now with hfree | hsame
  · exact ⟨h.owned, fun hstate => absurd hfree hstate, fun d state hd =>
      absurd (busy_iff.mpr ⟨state, hd⟩) (h.not_busy_of_expired hfree)⟩
  · rw [hsame]
    exact h

lemma onReserve (r : StageRequest) (problem : String) (now : Nat) (replied : Bool)
    (howner : owner r.routeId = c) : (w.onReserve c r problem now replied).Inv owner := by
  have hphase : (afterReply replied .waiting).uses = none := by
    cases replied <;> rfl
  unfold LeasedWorker.onReserve
  split_ifs with hrefused haccepted
  · exact h.put_quiet hphase (.inl rfl)
  · simp only [not_or, not_not, Bool.not_eq_true, Bool.not_eq_false'] at hrefused
    have hroute := StageRequest.routeId_ne_empty hrefused.2.1
    rcases w.lease.reserve_cases r now with hno | ⟨hfree, hyes⟩
    · simp [hno] at haccepted
    · have hput : Inv owner (w.put c ⟨afterReply replied .waiting, r.routeId⟩
          (w.lease.expire now)) :=
        h.put_free hfree hphase (fun _ => howner) fun d _ => h.not_busy_of_expired hfree
      refine ⟨hput.owned, fun _ => ⟨⟨c, r, now⟩, by simp, ?_⟩, fun d state hd => ?_⟩
      · simp [hyes, hroute, LeasedWorker.Holds]
      · exact absurd hfree (hput.uses d state hd).2.1
  · rcases w.lease.reserve_cases r now with hno | ⟨-, hyes⟩
    · rw [hno]
      exact h.put_expired now hphase rfl
    · simp [hyes] at haccepted

lemma onAssign (r : StageRequest) (now : Nat) : (w.onAssign c r now).Inv owner := by
  unfold LeasedWorker.onAssign
  split_ifs with hrefused haccepted
  · exact h.put_quiet rfl (.inl rfl)
  · simp only [not_or, not_not] at hrefused
    rcases w.lease.beginLoading_cases r now with hno | ⟨hres, -, hsame, hyes⟩
    · simp [hno] at haccepted
    · have hholds : w.Holds c :=
        ⟨by simp [hres], by rw [← hrefused.2.2, StageRequest.routeId_of_sameStage hsame]⟩
      rw [hyes]
      exact h.put_loading hres hholds
  · rcases w.lease.beginLoading_cases r now with hno | ⟨-, -, -, hyes⟩
    · rw [hno]
      exact h.put_expired now rfl rfl
    · simp [hyes] at haccepted

/-- Every step keeps the invariant. -/
lemma step {e : LeaseEvent} {w' : LeasedWorker} (hdistinct : Distinct owner w e)
    (hstep : w.step e = some w') : w'.Inv owner := by
  cases e <;> simp only [LeasedWorker.step, Option.ite_none_right_eq_some, Option.some.injEq]
    at hstep
  case advance ms =>
    subst hstep
    exact ⟨h.owned, h.granted, h.uses⟩
  case look now =>
    obtain ⟨-, rfl⟩ := hstep
    exact h.look now
  case connect c =>
    obtain ⟨-, rfl⟩ := hstep
    exact h.put_quiet rfl (.inl rfl)
  case reserve c r problem now replied =>
    obtain ⟨-, rfl⟩ := hstep
    exact h.onReserve r problem now replied hdistinct
  case releaseRoute c text replied =>
    obtain ⟨-, rfl⟩ := hstep
    have hphase : (afterReply replied .waiting).uses = none := by
      cases replied <;> rfl
    unfold onRelease
    split_ifs
    · exact h.put_quiet hphase (.inl rfl)
    · exact h.put_released hphase rfl
  case assign c r now =>
    obtain ⟨-, rfl⟩ := hstep
    exact h.onAssign r now
  case loaded c replied =>
    obtain ⟨hload, rfl⟩ := hstep
    obtain ⟨hstate, hholds⟩ := h.uses c .loading (by rw [hload]; rfl)
    have hserve : (w.lease.serve (w.connections c).held).2 =
        { w.lease with state := .serving } := by
      simp [WorkerLease.serve, hstate, hholds.2]
    rw [hserve]
    exact h.put_serving hload replied
  case stop c =>
    obtain ⟨-, rfl⟩ := hstep
    exact h.put_quiet rfl (.inl rfl)
  case close c =>
    obtain ⟨-, rfl⟩ := hstep
    unfold onClose
    split_ifs with hheld
    · exact h.put_quiet rfl (.inl hheld.symm)
    · exact h.put_released rfl rfl

end Inv

/-- The invariant holds in every run of connections with distinct route ids. -/
lemma inv_of_reachable {owner : String → Nat} {w : LeasedWorker}
    (h : system.Reachable (Distinct owner) w) : w.Inv owner := by
  refine h.invariant ⟨?_, ?_, ?_⟩ fun w e w' _ hinv hok hstep => hinv.step hok hstep
  · simp [system]
  · simp [system]
  · simp [system, Phase.uses]

/-! ### What the lease guarantees -/

/-- A connection begins to load with the last accepted reservation, which is its own, for the same
stage and not expired. -/
lemma Inv.assign_loading {owner : String → Nat} {w w' : LeasedWorker} (h : w.Inv owner) {c : Nat}
    {r : StageRequest} {now : Nat} (hstep : w.step (.assign c r now) = some w')
    (hload : (w'.connections c).phase = .loading) :
    ∃ g, w.grants.getLast? = some g ∧ g.connection = c ∧ g.request.sameStage r ∧
      now < g.time + g.request.leaseMs := by
  simp only [LeasedWorker.step, Option.ite_none_right_eq_some, Option.some.injEq] at hstep
  obtain ⟨-, rfl⟩ := hstep
  unfold LeasedWorker.onAssign at hload
  split_ifs at hload with hrefused haccepted <;> simp at hload
  simp only [not_or, not_not] at hrefused
  rcases w.lease.beginLoading_cases r now with hno | ⟨hres, htime, hsame, -⟩
  · simp [hno] at haccepted
  · have hholds : w.Holds c :=
      ⟨by simp [hres], by rw [← hrefused.2.2, StageRequest.routeId_of_sameStage hsame]⟩
    obtain ⟨g, hlast, hreq, hdead, -, hg⟩ := h.granted hholds.1
    exact ⟨g, hlast, h.holds_unique hg hholds, hreq ▸ hsame, hdead ▸ htime⟩

/-- While `c` holds the lease, another thread finds it as it is or finds it expired: no request,
release or close takes it away. -/
lemma Inv.lease_of_other {owner : String → Nat} {w w' : LeasedWorker} (h : w.Inv owner) {c : Nat}
    {e : LeaseEvent} (hholds : w.Holds c) (hother : e.connection ≠ some c)
    (hstep : w.step e = some w') :
    w'.lease = w.lease ∨ ∃ now, e.now = some now ∧ (w.lease.expire now).state = .available := by
  have hexpire : ∀ now, e.now = some now → ∀ l, l = w.lease.expire now →
      l = w.lease ∨ ∃ now, e.now = some now ∧ (w.lease.expire now).state = .available := by
    rintro now hnow l rfl
    exact (w.lease.expire_cases now).symm.imp_right fun hfree => ⟨now, hnow, hfree⟩
  have hrelease : ∀ d ≠ c, (w.lease.release (w.connections d).held).2 = w.lease := by
    intro d hd
    rcases w.lease.release_cases (w.connections d).held with hsame | ⟨htaken, hroute, -⟩
    · exact hsame
    · exact absurd (h.holds_unique ⟨htaken, hroute.symm⟩ hholds) hd
  cases e <;> simp only [LeasedWorker.step, Option.ite_none_right_eq_some, Option.some.injEq]
    at hstep
  case advance ms => exact .inl (by rw [← hstep])
  case look now =>
    obtain ⟨-, rfl⟩ := hstep
    exact hexpire now rfl _ rfl
  case connect d =>
    obtain ⟨-, rfl⟩ := hstep
    exact .inl rfl
  case reserve d r problem now replied =>
    obtain ⟨-, rfl⟩ := hstep
    unfold LeasedWorker.onReserve
    split_ifs with hrefused haccepted
    · exact .inl rfl
    · rcases w.lease.reserve_cases r now with hno | ⟨hfree, -⟩
      · simp [hno] at haccepted
      · exact .inr ⟨now, rfl, hfree⟩
    · rcases w.lease.reserve_cases r now with hno | ⟨-, hyes⟩
      · exact hexpire now rfl _ (by rw [put_lease, hno])
      · simp [hyes] at haccepted
  case releaseRoute d text replied =>
    obtain ⟨-, rfl⟩ := hstep
    unfold LeasedWorker.onRelease
    split_ifs
    · exact .inl rfl
    · exact .inl (hrelease d fun hd => hother (congrArg some hd))
  case assign d r now =>
    obtain ⟨-, rfl⟩ := hstep
    unfold LeasedWorker.onAssign
    split_ifs with hrefused haccepted
    · exact .inl rfl
    · simp only [not_or, not_not] at hrefused
      rcases w.lease.beginLoading_cases r now with hno | ⟨hres, -, hsame, -⟩
      · simp [hno] at haccepted
      · have hd : w.Holds d :=
          ⟨by simp [hres], by rw [← hrefused.2.2, StageRequest.routeId_of_sameStage hsame]⟩
        exact absurd (congrArg some (h.holds_unique hd hholds)) hother
    · rcases w.lease.beginLoading_cases r now with hno | ⟨-, -, -, hyes⟩
      · exact hexpire now rfl _ (by rw [put_lease, hno])
      · simp [hyes] at haccepted
  case loaded d replied =>
    obtain ⟨hload, rfl⟩ := hstep
    have hd := (h.busy (.inl hload)).1
    exact absurd (congrArg some (h.holds_unique hd hholds)) hother
  case stop d =>
    obtain ⟨-, rfl⟩ := hstep
    exact .inl rfl
  case close d =>
    obtain ⟨-, rfl⟩ := hstep
    unfold LeasedWorker.onClose
    split_ifs
    · exact .inl rfl
    · exact .inl (hrelease d fun hd => hother (congrArg some hd))

/-- The holder's close frees the lease. -/
lemma Inv.close_available {owner : String → Nat} {w w' : LeasedWorker} (h : w.Inv owner) {c : Nat}
    (hholds : w.Holds c) (hstep : w.step (.close c) = some w') :
    w'.lease.state = .available := by
  simp only [LeasedWorker.step, Option.ite_none_right_eq_some, Option.some.injEq] at hstep
  obtain ⟨-, rfl⟩ := hstep
  obtain ⟨g, -, -, -, hroute, -⟩ := h.granted hholds.1
  simp [LeasedWorker.onClose, WorkerLease.release, hholds.1, hholds.2, hroute]

/-- The lease is mutually exclusive. In every state that connections with distinct route ids can
reach: at most one connection loads or serves; one begins to load only with its own reservation,
for the same stage and in time; while it loads or serves neither time nor another connection
changes the lease; no release or close of another connection frees a lease that is held; and the
close of its holder does. -/
theorem lease_mutually_exclusive {owner : String → Nat} {w : LeasedWorker}
    (h : system.Reachable (Distinct owner) w) :
    (∀ c d, w.Busy c → w.Busy d → c = d) ∧
    (∀ c r now w', w.step (.assign c r now) = some w' → (w'.connections c).phase = .loading →
      ∃ g, w.grants.getLast? = some g ∧ g.connection = c ∧ g.request.sameStage r ∧
        now < g.time + g.request.leaseMs) ∧
    (∀ c e w', w.Busy c → w.step e = some w' → e.connection ≠ some c → w'.lease = w.lease) ∧
    (∀ c e w', w.Holds c → w.step e = some w' → e.connection ≠ some c → e.now = none →
      w'.lease = w.lease) ∧
    (∀ c w', w.Holds c → w.step (.close c) = some w' → w'.lease.state = .available) := by
  have hinv := inv_of_reachable h
  refine ⟨?_, ?_, ?_, ?_, ?_⟩
  · intro c d hc hd
    exact hinv.holds_unique (hinv.busy hc).1 (hinv.busy hd).1
  · intro c r now w' hstep hload
    exact hinv.assign_loading hstep hload
  · intro c e w' hc hstep hother
    rcases hinv.lease_of_other (hinv.busy hc).1 hother hstep with hsame | ⟨now, -, hfree⟩
    · exact hsame
    · exact absurd hc (hinv.not_busy_of_expired hfree)
  · intro c e w' hc hstep hother hnow
    rcases hinv.lease_of_other hc hother hstep with hsame | ⟨now, hread, -⟩
    · exact hsame
    · simp [hnow] at hread
  · intro c w' hc hstep
    exact hinv.close_available hc hstep

/-- A request for the first four layers of a model. -/
def fourLayers : StageRequest :=
  { routeId := "0123456789abcdef0123456789abcdef"
    modelSha256 := "0123456789abcdef0123456789abcdef0123456789abcdef0123456789abcdef"
    endLayer := 4, context := 512, sessions := 1, leaseMs := 1000 }

/-- One connection reserves and begins to load while a second one waits. -/
def loadingRun : List LeaseEvent :=
  [.connect 0, .connect 1, .reserve 0 fourLayers "" 0 true, .advance 999,
   .assign 0 { fourLayers with leaseMs := 0 } 999]

theorem loadingRun_exclusive :
    ∃ w, system.exec (Distinct fun _ => 0) {} loadingRun = some w ∧ w.Busy 0 ∧
      ∀ d, w.Busy d → d = 0 := by
  refine ⟨_, rfl, .inl (by decide), fun d hd => ?_⟩
  have hreach : system.Reachable (Distinct fun _ => 0) _ :=
    System.Reachable.init.exec loadingRun rfl
  exact (lease_mutually_exclusive hreach).1 d 0 hd (.inl (by decide))

end LeasedWorker

end ProviderOwned
