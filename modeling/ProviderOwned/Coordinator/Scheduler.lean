import ProviderOwned.Coordinator.FairQueue
import ProviderOwned.Lib.Promises
import ProviderOwned.Lib.Transition

/-!
# The scheduler of the coordinator

`class Scheduler` of `coordinator.cpp`: clients' threads in `submit` and `cancel`, the executor, and
the thread that stops it. A step is what one thread does in one critical section, in one atomic
operation or in one call of the replica; when a deadline has passed is left open, and so is how a
run, a heartbeat or a reformation ends.

The history variables of a job are `accepted`, whether the queue took it, `runs`, how often it was
executed, and `cancelledBy`, the threads whose `cancel` found it. A client's call of `cancel` is
issued for one submission, and the code is told its ids only: `Call.job` is the submission. A
promise keeps all it was set to. A book of promises says which thread has to set which promise.
-/

namespace ProviderOwned.Scheduler

open Transition Promises

inductive JobKind
  | create | reset | destroy | generate
  deriving DecidableEq, Repr

inductive JobState
  | queued | active | done | cancelled
  deriving DecidableEq, Repr

structure RequestKey where
  session : Nat
  request : Nat
  deriving DecidableEq, Repr

/-- `struct ClientResponse`, without the result of a request. -/
inductive Response
  | ok
  | error (text : String)
  deriving DecidableEq, Repr

/-- What a promise is set to: the response of the run of its job, or the error of a job that was not
run. -/
inductive Answer
  | ran (response : Response)
  | unran (error : String)
  deriving DecidableEq, Repr

/-- A thread that calls `cancel`: that of a submission whose wait timed out, or one of a client. -/
inductive Caller
  | timeout (job : Nat)
  | client (call : Nat)
  deriving DecidableEq, Repr

/-- Where a thread is in `cancel`: before its critical section, before the removal of the job it has
cancelled, before it sets its promise. -/
inductive CancelPhase
  | looking
  | removing (job : Nat)
  | setting (job : Nat)
  | returned (response : Response)
  deriving DecidableEq, Repr

/-- Where a thread is in `submit`. One that has `expired` calls `cancel`, and then waits on. -/
inductive SubmitPhase
  | entering
  | pushing
  | withdrawing
  | waiting
  | expired (phase : CancelPhase)
  | returned (response : Response)
  deriving DecidableEq, Repr

/-- `struct Job`, and the thread that submits it. -/
structure Job where
  kind : JobKind
  key : RequestKey
  state : JobState := .queued
  cancelRequested : Bool := false
  timedOut : Bool := false
  answers : List Answer := []
  phase : SubmitPhase := .entering
  accepted : Bool := false
  runs : Nat := 0
  cancelledBy : List Caller := []
  deriving DecidableEq, Repr

/-- A client's call of `cancel`, and the submission it is issued for. -/
structure Call where
  key : RequestKey
  job : Nat
  phase : CancelPhase := .looking
  deriving DecidableEq, Repr

/-- Where a thread is in the loop of `fail_pending` or `stop` over the jobs that were queued. -/
inductive Drain
  | next (jobs : List Nat)
  | erasing (job : Nat) (rest : List Nat)
  | setting (job : Nat) (rest : List Nat)
  deriving DecidableEq, Repr

/-- Where the executor is in `execute`: `expiring` and `expired` for a job whose deadline has
passed, `completing`, `erasing` and `setting` in `complete`, with whether the replica failed. -/
inductive Executor
  | looping
  | popping
  | beating
  | taken (job : Nat)
  | expiring (job : Nat)
  | expired (job : Nat)
  | running (job : Nat)
  | completing (job : Nat) (response : Response) (failed : Bool)
  | erasing (job : Nat) (response : Response) (failed : Bool)
  | setting (job : Nat) (response : Response) (failed : Bool)
  | failing
  | draining (drain : Drain)
  | recovering
  | formed
  | reformed
  | leaving
  | exited
  deriving DecidableEq, Repr

/-- Where the thread is that called `stop`. -/
inductive Stopper
  | idle
  | closing
  | draining (drain : Drain)
  | joining
  | stopped
  deriving DecidableEq, Repr

/-- How a call of the replica ends: with a response, with a `ClientError`, or with another
exception. -/
inductive Outcome
  | answered (response : Response)
  | refused (text : String)
  | failed (text : String)
  deriving DecidableEq, Repr

/-- `recover_`, `shutdown_workers_`, and the capacity of the queue. -/
structure Options where
  recover : Bool := false
  shutdownWorkers : Bool := false
  capacity : Nat

/-- `class Scheduler`. -/
structure State where
  queue : FairQueue Nat
  jobs : Nat → Option Job := fun _ => none
  calls : Nat → Option Call := fun _ => none
  pending : RequestKey → Option Nat := fun _ => none
  executor : Executor := .looping
  stopper : Stopper := .idle
  unavailable : Bool := false
  stopping : Bool := false

/-- What can happen next: a client calls `submit` or `cancel` or its thread goes on there, the wait
of a submission times out, the executor goes on, `stop` is called or goes on. -/
inductive Event
  | submit (job : Nat) (kind : JobKind) (key : RequestKey)
  | client (job : Nat)
  | expire (job : Nat)
  | cancel (call : Nat) (key : RequestKey) (job : Nat)
  | calling (call : Nat)
  | executor (late : Bool) (outcome : Outcome)
  | stop
  | stopper
  deriving Repr

def Answer.response : Answer → Response
  | .ran response => response
  | .unran error => .error error

def Job.cancel (job : Job) (caller : Caller) : Job :=
  { job with state := .cancelled, cancelledBy := caller :: job.cancelledBy }

/-- A job that is active is told to stop. -/
def Job.interrupt (job : Job) (caller : Caller) (timedOut : Bool) : Job :=
  { job with timedOut, cancelRequested := true, cancelledBy := caller :: job.cancelledBy }

def Job.started (job : Job) : Job := { job with runs := job.runs + 1 }

def RequestKey.fairness (key : RequestKey) : Nat :=
  if key.session ≠ 0 then key.session else key.request

namespace State

def putJob (g : State) (i : Nat) (job : Job) : State :=
  { g with jobs := fun j => if j = i then some job else g.jobs j }

def modifyJob (g : State) (i : Nat) (f : Job → Job) : State :=
  { g with jobs := fun j => if j = i then (g.jobs i).map f else g.jobs j }

/-- `pending_.emplace`. -/
def emplace (g : State) (key : RequestKey) (i : Nat) : State :=
  { g with pending := fun k => if k = key then some i else g.pending k }

/-- `pending_.erase`. -/
def erase (g : State) (key : RequestKey) : State :=
  { g with pending := fun k => if k = key then none else g.pending k }

def erasePending (g : State) (i : Nat) : State :=
  match g.jobs i with
  | none => g
  | some job => if job.kind = .generate then g.erase job.key else g

def goto (g : State) (executor : Executor) : State := { g with executor }

/-- The thread goes on that called `stop`. -/
def stopAt (g : State) (stopper : Stopper) : State := { g with stopper }

/-- A call of `cancel` begins or goes on. -/
def putCall (g : State) (c : Nat) (call : Call) : State :=
  { g with calls := fun d => if d = c then some call else g.calls d }

/-- `completion.set_value`. -/
def setValue (g : State) (i : Nat) (answer : Answer) : State :=
  g.modifyJob i fun job => { job with answers := job.answers ++ [answer] }

/-- `state.compare_exchange_strong` from `queued`. -/
def exchange (g : State) (i : Nat) (state : JobState) : Option State :=
  if (g.jobs i).any (·.state = .queued) then some (g.modifyJob i ({ · with state })) else none

/-- What a thread does next in `cancel`. -/
def cancelStep (g : State) (caller : Caller) (key : RequestKey) (timedOut : Bool) :
    CancelPhase → Option (State × CancelPhase)
  | .looking =>
    match g.pending key with
    | none => some (g, .returned (.error "request_not_queued"))
    | some i => (g.jobs i).bind fun job =>
      match job.state with
      | .queued => some ((g.modifyJob i (·.cancel caller)).erase key, .removing i)
      | .active => some (g.modifyJob i (·.interrupt caller timedOut), .returned .ok)
      | .done | .cancelled => some (g, .returned (.error "request_not_queued"))
  | .removing i => some ({ g with queue := (g.queue.removeIf (· = i)).2 }, .setting i)
  | .setting i =>
    some (g.setValue i (.unran (if timedOut then "queue_timeout" else "cancelled")), .returned .ok)
  | .returned _ => none

/-- `future.get`. -/
def get (g : State) (i : Nat) (job : Job) : Option State :=
  job.answers.head?.map fun answer => g.putJob i { job with phase := .returned answer.response }

/-- What the thread of a submission does next. -/
def clientStep (g : State) (i : Nat) (job : Job) : Option State :=
  match job.phase with
  | .entering =>
    if job.kind = .generate then
      if (g.pending job.key).isSome then
        some (g.putJob i { job with phase := .returned (.error "duplicate_request") })
      else some ((g.putJob i { job with phase := .pushing }).emplace job.key i)
    else some (g.putJob i { job with phase := .pushing })
  | .pushing =>
    match g.queue.push job.key.fairness i with
    | some queue =>
        some ({ g with queue }.putJob i { job with phase := .waiting, accepted := true })
    | none => some (g.putJob i { job with phase := .withdrawing })
  | .withdrawing =>
    some ((g.erasePending i).putJob i { job with phase := .returned (.error "queue_full") })
  | .waiting => g.get i job
  | .expired (.returned _) => g.get i job
  | .expired phase =>
    (g.cancelStep (.timeout i) job.key true phase).map fun (g, phase) =>
      g.modifyJob i ({ · with phase := .expired phase })
  | .returned _ => none

/-- The next thing done in a loop over the jobs that were queued. -/
def drainStep (g : State) (error : String) : Drain → Option (State × Drain)
  | .next [] => none
  | .next (i :: rest) =>
    match g.exchange i .cancelled with
    | some g => some (g, .erasing i rest)
    | none => some (g, .next rest)
  | .erasing i rest => some (g.erasePending i, .setting i rest)
  | .setting i rest => some (g.setValue i (.unran error), .next rest)

def executorStep (options : Options) (g : State) (late : Bool) (outcome : Outcome) : Option State :=
  match g.executor with
  | .looping => some (g.goto (if g.stopping then .leaving else .popping))
  | .popping =>
    match g.queue.popLocked with
    | (none, queue) => some ({ g with queue }.goto .beating)
    | (some i, queue) => some ({ g with queue }.goto (.taken i))
  | .beating =>
    if g.stopping then some (g.goto .leaving)
    else match outcome with
      | .failed _ => some ({ g with unavailable := true }.goto .failing)
      | _ => some (g.goto .looping)
  | .taken i =>
    if late then
      match g.exchange i .cancelled with
      | some g => some (g.goto (.expiring i))
      | none => some (g.goto .looping)
    else
      match g.exchange i .active with
      | some g => some ((g.modifyJob i Job.started).goto (.running i))
      | none => some (g.goto .looping)
  | .expiring i => some ((g.erasePending i).goto (.expired i))
  | .expired i => some ((g.setValue i (.unran "queue_timeout")).goto .looping)
  | .running i =>
    match outcome with
    | .answered response => some (g.goto (.completing i response false))
    | .refused text => some (g.goto (.completing i (.error text) false))
    | .failed text => some ({ g with unavailable := true }.goto
        (.completing i (.error ("provider_failure: " ++ text)) true))
  | .completing i response failed =>
    some ((g.modifyJob i ({ · with state := .done })).goto (.erasing i response failed))
  | .erasing i response failed => some ((g.erasePending i).goto (.setting i response failed))
  | .setting i response failed =>
    some ((g.setValue i (.ran response)).goto
      (if failed then .failing else if g.unavailable then .leaving else .looping))
  | .failing =>
    let drained := if options.recover then g.queue.drain else g.queue.close
    some ({ g with queue := drained.2 }.goto (.draining (.next drained.1)))
  | .draining (.next []) => some (g.goto (if options.recover then .recovering else .leaving))
  | .draining drain =>
    (g.drainStep "provider_disconnected" drain).map fun (g, drain) => g.goto (.draining drain)
  | .recovering =>
    if g.stopping then some (g.goto .leaving)
    else match outcome with
      | .failed _ => some g
      | _ => some (g.goto .formed)
  | .formed =>
    if g.stopping then some (g.goto .leaving)
    else match outcome with
      | .failed _ => some (g.goto .recovering)
      | _ => some (g.goto .reformed)
  | .reformed => some ({ g with unavailable := false }.goto .looping)
  | .leaving =>
    if options.shutdownWorkers ∧ g.unavailable = false then
      match outcome with
      | .failed _ => some ({ g with unavailable := true }.goto .exited)
      | _ => some (g.goto .exited)
    else some (g.goto .exited)
  | .exited => none

/-- The next thing the thread does that called `stop`. -/
def stopperStep (g : State) : Option State :=
  match g.stopper with
  | .idle | .stopped => none
  | .closing =>
      some ({ g with queue := g.queue.close.2 }.stopAt (.draining (.next g.queue.close.1)))
  | .draining (.next []) => some (g.stopAt .joining)
  | .draining drain =>
    (g.drainStep "coordinator_stopping" drain).map fun (g, drain) => g.stopAt (.draining drain)
  | .joining => if g.executor = .exited then some (g.stopAt .stopped) else none

def step (options : Options) (g : State) : Event → Option State
  | .submit i kind key =>
    if (g.jobs i).isSome then none
    else if g.unavailable ∨ g.stopping then
      some (g.putJob i { kind, key, phase := .returned (.error "replica_unavailable") })
    else some (g.putJob i { kind, key })
  | .client i => (g.jobs i).bind fun job => g.clientStep i job
  | .expire i => (g.jobs i).bind fun job =>
    if job.kind = .generate ∧ job.phase = .waiting ∧ job.answers = [] then
      some (g.putJob i { job with phase := .expired .looking })
    else none
  | .cancel c key job =>
    if (g.calls c).isSome then none
    else some (g.putCall c { key, job })
  | .calling c => (g.calls c).bind fun call =>
    (g.cancelStep (.client c) call.key false call.phase).map fun (g, phase) =>
      g.putCall c { call with phase }
  | .executor late outcome => g.executorStep options late outcome
  | .stop => if g.stopper = .idle then some ({ g with stopping := true }.stopAt .closing) else none
  | .stopper => g.stopperStep

end State

def scheduler (options : Options) : System State Event where
  init := { queue := { capacity := options.capacity } }
  step := State.step options

end ProviderOwned.Scheduler
