import Mathlib.Algebra.Group.Int.Defs
import Mathlib.Algebra.Group.Nat.Defs
import ProviderOwned.Lib.Keyed
import ProviderOwned.Lib.Transition
import ProviderOwned.Protocol

/-!
# The sessions of an owner's clients

The part of `replica_owner.cpp` that opens and closes sessions: the readers of the clients' links
queue jobs, the main thread executes them one after another (`serve`, `execute`), every request has
a thread of its own (`run_client_request`), and the main thread dissolves the replica when it broke
(`dissolve`). A step is what one thread does under one lock or in one call of the members, so the
threads interleave wherever they do in the source.

`inUse` is `sessions_in_use_`, a 32-bit counter that wraps around. The history variables are `next`,
the member session that is created next for a client, and what became of those that no client has
any more: `destroyed`, `refused` (given up although the members did not destroy them), `dropped`
(left on the members of a replica that broke) and `released` (gone with the route of a replica that
was dissolved).

A member call is answered, refused by members that all still work, or lost with a member.
`with_members` returns the text of the exception, and the callers take the empty text for success:
so a session whose creation fails without a text is kept with member session 0, which is none, and
one whose destruction fails without a text counts as destroyed.
-/

namespace ProviderOwned.Owner

open Transition

/-- `struct SessionState`, with the link and the client's id it is kept under. The maps of all the
links are one list: one mutex guards them all. -/
structure SessionState where
  link : Nat
  session : Nat
  internal : Nat := 0
  position : Nat := 0
  busy : Bool := false
  deriving DecidableEq, Repr

inductive JobKind
  | create | reset | destroy | prepare | request | cleanup
  deriving DecidableEq, Repr

/-- `struct Job`, with what is read of its frame. -/
structure Job where
  kind : JobKind
  link : Nat
  session : Nat := 0
  position : Nat := 0
  deriving DecidableEq, Repr

def SessionState.key (s : SessionState) : Nat × Nat := (s.link, s.session)

/-- The map and the key of the session a job is about. -/
def Job.key (j : Job) : Nat × Nat := (j.link, j.session)

/-- Where `read_client` is: before a frame, about to push a job, about to push the cleanup, done. -/
inductive Reader
  | reading
  | pushing (job : Job)
  | leaving
  | left
  deriving DecidableEq, Repr

/-- `struct Link`; `listed` when it is in `links_`. -/
structure Link where
  reader : Reader := .reading
  gone : Bool := false
  closing : Bool := false
  listed : Bool := true
  deriving DecidableEq, Repr

/-- Where `run_client_request` is: in `run_request`, past its critical section with the session of a
client that left, past the look at `broken_`, past the destruction, done. -/
inductive Phase
  | running
  | left (internal : Nat)
  | passed (internal : Nat)
  | freed
  | done
  deriving DecidableEq, Repr

structure Task where
  job : Job
  phase : Phase := .running
  deriving DecidableEq, Repr

/-- Where the main thread is: forming a replica (`down`), in the loop of `serve`, in `execute`, or
in `dissolve`, which carries the links it found. -/
inductive Main
  | down
  | idle
  | taken (job : Option Job)
  | executing (job : Job)
  | checked (job : Job)
  | creating (job : Job)
  | inserting (job : Job) (internal : Nat)
  | inserted (job : Job)
  | ending (job : Job) (internal : Nat)
  | erasing (job : Job) (internal : Nat)
  | erased (job : Job)
  | cleaning (internals : List Nat)
  | cleaned (internals : List Nat)
  | checking
  | zeroing
  | unlinking
  | unqueueing (links : List Nat)
  | failing (links : List Nat)
  | joining (links : List Nat)
  | forgetting (links : List Nat)
  deriving DecidableEq, Repr

inductive Reply
  | ack (position : Nat)
  | error (text : String)
  deriving DecidableEq, Repr

/-- How a call of the members ends. -/
inductive Answer
  | done
  | refused (problem : String)
  | lost (problem : String)
  deriving DecidableEq, Repr

namespace Answer

/-- What `with_members` returns. -/
def error : Answer → String
  | .done => ""
  | .refused problem | .lost problem => what problem

/-- `error.empty() || members_fine(error)`. -/
def fine : Answer → Bool
  | .done | .refused _ => true
  | .lost problem => what problem = ""

end Answer

/-- `options_.request.sessions`, and whether the replica has a single stage. -/
structure Options where
  sessions : UInt32
  oneStage : Bool := false

/-- `class Owner`. -/
structure State where
  inUse : Nat := 0
  ready : Bool := false
  broken : Bool := false
  links : List Link := []
  sessions : List SessionState := []
  jobs : List Job := []
  pending : List Job := []
  requests : List Task := []
  main : Main := .down
  posts : List (Nat × Nat × Reply) := []
  next : Nat := 1
  destroyed : List Nat := []
  refused : List Nat := []
  dropped : List Nat := []
  released : List Nat := []
  deriving Repr

/-- What can happen next: a client connects, its reader reads a frame, pushes what it has to or
ends, the writer or the outbox fails, something in the ring breaks, a replica is formed or gives
way, and the main thread and the threads of requests go on. -/
inductive Event
  | accept
  | read (link : Nat) (job : Job)
  | push (link : Nat)
  | leave (link : Nat)
  | drop (link : Nat)
  | fail
  | form
  | giveWay
  | main (answer : Answer) (position : Nat)
  | finish (task : Nat) (position : Nat) (problem : String)
  | request (task : Nat) (answer : Answer)
  deriving Repr

@[irreducible]
def changeSessions (inUse : Nat) (delta : Int) : Nat := ((inUse + delta) % 2 ^ 32).toNat

namespace State

def gone (g : State) (link : Nat) : Bool := (g.links[link]?.map Link.gone).getD true

def post (g : State) (link session : Nat) (reply : Reply) : State :=
  if (g.links[link]?).any fun l => !l.closing && !l.gone then
    { g with posts := g.posts ++ [(link, session, reply)] }
  else g

def modifyLink (g : State) (link : Nat) (f : Link → Link) : State :=
  { g with links := g.links.modify link f }

/-- `link.sessions.find`. -/
def find (g : State) (key : Nat × Nat) : Option SessionState := g.sessions.find? (·.key = key)

def modifySession (g : State) (key : Nat × Nat) (f : SessionState → SessionState) : State :=
  { g with sessions := g.sessions.map fun s => if s.key = key then f s else s }

/-- `link.sessions.erase`. -/
def erase (g : State) (key : Nat × Nat) : State :=
  { g with sessions := g.sessions.filter (·.key ≠ key) }

/-- `request_slots`. -/
def slots (options : Options) : Nat := if options.oneStage then 1 else options.sessions.toNat

/-- `start_pending`: tasks that are done are joined, and queued requests started while there is
room. -/
def startPending (options : Options) (g : State) : State :=
  let requests := g.requests.filter (·.phase ≠ .done)
  let room := slots options - requests.length
  { g with
    requests := requests ++ (g.pending.take room).map fun job => { job }
    pending := g.pending.drop room }

/-- The start of `execute`, up to the first call of the members. -/
def execute (options : Options) (g : State) (job : Job) : State :=
  let idle := { g with main := .idle }
  match job.kind with
  | .cleanup =>
    { g with
      sessions := g.sessions.filter fun s => s.link ≠ job.link || s.busy
      main := .cleaning ((g.sessions.filter fun s => s.link = job.link && !s.busy).map
        SessionState.internal) }
  | .create =>
    if g.gone job.link then idle
    else if (g.find job.key).isSome then
      idle.post job.link job.session (.error "session already exists")
    else { g with main := .checked job }
  | .reset | .destroy =>
    match g.find job.key with
    | none => idle.post job.link job.session
        (.error "unknown session ID, or a request is running on it")
    | some s =>
      if s.busy then idle.post job.link job.session
        (.error "unknown session ID, or a request is running on it")
      else { g with main := .ending job s.internal }
  | .prepare =>
    match g.find job.key with
    | none => idle.post job.link job.session (.error "unknown or busy session")
    | some s =>
      if s.busy then idle.post job.link job.session (.error "unknown or busy session")
      else { g with main := .ending job s.internal }
  | .request =>
    if g.gone job.link then idle
    else match g.find job.key with
      | none => idle.post job.link job.session (.error "unknown session ID")
      | some s =>
        if s.busy then idle.post job.link job.session
          (.error "a request is already running on this session")
        else if job.position ≠ s.position then idle.post job.link job.session
          (.error "session position mismatch")
        else startPending options
          { idle.modifySession job.key ({ · with busy := true }) with
            pending := g.pending ++ [job] }

/-- What became of a session that its client has no more. -/
def noted (g : State) (internal : Nat) : Answer → State
  | .done => { g with destroyed := g.destroyed ++ [internal] }
  | .refused _ | .lost _ => { g with refused := g.refused ++ [internal] }

/-- The answer of the members to a reset, a destruction or a preparation. A preparation that fails
without a text posts the frame it has, which is an error frame without a text. -/
def answered (g : State) (job : Job) (internal : Nat) (answer : Answer) (position : Nat) : State :=
  let idle := { g with main := .idle }
  if job.kind = .prepare then
    if answer = .done then
      (idle.modifySession job.key ({ · with position })).post job.link job.session (.ack position)
    else
      (idle.modifySession job.key ({ · with position := 0 })).post job.link job.session
        (.error answer.error)
  else if answer.error ≠ "" then
    if answer.fine then idle.post job.link job.session (.error answer.error)
    else { idle with broken := true }
  else if job.kind = .destroy then { g.noted internal answer with main := .erasing job internal }
  else (idle.modifySession job.key ({ · with position := 0 })).post job.link job.session (.ack 0)

/-- The next thing the main thread does. -/
def mainStep (options : Options) (g : State) (answer : Answer) (position : Nat) : Option State :=
  match g.main with
  | .down => none
  | .idle => some { g with main := .taken g.jobs.head?, jobs := g.jobs.tail }
  | .taken job =>
    if g.broken then some { g with main := .zeroing }
    else some { startPending options g with main := job.elim .checking .executing }
  | .executing job => some (g.execute options job)
  | .checked job =>
    if options.sessions.toNat ≤ g.inUse then
      some ({ g with main := .idle }.post job.link job.session (.error "replica_full"))
    else some { g with main := .creating job }
  | .creating job =>
    if answer = .done then some { g with main := .inserting job g.next, next := g.next + 1 }
    else if answer.error = "" then some { g with main := .inserting job 0 }
    else some { g with main := .zeroing }
  | .inserting job internal =>
    some { g.erase job.key with
      sessions :=
        (g.erase job.key).sessions ++ [{ link := job.link, session := job.session, internal }]
      main := .inserted job }
  | .inserted job => some
      ({ g with inUse := changeSessions g.inUse 1, main := .idle }.post job.link job.session
        (.ack 0))
  | .ending job internal => some (g.answered job internal answer position)
  | .erasing job _ => some { g.erase job.key with main := .erased job }
  | .erased job => some
      ({ g with inUse := changeSessions g.inUse (-1), main := .idle }.post job.link job.session
        (.ack 0))
  | .cleaning [] => some { g with main := .idle }
  | .cleaning (internal :: rest) =>
    if answer.fine then some { g.noted internal answer with main := .cleaned rest }
    else some { g with main := .idle, broken := true, dropped := g.dropped ++ internal :: rest }
  | .cleaned rest => some { g with inUse := changeSessions g.inUse (-1), main := .cleaning rest }
  | .checking => some { g with main := if answer = .done then .idle else .zeroing }
  | .zeroing => some { g with main := .unlinking, ready := false, inUse := 0 }
  | .unlinking => some { g with
      links := g.links.map ({ · with listed := false })
      main := .unqueueing ((List.range g.links.length).filter fun link =>
        (g.links[link]?).any Link.listed) }
  | .unqueueing links => some { g with main := .failing links, jobs := [] }
  | .failing links => some { g with main := .joining links, broken := true }
  | .joining links =>
    if g.requests.all (·.phase = .done) then
      some { g with
        main := .forgetting links, requests := [], pending := [], broken := false
        released := g.released ++ g.dropped, dropped := [] }
    else none
  | .forgetting [] => some { g with main := .down }
  | .forgetting (link :: rest) =>
    some { g.modifyLink link ({ · with closing := true }) with
      main := .forgetting rest
      sessions := g.sessions.filter (·.link ≠ link)
      released := g.released ++ (g.sessions.filter (·.link = link)).map SessionState.internal }

/-- The end of `run_request` and the critical section after it. -/
def finished (g : State) (i : Nat) (job : Job) (position : Nat) (problem : String) : State :=
  let g := g.modifySession job.key ({ · with position })
  let g := g.post job.link job.session (if problem ≠ "" then .error problem else .ack position)
  let g := g.modifySession job.key ({ · with busy := false })
  if g.gone job.link then
    { g.erase job.key with
      requests := g.requests.set i
        ⟨job, .left ((g.find job.key).map SessionState.internal |>.getD 0)⟩ }
  else { g with requests := g.requests.set i ⟨job, .done⟩ }

/-- The next thing a request's thread does after that. -/
def requestStep (g : State) (i : Nat) (t : Task) (answer : Answer) : Option State :=
  match t.phase with
  | .running | .done => none
  | .left internal =>
    if g.broken then some { g with
      requests := g.requests.set i ⟨t.job, .done⟩, dropped := g.dropped ++ [internal] }
    else some { g with requests := g.requests.set i ⟨t.job, .passed internal⟩ }
  | .passed internal =>
    if answer.fine then
      some { g.noted internal answer with requests := g.requests.set i ⟨t.job, .freed⟩ }
    else some { g with
      requests := g.requests.set i ⟨t.job, .done⟩, broken := true,
        dropped := g.dropped ++ [internal] }
  | .freed => some { g with
      inUse := changeSessions g.inUse (-1), requests := g.requests.set i ⟨t.job, .done⟩ }

def step (options : Options) (g : State) : Event → Option State
  | .accept => some { g with links := g.links ++ [{}] }
  | .read link job => (g.links[link]?).bind fun l =>
    if l.reader ≠ .reading ∨ job.kind = .cleanup ∨ job.link ≠ link then none
    else if g.ready then some (g.modifyLink link ({ · with reader := .pushing job }))
    else some (g.post link job.session (.error "replica_not_ready"))
  | .push link => (g.links[link]?).bind fun l =>
    match l.reader with
    | .pushing job => some { g.modifyLink link ({ · with reader := .reading }) with
        jobs := g.jobs ++ [job] }
    | .leaving => some { g.modifyLink link ({ · with reader := .left }) with
        jobs := g.jobs ++ [{ kind := .cleanup, link }] }
    | .reading | .left => none
  | .leave link => (g.links[link]?).bind fun l =>
    if l.reader = .reading then
      some (g.modifyLink link ({ · with reader := .leaving, gone := true }))
    else none
  | .drop link => some (g.modifyLink link ({ · with gone := true }))
  | .fail => match g.main with
    | .down | .forgetting _ => none
    | _ => some { g with broken := true }
  | .form =>
    if g.main = .down then some { g with main := .idle, inUse := 0, jobs := [], ready := true }
    else none
  | .giveWay =>
    if g.main = .checking ∧ g.inUse = 0 ∧ g.pending = [] ∧ g.requests = [] ∧ g.jobs = [] then
      some { g with main := .zeroing }
    else none
  | .main answer position => g.mainStep options answer position
  | .finish i position problem => (g.requests[i]?).bind fun t =>
    if t.phase = .running then some (g.finished i t.job position problem) else none
  | .request i answer => (g.requests[i]?).bind fun t => g.requestStep i t answer

end State

def owner (options : Options) : System State Event where
  init := {}
  step := State.step options

end ProviderOwned.Owner
