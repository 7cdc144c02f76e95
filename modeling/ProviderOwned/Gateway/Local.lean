import ProviderOwned.Lib.Transition
import ProviderOwned.Gateway.Conversation

/-!
# The local API and its client process

`localAPI.chat` of `local.go` with `chat_process.go`: one request at a time has the turn, and talks
to one `dan-client` process that may be kept for the next request of the same conversation. Requests
come and end at any time, the process may exit at any time, and closing it is asked for by the end
of a request's context or by the idle timer, and happens later.

A process answers the requests it was sent in order, each with events of which the last one is
`done` or `error` (`produce`). `chatClient` keeps a process if its scope is the request's. It does
not look at the policy the process was started with, and nothing else is missing: `local_apart` has
the condition under which conversations and policies stay apart.
-/

namespace ProviderOwned.Gateway

open Transition

/-- The value of `--policy`. -/
inductive Policy
  | target
  | any
  deriving DecidableEq, Repr

def localModels (model : Text) : Option Policy :=
  if model = ascii "dan-auto" then some .target
  else if model = ascii "dan-any" then some .any
  else none

/-- What `chat` reads of a request: the header and the fields of `localRequest`, with the text of
the messages. -/
structure LocalRequest where
  userId : Text := []
  model : Text
  user : Text := []
  promptCacheKey : Text := []
  messages : List Message
  deriving DecidableEq, Repr

/-- `chatScope`; `digest` is the hash of the marshalled list. -/
def chatScope {Scope : Type} (digest : List Text → Scope) (input : LocalRequest) : Scope :=
  let firstUser := (input.messages.find? fun m => m.role = ascii "user").map Message.content
  digest [input.userId, input.user, input.promptCacheKey, firstUser.getD []]

/-- An event of the client process: the last one of an answer, or one before it. -/
inductive ClientEvent
  | data
  | done
  | error
  deriving DecidableEq, Repr

/-- The `idle` timer; `Stop` returns true for one that is armed. -/
inductive IdleTimer
  | unset
  | armed
  | over
  deriving DecidableEq, Repr

/-- `type chatProcess struct`: what it was started for, whether `close` has run and whether it is
alive (`done` is open), the requests it has still to answer and the events that were not read yet,
each with the request it answers. -/
structure ChatProcess (Scope : Type) where
  scope : Scope
  policy : Policy
  closed : Bool := false
  alive : Bool := true
  idle : IdleTimer := .unset
  inbox : List Nat := []
  outbox : List (Nat × ClientEvent) := []
  deriving Repr

def ChatProcess.started {Scope : Type} (scope : Scope) (policy : Policy) : ChatProcess Scope :=
  { scope, policy }

/-- The process gets the request `r`, if it is `delivered`. -/
def ChatProcess.receive {Scope : Type} (p : ChatProcess Scope) (r : Nat) (delivered : Bool) :
    ChatProcess Scope :=
  { p with inbox := if delivered then p.inbox ++ [r] else p.inbox }

/-- The process writes an event for the request `q`, and after the last one turns to the `rest`. -/
def ChatProcess.write {Scope : Type} (p : ChatProcess Scope) (q : Nat) (rest : List Nat)
    (event : ClientEvent) : ChatProcess Scope :=
  { p with outbox := p.outbox ++ [(q, event)], inbox := if event = .data then p.inbox else rest }

/-- Where the request that has the turn is in `chat`. -/
inductive TurnPhase
  | entered
  | replacing (pid : Nat)
  | sending (pid : Nat)
  | reading (pid : Nat)
  | finishing (pid : Nat) (clean : Bool)
  deriving DecidableEq, Repr

/-- The request that has the turn, with the policy of the model it names; `ended` when its context
is over. -/
structure Turn where
  r : Nat
  input : LocalRequest
  policy : Policy
  named : localModels input.model = some policy
  ended : Bool := false
  phase : TurnPhase := .entered

/-- An event that was read: by which request, from which process, and the request it answers. -/
structure Consumed where
  request : Nat
  pid : Nat
  answers : Nat
  deriving DecidableEq, Repr

/-- `type localAPI struct`. A process is known by its place in `processes`; `closing` are the calls
of `close` that the context of a request or a timer has started. -/
structure LocalAPI (Scope : Type) where
  waiting : List (Nat × LocalRequest) := []
  turn : Option Turn := none
  process : Option Nat := none
  processes : List (ChatProcess Scope) := []
  closing : List Nat := []
  consumed : List Consumed := []

/-- What can happen next. `starts` says whether `cmd.Start` works; a `send` that fails may have
`delivered` the request all the same; `whole` says whether the answer ended with whole
characters. -/
inductive LocalEvent
  | arrive (r : Nat) (input : LocalRequest)
  | leave (r : Nat)
  | take (r : Nat)
  | expire
  | client (starts : Bool)
  | reaped (starts : Bool)
  | send (ok delivered : Bool)
  | produce (pid : Nat) (event : ClientEvent)
  | read (whole : Bool)
  | fail
  | finish
  | close (pid : Nat)
  | idle (pid : Nat)
  | exit (pid : Nat)

namespace LocalAPI

variable {Scope : Type}

/-- Changes the process `pid`. -/
def modify (g : LocalAPI Scope) (pid : Nat) (f : ChatProcess Scope → ChatProcess Scope) :
    LocalAPI Scope :=
  { g with processes := g.processes.modify pid f }

/-- `close` is going to run for `pid`, because the context is over or the timer has fired. -/
def closeLater (g : LocalAPI Scope) (pid : Nat) : LocalAPI Scope :=
  { g with closing := pid :: g.closing }

/-- `close`: input and output are closed; the process is killed if it does not exit. -/
def close (g : LocalAPI Scope) (pid : Nat) : LocalAPI Scope :=
  g.modify pid fun p => { p with closed := true }

/-- `context.AfterFunc(ctx, process.close)` and the start of `send`. -/
def serve (g : LocalAPI Scope) (t : Turn) (pid : Nat) : LocalAPI Scope :=
  let g := { g with turn := some { t with phase := .sending pid } }
  if t.ended then g.closeLater pid else g

/-- The end of `chatClient`: a new process, or the answer 503. -/
def start (g : LocalAPI Scope) (digest : List Text → Scope) (t : Turn) (starts : Bool) :
    LocalAPI Scope :=
  if starts then
    { g with
      process := some g.processes.length
      processes := g.processes ++ [ChatProcess.started (chatScope digest t.input) t.policy]
    }.serve t g.processes.length
  else { g with process := none, turn := none }

/-- Whether `chatClient` keeps the process. -/
def keeps (scope : Scope) [DecidableEq Scope] (p : ChatProcess Scope) : Bool :=
  p.scope = scope && p.alive && p.idle ≠ .over

/-- `p.idle.Stop()`. -/
def stopIdle (p : ChatProcess Scope) : ChatProcess Scope :=
  { p with idle := if p.idle = .armed then .over else p.idle }

def chatClient [DecidableEq Scope] (g : LocalAPI Scope) (digest : List Text → Scope) (t : Turn)
    (starts : Bool) : Option (LocalAPI Scope) :=
  match g.process with
  | none => some (g.start digest t starts)
  | some pid => (g.processes[pid]?).map fun p =>
    if keeps (chatScope digest t.input) p then (g.modify pid stopIdle).serve t pid
    else
      { (g.modify pid stopIdle).close pid with turn := some { t with phase := .replacing pid } }

/-- The loop is left with an error, which ends the context. -/
def abort (g : LocalAPI Scope) (t : Turn) (pid : Nat) : LocalAPI Scope :=
  let g := { g with turn := some { t with ended := true, phase := .finishing pid false } }
  if t.ended then g else g.closeLater pid

def step [DecidableEq Scope] (digest : List Text → Scope) (g : LocalAPI Scope) :
    LocalEvent → Option (LocalAPI Scope)
  | .arrive r input =>
    if (localModels input.model).isSome ∧ g.waiting.length + g.turn.toList.length < 8 then
      some { g with waiting := g.waiting ++ [(r, input)] }
    else none
  | .leave r => some { g with waiting := g.waiting.filter (·.1 ≠ r) }
  | .take r =>
    if g.turn.isSome then none
    else (g.waiting.find? (·.1 = r)).bind fun (_, input) =>
      match h : localModels input.model with
      | none => none
      | some policy =>
        some { g with
          waiting := g.waiting.filter (·.1 ≠ r), turn := some { r, input, policy, named := h } }
  | .expire => g.turn.bind fun t =>
    if t.ended then none
    else
      let g := { g with turn := some { t with ended := true } }
      match t.phase with
      | .sending pid | .reading pid | .finishing pid _ => some (g.closeLater pid)
      | .entered | .replacing _ => some g
  | .client starts => g.turn.bind fun t =>
    if t.phase ≠ .entered then none
    else if t.ended then some { g with turn := none }
    else g.chatClient digest t starts
  | .reaped starts => g.turn.bind fun t =>
    match t.phase with
    | .replacing pid => (g.processes[pid]?).bind fun p =>
      if p.alive then none else some ({ g with process := none }.start digest t starts)
    | _ => none
  | .send ok delivered => g.turn.bind fun t =>
    match t.phase with
    | .sending pid => (g.processes[pid]?).bind fun p =>
      if ok then
        if p.closed then none
        else some { g.modify pid (·.receive t.r true) with
          turn := some { t with phase := .reading pid } }
      else some { g.modify pid (·.receive t.r delivered) with
        turn := some { t with phase := .finishing pid false } }
    | _ => none
  | .produce pid event => (g.processes[pid]?).bind fun p =>
    match p.inbox with
    | [] => none
    | q :: rest =>
      if p.alive then some (g.modify pid (·.write q rest event)) else none
  | .read whole => g.turn.bind fun t =>
    match t.phase with
    | .reading pid => (g.processes[pid]?).bind fun p =>
      match p.outbox with
      | [] => none
      | (q, event) :: rest =>
        let g := { g.modify pid fun p => { p with outbox := rest } with
          consumed := ⟨t.r, pid, q⟩ :: g.consumed }
        match event with
        | .data => some g
        | .done => some { g with turn := some { t with phase := .finishing pid whole } }
        | .error => some (g.abort t pid)
    | _ => none
  | .fail => g.turn.bind fun t =>
    match t.phase with
    | .reading pid => some (g.abort t pid)
    | _ => none
  | .finish => g.turn.bind fun t =>
    match t.phase with
    | .finishing pid clean =>
      some { if clean then g.modify pid fun p => { p with idle := .armed } else g.close pid with
        turn := none }
    | _ => none
  | .close pid =>
    if pid ∈ g.closing then some { g.close pid with closing := g.closing.erase pid } else none
  | .idle pid => (g.processes[pid]?).bind fun p =>
    if p.idle = .armed then some ((g.modify pid fun p => { p with idle := .over }).closeLater pid)
    else none
  | .exit pid => some (g.modify pid fun p => { p with alive := false })

end LocalAPI

/-- The local API, with `digest` in `chatScope`. -/
def localAPI {Scope : Type} [DecidableEq Scope] (digest : List Text → Scope) :
    System (LocalAPI Scope) LocalEvent where
  init := {}
  step := LocalAPI.step digest

/-! ### Requests, processes and their events -/

namespace ChatProcess

variable {Scope : Type} {p : ChatProcess Scope} {r : Nat}

/-- Nothing to answer and nothing to read. -/
def Quiet (p : ChatProcess Scope) : Prop := p.inbox = [] ∧ p.outbox = []

/-- The process answers `r` and nobody else: it still has the request, or has written the last event
of its answer. -/
def Answering (p : ChatProcess Scope) (r : Nat) : Prop :=
  ∃ k, (p.inbox = [r] ∧ p.outbox = List.replicate k (r, .data)) ∨
    ∃ last, last ≠ .data ∧ p.inbox = [] ∧ p.outbox = List.replicate k (r, .data) ++ [(r, last)]

/-- The process writes one more event. -/
lemma Answering.produce {q : Nat} {rest : List Nat} {event : ClientEvent} (h : p.Answering r)
    (hinbox : p.inbox = q :: rest) :
    (p.write q rest event).Answering r := by
  obtain ⟨k, ⟨hreq, hout⟩ | ⟨last, -, hnil, -⟩⟩ := h
  · obtain ⟨rfl, rfl⟩ : r = q ∧ [] = rest := by simpa [hinbox, eq_comm] using hreq
    by_cases hevent : event = .data
    · refine ⟨k + 1, .inl ⟨by simp [write, hevent, hreq], ?_⟩⟩
      simp [write, hout, hevent, List.replicate_succ']
    · exact ⟨k, .inr ⟨event, hevent, by simp [write, hevent], by simp [write, hout]⟩⟩
  · simp [hinbox] at hnil

/-- The first event to read answers `r`; the last one of the answer leaves nothing behind. -/
lemma Answering.read {q : Nat} {event : ClientEvent} {rest : List (Nat × ClientEvent)}
    (h : p.Answering r) (hout : p.outbox = (q, event) :: rest) :
    q = r ∧ (event = .data → Answering { p with outbox := rest } r) ∧
      (event ≠ .data → Quiet { p with outbox := rest }) := by
  obtain ⟨k, ⟨hreq, hevents⟩ | ⟨last, hlast, hnil, hevents⟩⟩ := h
  · cases k with
    | zero => simp [hout] at hevents
    | succ k =>
      obtain ⟨⟨rfl, rfl⟩, rfl⟩ : (q = r ∧ event = .data) ∧ rest = List.replicate k (r, .data) := by
        simpa [hout, List.replicate_succ] using hevents
      exact ⟨rfl, fun _ => ⟨k, .inl ⟨hreq, rfl⟩⟩, fun hne => absurd rfl hne⟩
  · cases k with
    | zero =>
      obtain ⟨⟨rfl, rfl⟩, rfl⟩ : (q = r ∧ event = last) ∧ rest = [] := by
        simpa [hout] using hevents
      exact ⟨rfl, fun hdata => absurd hdata hlast, fun _ => ⟨hnil, rfl⟩⟩
    | succ k =>
      obtain ⟨⟨rfl, rfl⟩, rfl⟩ : (q = r ∧ event = .data) ∧
          rest = List.replicate k (r, .data) ++ [(r, last)] := by
        simpa [hout, List.replicate_succ] using hevents
      exact ⟨rfl, fun _ => ⟨k, .inr ⟨last, hlast, hnil, rfl⟩⟩, fun hne => absurd rfl hne⟩

end ChatProcess

/-- The process a request works with, the one it replaces included. -/
def TurnPhase.pid : TurnPhase → Option Nat
  | .entered => none
  | .replacing pid | .sending pid | .reading pid | .finishing pid _ => some pid

def TurnPhase.serving : TurnPhase → Option Nat
  | .entered | .replacing _ => none
  | .sending pid | .reading pid | .finishing pid _ => some pid

namespace LocalAPI

variable {Scope : Type} {digest : List Text → Scope} {g g' : LocalAPI Scope} {P : Prop} {t : Turn}
  {pid : Nat} {p : ChatProcess Scope}

/-- Only the kept process is alive, the request that has the turn works with it and it was started
for its scope (and, if `P`, for its policy). A process with anything to answer or to read either
answers the request that has the turn or is closed. -/
structure Apart (digest : List Text → Scope) (P : Prop) (g : LocalAPI Scope) : Prop where
  alive : ∀ pid p, g.processes[pid]? = some p → p.alive → g.process = some pid
  current : ∀ t pid, g.turn = some t → t.phase.pid = some pid → g.process = some pid
  serving : ∀ t pid p, g.turn = some t → t.phase.serving = some pid → g.processes[pid]? = some p →
    p.scope = chatScope digest t.input ∧ (P → p.policy = t.policy)
  quiet : ∀ pid p, g.processes[pid]? = some p → p.closed ∨ p.Quiet ∨
    ∃ t, g.turn = some t ∧ (t.phase = .reading pid ∨ t.phase = .finishing pid false)
  reading : ∀ t pid p, g.turn = some t → t.phase = .reading pid → g.processes[pid]? = some p →
    p.Answering t.r
  consumed : ∀ e ∈ g.consumed, e.answers = e.request

lemma getElem?_modify_eq_some_iff {q : Nat} {f : ChatProcess Scope → ChatProcess Scope} :
    (g.modify pid f).processes[q]? = some p ↔
      (q = pid ∧ ∃ p₀, g.processes[q]? = some p₀ ∧ f p₀ = p) ∨
        (q ≠ pid ∧ g.processes[q]? = some p) := by
  simp only [modify, List.getElem?_modify]
  by_cases hq : pid = q
  · simp [hq]
  · simp [hq, Ne.symm hq]

lemma Apart.congr (h : Apart digest P g) (hturn : g'.turn = g.turn)
    (hprocess : g'.process = g.process)
    (hprocesses : g'.processes = g.processes) (hconsumed : g'.consumed = g.consumed) :
    Apart digest P g' := by
  obtain ⟨halive, hcurrent, hserving, hquiet, hreading, hcons⟩ := h
  constructor <;> simpa only [hturn, hprocess, hprocesses, hconsumed]

/-- While the request that has the turn is not reading, a process that is not closed is quiet. -/
lemma Apart.quiet_of (h : Apart digest P g) (hp : g.processes[pid]? = some p)
    (hnot : ∀ t, g.turn = some t → t.phase ≠ .reading pid ∧ t.phase ≠ .finishing pid false) :
    p.closed ∨ p.Quiet := by
  rcases h.quiet pid p hp with hclosed | hquiet | ⟨t, ht, hphase⟩
  · exact .inl hclosed
  · exact .inr hquiet
  · exact absurd hphase (not_or.mpr (hnot t ht))

/-- A change of a process that leaves alone what it was started for and what it reads and writes, as
closing, its exit and its timer do. -/
lemma Apart.modify {f : ChatProcess Scope → ChatProcess Scope} (h : Apart digest P g)
    (hscope : ∀ p, (f p).scope = p.scope) (hpolicy : ∀ p, (f p).policy = p.policy)
    (hclosed : ∀ p, p.closed → (f p).closed) (halive : ∀ p, (f p).alive → p.alive)
    (hinbox : ∀ p, (f p).inbox = p.inbox) (houtbox : ∀ p, (f p).outbox = p.outbox) :
    Apart digest P (g.modify pid f) := by
  have hback : ∀ {q : Nat} {p : ChatProcess Scope}, (g.modify pid f).processes[q]? = some p →
      ∃ p₀, g.processes[q]? = some p₀ ∧
      p.scope = p₀.scope ∧ p.policy = p₀.policy ∧ (p₀.closed → p.closed) ∧ (p.alive → p₀.alive) ∧
      p.inbox = p₀.inbox ∧ p.outbox = p₀.outbox := by
    intro q p hp
    rcases getElem?_modify_eq_some_iff.mp hp with ⟨-, p₀, hp₀, rfl⟩ | ⟨-, hp₀⟩
    · exact ⟨p₀, hp₀, hscope p₀, hpolicy p₀, hclosed p₀, halive p₀, hinbox p₀, houtbox p₀⟩
    · exact ⟨p, hp₀, rfl, rfl, id, id, rfl, rfl⟩
  constructor
  · intro q p hp hpalive
    obtain ⟨p₀, hp₀, -, -, -, hal, -⟩ := hback hp
    exact h.alive q p₀ hp₀ (hal hpalive)
  · exact h.current
  · intro t q p ht hphase hp
    obtain ⟨p₀, hp₀, hsc, hpo, -⟩ := hback hp
    rw [hsc, hpo]
    exact h.serving t q p₀ ht hphase hp₀
  · intro q p hp
    obtain ⟨p₀, hp₀, -, -, hcl, -, hin, hout⟩ := hback hp
    rw [ChatProcess.Quiet, hin, hout]
    exact (h.quiet q p₀ hp₀).imp_left hcl
  · intro t q p ht hphase hp
    obtain ⟨p₀, hp₀, -, -, -, -, hin, hout⟩ := hback hp
    rw [ChatProcess.Answering, hin, hout]
    exact h.reading t q p₀ ht hphase hp₀
  · exact h.consumed

lemma Apart.close (h : Apart digest P g) (pid : Nat) : Apart digest P (g.close pid) :=
  h.modify (fun _ => rfl) (fun _ => rfl) (fun _ _ => rfl) (fun _ => id) (fun _ => rfl) fun _ => rfl

/-- Every process that is not closed is quiet. -/
def AllQuiet (g : LocalAPI Scope) : Prop :=
  ∀ (pid : Nat) (p : ChatProcess Scope), g.processes[pid]? = some p → p.closed ∨ p.Quiet

/-- The process `pid` was started for the request of `t` (and, if `P`, for its policy). -/
def Fits (digest : List Text → Scope) (P : Prop) (g : LocalAPI Scope) (t : Turn) (pid : Nat) :
    Prop :=
  ∀ p : ChatProcess Scope, g.processes[pid]? = some p →
    p.scope = chatScope digest t.input ∧ (P → p.policy = t.policy)

lemma Apart.allQuiet (h : Apart digest P g)
    (hnot : ∀ t pid, g.turn = some t → t.phase ≠ .reading pid ∧ t.phase ≠ .finishing pid false) :
    g.AllQuiet := fun pid _ hp => h.quiet_of hp fun t => hnot t pid

/-- The turn goes on, or is over, with no process to read from. -/
lemma Apart.setTurn {turn : Option Turn} (h : Apart digest P g) (hquiet : g.AllQuiet)
    (hcurrent : ∀ t pid, turn = some t → t.phase.pid = some pid → g.process = some pid)
    (hserving : ∀ t pid, turn = some t → t.phase.serving = some pid → g.Fits digest P t pid)
    (hreading : ∀ t pid, turn = some t → t.phase ≠ .reading pid) :
    Apart digest P { g with turn := turn } where
  alive := h.alive
  current := hcurrent
  serving t pid p ht hphase hp := hserving t pid ht hphase p hp
  quiet pid p hp := (hquiet pid p hp).imp_right .inl
  reading t pid _ ht hphase := absurd hphase (hreading t pid ht)
  consumed := h.consumed

/-- `serve` begins with a process that was started for the request. -/
lemma Apart.serve (h : Apart digest P g) (hquiet : g.AllQuiet) (hprocess : g.process = some pid)
    (hfits : g.Fits digest P t pid) : Apart digest P (g.serve t pid) := by
  have hturn : Apart digest P { g with turn := some { t with phase := .sending pid } } := by
    refine h.setTurn hquiet ?_ ?_ ?_
    · rintro t' q ⟨⟩ ⟨⟩
      exact hprocess
    · rintro t' q ⟨⟩ ⟨⟩
      exact hfits
    · rintro t' q ⟨⟩
      exact TurnPhase.noConfusion
  unfold LocalAPI.serve
  split_ifs
  · exact hturn.congr rfl rfl rfl rfl
  · exact hturn

/-- The processes after one more was started. -/
lemma getElem?_started {q : Nat} {new : ChatProcess Scope}
    (hp : (g.processes ++ [new])[q]? = some p) :
    (q < g.processes.length ∧ g.processes[q]? = some p) ∨ (q = g.processes.length ∧ p = new) := by
  rw [List.getElem?_append] at hp
  split_ifs at hp with hq
  · exact .inl ⟨hq, hp⟩
  · obtain ⟨hlt, rfl⟩ := List.getElem?_eq_some_iff.mp hp
    simp only [List.length_singleton] at hlt
    exact .inr ⟨by omega, by simp⟩

/-- A new process starts when none is alive. -/
lemma Apart.start (h : Apart digest P g) (hquiet : g.AllQuiet)
    (hdead : ∀ (pid : Nat) (p : ChatProcess Scope), g.processes[pid]? = some p → ¬ p.alive)
    (starts : Bool) : Apart digest P (g.start digest t starts) := by
  unfold LocalAPI.start
  split_ifs
  · -- `serve` sets the turn, so what it was before does not matter
    have hnew : Apart digest P { g with
        turn := none
        process := some g.processes.length
        processes :=
            g.processes ++ [ChatProcess.started (chatScope digest t.input) t.policy] } := by
      refine ⟨fun q p hp halive => ?_, by simp, by simp, fun q p hp => ?_, by simp, h.consumed⟩
      · rcases getElem?_started hp with ⟨-, hold⟩ | ⟨rfl, -⟩
        · exact absurd halive (hdead q p hold)
        · rfl
      · rcases getElem?_started hp with ⟨-, hold⟩ | ⟨-, rfl⟩
        · exact (hquiet q p hold).imp_right .inl
        · exact .inr (.inl ⟨rfl, rfl⟩)
    refine hnew.serve (hnew.allQuiet (by simp)) rfl fun p hp => ?_
    rcases getElem?_started hp with ⟨hlt, -⟩ | ⟨-, rfl⟩
    · exact absurd hlt (Nat.lt_irrefl _)
    · exact ⟨rfl, fun _ => rfl⟩
  · exact ⟨fun q p hp halive => absurd halive (hdead q p hp), by simp, by simp,
      fun q p hp => (hquiet q p hp).imp_right .inl, by simp, h.consumed⟩

/-- If `chatClient` keeps a process for the request that has the turn, it was started with the
policy of the model that request names. -/
def KeepsPolicy [DecidableEq Scope] (digest : List Text → Scope) (g : LocalAPI Scope) :
    LocalEvent → Prop
  | .client _ => ∀ t ∈ g.turn, ∀ pid ∈ g.process, ∀ p ∈ g.processes[pid]?,
    keeps (chatScope digest t.input) p → p.policy = t.policy
  | _ => True

instance [DecidableEq Scope] (digest : List Text → Scope) (g : LocalAPI Scope) :
    DecidablePred (g.KeepsPolicy digest)
  | .client _ => inferInstanceAs (Decidable (∀ t ∈ g.turn, ∀ pid ∈ g.process,
      ∀ p ∈ g.processes[pid]?, keeps (chatScope digest t.input) p → p.policy = t.policy))
  | .arrive .. | .leave _ | .take _ | .expire | .reaped _ | .send .. | .produce .. | .read _ | .fail
  | .finish | .close _ | .idle _ | .exit _ => inferInstanceAs (Decidable True)

lemma Apart.stopIdle (h : Apart digest P g) (pid : Nat) :
    Apart digest P (g.modify pid LocalAPI.stopIdle) :=
  h.modify (fun _ => rfl) (fun _ => rfl) (fun _ => id) (fun _ => id) (fun _ => rfl) fun _ => rfl

lemma Apart.chatClient [DecidableEq Scope] (h : Apart digest P g) (ht : g.turn = some t)
    (hphase : t.phase = .entered) {starts : Bool}
    (hkeeps : P → g.KeepsPolicy digest (.client starts))
    (hstep : g.chatClient digest t starts = some g') : Apart digest P g' := by
  have hentered : ∀ t' pid, g.turn = some t' →
      t'.phase ≠ .reading pid ∧ t'.phase ≠ .finishing pid false := by
    rintro t' pid ht'
    obtain rfl := Option.some.inj (ht.symm.trans ht')
    simp [hphase]
  unfold LocalAPI.chatClient at hstep
  split at hstep
  · rename_i hnone
    obtain rfl := Option.some.inj hstep
    refine h.start (h.allQuiet hentered) (fun pid p hp halive => ?_) starts
    have := h.alive pid p hp halive
    simp [hnone] at this
  · rename_i pid hpid
    obtain ⟨p, hp, rfl⟩ := Option.map_eq_some_iff.mp hstep
    have hstopped := h.stopIdle pid
    split_ifs with hkept
    · refine hstopped.serve (hstopped.allQuiet hentered) hpid fun p' hp' => ?_
      rcases getElem?_modify_eq_some_iff.mp hp' with ⟨-, p₀, hp₀, rfl⟩ | ⟨hne, -⟩
      · obtain rfl := Option.some.inj (hp.symm.trans hp₀)
        have hsame : p.scope = chatScope digest t.input := by
          simp only [keeps, Bool.and_eq_true, decide_eq_true_eq] at hkept
          exact hkept.1.1
        exact ⟨hsame, fun hP => hkeeps hP t ht pid hpid p hp hkept⟩
      · exact absurd rfl hne
    · have hclosed := hstopped.close pid
      refine hclosed.setTurn (hclosed.allQuiet hentered) ?_ ?_ ?_
      · rintro t' q ⟨⟩ ⟨⟩
        exact hpid
      · rintro t' q ⟨⟩ ⟨⟩
      · rintro t' q ⟨⟩
        exact TurnPhase.noConfusion

/-- The request that has the turn is replaced by itself, as far as its process can tell. -/
lemma Apart.sameTurn {t' : Turn} (h : Apart digest P g) (ht : g.turn = some t) (hr : t'.r = t.r)
    (hinput : t'.input = t.input) (hpolicy : t'.policy = t.policy) (hphase : t'.phase = t.phase) :
    Apart digest P { g with turn := some t' } := by
  refine ⟨h.alive, ?_, ?_, ?_, ?_, h.consumed⟩
  · rintro _ pid ⟨⟩ hpid
    exact h.current t pid ht (hphase ▸ hpid)
  · rintro _ pid p ⟨⟩ hpid hp
    rw [hinput, hpolicy]
    exact h.serving t pid p ht (hphase ▸ hpid) hp
  · intro pid p hp
    refine (h.quiet pid p hp).imp_right (Or.imp_right ?_)
    rintro ⟨t₀, ht₀, hcase⟩
    obtain rfl := Option.some.inj (ht.symm.trans ht₀)
    exact ⟨t', rfl, hphase ▸ hcase⟩
  · rintro _ pid p ⟨⟩ hreading hp
    rw [hr]
    exact h.reading t pid p ht (hphase ▸ hreading) hp

/-- The request stops reading, for a reason that makes it close the process. -/
lemma Apart.unclean {t' : Turn} (h : Apart digest P g) (ht : g.turn = some t)
    (hpid : t.phase.serving = some pid) (hinput : t'.input = t.input)
    (hpolicy : t'.policy = t.policy) (hphase : t'.phase = .finishing pid false)
    (hother : ∀ q, t.phase = .reading q ∨ t.phase = .finishing q false → q = pid) :
    Apart digest P { g with turn := some t' } := by
  have hcurrent : t.phase.pid = some pid := by
    cases hcase : t.phase <;> simp_all [TurnPhase.serving, TurnPhase.pid]
  refine ⟨h.alive, ?_, ?_, ?_, ?_, h.consumed⟩
  · rintro _ q ⟨⟩ hq
    rw [hphase] at hq
    cases hq
    exact h.current t pid ht hcurrent
  · rintro _ q p ⟨⟩ hq hp
    rw [hphase] at hq
    cases hq
    rw [hinput, hpolicy]
    exact h.serving t pid p ht hpid hp
  · intro q p hp
    refine (h.quiet q p hp).imp_right (Or.imp_right ?_)
    rintro ⟨t₀, ht₀, hcase⟩
    obtain rfl := Option.some.inj (ht.symm.trans ht₀)
    exact ⟨t', rfl, .inr (hother q hcase ▸ hphase)⟩
  · rintro _ q p ⟨⟩ hreading
    rw [hphase] at hreading
    cases hreading

/-- The request talks to the process that serves it. -/
lemma Apart.talk {t' : Turn} {f : ChatProcess Scope → ChatProcess Scope} (h : Apart digest P g)
    (ht : g.turn = some t) (hpid : t.phase.serving = some pid)
    (hf : ∀ p, (f p).scope = p.scope ∧ (f p).policy = p.policy ∧ (f p).closed = p.closed ∧
      (f p).alive = p.alive)
    (hinput : t'.input = t.input) (hpolicy : t'.policy = t.policy)
    (hpid' : t'.phase.serving = some pid)
    (hquiet : ∀ p, g.processes[pid]? = some p →
      (f p).closed ∨ (f p).Quiet ∨ t'.phase = .reading pid ∨ t'.phase = .finishing pid false)
    (hreading : ∀ p, g.processes[pid]? = some p → t'.phase = .reading pid → (f p).Answering t'.r) :
    Apart digest P { g.modify pid f with turn := some t' } := by
  have hcurrent : ∀ {t : Turn} {q : Nat}, t.phase.serving = some pid → t.phase.pid = some q →
      q = pid := by
    intro t q hserving hq
    cases hcase : t.phase <;> simp_all [TurnPhase.serving, TurnPhase.pid]
  have hthis : t.phase.pid = some pid := by
    cases hcase : t.phase <;> simp_all [TurnPhase.serving, TurnPhase.pid]
  refine ⟨?_, ?_, ?_, ?_, ?_, h.consumed⟩
  · intro q p hp halive
    rcases getElem?_modify_eq_some_iff.mp hp with ⟨-, p₀, hp₀, rfl⟩ | ⟨-, hp₀⟩
    · exact h.alive q p₀ hp₀ ((hf p₀).2.2.2 ▸ halive)
    · exact h.alive q p hp₀ halive
  · rintro _ q ⟨⟩ hq
    rw [hcurrent hpid' hq]
    exact h.current t pid ht hthis
  · rintro _ q p ⟨⟩ hq hp
    obtain rfl := Option.some.inj (hpid'.symm.trans hq)
    rcases getElem?_modify_eq_some_iff.mp hp with ⟨-, p₀, hp₀, rfl⟩ | ⟨hne, -⟩
    · rw [hinput, hpolicy, (hf p₀).1, (hf p₀).2.1]
      exact h.serving t pid p₀ ht hpid hp₀
    · exact absurd rfl hne
  · intro q p hp
    rcases getElem?_modify_eq_some_iff.mp hp with ⟨rfl, p₀, hp₀, rfl⟩ | ⟨hne, hp₀⟩
    · exact (hquiet p₀ hp₀).imp_right (Or.imp_right fun hphase => ⟨t', rfl, hphase⟩)
    · refine (h.quiet_of hp₀ fun t₀ ht₀ => ?_).imp_right .inl
      obtain rfl := Option.some.inj (ht.symm.trans ht₀)
      constructor
      · intro hphase
        exact hne (hcurrent hpid (by rw [hphase]; rfl))
      · intro hphase
        exact hne (hcurrent hpid (by rw [hphase]; rfl))
  · rintro _ q p ⟨⟩ hphase hp
    obtain rfl := hcurrent hpid' (by rw [hphase]; rfl)
    rcases getElem?_modify_eq_some_iff.mp hp with ⟨-, p₀, hp₀, rfl⟩ | ⟨hne, -⟩
    · exact hreading p₀ hp₀ hphase
    · exact absurd rfl hne

lemma Apart.produce {q : Nat} {rest : List Nat} {event : ClientEvent} (h : Apart digest P g)
    (hp : g.processes[pid]? = some p) (hinbox : p.inbox = q :: rest) :
    Apart digest P (g.modify pid (·.write q rest event)) := by
  refine ⟨?_, h.current, ?_, ?_, ?_, h.consumed⟩
  · intro q' p' hp' halive
    rcases getElem?_modify_eq_some_iff.mp hp' with ⟨-, p₀, hp₀, rfl⟩ | ⟨-, hp₀⟩
    · exact h.alive q' p₀ hp₀ halive
    · exact h.alive q' p' hp₀ halive
  · intro t q' p' ht hq' hp'
    rcases getElem?_modify_eq_some_iff.mp hp' with ⟨-, p₀, hp₀, rfl⟩ | ⟨-, hp₀⟩
    · exact h.serving t q' p₀ ht hq' hp₀
    · exact h.serving t q' p' ht hq' hp₀
  · intro q' p' hp'
    rcases getElem?_modify_eq_some_iff.mp hp' with ⟨rfl, p₀, hp₀, rfl⟩ | ⟨-, hp₀⟩
    · obtain rfl := Option.some.inj (hp.symm.trans hp₀)
      rcases h.quiet q' p hp with hclosed | hquiet | hturn
      · exact .inl hclosed
      · simp [ChatProcess.Quiet, hinbox] at hquiet
      · exact .inr (.inr hturn)
    · exact h.quiet q' p' hp₀
  · intro t q' p' ht hphase hp'
    rcases getElem?_modify_eq_some_iff.mp hp' with ⟨rfl, p₀, hp₀, rfl⟩ | ⟨-, hp₀⟩
    · obtain rfl := Option.some.inj (hp.symm.trans hp₀)
      exact (h.reading t q' p ht hphase hp).produce hinbox
    · exact h.reading t q' p' ht hphase hp₀

lemma Apart.finish {clean : Bool} (h : Apart digest P g) (ht : g.turn = some t)
    (hphase : t.phase = .finishing pid clean) :
    Apart digest P
      { if clean then g.modify pid fun p => { p with idle := .armed } else g.close pid with
      turn := none } := by
  have hother : ∀ {q : Nat} {p : ChatProcess Scope}, g.processes[q]? = some p →
      (q = pid → clean) → p.closed ∨ p.Quiet := by
    intro q p hp hq
    refine h.quiet_of hp fun t₀ ht₀ => ?_
    obtain rfl := Option.some.inj (ht.symm.trans ht₀)
    simp only [hphase, ne_eq, reduceCtorEq, not_false_eq_true, TurnPhase.finishing.injEq, true_and]
    rintro ⟨rfl, rfl⟩
    exact Bool.noConfusion (hq rfl)
  cases clean with
  | true =>
    have harmed : Apart digest P (g.modify pid fun p => { p with idle := .armed }) :=
      h.modify (fun _ => rfl) (fun _ => rfl) (fun _ => id) (fun _ => id) (fun _ => rfl) fun _ => rfl
    refine harmed.setTurn (fun q p hp => ?_) (by simp) (by simp) (by simp)
    rcases getElem?_modify_eq_some_iff.mp hp with ⟨-, p₀, hp₀, rfl⟩ | ⟨-, hp₀⟩
    · have hquiet := hother hp₀ fun _ => rfl
      exact hquiet
    · exact hother hp₀ fun _ => rfl
  | false =>
    refine (h.close pid).setTurn (fun q p hp => ?_) (by simp) (by simp) (by simp)
    rcases getElem?_modify_eq_some_iff.mp hp with ⟨-, p₀, hp₀, rfl⟩ | ⟨hne, hp₀⟩
    · exact .inl rfl
    · exact hother hp₀ fun heq => absurd heq hne

/-- The loop of a request that reads is left. -/
lemma Apart.abort (h : Apart digest P g) (ht : g.turn = some t) (hphase : t.phase = .reading pid) :
    Apart digest P (g.abort t pid) := by
  have hturn : Apart digest P
      { g with turn := some { t with ended := true, phase := .finishing pid false } } :=
    h.unclean ht (by rw [hphase]; rfl) rfl rfl rfl (by simp [hphase, eq_comm])
  unfold LocalAPI.abort
  split_ifs
  · exact hturn
  · exact hturn.congr rfl rfl rfl rfl

/-- The event that is read answers the request that reads it. -/
lemma Apart.read {q : Nat} {event : ClientEvent} {rest : List (Nat × ClientEvent)}
    (h : Apart digest P g) (ht : g.turn = some t) (hphase : t.phase = .reading pid)
    (hp : g.processes[pid]? = some p) (hout : p.outbox = (q, event) :: rest) (t' : Turn)
    (whole : Bool) (hr : t'.r = t.r) (hinput : t'.input = t.input) (hpolicy : t'.policy = t.policy)
    (hphase' : t'.phase = if event = .data then .reading pid
      else .finishing pid (if event = .done then whole else false)) :
    Apart digest P { g.modify pid fun p => { p with outbox := rest } with
      turn := some t', consumed := ⟨t.r, pid, q⟩ :: g.consumed } := by
  obtain ⟨rfl, hdata, hlast⟩ := (h.reading t pid p ht hphase hp).read hout
  have htalk : Apart digest P { g.modify pid fun p => { p with outbox := rest } with
      turn := some t' } := by
    refine h.talk ht (by rw [hphase]; rfl) (fun _ => ⟨rfl, rfl, rfl, rfl⟩) hinput hpolicy ?_ ?_ ?_
    · rw [hphase']
      split_ifs <;> rfl
    · intro p₀ hp₀
      obtain rfl := Option.some.inj (hp.symm.trans hp₀)
      by_cases hevent : event = .data
      · simp [hphase', hevent]
      · exact .inr (.inl (hlast hevent))
    · intro p₀ hp₀ hreading
      obtain rfl := Option.some.inj (hp.symm.trans hp₀)
      rw [hr]
      by_cases hevent : event = .data
      · exact hdata hevent
      · simp [hphase', hevent] at hreading
  exact ⟨htalk.alive, htalk.current, htalk.serving, htalk.quiet, htalk.reading,
    List.forall_mem_cons.mpr ⟨rfl, h.consumed⟩⟩

variable [DecidableEq Scope]

/-- Every step keeps conversations apart, and policies too where `KeepsPolicy` holds. -/
lemma step_apart {e : LocalEvent} (h : Apart digest P g) (hkeeps : P → g.KeepsPolicy digest e)
    (hstep : g.step digest e = some g') : Apart digest P g' := by
  cases e with
  | arrive r input =>
    simp only [step] at hstep
    split_ifs at hstep
    obtain rfl := Option.some.inj hstep
    exact h.congr rfl rfl rfl rfl
  | leave r =>
    obtain rfl := Option.some.inj hstep
    exact h.congr rfl rfl rfl rfl
  | take r =>
    simp only [step] at hstep
    split_ifs at hstep with hturn
    obtain ⟨⟨_, input⟩, -, hstep⟩ := Option.bind_eq_some_iff.mp hstep
    split at hstep <;> try contradiction
    rename_i policy hpolicy
    obtain rfl := Option.some.inj hstep
    have hnone : g.turn = none := by simpa using hturn
    have hturn : Apart digest P { g with turn := some { r, input, policy, named := hpolicy } } := by
      refine h.setTurn (h.allQuiet (by simp [hnone])) ?_ ?_ ?_
      · rintro _ pid ⟨⟩ ⟨⟩
      · rintro _ pid ⟨⟩ ⟨⟩
      · rintro _ pid ⟨⟩
        exact TurnPhase.noConfusion
    exact hturn.congr rfl rfl rfl rfl
  | expire =>
    obtain ⟨t, ht, hstep⟩ := Option.bind_eq_some_iff.mp hstep
    split_ifs at hstep
    have hturn : Apart digest P { g with turn := some { t with ended := true } } :=
      h.sameTurn ht rfl rfl rfl rfl
    split at hstep
    all_goals
      obtain rfl := Option.some.inj hstep
      exact hturn.congr rfl rfl rfl rfl
  | client starts =>
    obtain ⟨t, ht, hstep⟩ := Option.bind_eq_some_iff.mp hstep
    split_ifs at hstep with hphase hended
    · obtain rfl := Option.some.inj hstep
      refine h.setTurn (h.allQuiet fun t' pid ht' => ?_) (by simp) (by simp) (by simp)
      obtain rfl := Option.some.inj (ht.symm.trans ht')
      simp [not_not.mp hphase]
    · exact h.chatClient ht (not_not.mp hphase) hkeeps hstep
  | reaped starts =>
    obtain ⟨t, ht, hstep⟩ := Option.bind_eq_some_iff.mp hstep
    split at hstep <;> try contradiction
    rename_i pid hphase
    obtain ⟨p, hp, hstep⟩ := Option.bind_eq_some_iff.mp hstep
    split_ifs at hstep with halive
    obtain rfl := Option.some.inj hstep
    have hprocess := h.current t pid ht (by rw [hphase]; rfl)
    -- the process that is replaced was the only one that could be alive
    have hdead : ∀ (q : Nat) (p' : ChatProcess Scope), g.processes[q]? = some p' → ¬ p'.alive := by
      intro q p' hp' hlive
      obtain rfl := Option.some.inj (hprocess.symm.trans (h.alive q p' hp' hlive))
      obtain rfl := Option.some.inj (hp.symm.trans hp')
      exact halive hlive
    refine h.start (h.allQuiet fun t' q ht' => ?_) hdead starts
    obtain rfl := Option.some.inj (ht.symm.trans ht')
    simp [hphase]
  | send ok delivered =>
    obtain ⟨t, ht, hstep⟩ := Option.bind_eq_some_iff.mp hstep
    split at hstep <;> try contradiction
    rename_i pid hphase
    obtain ⟨p, hp, hstep⟩ := Option.bind_eq_some_iff.mp hstep
    split_ifs at hstep with hok hclosed
    · obtain rfl := Option.some.inj hstep
      refine h.talk ht (by rw [hphase]; rfl) (fun _ => ⟨rfl, rfl, rfl, rfl⟩) rfl rfl rfl
        (fun _ _ => .inr (.inr (.inl rfl))) fun p₀ hp₀ _ => ?_
      obtain rfl := Option.some.inj (hp.symm.trans hp₀)
      have hquiet := h.quiet_of hp fun t₀ ht₀ => by
        obtain rfl := Option.some.inj (ht.symm.trans ht₀)
        simp [hphase]
      obtain ⟨hin, hout⟩ := hquiet.resolve_left hclosed
      exact ⟨0, .inl ⟨by simp [ChatProcess.receive, hin], by simp [ChatProcess.receive, hout]⟩⟩
    · obtain rfl := Option.some.inj hstep
      exact h.talk ht (by rw [hphase]; rfl) (fun _ => ⟨rfl, rfl, rfl, rfl⟩) rfl rfl rfl
        (fun _ _ => .inr (.inr (.inr rfl))) (by simp)
  | produce pid event =>
    obtain ⟨p, hp, hstep⟩ := Option.bind_eq_some_iff.mp hstep
    split at hstep <;> try contradiction
    rename_i q rest hinbox
    split_ifs at hstep
    obtain rfl := Option.some.inj hstep
    exact h.produce hp hinbox
  | read whole =>
    obtain ⟨t, ht, hstep⟩ := Option.bind_eq_some_iff.mp hstep
    split at hstep <;> try contradiction
    rename_i pid hphase
    obtain ⟨p, hp, hstep⟩ := Option.bind_eq_some_iff.mp hstep
    split at hstep <;> try contradiction
    rename_i q event rest hout
    simp only at hstep
    split at hstep
    · obtain rfl := Option.some.inj hstep
      have hread := h.read ht hphase hp hout t whole rfl rfl rfl (by simp [hphase])
      exact hread.congr ht rfl rfl rfl
    · obtain rfl := Option.some.inj hstep
      exact h.read ht hphase hp hout { t with phase := .finishing pid whole } whole rfl rfl rfl
        (by simp)
    · obtain rfl := Option.some.inj hstep
      have hread := h.read ht hphase hp hout
        { t with ended := true, phase := .finishing pid false } whole rfl rfl rfl (by simp)
      unfold LocalAPI.abort
      split_ifs
      · exact hread.congr rfl rfl rfl rfl
      · exact hread.congr rfl rfl rfl rfl
  | fail =>
    obtain ⟨t, ht, hstep⟩ := Option.bind_eq_some_iff.mp hstep
    split at hstep <;> try contradiction
    rename_i pid hphase
    obtain rfl := Option.some.inj hstep
    exact h.abort ht hphase
  | finish =>
    obtain ⟨t, ht, hstep⟩ := Option.bind_eq_some_iff.mp hstep
    split at hstep <;> try contradiction
    rename_i pid clean hphase
    obtain rfl := Option.some.inj hstep
    exact h.finish ht hphase
  | close pid =>
    simp only [step] at hstep
    split_ifs at hstep
    obtain rfl := Option.some.inj hstep
    exact (h.close pid).congr rfl rfl rfl rfl
  | idle pid =>
    obtain ⟨p, hp, hstep⟩ := Option.bind_eq_some_iff.mp hstep
    split_ifs at hstep
    obtain rfl := Option.some.inj hstep
    have hover : Apart digest P (g.modify pid fun p => { p with idle := .over }) :=
      h.modify (fun _ => rfl) (fun _ => rfl) (fun _ => id) (fun _ => id) (fun _ => rfl) fun _ => rfl
    exact hover.congr rfl rfl rfl rfl
  | exit pid =>
    obtain rfl := Option.some.inj hstep
    exact h.modify (fun _ => rfl) (fun _ => rfl) (fun _ => id) (fun _ => Bool.noConfusion)
      (fun _ => rfl) fun _ => rfl

lemma apart {ok : LocalAPI Scope → LocalEvent → Prop}
    (hok : ∀ g e, ok g e → P → g.KeepsPolicy digest e) (h : (localAPI digest).Reachable ok g) :
    Apart digest P g := by
  refine h.invariant ?_ fun s e s' _ ih hse hstep => step_apart ih (hok s e hse) hstep
  constructor <;> simp [localAPI]

/-- At most one process is alive, every event was read by the request it answers, and the process
that serves a request was started for its scope. -/
structure KeptApart (digest : List Text → Scope) (g : LocalAPI Scope) : Prop where
  one : ∀ (i j : Nat) (p q : ChatProcess Scope), g.processes[i]? = some p →
    g.processes[j]? = some q →
    p.alive → q.alive → i = j
  own : ∀ e ∈ g.consumed, e.answers = e.request
  scope : ∀ (t : Turn) (pid : Nat) (p : ChatProcess Scope), g.turn = some t →
    t.phase.serving = some pid → g.processes[pid]? = some p → p.scope = chatScope digest t.input

/-- The process that serves a request was started with the policy of the model the request names. -/
def PolicyKept (g : LocalAPI Scope) : Prop :=
  ∀ (t : Turn) (pid : Nat) (p : ChatProcess Scope), g.turn = some t →
    t.phase.serving = some pid → g.processes[pid]? = some p →
    localModels t.input.model = some p.policy

omit [DecidableEq Scope] in
lemma Apart.keptApart (h : Apart digest P g) : g.KeptApart digest where
  one i j p q hp hq hpalive hqalive :=
    Option.some.inj ((h.alive i p hp hpalive).symm.trans (h.alive j q hq hqalive))
  own := h.consumed
  scope t pid p ht hphase hp := (h.serving t pid p ht hphase hp).1

/-- Conversations are kept apart in every run, and policies in every run in which a process is only
kept for requests with the policy it was started with. -/
theorem local_apart (digest : List Text → Scope) :
    (∀ g, (localAPI digest).Reachable (fun _ _ => True) g → g.KeptApart digest) ∧
      ∀ g, (localAPI digest).Reachable (KeepsPolicy digest) g → g.KeptApart digest ∧
        g.PolicyKept := by
  refine ⟨fun g h => ?_, fun g h => ?_⟩
  · exact (@apart _ _ _ False _ _ (fun _ _ _ => False.elim) h).keptApart
  · have hapart := @apart _ _ _ True _ _ (fun _ _ hok _ => hok) h
    refine ⟨hapart.keptApart, fun t pid p ht hphase hp => ?_⟩
    rw [t.named, (hapart.serving t pid p ht hphase hp).2 trivial]

/-- A request for `model` in one conversation. -/
def bye (model : String) : LocalRequest :=
  { model := ascii model, messages := [⟨ascii "user", ascii "Bye"⟩] }

/-- A request that is served by a process of its own to the end. -/
def servedOnce (model : String) : List LocalEvent :=
  [.arrive 1 (bye model), .take 1, .client true, .send true true, .produce 0 .data, .read true,
    .produce 0 .done, .read true, .finish]

/-- The next request of the same conversation, as far as `chatClient`. -/
def servedNext (model : String) : List LocalEvent := [.arrive 2 (bye model), .take 2, .client true]

/-- A request for `dan-auto` gets the process that was started for `dan-any`. -/
theorem policy_not_kept :
    ¬ ∀ g, (localAPI (id : List Text → List Text)).Reachable (fun _ _ => True) g →
      g.KeptApart id ∧ g.PolicyKept := by
  intro h
  have hrun : ((localAPI (id : List Text → List Text)).exec (fun _ _ => True) {}
      (servedOnce "dan-any" ++ servedNext "dan-auto")).bind
      (fun g => g.turn.bind fun t => t.phase.serving.bind fun pid => (g.processes[pid]?).map
          fun p =>
        (localModels t.input.model, p.policy)) = some (some .target, .any) := by
    decide +kernel
  obtain ⟨g, hexec, hview⟩ := Option.bind_eq_some_iff.mp hrun
  obtain ⟨t, ht, hview⟩ := Option.bind_eq_some_iff.mp hview
  obtain ⟨pid, hpid, hview⟩ := Option.bind_eq_some_iff.mp hview
  obtain ⟨p, hp, hview⟩ := Option.map_eq_some_iff.mp hview
  obtain ⟨hmodel, hpolicy⟩ := Prod.mk.inj hview
  have hkept := (h g (System.Reachable.init.exec _ hexec)).2 t pid p ht hpid hp
  rw [hmodel, hpolicy] at hkept
  contradiction

/-- The process of the first request is kept for the next one. -/
theorem policy_kept_next :
    ∃ g, (localAPI (id : List Text → List Text)).Reachable (KeepsPolicy id) g ∧
      g.turn.map (fun t => t.phase) = some (.sending 0) ∧ g.processes.length = 1 ∧
      g.KeptApart id ∧ g.PolicyKept := by
  have hrun : ((localAPI (id : List Text → List Text)).exec (KeepsPolicy id) {}
      (servedOnce "dan-any" ++ servedNext "dan-any")).map
      (fun g => (g.turn.map (fun t => t.phase), g.processes.length)) =
          some (some (.sending 0), 1) := by
    decide +kernel
  obtain ⟨g, hexec, hview⟩ := Option.map_eq_some_iff.mp hrun
  have hreach := System.Reachable.init.exec _ hexec
  exact ⟨g, hreach, (Prod.mk.inj hview).1, (Prod.mk.inj hview).2, (local_apart id).2 g hreach⟩

end LocalAPI

end ProviderOwned.Gateway
