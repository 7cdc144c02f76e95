import Mathlib.Logic.Function.Basic
import ProviderOwned.Lib.Transition
import ProviderOwned.Gateway.Cache

/-!
# Concurrent chat requests of the API gateway

Any number of requests run `chatWithSession` at once, beside `sweepSessions`. A step is what one of
them does between two points where the others can act: the lookup in the cache under its lock, the
look at the clock after it, one attempt at a coordinator, the record it stores, one sweep of the
cache and each destroy of that sweep. `Step` says once what a step does.

`fed` and `recorded` follow the sessions and are read by no step: the text a session was fed and has
generated, and the history it was recorded with.
-/

namespace ProviderOwned.Gateway

open Transition

/-- Where a request is in `chatWithSession`. -/
inductive Phase
  | found (rec : SessionRecord)
  | resuming (rec : SessionRecord) (delta : Text)
  | starting
  | choosing (endpoints : List String)
  | creating (endpoint : String) (session : Nat) (endpoints : List String)
  | storing (endpoint : String) (session : Nat) (reply : Text)

def Phase.session : Phase → Option Nat
  | .found rec => some rec.id
  | .resuming rec _ => some rec.id
  | .starting => none
  | .choosing _ => none
  | .creating _ session _ => some session
  | .storing _ session _ => some session

/-- A request in `chatWithSession`. `seen` are the chunks `onChunk` was given. -/
structure Chat where
  messages : List Message
  onChunk : Option ChunkSink := none
  request : Nat := 0
  seen : List WireFrame := []
  phase : Phase

/-- `type config struct`, with the requests and the sweep that run on it, and the sessions it
created and had destroyed. -/
structure Config where
  clock : Nat := 0
  requestID : Nat := 0
  replicaID : Nat := 0
  sessions : Cache := {}
  chats : Nat → Option Chat := fun _ => none
  sweeping : List SessionRecord := []
  created : List Nat := []
  destroyed : List Nat := []
  fed : Nat → Text := fun _ => []
  recorded : Nat → List Message := fun _ => []

/-- What can happen next. `resumed` and `served` are the ends of an attempt: what the coordinator
did and whether the answer ended by end-of-generation. -/
inductive Event
  | tick (time : Nat)
  | chat (r : Nat) (messages : List Message) (onChunk : Option ChunkSink)
  | look (r : Nat)
  | resumed (r : Nat) (served : Served) (eog : Bool)
  | start (r : Nat)
  | create (r : Nat) (session : Nat)
  | served (r : Nat) (served : Served) (eog : Bool)
  | store (r : Nat)
  | sweep (now : Nat)
  | sweepNext

def Event.request : Event → Option Nat
  | .chat r _ _ | .look r | .resumed r _ _ | .start r | .create r _ | .served r _ _ | .store r =>
      some r
  | .tick _ | .sweep _ | .sweepNext => none

/-- `sessionIdleTTL`, in milliseconds. -/
def sessionIdleTTL : Nat := 600000

/-- What an answer adds to the text of its session: the reply, and the end token if it ended with
one. -/
def answered (reply : Text) (eog : Bool) : Text :=
  reply ++ if eog then ascii "<|im_end|>" else []

namespace Config

variable (hash : Text → Text) (endpoints : List String)

/-- The request `r` goes on as `chat`, or is over. -/
def setChat (g : Config) (r : Nat) (chat : Option Chat) : Config :=
  { g with chats := Function.update g.chats r chat }

@[simp] lemma chats_setChat (g : Config) (r : Nat) (chat : Option Chat) :
    (g.setChat r chat).chats = Function.update g.chats r chat := rfl

/-- `go c.destroySessionOn(...)`. -/
def destroy (g : Config) (session : Nat) : Config :=
  { g with destroyed := session :: g.destroyed }

/-- The session holds `text` from now on. -/
def feed (g : Config) (session : Nat) (text : Text) : Config :=
  { g with fed := Function.update g.fed session text }

def lookupKey (messages : List Message) : Text := conversationKey hash messages.dropLast

/-- The lookup of `chatWithSession`, which takes the record out. -/
def lookup (g : Config) (messages : List Message) : Option SessionRecord :=
  if 1 < messages.length then g.sessions.find (lookupKey hash messages) else none

/-- The start of `chatWithSession`. -/
def chat (g : Config) (r : Nat) (messages : List Message) (onChunk : Option ChunkSink) : Config :=
  match g.lookup hash messages with
  | none => g.setChat r (some { messages, onChunk, phase := .starting })
  | some rec =>
    { g with sessions := g.sessions.erase (lookupKey hash messages) }.setChat r
      (some { messages, onChunk, phase := .found rec })

/-- The record is resumed if it has not expired; else nothing more is done with it. -/
def look (g : Config) (r : Nat) (c : Chat) (rec : SessionRecord) : Config :=
  match resumes c.messages (some rec) g.clock with
  | some (rec, delta) =>
    { g with requestID := g.requestID + 1 }.setChat r
      (some { c with request := g.requestID + 1, phase := .resuming rec delta })
  | none => g.setChat r (some { c with phase := .starting })

/-- `continueSession` and what follows it. -/
def resumed (g : Config) (r : Nat) (c : Chat) (rec : SessionRecord) (delta : Text) (served : Served)
    (eog : Bool) : Config :=
  let exchange := generateOn c.request c.onChunk c.seen served
  match exchange.result with
  | .ok f =>
    let reply := replyText c.onChunk exchange.passed f
    (g.feed rec.id (g.fed rec.id ++ delta ++ answered reply eog)).setChat r
      (some { c with phase := .storing rec.endpoint rec.id reply })
  | .error _ =>
    (g.destroy rec.id).setChat r
      (some { c with seen := c.seen ++ exchange.passed, phase := .starting })

/-- The start of `generateWithNewSession`, with `rotatedEndpoints`. -/
def start (g : Config) (r : Nat) (c : Chat) : Config :=
  { g with requestID := g.requestID + 1, replicaID := g.replicaID + 1 }.setChat r
    (some { c with request := g.requestID + 1, phase := .choosing (endpoints.rotate g.replicaID) })

/-- `newSessionID` gives the session of the next attempt. -/
def create (g : Config) (r : Nat) (c : Chat) (endpoint : String) (rest : List String)
    (session : Nat) : Config :=
  { g with created := session :: g.created }.setChat r
    (some { c with phase := .creating endpoint session rest })

/-- `createSessionThenGenerateOn` and what follows it. -/
def served (g : Config) (r : Nat) (c : Chat) (endpoint : String) (session : Nat)
    (rest : List String) (served : Served) (eog : Bool) : Config :=
  let exchange := createSessionThenGenerateOn c.request c.onChunk c.seen served
  match exchange.result with
  | .ok f =>
    let reply := replyText c.onChunk exchange.passed f
    (g.feed session (rendered c.messages ++ assistantStart ++ answered reply eog)).setChat r
      (some { c with phase := .storing endpoint session reply })
  | .error err =>
    if err.final exchange.emitted served.ended ∨ rest.isEmpty
      then (g.destroy session).setChat r none
    else
      (g.destroy session).setChat r
        (some { c with seen := c.seen ++ exchange.passed, phase := .choosing rest })

def storeKey (c : Chat) (reply : Text) : Text :=
  conversationKey hash (c.messages ++ [assistantMessage reply])

/-- The end of `chatWithSession`. -/
def store (g : Config) (r : Nat) (c : Chat) (endpoint : String) (session : Nat) (reply : Text) :
    Config :=
  { g with
    sessions := g.sessions.insert (storeKey hash c reply)
      ⟨session, endpoint, g.clock + sessionIdleTTL⟩
    recorded := Function.update g.recorded session (c.messages ++ [assistantMessage reply])
    }.setChat r none

/-- One step. The handler has checked the messages with `qwenPrompt`; `sweepSessions` reads the
clock before it takes the lock. -/
def step (g : Config) : Event → Option Config
  | .tick time => some { g with clock := g.clock + time }
  | .chat r messages onChunk =>
    if (g.chats r).isNone ∧ Accepted messages then some (g.chat hash r messages onChunk) else none
  | .look r => (g.chats r).bind fun c =>
    match c.phase with
    | .found rec => some (g.look r c rec)
    | _ => none
  | .resumed r s eog => (g.chats r).bind fun c =>
    match c.phase with
    | .resuming rec delta => some (g.resumed r c rec delta s eog)
    | _ => none
  | .start r => (g.chats r).bind fun c =>
    match c.phase with
    | .starting => some (g.start endpoints r c)
    | _ => none
  | .create r session => (g.chats r).bind fun c =>
    match c.phase with
    | .choosing (endpoint :: rest) => some (g.create r c endpoint rest session)
    | _ => none
  | .served r s eog => (g.chats r).bind fun c =>
    match c.phase with
    | .creating endpoint session rest => some (g.served r c endpoint session rest s eog)
    | _ => none
  | .store r => (g.chats r).bind fun c =>
    match c.phase with
    | .storing endpoint session reply => some (g.store hash r c endpoint session reply)
    | _ => none
  | .sweep now =>
    if g.sweeping = [] ∧ now ≤ g.clock then
      some { g with sweeping := g.sessions.expired now, sessions := g.sessions.sweep now }
    else none
  | .sweepNext =>
    match g.sweeping with
    | [] => none
    | rec :: rest => some ({ g with sweeping := rest }.destroy rec.id)

end Config

/-- The gateway in front of the coordinators at `endpoints`. -/
def gateway (hash : Text → Text) (endpoints : List String) : System Config Event where
  init := {}
  step g e := g.step hash endpoints e

namespace Config

/-! ### What a step does -/

variable {hash : Text → Text} {endpoints : List String} {g g' : Config}

/-- What a step does, with what made it possible. -/
inductive Step (hash : Text → Text) (g : Config) : Event → Config → Prop
  | tick (time : Nat) : Step hash g (.tick time) { g with clock := g.clock + time }
  | miss {r : Nat} {messages : List Message} (onChunk : Option ChunkSink) (hnew : g.chats r = none)
      (hmessages : Accepted messages) :
      Step hash g (.chat r messages onChunk)
        (g.setChat r (some { messages, onChunk, phase := .starting }))
  | take {r : Nat} {messages : List Message} {rec : SessionRecord} (onChunk : Option ChunkSink)
      (hnew : g.chats r = none) (hmessages : Accepted messages) (hlong : 1 < messages.length)
      (hfound : g.sessions.Has (lookupKey hash messages) rec) :
      Step hash g (.chat r messages onChunk)
        ({ g with sessions := g.sessions.erase (lookupKey hash messages) }.setChat r
          (some { messages, onChunk, phase := .found rec }))
  | resume {r : Nat} {c : Chat} {rec : SessionRecord} {delta : Text} (hc : g.chats r = some c)
      (hphase : c.phase = .found rec)
      (hresumes : resumes c.messages (some rec) g.clock = some (rec, delta)) :
      Step hash g (.look r) ({ g with requestID := g.requestID + 1 }.setChat r
        (some { c with request := g.requestID + 1, phase := .resuming rec delta }))
  | drop {r : Nat} {c : Chat} {rec : SessionRecord} (hc : g.chats r = some c)
      (hphase : c.phase = .found rec) (hno : resumes c.messages (some rec) g.clock = none) :
      Step hash g (.look r) (g.setChat r (some { c with phase := .starting }))
  | resumed {r : Nat} {c : Chat} {rec : SessionRecord} {delta : Text} (served : Served) (eog : Bool)
      (reply : Text) (hc : g.chats r = some c) (hphase : c.phase = .resuming rec delta) :
      Step hash g (.resumed r served eog)
        ((g.feed rec.id (g.fed rec.id ++ delta ++ answered reply eog)).setChat r
          (some { c with phase := .storing rec.endpoint rec.id reply }))
  | failed {r : Nat} {c c' : Chat} {rec : SessionRecord} {delta : Text} (served : Served)
      (eog : Bool)
      (hc : g.chats r = some c) (hphase : c.phase = .resuming rec delta)
      (hmessages : c'.messages = c.messages) (hphase' : c'.phase = .starting) :
      Step hash g (.resumed r served eog) ((g.destroy rec.id).setChat r (some c'))
  | start {r : Nat} {c c' : Chat} (request replica : Nat) (hc : g.chats r = some c)
      (hphase : c.phase = .starting) (hmessages : c'.messages = c.messages)
      (hchoosing : ∃ rest, c'.phase = .choosing rest) :
      Step hash g (.start r)
        ({ g with requestID := request, replicaID := replica }.setChat r (some c'))
  | create {r : Nat} {c : Chat} {endpoint : String} {rest : List String} (session : Nat)
      (hc : g.chats r = some c) (hphase : c.phase = .choosing (endpoint :: rest)) :
      Step hash g (.create r session) ({ g with created := session :: g.created }.setChat r
        (some { c with phase := .creating endpoint session rest }))
  | served {r : Nat} {c : Chat} {endpoint : String} {session : Nat} {rest : List String}
      (served : Served) (eog : Bool) (reply : Text) (hc : g.chats r = some c)
      (hphase : c.phase = .creating endpoint session rest) :
      Step hash g (.served r served eog)
        ((g.feed session (rendered c.messages ++ assistantStart ++ answered reply eog)).setChat r
          (some { c with phase := .storing endpoint session reply }))
  | refused {r : Nat} {c : Chat} {endpoint : String} {session : Nat} {rest : List String}
      {chat : Option Chat} (served : Served) (eog : Bool) (hc : g.chats r = some c)
      (hphase : c.phase = .creating endpoint session rest)
      (hchat : ∀ c', chat = some c' →
        c'.messages = c.messages ∧ ∃ rest, c'.phase = .choosing rest) :
      Step hash g (.served r served eog) ((g.destroy session).setChat r chat)
  | store {r : Nat} {c : Chat} {endpoint : String} {session : Nat} {reply : Text}
      (hc : g.chats r = some c) (hphase : c.phase = .storing endpoint session reply) :
      Step hash g (.store r) (g.store hash r c endpoint session reply)
  | sweep {now : Nat} (hnone : g.sweeping = []) :
      Step hash g (.sweep now)
        { g with sweeping := g.sessions.expired now, sessions := g.sessions.sweep now }
  | sweepNext {rec : SessionRecord} {rest : List SessionRecord}
      (hsweeping : g.sweeping = rec :: rest) :
      Step hash g .sweepNext ({ g with sweeping := rest }.destroy rec.id)

/-- Every step is one of these. -/
lemma step_cases {e : Event} (h : g.step hash endpoints e = some g') : Step hash g e g' := by
  cases e with
  | tick time =>
    obtain rfl := Option.some.inj h
    exact .tick time
  | chat r messages onChunk =>
    simp only [step] at h
    split_ifs at h with hnew
    obtain rfl := Option.some.inj h
    have hnone := Option.isNone_iff_eq_none.mp hnew.1
    unfold chat
    split
    · exact .miss onChunk hnone hnew.2
    · rename_i rec hfound
      unfold lookup at hfound
      split_ifs at hfound with hlong
      exact .take onChunk hnone hnew.2 hlong (Cache.find_eq_some_iff.mp hfound)
  | look r =>
    obtain ⟨c, hc, h⟩ := Option.bind_eq_some_iff.mp h
    split at h <;> try contradiction
    rename_i rec hphase
    obtain rfl := Option.some.inj h
    unfold look
    split
    · rename_i rec' delta hresumes
      obtain ⟨rfl, -⟩ := resumes_eq_some_iff.mp hresumes
      exact .resume hc hphase hresumes
    · rename_i hno
      exact .drop hc hphase hno
  | resumed r served eog =>
    obtain ⟨c, hc, h⟩ := Option.bind_eq_some_iff.mp h
    split at h <;> try contradiction
    rename_i rec delta hphase
    obtain rfl := Option.some.inj h
    simp only [Config.resumed]
    split
    · exact .resumed served eog _ hc hphase
    · exact .failed served eog hc hphase rfl rfl
  | start r =>
    obtain ⟨c, hc, h⟩ := Option.bind_eq_some_iff.mp h
    split at h <;> try contradiction
    rename_i hphase
    obtain rfl := Option.some.inj h
    exact .start _ _ hc hphase rfl ⟨_, rfl⟩
  | create r session =>
    obtain ⟨c, hc, h⟩ := Option.bind_eq_some_iff.mp h
    split at h <;> try contradiction
    rename_i endpoint rest hphase
    obtain rfl := Option.some.inj h
    exact .create session hc hphase
  | served r s eog =>
    obtain ⟨c, hc, h⟩ := Option.bind_eq_some_iff.mp h
    split at h <;> try contradiction
    rename_i endpoint session rest hphase
    obtain rfl := Option.some.inj h
    simp only [Config.served]
    split
    · exact .served s eog _ hc hphase
    · split_ifs
      · exact .refused s eog hc hphase (by simp)
      · exact .refused s eog hc hphase (by simp +contextual [eq_comm])
  | store r =>
    obtain ⟨c, hc, h⟩ := Option.bind_eq_some_iff.mp h
    split at h <;> try contradiction
    rename_i endpoint session reply hphase
    obtain rfl := Option.some.inj h
    exact .store hc hphase
  | sweep now =>
    simp only [step] at h
    split_ifs at h with hsweep
    obtain rfl := Option.some.inj h
    exact .sweep hsweep.1
  | sweepNext =>
    simp only [step] at h
    split at h <;> try contradiction
    rename_i rec rest hsweeping
    obtain rfl := Option.some.inj h
    exact .sweepNext hsweeping

/-- A step of one request leaves the others where they are. -/
lemma Step.chats_eq {e : Event} {r : Nat} (hstep : Step hash g e g') (hr : e.request ≠ some r) :
    g'.chats r = g.chats r := by
  have hother : ∀ {q : Nat}, some q ≠ some r → ∀ chat : Option Chat,
      Function.update g.chats q chat r = g.chats r := fun hq chat =>
    Function.update_of_ne (fun heq => hq (congrArg some heq.symm)) chat g.chats
  cases hstep with
  | tick | sweep | sweepNext => rfl
  | _ => exact hother hr _

lemma exec_chats {ok : Config → Event → Prop} [∀ g e, Decidable (ok g e)] {es : List Event}
    {r : Nat}
    (hes : ∀ e ∈ es, e.request ≠ some r) (h : (gateway hash endpoints).exec ok g es = some g') :
    g'.chats r = g.chats r := by
  induction es generalizing g with
  | nil =>
    cases h
    rfl
  | cons e es ih =>
    unfold System.exec at h
    split_ifs at h
    obtain ⟨g₁, hstep, hrest⟩ := Option.bind_eq_some_iff.mp h
    rw [ih (fun e he => hes e (List.mem_cons_of_mem _ he)) hrest]
    exact (step_cases hstep).chats_eq (hes e List.mem_cons_self)

/-- The messages of every request passed `qwenPrompt`, and a request that found a record has an
earlier turn. -/
def Checked (g : Config) : Prop :=
  ∀ r c, g.chats r = some c →
    Accepted c.messages ∧ ∀ rec, c.phase = .found rec → 1 < c.messages.length

lemma Checked.setChat {r : Nat} {chat : Option Chat} (h : g.Checked)
    (hchat : ∀ c, chat = some c →
      Accepted c.messages ∧ ∀ rec, c.phase = .found rec → 1 < c.messages.length) :
    (g.setChat r chat).Checked := by
  intro q c hc
  by_cases hq : q = r
  · rw [hq, chats_setChat, Function.update_self] at hc
    exact hchat c hc
  · rw [chats_setChat, Function.update_of_ne hq] at hc
    exact h q c hc

lemma step_checked {e : Event} (h : g.Checked) (hstep : Step hash g e g') : g'.Checked := by
  cases hstep with
  | tick time => exact h
  | miss onChunk hnew hmessages => exact h.setChat (by simp [hmessages])
  | take onChunk hnew hmessages hlong hfound =>
    refine Checked.setChat (fun r c hc => h r c hc) ?_
    rintro c ⟨⟩
    exact ⟨hmessages, fun _ _ => hlong⟩
  | resume hc hphase hresumes =>
    exact Checked.setChat (fun r c hc => h r c hc) (by simp [(h _ _ hc).1])
  | drop hc hphase hno => exact h.setChat (by simp [(h _ _ hc).1])
  | resumed served eog reply hc hphase =>
    exact Checked.setChat (fun r c hc => h r c hc) (by simp [(h _ _ hc).1])
  | failed served eog hc hphase hmessages hphase' =>
    exact Checked.setChat (fun r c hc => h r c hc) (by simp [hmessages, hphase', (h _ _ hc).1])
  | start request replica hc hphase hmessages hchoosing =>
    obtain ⟨rest, hchoosing⟩ := hchoosing
    exact Checked.setChat (fun r c hc => h r c hc) (by simp [hmessages, hchoosing, (h _ _ hc).1])
  | create session hc hphase =>
    exact Checked.setChat (fun r c hc => h r c hc) (by simp [(h _ _ hc).1])
  | served served eog reply hc hphase =>
    exact Checked.setChat (fun r c hc => h r c hc) (by simp [(h _ _ hc).1])
  | refused served eog hc hphase hchat =>
    refine Checked.setChat (fun r c hc => h r c hc) fun c' hc' => ?_
    obtain ⟨hmessages, rest, hchoosing⟩ := hchat c' hc'
    exact ⟨hmessages ▸ (h _ _ hc).1, by simp [hchoosing]⟩
  | store hc hphase => exact Checked.setChat (fun r c hc => h r c hc) (by simp)
  | sweep hnone => exact h
  | sweepNext hsweeping => exact h

lemma checked {ok : Config → Event → Prop} (h : (gateway hash endpoints).Reachable ok g) :
    g.Checked := by
  refine h.invariant (fun r c hc => ?_) fun s e s' _ ih _ hstep =>
    step_checked ih (step_cases hstep)
  simp [gateway] at hc

end Config

end ProviderOwned.Gateway
