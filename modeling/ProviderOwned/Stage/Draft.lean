import ProviderOwned.Stage.Tokens

/-!
# The draft model of a route's head

The first worker of a route may hold a small model beside its stage that guesses the next tokens
(`stage_worker.cpp`). The stage's sessions are mirrored in it: prompts and session changes as they
come (`serveControl`), decoded tokens not before the draft is asked again. What it guessed itself it
has already decoded, all but the last guess, which is fed to it where the next frame shows that it
was accepted (`catchUpDraft`); the tokens of rounds without guesses are deferred and replayed
(`flushDraft`).

Which width a round has, what the draft guesses and which llama.cpp calls fail is left open
(`Chance`).

In a run (`Streaming.Reached`) a round starts where its session streams, at the end of its committed
text. The tokens of a request do not come on the control connection, and a request of which a frame
fails no longer streams.
-/

namespace ProviderOwned

variable {H : Type*}

structure Guesses where
  start : Nat
  tokens : List Token
  request : Nat
  deriving DecidableEq, Repr

/-- Where the last guess belongs: the draft has decoded what is before it. -/
def Guesses.behindAt (g : Guesses) : Nat := g.start + g.tokens.length

/-- What `RingState` holds of the stage and its draft model. -/
structure RingHead (H : Type*) where
  stage : Stage H
  draft : Option (Stage H)
  guessed : Nat → Option Guesses := fun _ => none

/-- What a step does not decide itself: the outcomes of the `llama_decode` calls of the stage and of
the draft, the width of a round, whether the draft can be trimmed and set up, and what it and the
n-gram table guess. -/
structure Chance where
  ok : Nat → Bool
  okCatchUp : Nat → Bool
  okFlush : Nat → Bool
  okMirror : Nat → Bool
  width : Nat
  trims : Bool
  starts : Bool
  guesses : List Token
  ngrams : List Token

def tokenFrame (like : Frame H) (position : Nat) (tokens : List Token) : Frame H :=
  { type := .token, session := like.session, request := like.request, position
    rows := if 1 < tokens.length then tokens.length else 0, payload := .tokens tokens }

/-- The deferred inputs of a session, as `flush_draft` replays them. -/
def replayFrame (like : Frame H) (state : DraftState) : Frame H :=
  { tokenFrame like state.start state.pending with request := state.request }

/-- `get32` of a token's payload. -/
def frameToken (f : Frame H) : Token :=
  match f.payload with
  | .tokens (token :: _) => token
  | _ => 0

/-- The text of the exception with which a frame was refused, if it was. -/
def thrown (reply : Except String (Frame H)) : Option String :=
  match reply with
  | .ok _ => none
  | .error error => some error

lemma thrown_eq_none {reply : Except String (Frame H)} (h : thrown reply = none) :
    ∃ out, reply = .ok out := by
  cases reply with
  | ok out => exact ⟨out, rfl⟩
  | error e => cases h

def speculationRoom (context position : Nat) : Nat :=
  if position < context ∧ 1 < context - position then context - position - 1 else 0

namespace Session

/-- The session of the draft after it has guessed from `position` on: it has decoded the token and
all the guesses but the last. -/
def guess (s : Session H) (position : Nat) (token : Token) (guesses : List Token) : Session H :=
  let fed := token :: guesses.dropLast
  let history :=
    s.history.take position ++ List.replicate (position - s.history.length) 0 ++ [token]
  { s with
    kv := s.kv.take position ++ fed.map .token
    position := position + fed.length
    history := history ++ guesses.take (position + fed.length - history.length) }

end Session

namespace Stage

def canDraft (st : Stage H) (f : Frame H) : Bool :=
  match st.sessions.lookup f.session with
  | none => true
  | some s => !s.chatRequest || s.chatSpeculative

def canModelDraft (st : Stage H) (f : Frame H) : Bool :=
  match st.sessions.lookup f.session with
  | none => true
  | some s => !s.chatRequest

/-- The session with this id changed by `g`. -/
def change (st : Stage H) (id : Nat) (g : Session H → Session H) : Stage H :=
  match st.sessions.lookup id with
  | none => st
  | some s => { st with sessions := st.sessions.insert id (g s) }

def ngramProposals (st : Stage H) (input : Frame H) (count : Nat) (c : Chance) :
    Stage H × Except String (List Token) :=
  match st.requireSession input with
  | .error error => (st, .error error)
  | .ok s =>
    let count := min count (speculationRoom st.model.contextSize input.position)
    if count < 3 then (st, .ok [])
    else if s.history.length < input.position then (st, .error "n-gram history mismatch")
    else (st.change input.session fun s => { s with history := s.history.take input.position },
      .ok (c.ngrams.take count))

/-- `Stage::model_proposals`, of the draft. -/
def modelProposals (draft : Stage H) (input : Frame H) (count : Nat) (c : Chance) :
    Stage H × Except String (List Token) :=
  match draft.requireSession input with
  | .error error => (draft, .error error)
  | .ok _ =>
    let count := min count (speculationRoom draft.model.contextSize input.position)
    if count = 0 then (draft, .ok [])
    else if !c.trims then (draft, .error "draft rollback failed")
    else if !c.starts then
      (draft.change input.session fun s => { s with kv := s.kv.take input.position },
        .error "upstream draft initialization failed")
    else
      (draft.change input.session fun s =>
        s.guess input.position (frameToken input) (c.guesses.take count),
        .ok (c.guesses.take count))

end Stage

namespace RingHead

def setGuessed (r : RingHead H) (id : Nat) (g : Option Guesses) : RingHead H :=
  { r with guessed := Function.update r.guessed id g }

/-- `catch_up_draft`; the text is that of the exception, if any. -/
def catchUpDraft (r : RingHead H) (next : Frame H) (c : Chance) : RingHead H × Option String :=
  match r.guessed next.session with
  | none => (r, none)
  | some last =>
    let r := r.setGuessed next.session none
    if next.request ≠ last.request then (r, none)
    else match r.draft, last.tokens.getLast? with
      | some draft, some guess =>
        if r.stage.canModelDraft next ∧ next.position = last.behindAt + 1 then
          let (draft, _, reply) :=
            draft.handle (tokenFrame next last.behindAt [guess]) 0 c.okCatchUp
          ({ r with draft := some draft }, thrown reply)
        else (r, none)
      | _, _ => (r, none)

def flushDraft (r : RingHead H) (like : Frame H) (c : Chance) : RingHead H × Option String :=
  match r.stage.requireSession like with
  | .error error => (r, some error)
  | .ok s =>
    if s.draft.pending = [] then (r, none)
    else match r.draft with
      | none => (r, none)
      | some draft =>
        match draft.handle (replayFrame like s.draft) 0 c.okFlush with
        | (draft, _, .error error) => ({ r with draft := some draft }, some error)
        | (draft, _, .ok _) =>
          ({ r with
            draft := some draft
            stage := r.stage.change like.session
              fun s => { s with draft := { s.draft with pending := [] } } },
            none)

/-- The head before the draft is asked for guesses: caught up and, where it will be asked,
flushed. -/
def beforeProposals (r : RingHead H) (input : Frame H) (c : Chance) : RingHead H × Option String :=
  match r.catchUpDraft input c with
  | (r, some error) => (r, some error)
  | (r, none) =>
    if 1 < c.width ∧ r.draft.isSome ∧ r.stage.canModelDraft input then r.flushDraft input c
    else (r, none)

/-- The draft of which guesses are asked in a round, and the head at that moment. -/
def asksDraft (r : RingHead H) (input : Frame H) (c : Chance) : Option (Stage H × RingHead H) :=
  match r.beforeProposals input c with
  | (_, some _) => none
  | (r, none) =>
    if 1 < c.width ∧ r.stage.canModelDraft input then r.draft.map (·, r) else none

/-- The guesses of a round; the text is that of an exception. -/
def proposals (ngramDraft : Bool) (r : RingHead H) (input : Frame H) (c : Chance) :
    RingHead H × Except String (List Token) :=
  match r.beforeProposals input c with
  | (r, some error) => (r, .error error)
  | (r, none) =>
    if 1 < c.width then
      match r.draft, r.stage.canModelDraft input with
      | some draft, true =>
        let (draft, guesses) := draft.modelProposals input (c.width - 1) c
        ({ r with draft := some draft }, guesses)
      | _, _ =>
        if ngramDraft then
          let (stage, guesses) := r.stage.ngramProposals input (c.width - 1) c
          ({ r with stage }, guesses)
        else (r, .ok [])
    else (r, .ok [])

def turnOff (r : RingHead H) (id : Nat) : RingHead H :=
  { r with
    draft := none
    stage := r.stage.change id fun s => { s with draft := { s.draft with pending := [] } } }

/-- Where a round without guesses is deferred, if there is a session to defer it to. -/
def defer (r : RingHead H) (input : Frame H) : RingHead H × Option String :=
  match r.stage.requireSession input with
  | .error error => (r, some error)
  | .ok s =>
    let state := if s.draft.pending = [] then ⟨[], input.position, input.request⟩ else s.draft
    if state.request ≠ input.request ∨ input.position ≠ state.start + state.pending.length then
      ({ r with stage := r.stage.change input.session fun s => { s with draft := state } },
        some "noncontiguous deferred draft inputs")
    else
      ({ r with stage := r.stage.change input.session fun s =>
          { s with draft := { state with pending := state.pending ++ [frameToken input] } } }, none)

/-- The guesses ride along with a speculative batch. -/
def withGuesses (output : Frame H) (guesses : List Token) : Frame H :=
  if output.type = .speculativeActivation then
    match output.payload with
    | .hidden rows carried => { output with payload := .hidden rows (carried ++ guesses) }
    | _ => output
  else output

/-- The guesses of a round: without them, and without a draft, where an exception comes. -/
def roundGuesses (ngramDraft : Bool) (r : RingHead H) (input : Frame H) (c : Chance) :
    RingHead H × List Token :=
  match r.proposals ngramDraft input c with
  | (r, .ok guesses) => (r, guesses)
  | (r, .error _) => (r.turnOff input.session, [])

/-- What a round leaves to be known in the next one: its guesses, and its input where the draft has
not read it; the text is that of an exception. -/
def recordRound (ngramDraft : Bool) (r : RingHead H) (input : Frame H) (guesses : List Token) :
    RingHead H × Option String :=
  if r.draft.isSome ∨ ngramDraft then
    match (if r.draft.isSome ∧ r.stage.canModelDraft input ∧ guesses = [] then r.defer input
      else (r, none)) with
    | (r, some error) => (r, some error)
    | (r, none) => (r.setGuessed input.session (some ⟨input.position, guesses, input.request⟩),
        none)
  else (r.setGuessed input.session none, none)

def draftRound (ngramDraft : Bool) (r : RingHead H) (input : Frame H) (c : Chance) :
    RingHead H × Except String (Frame H) :=
  match r.stage.requireSession input with
  | .error error => (r, .error error)
  | .ok _ =>
    let (r, guesses) := r.roundGuesses ngramDraft input c
    match r.stage.handle (tokenFrame input input.position (frameToken input :: guesses)) 0 c.ok with
    | (stage, _, .error error) => ({ r with stage }, .error error)
    | (stage, _, .ok output) =>
      match recordRound ngramDraft { r with stage } input guesses with
      | (r, some error) => (r, .error error)
      | (r, none) => (r, .ok (withGuesses output guesses))

/-- One decode step of the head: with guesses where the session allows them. -/
def decodeRound (ngramDraft : Bool) (r : RingHead H) (input : Frame H) (c : Chance) :
    RingHead H × Except String (Frame H) :=
  if ((r.draft.isSome ∧ r.stage.canModelDraft input) ∨ ngramDraft) ∧ r.stage.canDraft input then
    r.draftRound ngramDraft input c
  else
    match r.stage.handle (tokenFrame input input.position [frameToken input]) 0 c.ok with
    | (stage, _, reply) => ({ r with stage }, reply)

/-! ### Control frames -/

/-- The frames that the draft is to see before the session goes on elsewhere. -/
def settles : FrameType → Bool
  | .commitToken | .prompt | .rollback | .endRequest => true
  | _ => false

def mirrored : FrameType → Bool
  | .createSession | .resetSession | .destroySession => true
  | type => settles type

def mirroredFrame (input : Frame H) : Frame H :=
  { input with payload :=
      if input.type = .prompt ∨ input.type = .commitToken then input.payload else .empty }

/-- The draft made ready for a control frame that it is to follow; the text is that of an
exception. -/
def readyDraft (r : RingHead H) (input : Frame H) (c : Chance) : RingHead H × Option String :=
  match (if settles input.type ∧ input.type ≠ .endRequest then r.catchUpDraft input c
    else (r, none)) with
  | (r, some error) => (r, some error)
  | (r, none) =>
    match (if settles input.type then r.flushDraft input c else (r, none)) with
    | (r, some error) => (r, some error)
    | (r, none) =>
      (if input.type = .endRequest ∨ input.type = .rollback then r.setGuessed input.session none
        else r, none)

/-- What the draft makes of a control frame; the text is that of an exception. -/
def mirror (r : RingHead H) (input : Frame H) (c : Chance) : RingHead H × Option String :=
  match r.readyDraft input c with
  | (r, some error) => (r, some error)
  | (r, none) =>
    match r.draft with
    | none => (r, none)
    | some draft =>
      let (draft, _, reply) := draft.handle (mirroredFrame input) 0 c.okMirror
      ({ r with draft := some draft }, thrown reply)

/-- What the head does about its draft once the stage has answered a control frame. -/
def followControl (r : RingHead H) (input : Frame H) (c : Chance) : RingHead H :=
  if r.draft.isSome ∧ !r.stage.canModelDraft input then r.setGuessed input.session none
  else if r.draft.isSome ∧ mirrored input.type then
    match r.mirror input c with
    | (r, none) => r
    | (r, some _) =>
      if settles input.type then { r with draft := none }.setGuessed input.session none else r
  else r

/-- A frame on the control connection, other than those of the loop: `serve_control`. -/
def serveControl (r : RingHead H) (input : Frame H) (chunk : Nat) (c : Chance) :
    RingHead H × Except String (Frame H) :=
  match r.stage.handle input chunk c.ok with
  | (stage, _, .error error) => ({ r with stage }, .error error)
  | (stage, _, .ok output) =>
    (followControl (if input.type = .resetSession ∨ input.type = .destroySession then
      RingHead.setGuessed { r with stage } input.session none else { r with stage }) input c,
        .ok output)

def disconnected (r : RingHead H) : RingHead H where
  stage := r.stage.coordinatorDisconnected
  draft := r.draft.map Stage.coordinatorDisconnected
  guessed := fun _ => none

/-- The number of guesses that the next input of a session may show to be accepted. -/
def guessCount (r : RingHead H) (id : Nat) : Nat :=
  match r.guessed id with
  | some g => g.tokens.length
  | none => 0

end RingHead

/-! ### Runs -/

/-- What is committed of a session after a control frame, as its request and the number of its
tokens: `k` before, and nothing where it does not stream. -/
def committedAfter (r' : RingHead H) (input : Frame H) (reply : Except String (Frame H))
    (k : Option (Nat × Nat)) : Option (Nat × Nat) :=
  match reply with
  | .error _ => if k.map Prod.fst = some input.request then none else k
  | .ok _ =>
    match input.type with
    | .prompt | .commitToken | .rollback =>
      (r'.stage.sessions.lookup input.session).map fun s => (s.activeRequest, s.position)
    | .createSession | .resetSession | .destroySession | .prepareChat | .endRequest => none
    | _ => k

/-- What is committed after a round of which the last stage has accepted so many guesses. -/
def committedRound (input : Frame H) (reply : Except String (Frame H)) (accepted : Nat) :
    Option (Nat × Nat) :=
  match reply with
  | .ok _ => some (input.request, input.position + 1 + accepted)
  | .error _ => none

/-- The head and, of each session that streams, its request and the number of its committed
tokens. -/
structure Streaming (H : Type*) where
  ring : RingHead H
  committed : Nat → Option (Nat × Nat) := fun _ => none

namespace Streaming

/-- A freshly loaded stage and its draft model. -/
def load (m md : StageModel H) : Streaming H :=
  { ring := { stage := .load m, draft := some (.load md) } }

def control (h : Streaming H) (input : Frame H) (chunk : Nat) (c : Chance) : Streaming H where
  ring := (h.ring.serveControl input chunk c).1
  committed := Function.update h.committed input.session
    (committedAfter (h.ring.serveControl input chunk c).1 input
      (h.ring.serveControl input chunk c).2
      (h.committed input.session))

/-- A round, of which the last stage accepts so many guesses. -/
def round (h : Streaming H) (ngramDraft : Bool) (input : Frame H) (c : Chance) (accepted : Nat) :
    Streaming H where
  ring := (h.ring.decodeRound ngramDraft input c).1
  committed := Function.update h.committed input.session
    (committedRound input (h.ring.decodeRound ngramDraft input c).2 accepted)

/-- A round may start with this input: its session streams, and its committed text ends there. -/
def Awaits (h : Streaming H) (input : Frame H) : Prop :=
  h.committed input.session = some (input.request, input.position)

def disconnected (h : Streaming H) : Streaming H :=
  { ring := h.ring.disconnected }

inductive Reached (m md : StageModel H) (ngramDraft : Bool) : Streaming H → Prop
  | load : Reached m md ngramDraft (load m md)
  | control {h : Streaming H} (input : Frame H) (hother : input.type ≠ .token) (chunk : Nat)
      (c : Chance) : Reached m md ngramDraft h → Reached m md ngramDraft (h.control input chunk c)
  | round {h : Streaming H} {input : Frame H} (hawaits : h.Awaits input) (c : Chance)
      {accepted : Nat}
      (haccepted : accepted ≤ (h.ring.decodeRound ngramDraft input c).1.guessCount input.session) :
      Reached m md ngramDraft h → Reached m md ngramDraft (h.round ngramDraft input c accepted)
  | disconnected {h : Streaming H} : Reached m md ngramDraft h →
      Reached m md ngramDraft h.disconnected

end Streaming

end ProviderOwned
