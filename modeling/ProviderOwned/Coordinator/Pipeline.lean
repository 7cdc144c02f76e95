import ProviderOwned.Client.Generate
import ProviderOwned.Lib.Chain
import ProviderOwned.Lib.Transition

/-!
# Pipelined speculative decoding

`generate_pipelined` of `coordinator.cpp`: a sender thread that drafts and sends one chunk after the
other, a relay thread between every two stages, and a receiver that applies the replies of the last
stage in order. The threads share `PipelineState` under a mutex, and a step of the model is what one
thread does between two points where another could see a difference. The stages themselves work
through their sockets in order, at any time.

The counters `sent[i]` and the readers' `processed` are only ever compared with each other, so the
model keeps their difference: the frames of a stage's socket that are counted and not yet read. The
timing queues are left out. An error ends the request: every thread leaves its loop and it is
rethrown.
-/

namespace ProviderOwned

variable {H σ : Type*}

/-- What is fixed for one call of `generate_pipelined`. -/
structure PipelineRun (σ : Type*) where
  call : Call
  drafter : Drafter σ
  draftTokens : Nat
  maxInflight : Nat

structure SpeculativeChunk where
  epoch : Nat
  basePosition : Nat
  guesses : List Token
  deriving DecidableEq, Repr

/-- A stage with its two sockets, and the part of `PipelineState` about it. `placed` is set between
a frame being put on the socket and being counted. -/
structure Hop (H : Type*) where
  node : Chain.Node (Connection H) (Frame H)
  placed : Bool := false
  unread : Nat := 0
  stageFinished : Bool := false

inductive SenderPhase
  | waiting
  | drafted (chunk : SpeculativeChunk)
  | placed (chunk : SpeculativeChunk)
  deriving DecidableEq, Repr

/-- The locals of `pipeline_sender`, and the draft model, which only it moves. -/
structure Sender (σ : Type*) where
  basePosition : Nat
  carry : Token
  state : σ
  phase : SenderPhase := .waiting

/-- Where the receiver is in its loop: with a reply in hand it has decided whether to apply it. -/
inductive ReceiverPhase (H : Type*)
  | waiting
  | holding (chunk : SpeculativeChunk) (response : Frame H) (shouldApply : Bool)
  | done

/-- `struct PipelineState`, the threads' locals and the result. -/
structure PipelineState (H σ : Type*) where
  hops : List (Hop H)
  sender : Sender σ
  receiver : ReceiverPhase H := .waiting
  inflight : List SpeculativeChunk := []
  epoch : Nat := 0
  finished : Bool := false
  correction : Option (Nat × Token) := none
  output : RequestResult
  error : Option String := none

/-! ### The stages and the relays -/

/-- A stage answers a frame; an exception becomes an error frame. -/
def Connection.serve (c : Connection H) (f : Frame H) : Connection H × Frame H :=
  ((c.exchange f).1,
   match (c.exchange f).2 with
   | .ok reply => reply
   | .error message => errorFrame f message)

def validateRelayActivation (c : Call) (f : Frame H) : Bool :=
  f.type = .speculativeActivation && f.session = c.session && f.request = c.request &&
    f.rows ≠ 0 && f.cols = c.hidden && f.dtype = .f32le && f.rows * f.cols ≤ (maxPayload - 8) / 4 &&
    match f.payload with
    | .hidden rows [] => rows.length = f.rows
    | _ => false

/-- The first stage takes the next frame from its socket. -/
def workHead : List (Hop H) → Option (List (Hop H))
  | [] => none
  | h :: rest =>
    match h.node.inbox with
    | [] => none
    | x :: xs =>
      some ({ h with node := ⟨xs, (h.node.state.serve x).1,
                h.node.outbox ++ [(h.node.state.serve x).2]⟩ } :: rest)

/-- The relay behind the first stage reads a reply that is counted. -/
def relayHead (c : Call) : List (Hop H) → Option (Bool × List (Hop H))
  | h :: h' :: rest =>
    match h.node.outbox with
    | [] => none
    | y :: ys =>
      if 0 < h.unread ∧ !h'.placed ∧ !h'.stageFinished then
        some (validateRelayActivation c y,
          { h with node := { h.node with outbox := ys }, unread := h.unread - 1 } ::
            { h' with node := { h'.node with inbox := h'.node.inbox ++ [y] }, placed := true } ::
              rest)
      else none
  | _ => none

/-- The relay puts the reply on the next stage's socket. -/
def forwardHead (c : Call) (hops : List (Hop H)) : Option (List (Hop H)) :=
  match relayHead c hops with
  | some (true, hops) => some hops
  | _ => none

/-- The relay throws on a reply that is no activation of this request. -/
def rejectHead (c : Call) (hops : List (Hop H)) : Option (List (Hop H)) :=
  match relayHead c hops with
  | some (false, _) => some hops
  | _ => none

def countHead : List (Hop H) → Option (List (Hop H))
  | h :: h' :: rest =>
    if h'.placed then some (h :: { h' with placed := false, unread := h'.unread + 1 } :: rest)
    else none
  | _ => none

/-- The relay has read all there will be. -/
def finishHead : List (Hop H) → Option (List (Hop H))
  | h :: h' :: rest =>
    if h.stageFinished ∧ h.unread = 0 ∧ !h'.placed ∧ !h'.stageFinished then
      some (h :: { h' with stageFinished := true } :: rest)
    else none
  | _ => none

def atHop (move : List (Hop H) → Option (List (Hop H))) :
    Nat → List (Hop H) → Option (List (Hop H))
  | 0, hops => move hops
  | _ + 1, [] => none
  | i + 1, h :: rest => (atHop move i rest).map (h :: ·)

/-- The receiver reads a counted reply of the last stage. -/
def takeLast : List (Hop H) → Option (Frame H × List (Hop H))
  | [] => none
  | [h] =>
    match h.node.outbox with
    | [] => none
    | y :: ys =>
      if 0 < h.unread then
        some (y, [{ h with node := { h.node with outbox := ys }, unread := h.unread - 1 }])
      else none
  | h :: rest => (takeLast rest).map fun (y, rest) => (y, h :: rest)

/-! ### The sender -/

/-- The frame of a chunk: the token before its guesses, and all of them but the last. -/
def chunkFrame (r : PipelineRun σ) (carry : Token) (chunk : SpeculativeChunk) : Frame H :=
  tokensFrame .token r.call.session r.call.request chunk.basePosition r.draftTokens
    (carry :: chunk.guesses.take (r.draftTokens - 1))

/-- Drafting a chunk from where the sender is, or from a correction. -/
def PipelineState.draft (r : PipelineRun σ) (s : PipelineState H σ) : PipelineState H σ :=
  let (basePosition, carry, state) :=
    match s.correction with
    | some (position, token) => (position, token, r.drafter.rollback s.sender.state position)
    | none => (s.sender.basePosition, s.sender.carry, s.sender.state)
  let (state, guesses) := r.drafter.propose state carry r.draftTokens
  { s with
    correction := none
    sender := { basePosition, carry, state,
                phase := .drafted { epoch := s.epoch, basePosition, guesses } } }

/-- The first stage's socket gets a frame. -/
def placeFirst (f : Frame H) : List (Hop H) → List (Hop H)
  | [] => []
  | h :: rest =>
    { h with node := { h.node with inbox := h.node.inbox ++ [f] }, placed := true } :: rest

def countFirst : List (Hop H) → List (Hop H)
  | [] => []
  | h :: rest => { h with placed := false, unread := h.unread + 1 } :: rest

def finishFirst : List (Hop H) → List (Hop H)
  | [] => []
  | h :: rest => { h with stageFinished := true } :: rest

/-- The sender puts its chunk on the first socket. -/
def PipelineState.send (r : PipelineRun σ) (s : PipelineState H σ) (chunk : SpeculativeChunk) :
    PipelineState H σ :=
  { s with
    hops := placeFirst (chunkFrame r s.sender.carry chunk) s.hops
    sender := { s.sender with phase := .placed chunk } }

/-- It counts the chunk, queues it for the receiver and moves on. -/
def PipelineState.count (r : PipelineRun σ) (s : PipelineState H σ) (chunk : SpeculativeChunk) :
    PipelineState H σ :=
  { s with
    hops := countFirst s.hops
    inflight := s.inflight ++ [chunk]
    sender :=
      { s.sender with
        basePosition := s.sender.basePosition + r.draftTokens
        carry := chunk.guesses.getLastD 0
        phase := .waiting } }

/-! ### The receiver -/

/-- The reply to a chunk: the target's sample after every row of its block. -/
def requireChunk (c : Call) (f : Frame H) (chunk : SpeculativeChunk) : Option (List Token) :=
  if f.type ≠ .result ∨ f.session ≠ c.session ∨ f.request ≠ c.request ∨
      f.position ≠ chunk.basePosition + chunk.guesses.length ∨ f.rows ≠ chunk.guesses.length ∨
      f.cols ≠ 0 ∨ f.dtype ≠ .none then none
  else match f.payload with
    | .verified samples => if samples.length = f.rows then some samples else none
    | _ => none

/-- A guess the target confirms: `append_token`, and the end flag, which is never cleared here. -/
def RequestResult.confirm (sink : TokenSink) (out : RequestResult) (guess : Token) (piece : String)
    (eogNow : Bool) : RequestResult :=
  { out.appendToken sink guess piece with finalToken := guess, eog := out.eog || eogNow }

/-- The loop over the guesses of a chunk. Unlike a round of `generate`, a chunk is always drafted in
full, so the token limit is looked at here. -/
def acceptChunk (d : Drafter σ) (c : Call) :
    List Token → List Token → RequestResult → RequestResult × Nat × Bool
  | guess :: guesses, token :: tokens, out =>
    if guess = token then
      if (out.confirm c.sink guess (d.piece guess) (d.isEog guess)).cancelled ∨ d.isEog guess ∨
          c.limit ≤ (out.confirm c.sink guess (d.piece guess) (d.isEog guess)).tokenIds.length then
        (out.confirm c.sink guess (d.piece guess) (d.isEog guess), 1, true)
      else
        ((acceptChunk d c guesses tokens
            (out.confirm c.sink guess (d.piece guess) (d.isEog guess))).1,
         (acceptChunk d c guesses tokens
            (out.confirm c.sink guess (d.piece guess) (d.isEog guess))).2.1 + 1,
         (acceptChunk d c guesses tokens
            (out.confirm c.sink guess (d.piece guess) (d.isEog guess))).2.2)
    else (out, 0, false)
  | _, _, out => (out, 0, false)

/-- The end of applying a reply, with the mutex held: the request is over, or the sender has to go
on from a correction, or from where it is. -/
def PipelineState.conclude (r : PipelineRun σ) (s : PipelineState H σ) (chunk : SpeculativeChunk)
    (output : RequestResult) (committedInputs : Nat) : PipelineState H σ :=
  if output.cancelled ∨ output.eog ∨ r.call.limit ≤ output.tokenIds.length then
    { s with output, receiver := .waiting, finished := true }
  else if committedInputs ≠ chunk.guesses.length then
    { s with
      output, receiver := .waiting, epoch := s.epoch + 1
      correction := some (output.position, output.finalToken) }
  else { s with output, receiver := .waiting }

def PipelineState.settle (r : PipelineRun σ) (s : PipelineState H σ) (chunk : SpeculativeChunk)
    (checked : List Token) : PipelineState H σ :=
  let (taken, accepted, stopped) := acceptChunk r.drafter r.call chunk.guesses checked s.output
  let corrected :=
    if !stopped ∧ accepted < chunk.guesses.length then
      taken.record r.call.sink (checked.getD accepted 0) (r.drafter.piece (checked.getD accepted 0))
        (r.drafter.isEog (checked.getD accepted 0))
    else taken
  let committedInputs := if stopped then accepted else min chunk.guesses.length (accepted + 1)
  let output := { corrected with position := chunk.basePosition + committedInputs }
  let produced :=
    if stopped then accepted
    else if accepted < chunk.guesses.length then accepted + 1 else accepted
  if produced = 0 then
    { s with output, receiver := .waiting, error := some "speculative round produced no token" }
  else s.conclude r chunk output committedInputs

/-! ### The threads together -/

/-- What can happen next: a thread takes a step (the relay behind stage `i`, or the stage `i`). -/
inductive PipelineEvent
  | draft | send | count | finishSender
  | work (i : Nat) | forward (i : Nat) | reject (i : Nat) | countRelay (i : Nat)
  | finishRelay (i : Nat)
  | receive | apply | finishReceiver
  deriving DecidableEq, Repr

def senderFinished (hops : List (Hop H)) : Bool :=
  hops.head?.any (·.stageFinished)

def senderStep (r : PipelineRun σ) (s : PipelineState H σ) :
    PipelineEvent → Option (PipelineState H σ)
  | .draft =>
    if s.sender.phase = .waiting ∧ !senderFinished s.hops ∧ !s.finished ∧
        s.inflight.length < r.maxInflight then some (s.draft r)
    else none
  | .send =>
    match s.sender.phase with
    | .drafted chunk => some (s.send r chunk)
    | _ => none
  | .count =>
    match s.sender.phase with
    | .placed chunk => some (s.count r chunk)
    | _ => none
  | .finishSender =>
    if s.sender.phase = .waiting ∧ !senderFinished s.hops ∧ s.finished then
      some { s with hops := finishFirst s.hops }
    else none
  | _ => none

def routeMove (r : PipelineRun σ) (s : PipelineState H σ) :
    PipelineEvent → Option (PipelineState H σ)
  | .work i => (atHop workHead i s.hops).map fun hops => { s with hops }
  | .forward i => (atHop (forwardHead r.call) i s.hops).map fun hops => { s with hops }
  | .reject i => (atHop (rejectHead r.call) i s.hops).map fun hops =>
      { s with hops, error := some "invalid pipelined relay activation metadata" }
  | .countRelay i => (atHop countHead i s.hops).map fun hops => { s with hops }
  | .finishRelay i => (atHop finishHead i s.hops).map fun hops => { s with hops }
  | _ => none

def receiverStep (r : PipelineRun σ) (s : PipelineState H σ) :
    PipelineEvent → Option (PipelineState H σ)
  | .receive =>
    match s.receiver, takeLast s.hops with
    | .waiting, some (response, hops) =>
      match s.inflight with
      | [] => some { s with hops, error := some "pipelined reply with no in-flight chunk" }
      | chunk :: inflight =>
        some { s with
          hops, inflight
          receiver := .holding chunk response (!s.finished && chunk.epoch = s.epoch) }
    | _, _ => none
  | .apply =>
    match s.receiver with
    | .holding chunk response shouldApply =>
      match requireChunk r.call response chunk with
      | none => some { s with error := some "invalid pipelined speculative result" }
      | some checked =>
        some (if shouldApply then s.settle r chunk checked else { s with receiver := .waiting })
    | _ => none
  | .finishReceiver =>
    match s.receiver with
    | .waiting =>
      if s.hops.getLast?.all fun h => h.stageFinished && h.unread = 0 then
        some { s with receiver := .done }
      else none
    | _ => none
  | _ => none

def pipelineStep (r : PipelineRun σ) (s : PipelineState H σ) (e : PipelineEvent) :
    Option (PipelineState H σ) :=
  if s.error ≠ none then none
  else (senderStep r s e).orElse fun _ => (routeMove r s e).orElse fun _ => receiverStep r s e

def idleHops (finished : Bool) (stages : List (Connection H)) : List (Hop H) :=
  stages.map fun c => { node := ⟨[], c, []⟩, stageFinished := finished }

/-- The state the threads start in; with nothing left to decode none is started, as if all of them
had ended. -/
def pipelineInit (r : PipelineRun σ) (stages : List (Connection H)) (state : σ)
    (output : RequestResult) : PipelineState H σ :=
  { hops := idleHops (!r.call.goesOn output) stages
    sender := { basePosition := output.position, carry := output.finalToken, state }
    receiver := if r.call.goesOn output then .waiting else .done
    finished := !r.call.goesOn output
    output }

def promptResult (c : Call) (result : Result) : RequestResult :=
  { RequestResult.record c.sink {} result.token result.text result.eog with
    position := result.position }

/-- `generate_pipelined` up to the start of its threads: the prompt, and the drafter's check. -/
def startPipelined (r : PipelineRun σ) (stages : List (Connection H)) (prompt : String)
    (state : σ) : Except String (PipelineState H σ) :=
  match routeStep stages (promptFrame r.call.session r.call.request 0 prompt) r.call.hidden with
  | (_, .error e) => .error e
  | (stages, .ok result) =>
    match startDraft 0 prompt result (some ⟨r.drafter, state, r.draftTokens⟩) with
    | .error e => .error e
    | .ok none => .ok (pipelineInit r stages state (promptResult r.call result))
    | .ok (some spec) => .ok (pipelineInit r stages spec.state (promptResult r.call result))

def pipelineSystem (r : PipelineRun σ) (init : PipelineState H σ) :
    Transition.System (PipelineState H σ) PipelineEvent where
  init := init
  step := pipelineStep r

/-- The end of `generate_pipelined`, once its threads are joined. -/
def closePipelined (r : PipelineRun σ) (preserve : Bool) (s : PipelineState H σ) :
    Except String RequestResult :=
  match s.error with
  | some message => .error message
  | none => (closeRequest r.call 0 preserve (s.hops.map (·.node.state)) s.output).2

end ProviderOwned
