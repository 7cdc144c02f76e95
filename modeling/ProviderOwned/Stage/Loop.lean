import ProviderOwned.Lib.Decode
import ProviderOwned.Stage.Draft

/-!
# Loop mode

The worker whose stage is the last of a route decodes without the client: the client gives it a
budget of tokens (`stream_prompt`), and every token goes to the client and comes back as the next
input until the budget is used up, the text ends or the client cancels (`continue_loop`). Here the
worker is all of the route, so a token comes back in a call (`local_decode`), in which the draft
model or the n-gram table may guess the tokens after it.

Which guesses and failures there are is left open (`Chance`), and so is when a cancellation is ready
on the control connection and when a link is lost (`LoopTurn`).
-/

namespace ProviderOwned

variable {H : Type*}

/-! ### The requests that stream -/

/-- `LoopState::Stream`. -/
structure LoopStream where
  request : Nat
  remaining : Nat
  cancelled : Bool := false
  deriving DecidableEq, Repr

/-- `LoopState`: the request that streams, of each session. -/
abbrev LoopState := Nat → Option LoopStream

/-- Whether a result ends the text: the byte after the token and the time of the step. A result of a
verified batch has a sample there. -/
def Frame.endsText (f : Frame H) : Bool :=
  match f.payload with
  | .sampled _ eog _ => eog
  | .verified (_ :: sample :: _) => 2 ^ 24 ≤ sample
  | _ => true

/-- The token of a result. A result of a verified batch has a part of its time there, which is not
modelled. -/
def Frame.sampledToken (f : Frame H) : Token :=
  match f.payload with
  | .sampled token _ _ => token
  | _ => 0

namespace LoopState

open Function (update)

def find (l : LoopState) (f : Frame H) : Option LoopStream :=
  (l f.session).filter (·.request = f.request)

def owns (l : LoopState) (f : Frame H) : Bool := (l.find f).isSome

/-- `LoopState::end`. -/
def finish (l : LoopState) (f : Frame H) : LoopState :=
  if l.owns f then update l f.session none else l

def clear : LoopState := fun _ => none

/-- What a `cancel_request` frame does. -/
def cancel (l : LoopState) (f : Frame H) : LoopState :=
  match l.find f with
  | none => l
  | some s => update l f.session (some { s with cancelled := true })

/-- What a `stream_prompt` frame does; the text is that of its error. -/
def accept (l : LoopState) (f : Frame H) : LoopState × Option String :=
  if f.rows = 0 ∨ !f.payload.isEmpty then (l, some "bad stream_prompt frame")
  else if (l f.session).isSome then (l, some "this session is already streaming a request")
  else (update l f.session (some ⟨f.request, f.rows, false⟩), none)

/-- What is noted of a result, and whether it is the last one of its request. -/
def note (l : LoopState) (f : Frame H) : LoopState × Bool :=
  match l.find f with
  | none => (l, true)
  | some s =>
    if f.endsText ∨ s.cancelled ∨ s.remaining ≤ 1 then (l.finish f, true)
    else (update l f.session (some { s with remaining := s.remaining - 1 }), false)

end LoopState

/-! ### A step of decoding -/

def acceptSpeculation : List Token → List Token → List Token
  | _, [] => []
  | [], sample :: _ => [sample]
  | proposal :: proposals, sample :: samples =>
    if proposal = sample then sample :: acceptSpeculation proposals samples else [sample]

def acceptedTokens (proposals : List Token) (verified : Frame H) : List Token :=
  match verified.type, verified.payload with
  | .result, .verified samples => acceptSpeculation proposals samples
  | _, _ => []

def streamedFrame (m : StageModel H) (like : Frame H) (position : Nat) (token : Token) : Frame H :=
  { type := .result, session := like.session, request := like.request, position,
    payload := .sampled token (m.isEog token) (m.piece token) }

/-- The tokens of a step, as they are streamed. -/
def streamedFrames (m : StageModel H) (like : Frame H) (tokens : List Token) : List (Frame H) :=
  tokens.mapIdx fun n token => streamedFrame m like (like.position + n + 1) token

/-- The guesses that were made last for a session. -/
def RingHead.left (r : RingHead H) (id : Nat) : List Token := (r.guessed id).elim [] Guesses.tokens

/-- The tokens that `local_decode` takes from the reply of the stage. -/
def committedTokens (proposals : List Token) (verified : Frame H) : Except String (List Token) :=
  if proposals ≠ [] then .ok (acceptedTokens proposals verified)
  else match verified.type, verified.payload with
    | .result, .sampled token _ _ => .ok [token]
    | _, _ => .error "unexpected decode reply"

/-- `local_decode`: the tokens of a step. -/
def localDecode (ngramDraft : Bool) (r : RingHead H) (token position : Nat) (like : Frame H)
    (c : Chance) :
    RingHead H × Except String (List Token) :=
  match r.decodeRound ngramDraft (tokenFrame like position [token]) c with
  | (r, .error error) => (r, .error error)
  | (r, .ok verified) => (r, committedTokens (r.left like.session) verified)

/-! ### The loop -/

/-- What is left open in one turn of the loop: a `cancel_request` that is ready, whether it can be
acknowledged, whether the client can be reached with the result and with the error of a failed step,
and the chances of the step. -/
structure LoopTurn (H : Type*) where
  cancel : Option (Frame H)
  acknowledged : Bool
  delivered : Bool
  reported : Bool
  chance : Chance

structure LoopWorker (H : Type*) where
  ring : RingHead H
  loop : LoopState := .clear

/-- A run of the loop: the worker after it, what the client got, on its ring return and on its
control connection, and whether its links have held. -/
structure LoopRun (H : Type*) where
  worker : LoopWorker H
  streamed : List (Frame H) := []
  acks : List (Frame H) := []
  held : Bool := true

def LoopRun.after (run : LoopRun H) (streamed acks : List (Frame H)) : LoopRun H :=
  { run with streamed := streamed ++ run.streamed, acks := acks ++ run.acks }

def failedStep (ring : RingHead H) (loop : LoopState) (frame : Frame H) (error : String)
    (reported : Bool) :
    LoopRun H where
  worker := { ring, loop := loop.finish frame }
  streamed :=
    if reported then [errorFrame frame (if error = "" then "decode produced no token" else error)]
      else []
  held := reported

/-- The tokens of a step go on to the client; where there is none, the step has failed. -/
def afterStep (m : StageModel H) (loop : LoopState) (frame : Frame H) (reported : Bool)
    (goOn : RingHead H → List (Frame H) → LoopRun H) : RingHead H × Except String (List Token) →
      LoopRun H
  | (ring, .error error) => failedStep ring loop frame error reported
  | (ring, .ok []) => failedStep ring loop frame "" reported
  | (ring, .ok (token :: tokens)) => goOn ring (streamedFrames m frame (token :: tokens))

/-- `continue_loop` from turn `n` on, at most `fuel` turns: the results in `pending` go to the
client, and the last one back into the stage. -/
def continueLoop (ngramDraft : Bool) (turn : Nat → LoopTurn H) :
    Nat → Nat → LoopWorker H → List (Frame H) → LoopRun H
  | 0, _, w, _ => { worker := w }
  | _, _, w, [] => { worker := w }
  | fuel + 1, n, w, frame :: pending =>
    let loop := (turn n).cancel.elim w.loop w.loop.cancel
    if (turn n).cancel.isSome ∧ !(turn n).acknowledged
      then { worker := { w with loop }, held := false }
    else
      let acks := (turn n).cancel.toList.map ack
      let (loop, final) := loop.note frame
      if !(turn n).delivered then { worker := { w with loop := .clear }, acks, held := false }
      else if final then { worker := { w with loop }, streamed := [frame], acks }
      else
        let rest :=
          if pending ≠ [] then continueLoop ngramDraft turn fuel (n + 1) { w with loop } pending
          else afterStep w.ring.stage.model loop frame (turn n).reported
            (fun ring pending => continueLoop ngramDraft turn fuel (n + 1) ⟨ring, loop⟩ pending)
            (localDecode ngramDraft w.ring frame.sampledToken frame.position frame (turn n).chance)
        rest.after [{ frame with type := .clientChunk }] acks

/-! ### The control connection -/

namespace LoopWorker

/-- A freshly loaded stage and, where there is one, its draft model. -/
def load (m : StageModel H) (md : Option (StageModel H)) : LoopWorker H where
  ring := { stage := .load m, draft := md.map .load }

/-- The client has left: `RingState::disconnected` and `release_route`. -/
def disconnected (w : LoopWorker H) : LoopWorker H where
  ring := w.ring.disconnected

/-- The run in which a frame is answered on the control connection, if it can be. -/
def replied (w : LoopWorker H) (reply : Frame H) (sent : Bool) : LoopRun H where
  worker := if sent then w else w.disconnected
  acks := if sent then [reply] else []
  held := sent

/-- The run in which a frame is answered on the ring return where it is one of the hot path
(`is_hot_path`), else on the control connection. -/
def answered (w : LoopWorker H) (input reply : Frame H) (sent : Bool) : LoopRun H :=
  match input.type with
  | .prompt | .token | .activation | .speculativeActivation =>
    { worker := if sent then w else w.disconnected, streamed := if sent then [reply] else [],
      held := sent }
  | _ => w.replied reply sent

/-- The run after which the client has left where a link was lost. -/
def settled (run : LoopRun H) : LoopRun H :=
  if run.held then run else { run with worker := run.worker.disconnected }

def serveStage (ngramDraft : Bool) (w : LoopWorker H) (input : Frame H) (chunk : Nat) (c : Chance)
    (sent : Bool) (turn : Nat → LoopTurn H) : LoopRun H :=
  match w.ring.serveControl input chunk c with
  | (ring, .error error) =>
    let run := LoopWorker.answered ⟨ring, w.loop.finish input⟩ input (errorFrame input error) sent
    -- a failure of no session in particular ends the connection
    if input.session = 0 then settled { run with held := false } else run
  | (ring, .ok output) =>
    match (if output.type = .result then w.loop.find output else none) with
    | none => LoopWorker.answered ⟨ring, w.loop⟩ input output sent
    | some stream =>
        settled (continueLoop ngramDraft turn stream.remaining 0 ⟨ring, w.loop⟩ [output])

/-- A frame on the control connection of a route: `serve_control`. Whether an answer can be sent is
left open. -/
def serve (ngramDraft : Bool) (w : LoopWorker H) (input : Frame H) (chunk : Nat) (c : Chance)
    (sent : Bool) (turn : Nat → LoopTurn H) : LoopRun H :=
  match input.type with
  | .cancelRequest => { w with loop := w.loop.cancel input }.replied (ack input) sent
  | .streamPrompt =>
    match w.loop.accept input with
    | (loop, none) => { w with loop }.replied (ack input) sent
    | (_, some problem) => w.replied (errorFrame input problem) sent
  | _ => w.serveStage ngramDraft input chunk c sent turn

/-- The states of a worker in its runs. The tokens of a request do not come on the control
connection. -/
inductive Reached (m : StageModel H) (md : Option (StageModel H)) (ngramDraft : Bool) :
    LoopWorker H → Prop
  | load : Reached m md ngramDraft (load m md)
  | serve {w : LoopWorker H} {input : Frame H} (hother : input.type ≠ .token) (chunk : Nat)
      (c : Chance)
      (sent : Bool) (turn : Nat → LoopTurn H) : Reached m md ngramDraft w →
        Reached m md ngramDraft (w.serve ngramDraft input chunk c sent turn).worker
  | disconnected {w : LoopWorker H} : Reached m md ngramDraft w →
      Reached m md ngramDraft w.disconnected

end LoopWorker

end ProviderOwned
