import ProviderOwned.Stage.Handle

/-!
# Calls over a route of stages

The part of `client.cpp` that talks to an ordered list of stages: `Connection::exchange`, the checks
on replies, `control_all`, `rollback_all` and the three functions that pass a frame from stage to
stage (`route_step`, `route_speculative`, `commit_final_token`).

A call returns the connections after it, whether it succeeded or threw. `llama_decode` succeeds in
this file: where it fails the stage answers with an error and the call throws.
-/

namespace ProviderOwned

/-- `class Connection`: the stage at its far end, and how many more messages the link carries in
either direction before it breaks (`none` when it stays up). -/
structure Connection (H : Type*) where
  stage : Stage H
  link : Option Nat := none

variable {H : Type*}

namespace Connection

/-- The far stage has a session under this id, and `P` holds of it. -/
def Holds (c : Connection H) (session : Nat) (P : Session H → Prop) : Prop :=
  ∃ s, c.stage.sessions.lookup session = some s ∧ P s

/-- Whether the link carries at least `n` more messages. -/
def carries (c : Connection H) (n : Nat) : Bool :=
  c.link.all (n ≤ ·)

/-- The connection once the far stage has handled `input` and `n` messages were carried. -/
def after (c : Connection H) (input : Frame H) (n : Nat) : Connection H :=
  { stage := (c.stage.handle input 0 fun _ => true).1, link := c.link.map (· - n) }

/-- `Connection::exchange`: an error frame, and a link that breaks on the way out or back, is an
exception. -/
def exchange (c : Connection H) (input : Frame H) : Connection H × Except String (Frame H) :=
  if !c.carries 1 then (c, .error "peer disconnected while sending frame")
  else if !c.carries 2 then
    (c.after input 1, .error "peer disconnected while receiving frame")
  else (c.after input 2, (c.stage.handle input 0 fun _ => true).2.2)

end Connection

def requireAck (frame input : Frame H) (allowTiming : Bool := false) : Bool :=
  frame.type = .ack && frame.session = input.session && frame.request = input.request &&
    frame.rows = 0 && frame.cols = 0 && frame.dtype = .none &&
    match frame.payload with
    | .timing => allowTiming
    | payload => payload.isEmpty

def requireActivation (frame input : Frame H) (hidden : Nat) (expected : FrameType) :
    Except String (Frame H) :=
  if frame.type ≠ expected ∨ frame.session ≠ input.session ∨ frame.request ≠ input.request ∨
      frame.position ≠ input.position ∨ frame.rows = 0 ∨ frame.cols ≠ hidden ∨
      !activationDtype frame.dtype then
    .error "invalid stage A activation metadata"
  else match frame.payload with
    | .hidden rows [] =>
      if (maxPayload - 8) / 4 < frame.rows * frame.cols ∨ rows.length ≠ frame.rows then
        .error "invalid stage A activation size"
      else .ok frame
    | _ => .error "invalid stage A activation size"

structure Result where
  token : Token
  eog : Bool
  text : String
  position : Nat
  deriving DecidableEq, Repr

/-- The position `require_result` expects of a reply to `input`. -/
def resultPosition (position : Nat) (input : Frame H) : Bool :=
  if input.rows ≠ 0 then position = input.position + input.rows
  else if input.type = .prompt then input.position < position
  else position = input.position + 1

def requireResult (frame input : Frame H) : Except String Result :=
  if frame.type ≠ .result ∨ frame.session ≠ input.session ∨ frame.request ≠ input.request ∨
      !resultPosition frame.position input ∨ frame.rows ≠ 0 ∨ frame.cols ≠ 0 ∨
      frame.dtype ≠ .none then .error "invalid stage B result"
  else match frame.payload.sample with
    | none => .error "invalid stage B result"
    | some (token, eog, text) => .ok { token, eog, text, position := frame.position }

def requireStreamed (frame : Frame H) (session request : Nat) : Except String Result :=
  if (frame.type ≠ .clientChunk ∧ frame.type ≠ .result) ∨ frame.session ≠ session ∨
      frame.request ≠ request ∨ frame.rows ≠ 0 ∨ frame.cols ≠ 0 ∨ frame.dtype ≠ .none then
    .error (if frame.type = .error then frame.payload.message else "invalid streamed token")
  else match frame.payload.sample with
    | none => .error "invalid streamed token"
    | some (token, eog, text) => .ok { token, eog, text, position := frame.position }

/-- The last reply of `route_speculative`: the target's sample after every row of the batch. -/
def requireVerified (frame input : Frame H) : Except String (List Token) :=
  if frame.type ≠ .result ∨ frame.session ≠ input.session ∨ frame.request ≠ input.request ∨
      frame.position ≠ input.position + input.rows ∨ frame.rows ≠ input.rows ∨ frame.cols ≠ 0 ∨
      frame.dtype ≠ .none then .error "invalid speculative result"
  else match frame.payload with
    | .verified samples =>
      if samples.length = frame.rows then .ok samples else .error "invalid speculative result"
    | _ => .error "invalid speculative result"

/-- The last reply of `commit_final_token`. -/
def requireCommitted (position : Nat) (frame input : Frame H) : Except String Unit :=
  if !requireAck frame input true then .error "invalid provider acknowledgement"
  else if frame.position ≠ position + 1 then .error "commit position mismatch"
  else .ok ()

/-- Passes `current` from stage to stage, checking each reply; `finish` reads the last one. -/
def relay {α : Type*} (hidden : Nat) (expected : FrameType) (none : String)
    (finish : Frame H → Frame H → Except String α) :
    List (Connection H) → Frame H → List (Connection H) × Except String α
  | [], _ => ([], .error none)
  | [c], current =>
    match (c.exchange current).2 with
    | .error e => ([(c.exchange current).1], .error e)
    | .ok reply => ([(c.exchange current).1], finish reply current)
  | c :: rest, current =>
    match (c.exchange current).2 with
    | .error e => ((c.exchange current).1 :: rest, .error e)
    | .ok reply =>
      match requireActivation reply current hidden expected with
      | .error e => ((c.exchange current).1 :: rest, .error e)
      | .ok next =>
        ((c.exchange current).1 :: (relay hidden expected none finish rest next).1,
         (relay hidden expected none finish rest next).2)

/-- `route_step`, stage by stage. -/
def routeStep (stages : List (Connection H)) (input : Frame H) (hidden : Nat) :
    List (Connection H) × Except String Result :=
  relay hidden .activation "replica has no stages" requireResult stages input

def routeSpeculative (stages : List (Connection H)) (input : Frame H) (hidden : Nat) :
    List (Connection H) × Except String (List Token) :=
  relay hidden .speculativeActivation "speculative routing failed" requireVerified stages input

/-- The frame `commit_final_token` sends to the first stage. -/
def commitFrame (session request position : Nat) (token : Token) : Frame H :=
  { type := .commitToken, session, request, position, payload := .tokens [token] }

/-- `commit_final_token`. With no stages its loop does nothing. -/
def commitFinalToken (stages : List (Connection H)) (session request position : Nat)
    (token : Token) (hidden : Nat) : List (Connection H) × Except String Unit :=
  if stages = [] then ([], .ok ())
  else relay hidden .commitActivation "" (requireCommitted position) stages
    (commitFrame session request position token)

/-- The loop of `control_all`: `position` is the position the stage before acknowledged. -/
def controlFrom (input : Frame H) :
    Option Nat → List (Connection H) → List (Connection H) × Except String Unit
  | _, [] => ([], .ok ())
  | position, c :: rest =>
    match (c.exchange input).2 with
    | .error e => ((c.exchange input).1 :: rest, .error e)
    | .ok output =>
      if !requireAck output input then
        ((c.exchange input).1 :: rest, .error "invalid provider acknowledgement")
      else if input.type = .endRequest ∧ position.any (output.position ≠ ·) then
        ((c.exchange input).1 :: rest, .error "provider session positions diverged")
      else
        ((c.exchange input).1 :: (controlFrom input (some output.position) rest).1,
         (controlFrom input (some output.position) rest).2)

/-- A control frame: nothing but its type and whom it is for. -/
def controlFrame (type : FrameType) (session : Nat) (request : Nat := 0) : Frame H :=
  { type, session, request }

def controlAll (stages : List (Connection H)) (type : FrameType) (session : Nat)
    (request : Nat := 0) : List (Connection H) × Except String Unit :=
  controlFrom (controlFrame type session request) none stages

/-- The frame `rollback_all` sends to every stage. -/
def rollbackFrame (session request position : Nat) : Frame H :=
  { type := .rollback, session, request, position }

def rollbackAll (session request position : Nat) :
    List (Connection H) → List (Connection H) × Except String Unit
  | [] => ([], .ok ())
  | c :: rest =>
    match (c.exchange (rollbackFrame session request position)).2 with
    | .error e => ((c.exchange (rollbackFrame session request position)).1 :: rest, .error e)
    | .ok output =>
      if !requireAck output (rollbackFrame session request position) then
        ((c.exchange (rollbackFrame session request position)).1 :: rest,
         .error "invalid provider acknowledgement")
      else if output.position ≠ position then
        ((c.exchange (rollbackFrame session request position)).1 :: rest,
         .error "rollback position mismatch")
      else
        ((c.exchange (rollbackFrame session request position)).1 ::
           (rollbackAll session request position rest).1,
         (rollbackAll session request position rest).2)

end ProviderOwned
