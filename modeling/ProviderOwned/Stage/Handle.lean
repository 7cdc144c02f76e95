import Mathlib.Data.List.AList
import ProviderOwned.Stage.Execute

/-!
# The stage and its session table

`class Stage`: the sessions it holds, the KV sequences they use, and `Stage::handle`, which finds
the session a frame names and runs the operation the frame asks for. A frame touches no session
but its own (`lookup_handle_of_ne`, in `Stage.Properties`).
-/

namespace ProviderOwned

structure Stage (H : Type*) where
  model : StageModel H
  sessions : AList fun _ : Nat => Session H
  sequenceUsed : List Bool
  shuttingDown : Bool := false

variable {H : Type*}

namespace Stage

def load (m : StageModel H) : Stage H :=
  { model := m, sessions := ∅, sequenceUsed := List.replicate m.maxSessions false }

def create (st : Stage H) (input : Frame H) : Stage H × Except String (Frame H) :=
  if !requireControl input then (st, .error "invalid control frame")
  else if input.session ∈ st.sessions then (st, .error "session already exists")
  else if st.model.maxSessions ≤ st.sessions.keys.length then (st, .error "session limit reached")
  else if false ∉ st.sequenceUsed then (st, .error "session limit reached")
  else
    ({ st with
       sessions := st.sessions.insert input.session { sequence := st.sequenceUsed.idxOf false }
       sequenceUsed := st.sequenceUsed.set (st.sequenceUsed.idxOf false) true },
     .ok (ack input))

def requireSession (st : Stage H) (input : Frame H) : Except String (Session H) :=
  if input.session = 0 then .error "session ID must be nonzero"
  else match st.sessions.lookup input.session with
    | none => .error "unknown session ID"
    | some s => .ok s

/-- Runs `op` on the session `input` names and stores the session it returns. -/
def onSession (st : Stage H) (input : Frame H) (op : Session H → Handled H) :
    Stage H × List (Frame H) × Except String (Frame H) :=
  match st.requireSession input with
  | .error message => (st, [], .error message)
  | .ok s =>
    ({ st with sessions := st.sessions.insert input.session (op s).session },
     (op s).emitted, (op s).reply)

/-- `Stage::destroy`: an idle session is dropped and its sequence is free again. -/
def destroy (st : Stage H) (input : Frame H) : Stage H × Except String (Frame H) :=
  match st.requireSession input with
  | .error message => (st, .error message)
  | .ok s =>
    match (s.destroy input).reply with
    | .error message => (st, .error message)
    | .ok reply =>
      ({ st with
         sessions := st.sessions.erase input.session
         sequenceUsed := st.sequenceUsed.set s.sequence false },
       .ok reply)

/-- `Stage::metrics`, without the counters its text reports. -/
def metrics (st : Stage H) (input : Frame H) : Stage H × Except String (Frame H) :=
  if !emptyControl input ∨ input.session ≠ 0 ∨ input.request ≠ 0 then
    (st, .error "invalid metrics frame")
  else (st, .ok { type := .metrics, payload := .text "metrics" })

def shutdown (st : Stage H) (input : Frame H) : Stage H × Except String (Frame H) :=
  if !emptyControl input ∨ input.session ≠ 0 ∨ input.request ≠ 0 then
    (st, .error "invalid shutdown frame")
  else if st.sessions.entries.any fun e => e.2.activeRequest ≠ 0 then
    (st, .error "cannot shut down with an active request")
  else ({ st with shuttingDown := true }, .ok { type := .ack })

def handle (st : Stage H) (input : Frame H) (chunk : Nat) (ok : Nat → Bool) :
    Stage H × List (Frame H) × Except String (Frame H) :=
  match input.type with
  | .createSession => ((st.create input).1, [], (st.create input).2)
  | .prepareChat => st.onSession input (·.prepareChat st.model input)
  | .resetSession =>
    if !requireControl input then (st, [], .error "invalid control frame")
    else st.onSession input (·.reset input)
  | .destroySession =>
    if !requireControl input then (st, [], .error "invalid control frame")
    else ((st.destroy input).1, [], (st.destroy input).2)
  | .endRequest =>
    if !requireControl input true then (st, [], .error "invalid control frame")
    else st.onSession input (·.endRequest input)
  | .rollback => st.onSession input (·.rollback st.model input)
  | .metrics => ((st.metrics input).1, [], (st.metrics input).2)
  | .shutdown => ((st.shutdown input).1, [], (st.shutdown input).2)
  | .prompt | .token | .commitToken | .activation | .speculativeActivation | .commitActivation
  | .promptChunk =>
    if input.request = 0 then (st, [], .error "request ID must be nonzero")
    else st.onSession input (·.execute st.model input chunk ok)
  | _ => (st, [], .error "unexpected frame type for worker")

def coordinatorDisconnected (st : Stage H) : Stage H :=
  { st with
    sessions := ∅
    sequenceUsed := List.replicate st.sequenceUsed.length false }

/-- The states a loaded stage goes through: frames of any kind in any order, lost connections, and
the draft bookkeeping the ring keeps in its sessions. -/
inductive Reachable : Stage H → Prop
  | load (m : StageModel H) : Reachable (load m)
  | handle {st : Stage H} (input : Frame H) (chunk : Nat) (ok : Nat → Bool) :
      Reachable st → Reachable (st.handle input chunk ok).1
  | disconnected {st : Stage H} : Reachable st → Reachable st.coordinatorDisconnected
  | draft {st : Stage H} {id : Nat} {s : Session H} (d : DraftState) :
      Reachable st → st.sessions.lookup id = some s →
        Reachable { st with sessions := st.sessions.insert id { s with draft := d } }

end Stage

end ProviderOwned
