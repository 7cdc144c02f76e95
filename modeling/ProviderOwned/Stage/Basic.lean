import Mathlib.Data.Rat.Defs
import ProviderOwned.Protocol

/-!
# A stage worker's sessions

The state `stage_worker.cpp` keeps for one session (`class Session`) and the operations of
`class Stage` on it. What llama.cpp contributes is collected in `StageModel`: the tokenizer, the
causal computation of the stage's layers on the rows in its KV cache, the samplers and the chat
template. A KV sequence is the list of rows decoded into it, so truncating it at a position is
`List.take`.

An operation returns the session after it together with the reply or the text of the exception;
the session is returned in both cases because the code keeps what it changed before it threw.
-/

namespace ProviderOwned

/-- One row of a stage's KV cache: a token at the first stage, else an incoming activation row. -/
inductive Cell (H : Type*)
  | token (id : Token)
  | hidden (row : H)
  deriving DecidableEq, Repr

/-- The sampling parameters of a prepared chat (`common_params_sampling`), as far as they are
read. -/
structure Sampling where
  seed : Nat := 0
  temp : ℚ := 0
  grammar : String := ""
  penaltyRepeat : ℚ := 1
  penaltyFreq : ℚ := 0
  penaltyPresent : ℚ := 0
  deriving DecidableEq, Repr

/-- The condition `prepare_chat` stores in `chat_speculative`. -/
def Sampling.speculative (s : Sampling) : Bool :=
  s.temp = 0 && s.grammar.isEmpty && s.penaltyRepeat = 1 && s.penaltyFreq = 0 &&
    s.penaltyPresent = 0

/-- A chat sampler: its parameters and the tokens it has accepted. -/
structure ChatSampler where
  sampling : Sampling
  accepted : List Token
  deriving DecidableEq, Repr

/-- The fixed part of a `Stage`: its place in the route, its limits and its model. -/
structure StageModel (H : Type*) where
  first : Bool
  last : Bool
  contextSize : Nat
  maxSessions : Nat
  hidden : Nat
  wire : DType
  tokenize : String → List Token
  embed : List (Cell H) → H
  greedy : List (Cell H) → Token
  chat : ChatSampler → List (Cell H) → Token
  template : String → Option (String × Sampling)
  piece : Token → String
  isEog : Token → Bool

/-- `struct DraftState`: committed inputs the draft model has not been fed yet. The width policy
is a parameter of the code that consults it. -/
structure DraftState where
  pending : List Token := []
  start : Nat := 0
  request : Nat := 0
  deriving DecidableEq, Repr

structure Session (H : Type*) where
  sequence : Nat := 0
  position : Nat := 0
  activeRequest : Nat := 0
  lastRequest : Nat := 0
  hasPrompt : Bool := false
  draft : DraftState := {}
  chatSampler : Option ChatSampler := none
  chatRequest : Bool := false
  chatSpeculative : Bool := false
  chatPending : Bool := false
  history : List Token := []
  chatTokens : List Token := []
  kv : List (Cell H) := []
  deriving DecidableEq, Repr

/-- What a frame did: the session after it, the chunks emitted on the way, and the reply. -/
structure Handled (H : Type*) where
  session : Session H
  emitted : List (Frame H) := []
  reply : Except String (Frame H)

variable {H : Type*}

def ack (input : Frame H) (position : Nat := 0) (timing : Bool := false) : Frame H :=
  { type := .ack, session := input.session, request := input.request, position,
    payload := if timing then .timing else .empty }

def requireControl (input : Frame H) (requestRequired : Bool := false) : Bool :=
  emptyControl input && input.session ≠ 0 &&
    (if requestRequired then input.request ≠ 0 else input.request = 0)

namespace Session

/-- The session fails with `message`, keeping the changes made so far. -/
def throw (s : Session H) (message : String) (emitted : List (Frame H) := []) : Handled H :=
  { session := s, emitted, reply := .error message }

/-- The session answers with `frame`. -/
def answer (s : Session H) (frame : Frame H) (emitted : List (Frame H) := []) : Handled H :=
  { session := s, emitted, reply := .ok frame }

/-- `llama_memory_seq_rm(memory, sequence, position, -1)` and the position that goes with it. -/
def truncate (m : StageModel H) (s : Session H) (position : Nat) : Session H :=
  { s with
    position, kv := s.kv.take position,
    history := if m.first then s.history.take position else s.history }

def reset (s : Session H) (input : Frame H) : Handled H :=
  if !requireControl input then s.throw "invalid control frame"
  else if s.activeRequest ≠ 0 then s.throw "cannot reset active session"
  else answer
    { s with
      position := 0, activeRequest := 0, lastRequest := 0, hasPrompt := false, draft := {},
      history := [], chatTokens := [], chatPending := false, chatRequest := false,
      chatSampler := none, kv := [] }
    (ack input)

/-- The guards of `Stage::destroy`; the session itself is dropped by the stage. -/
def destroy (s : Session H) (input : Frame H) : Handled H :=
  if !requireControl input then s.throw "invalid control frame"
  else if s.activeRequest ≠ 0 then s.throw "cannot destroy active session"
  else s.answer (ack input)

def endRequest (s : Session H) (input : Frame H) : Handled H :=
  if !requireControl input true then s.throw "invalid control frame"
  else if s.activeRequest ≠ input.request then s.throw "request ID mismatch at end"
  else if !s.hasPrompt then s.throw "request ended before prompt"
  else answer
    { s with lastRequest := input.request, activeRequest := 0, hasPrompt := false }
    (ack input s.position)

def rollback (m : StageModel H) (s : Session H) (input : Frame H) : Handled H :=
  if input.request = 0 ∨ s.activeRequest ≠ input.request ∨ s.position < input.position ∨
      input.rows ≠ 0 ∨ input.cols ≠ 0 ∨ input.dtype ≠ .none ∨ !input.payload.isEmpty then
    s.throw "invalid rollback frame"
  else (s.truncate m input.position).answer (ack input input.position)

/-- The number of leading tokens `history` and a new prompt share, counted up to `limit`. -/
def commonPrefix : List Token → List Token → Nat
  | a :: as, b :: bs => if a = b then commonPrefix as bs + 1 else 0
  | _, _ => 0

/-- The cached prefix `prepare_chat` keeps: the first stage finds it, the others are told. -/
def cachedPrefix (m : StageModel H) (s : Session H) (input : Frame H) (tokens : List Token) : Nat :=
  if m.first then min (commonPrefix s.history tokens) (tokens.length - 1) else input.position

/-- The session with a prepared chat: trimmed to the cached prefix, its sampler replaced. -/
def withChat (m : StageModel H) (s : Session H) (sampling : Sampling) (tokens : List Token)
    (reuse : Nat) : Session H :=
  { s.truncate m reuse with
    chatTokens := if m.first then tokens.drop reuse else s.chatTokens
    chatPending := m.first || s.chatPending
    chatSampler := if m.last then some ⟨sampling, tokens⟩ else none
    chatRequest := true
    chatSpeculative := sampling.speculative }

/-- `prepare_chat` once the template gave the prompt's tokens. Every failure but an exhausted
context is reported without its cause, which may quote the user's text. -/
def prepareTokens (m : StageModel H) (s : Session H) (input : Frame H) (sampling : Sampling)
    (tokens : List Token) : Handled H :=
  if tokens = [] then s.throw "invalid chat request or unsupported template/schema"
  else if m.contextSize ≤ tokens.length then s.throw "session context exhausted"
  else if s.position < s.cachedPrefix m input tokens ∨
      tokens.length ≤ s.cachedPrefix m input tokens then
    s.throw "invalid chat request or unsupported template/schema"
  else
    (s.withChat m sampling tokens (s.cachedPrefix m input tokens)).answer
      { ack input (s.cachedPrefix m input tokens) with rows := tokens.length }

/-- `Stage::prepare_chat`, on a session with no request active. -/
def prepareChat (m : StageModel H) (s : Session H) (input : Frame H) : Handled H :=
  if s.activeRequest ≠ 0 ∨ input.request ≠ 0 ∨ input.rows ≠ 0 ∨ input.cols ≠ 0 ∨
      input.dtype ≠ .none ∨ input.payload.isEmpty ∨
      1024 * 1024 < input.payload.message.utf8ByteSize then
    s.throw "invalid chat preparation"
  else match m.template input.payload.message with
    | none => s.throw "invalid chat request or unsupported template/schema"
    | some (prompt, sampling) => s.prepareTokens m input sampling (m.tokenize prompt)

end Session

end ProviderOwned
