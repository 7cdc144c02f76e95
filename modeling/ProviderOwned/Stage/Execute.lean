import ProviderOwned.Stage.Basic

/-!
# Running a frame on a stage

`Stage::execute` and the three runners it dispatches to. Whether a `llama_decode` call succeeds is
a choice of the environment: `ok n` is the outcome of the `n`-th call made for the frame.
-/

namespace ProviderOwned

variable {H : Type*}

/-- `guess_bytes`, counted in guesses: those a speculative batch carries after its rows. -/
def guessCount (frame : Frame H) : Nat :=
  match frame.payload with
  | .hidden _ guesses =>
    if frame.type = .speculativeActivation ∧ 2 ≤ frame.rows ∧ guesses.length = frame.rows - 1 then
      guesses.length
    else 0
  | _ => 0

def carriedGuesses (frame : Frame H) : List Token :=
  match frame.payload with
  | .hidden _ guesses => guesses.drop (guesses.length - guessCount frame)
  | _ => []

/-- The rows of an activation payload of the right size: `rows` rows, then its guesses. -/
def payloadRows (frame : Frame H) : Option (List H) :=
  match frame.payload with
  | .hidden rows guesses =>
    if rows.length = frame.rows ∧ guesses.length = guessCount frame then some rows else none
  | _ => none

/-- The frame types that carry rows from one stage to the next. -/
def FrameType.isActivation : FrameType → Bool
  | .activation | .speculativeActivation | .commitActivation | .promptChunk => true
  | _ => false

namespace Session

/-- A decoded batch: its rows join the KV cache and the position moves past them. -/
def append (s : Session H) (cells : List (Cell H)) : Session H :=
  { s with position := s.position + cells.length, kv := s.kv ++ cells }

/-- A decoded batch of tokens at the first stage, which also records them. -/
def appendTokens (s : Session H) (tokens : List Token) : Session H :=
  { s.append (tokens.map .token) with history := s.history ++ tokens }

/-- The hidden states of a batch, row by row, given the KV cache it is decoded onto. -/
def rowsOf (m : StageModel H) (kv cells : List (Cell H)) : List H :=
  (List.range cells.length).map fun n => m.embed (kv ++ cells.take (n + 1))

/-- The greedy sample after each row of a batch. -/
def samplesOf (m : StageModel H) (kv cells : List (Cell H)) : List Token :=
  (List.range cells.length).map fun n => m.greedy (kv ++ cells.take (n + 1))

def sample (m : StageModel H) (s : Session H) : Token × Session H :=
  match s.chatSampler with
  | none => (m.greedy s.kv, s)
  | some sampler =>
    let next := m.chat sampler s.kv
    (next, { s with chatSampler := some { sampler with accepted := sampler.accepted ++ [next] } })

/-- A single sampled token as the result frame of `input`, and the session that sampled it. -/
def sampleResult (m : StageModel H) (s : Session H) (input : Frame H) : Handled H :=
  (s.sample m).2.answer
    { type := .result, session := input.session, request := input.request, position := s.position,
      payload := .sampled (s.sample m).1 (m.isEog (s.sample m).1) (m.piece (s.sample m).1) }

/-- One verified batch as the result frame of `input`. -/
def verifiedResult (s : Session H) (input : Frame H) (samples : List Token) : Frame H :=
  { type := .result, session := input.session, request := input.request, position := s.position,
    rows := samples.length, payload := .verified samples }

/-- The frame that carries a batch of the first stage to the next one. -/
def firstActivation (m : StageModel H) (s : Session H) (input : Frame H) (type : FrameType)
    (tokens : List Token) : Frame H :=
  { type, session := input.session, request := input.request, position := s.position,
    rows := tokens.length, cols := m.hidden, dtype := m.wire,
    payload := .hidden (rowsOf m s.kv (tokens.map .token)) [] }

/-- A verify batch of the first stage: a `token` frame that says how many rows it has. -/
def isSpeculative (input : Frame H) : Bool :=
  input.type = .token && input.rows ≠ 0

/-- The loop of `run_first` that decodes all but the last chunk of a prompt and sends each ahead
(`Stage::decode_prefill_chunk`). `call` counts the `llama_decode` calls made so far; the result
holds the tokens left for the final chunk. -/
def prefillChunks (m : StageModel H) (chunk : Nat) (ok : Nat → Bool) (input : Frame H) :
    Nat → Nat → Session H → List Token → List (Frame H) →
      Session H × List (Frame H) × Except String (List Token × Nat)
  | 0, call, s, tokens, emitted => (s, emitted, .ok (tokens, call))
  | fuel + 1, call, s, tokens, emitted =>
    if tokens.length ≤ chunk then (s, emitted, .ok (tokens, call))
    else if !ok call then (s, emitted, .error "stage A chunk decode failed")
    else
      prefillChunks m chunk ok input fuel (call + 1) (s.appendTokens (tokens.take chunk))
        (tokens.drop chunk)
        (emitted ++ [s.firstActivation m input .promptChunk (tokens.take chunk)])

/-- Chunked prefill: only a whole prompt, with a next stage to send to, longer than one chunk. -/
def prefill (m : StageModel H) (s : Session H) (input : Frame H) (tokens : List Token)
    (chunk : Nat) (ok : Nat → Bool) :
    Session H × List (Frame H) × Except String (List Token × Nat) :=
  if input.type = .prompt ∧ !m.last ∧ 0 < chunk ∧ chunk < tokens.length then
    prefillChunks m chunk ok input tokens.length 0 s tokens []
  else (s, [], .ok (tokens, 0))

/-- The final batch of `run_first`, after any chunks were sent ahead. -/
def finalBatch (m : StageModel H) (s : Session H) (input : Frame H) (tokens : List Token)
    (decoded : Bool) (emitted : List (Frame H)) : Handled H :=
  if !decoded then s.throw "stage A decode failed" emitted
  else if m.last then
    if input.type = .commitToken then
      (s.appendTokens tokens).answer (ack input (s.appendTokens tokens).position true) emitted
    else if isSpeculative input then
      (s.appendTokens tokens).answer
        ((s.appendTokens tokens).verifiedResult input (samplesOf m s.kv (tokens.map .token)))
        emitted
    else { (s.appendTokens tokens).sampleResult m input with emitted }
  else
    (s.appendTokens tokens).answer
      (s.firstActivation m input
        (if input.type = .commitToken then .commitActivation
          else if isSpeculative input then .speculativeActivation else .activation)
        tokens)
      emitted

/-- The part of `run_first` after its tokens are known. -/
def runTokens (m : StageModel H) (s : Session H) (input : Frame H) (tokens : List Token)
    (chunk : Nat) (ok : Nat → Bool) : Handled H :=
  if m.contextSize - s.position < tokens.length then s.throw "session context exhausted"
  else match s.prefill m input tokens chunk ok with
    | (s, emitted, .error message) => s.throw message emitted
    | (s, emitted, .ok (rest, call)) => s.finalBatch m input rest (ok call) emitted

/-- `run_first` on a `prompt` frame. -/
def runPrompt (m : StageModel H) (s : Session H) (input : Frame H) (chunk : Nat)
    (ok : Nat → Bool) : Handled H :=
  if input.position ≠ s.position ∨ input.payload.isEmpty ∨ input.rows ≠ 0 ∨ input.cols ≠ 0 ∨
      input.dtype ≠ .none then s.throw "bad prompt frame"
  else if s.hasPrompt then s.throw "duplicate prompt in request"
  else if s.chatPending then
    runTokens m { s with hasPrompt := true, chatTokens := [], chatPending := false } input
      s.chatTokens chunk ok
  else if m.tokenize input.payload.message = [] then
    { s with hasPrompt := true }.throw "prompt tokenization failed"
  else
    runTokens m { s with hasPrompt := true } input (m.tokenize input.payload.message) chunk ok

/-- `run_first` on a `token` or `commit_token` frame. -/
def runToken (m : StageModel H) (s : Session H) (input : Frame H) (chunk : Nat)
    (ok : Nat → Bool) : Handled H :=
  match input.payload.tokenIds (if isSpeculative input then input.rows else 1) with
  | none => s.throw "bad token frame"
  | some tokens =>
    if input.position ≠ s.position ∨ (!isSpeculative input ∧ input.rows ≠ 0) ∨
        input.cols ≠ 0 ∨ input.dtype ≠ .none then s.throw "bad token frame"
    else if !s.hasPrompt then s.throw "token received before prompt"
    else runTokens m s input tokens chunk ok

def runFirst (m : StageModel H) (s : Session H) (input : Frame H) (chunk : Nat)
    (ok : Nat → Bool) : Handled H :=
  if isSpeculative input ∧ maxSpeculativeWidth < input.rows then
    s.throw "speculative batch exceeds supported width"
  else if input.type = .prompt then s.runPrompt m input chunk ok
  else if input.type = .token ∨ input.type = .commitToken then s.runToken m input chunk ok
  else s.throw "stage A expected prompt or token"

/-- The prompt flag `run_last` and `run_middle` set: chunks and commits leave it as it is. -/
def notePrompt (s : Session H) (type : FrameType) : Session H :=
  { s with
    hasPrompt := s.hasPrompt || type = .activation || type = .speculativeActivation }

/-- The checks `run_last` and `run_middle` make before they decode: the rows to decode, or the
session as it is left and the error. -/
def takeRows (m : StageModel H) (s : Session H) (input : Frame H) (bad : String) :
    Except (Session H × String) (List H) :=
  if !input.type.isActivation ∨ !activationDtype input.dtype ∨ input.rows = 0 ∨
      input.cols ≠ m.hidden ∨ input.position ≠ s.position then .error (s, bad)
  else if input.type = .commitActivation ∧ !s.hasPrompt then
    .error (s, "commit received before activation")
  else match payloadRows input with
    | none => .error (s.notePrompt input.type, "activation payload/shape mismatch")
    | some rows =>
      if (maxPayload - 8) / 4 < input.rows * input.cols ∨ m.contextSize - s.position < input.rows
      then .error (s.notePrompt input.type, "activation payload/shape mismatch")
      else .ok rows

/-- The reply of `run_last` to rows it decoded onto the cache `kv`. -/
def lastReply (m : StageModel H) (s : Session H) (input : Frame H) (kv cells : List (Cell H)) :
    Handled H :=
  if input.type = .commitActivation ∨ input.type = .promptChunk then
    s.answer (ack input s.position true)
  else if input.type = .speculativeActivation then
    s.answer (s.verifiedResult input (samplesOf m kv cells))
  else s.sampleResult m input

def runLast (m : StageModel H) (s : Session H) (input : Frame H) (ok : Nat → Bool) : Handled H :=
  if input.type = .speculativeActivation ∧ maxSpeculativeWidth < input.rows then
    s.throw "speculative batch exceeds supported width"
  else match s.takeRows m input "bad activation metadata" with
    | .error (s, message) => s.throw message
    | .ok rows =>
      if !ok 0 then (s.notePrompt input.type).throw "stage B decode failed"
      else ((s.notePrompt input.type).append (rows.map .hidden)).lastReply m input s.kv
        (rows.map .hidden)

def runMiddle (m : StageModel H) (s : Session H) (input : Frame H) (ok : Nat → Bool) : Handled H :=
  match s.takeRows m input "bad middle-stage activation metadata" with
  | .error (s, message) => s.throw message
  | .ok rows =>
    if !ok 0 then (s.notePrompt input.type).throw "middle-stage decode failed"
    else
      ((s.notePrompt input.type).append (rows.map .hidden)).answer
        { input with
          dtype := m.wire
          payload := .hidden (rowsOf m s.kv (rows.map .hidden)) (carriedGuesses input) }

/-- The implicit rollback: a frame at a lower position than the session has reached corrects a
rejected speculative round. -/
def rewind (m : StageModel H) (s : Session H) (position : Nat) : Session H :=
  if position < s.position then s.truncate m position else s

/-- The request bookkeeping of `Stage::execute` before it runs the frame: which request the
session is in, and the implicit rollback to a frame at a lower position. -/
def enter (m : StageModel H) (s : Session H) (input : Frame H) : Except String (Session H) :=
  if input.request = 0 then .error "request ID must be nonzero"
  else if s.chatRequest ∧ !s.chatSpeculative ∧ (input.type = .speculativeActivation ∨
      (input.type = .token ∧ input.rows ≠ 0)) then
    .error "speculation is unavailable for this chat sampler"
  else if s.activeRequest = 0 ∧ input.request ≤ s.lastRequest then
    .error "request ID is not increasing"
  else if s.activeRequest ≠ 0 ∧ s.activeRequest ≠ input.request then .error "request ID mismatch"
  else .ok ({ s with activeRequest := input.request }.rewind m input.position)

def execute (m : StageModel H) (s : Session H) (input : Frame H) (chunk : Nat)
    (ok : Nat → Bool) : Handled H :=
  match s.enter m input with
  | .error message => s.throw message
  | .ok s =>
    if m.first then s.runFirst m input chunk ok
    else if m.last then s.runLast m input ok
    else s.runMiddle m input ok

end Session

end ProviderOwned
