import ProviderOwned.Lib.Utf8
import ProviderOwned.Gateway.Chat
import ProviderOwned.Gateway.Tools

/-!
# From the bytes of a generation to a reply

The two ways in which the gateway makes text of the bytes it gets in pieces: `streamChat` of
`main.go`, from the chunks of a coordinator, and the loop of `localAPI.chat` in `local.go`, from the
events of a client process. Both hold bytes back until they are characters. At the end of the
generation `streamChat` sends what it still holds with the invalid bytes replaced, and `chat`
refuses the request.

Times, ids and the JSON around a reply are left out, and what is written reaches the client.
-/

namespace ProviderOwned.Gateway

/-- `�`, which stands for invalid bytes. -/
def replacementRune : Text := [0xEF, 0xBF, 0xBD]

/-- `bytes.ToValidUTF8(text, "�")`. -/
def toValidUTF8 (text : Text) : Text := Utf8.toValid replacementRune text

/-! ### Streaming from a coordinator -/

/-- What `streamChat` writes after the header. -/
inductive StreamEvent
  | delta (assistant : Bool) (content : Text)
  | finish (reason : Text)
  | failure (message : CallError)
  | done
  deriving DecidableEq, Repr

/-- The variables of `streamChat` that `emit` keeps. -/
structure Emitter where
  started : Bool := false
  pending : Text := []
  deriving DecidableEq, Repr

namespace Emitter

/-- `emit` for one chunk, and what it writes. -/
def emit (s : Emitter) (payload : Text) : List StreamEvent × Emitter :=
  let pending := s.pending ++ payload
  if Utf8.Valid pending then ([.delta (!s.started) pending], { started := true, pending := [] })
  else ([], { s with pending })

/-- `emit` for one chunk after the other. -/
def emits (s : Emitter) : List Text → List StreamEvent × Emitter
  | [] => ([], s)
  | payload :: payloads =>
    ((s.emit payload).1 ++ ((s.emit payload).2.emits payloads).1,
      ((s.emit payload).2.emits payloads).2)

end Emitter

/-- `streamChat` for a request of `tokens` tokens, where `chatWithSession` passes these chunks to
`emit` and returns `result`. -/
def streamChat (tokens : Nat) (chunks : List WireFrame) (result : Except CallError WireFrame) :
    List StreamEvent :=
  let (events, s) := ({} : Emitter).emits (chunks.map WireFrame.payload)
  match result with
  | .error err => events ++ [.failure err, .done]
  | .ok f =>
    events ++ (if s.pending ≠ [] then [.delta false (toValidUTF8 s.pending)] else []) ++
      [.finish (if f.rows = tokens then ascii "length" else ascii "stop"), .done]

/-! ### The events of a client process -/

/-- `hex[n]`. -/
def hexDigit (n : UInt8) : UInt8 := if n < 10 then n + 48 else n + 87

/-- The client's text for the bytes of a piece. -/
def hexEncode (bytes : Text) : Text := 
  bytes.flatMap fun b : UInt8 => [hexDigit (b >>> 4), hexDigit (b &&& 15)]

def hexValue (c : UInt8) : Option UInt8 :=
  if 48 ≤ c ∧ c ≤ 57 then some (c - 48)
  else if 97 ≤ c ∧ c ≤ 102 then some (c - 87)
  else if 65 ≤ c ∧ c ≤ 70 then some (c - 55)
  else none

/-- `hex.DecodeString`. -/
def hexDecode : Text → Option Text
  | [] => some []
  | [_] => none
  | high :: low :: text => do
    let h ← hexValue high
    let l ← hexValue low
    let bytes ← hexDecode text
    return (h <<< 4 ||| l) :: bytes

lemma hexDecode_digits (b : UInt8) (text : Text) :
    hexDecode (hexDigit (b >>> 4) :: hexDigit (b &&& 15) :: text) =
      (hexDecode text).map (b :: ·) := by
  have hbyte : ∀ n : Fin 256, hexValue (hexDigit (UInt8.ofFin n >>> 4)) =
      some (UInt8.ofFin n >>> 4) ∧
      hexValue (hexDigit (UInt8.ofFin n &&& 15)) = some (UInt8.ofFin n &&& 15) ∧
      (UInt8.ofFin n >>> 4) <<< 4 ||| (UInt8.ofFin n &&& 15) = UInt8.ofFin n := by decide +kernel
  obtain ⟨hhigh, hlow, hjoin⟩ := hbyte b.toFin
  rw [UInt8.ofFin_toFin] at hhigh hlow hjoin
  rw [hexDecode, hhigh, hlow]
  cases hexDecode text with
  | none => rfl
  | some bytes => simp [hjoin]

/-- The client's bytes arrive as they are. -/
lemma hexDecode_hexEncode (bytes : Text) : hexDecode (hexEncode bytes) = some bytes := by
  induction bytes with
  | nil => rfl
  | cons b bytes ih =>
    rw [hexEncode, List.flatMap_cons]
    rw [hexEncode] at ih
    exact (hexDecode_digits b _).trans (congrArg (Option.map (b :: ·)) ih)

lemma hexEncode_eq_nil_iff {bytes : Text} : hexEncode bytes = [] ↔ bytes = [] := by
  cases bytes with
  | nil => exact iff_of_true rfl rfl
  | cons b bytes => exact iff_of_false (List.cons_ne_nil _ _) (List.cons_ne_nil _ _)

/-- An event of a client process as `chat` decodes it. -/
structure ChatEvent where
  model : Text := []
  bytes : Text := []
  done : Bool := false
  tokens : Nat := 0
  eog : Bool := false
  error : Text := []
  reason : Text := []
  sha256 : Text := []
  promptTokens : Nat := 0
  cachedTokens : Nat := 0
  deriving DecidableEq, Repr

/-- What the loop of `chat` and its end read of a request: whether it streams, its token limit, and
the names of its tools. -/
structure LocalOptions where
  stream : Bool
  maxTokens : Nat
  toolNames : List Text := []
  deriving DecidableEq, Repr

/-- The variables of the loop, with the last hash it pinned and the texts it streamed. -/
structure LocalTurn where
  model : Text := []
  started : Bool := false
  done : Bool := false
  eog : Bool := false
  tokens : Nat := 0
  promptTokens : Nat := 0
  cachedTokens : Nat := 0
  contextFull : Bool := false
  invalidChat : Bool := false
  belowTarget : Bool := false
  unavailable : Bool := false
  reason : Text := []
  pending : Text := []
  output : Text := []
  toolText : ToolTextStream := {}
  pinned : Option Text := none
  sent : List Text := []
  deriving DecidableEq, Repr

namespace LocalTurn

def fail (t : LocalTurn) (e : ChatEvent) : LocalTurn :=
  { t with
    contextFull := e.error = ascii "context_length_exceeded"
    invalidChat := e.error = ascii "invalid_chat_request"
    belowTarget := e.error = ascii "below_target"
    unavailable := e.error = ascii "model_unavailable"
    reason := e.reason }

def name (t : LocalTurn) (e : ChatEvent) : LocalTurn :=
  if e.model = [] then t
  else { t with model := e.model,
                pinned := if e.sha256.length = 64 then some e.sha256 else t.pinned }

/-- The held bytes with a piece are `text`. -/
def pass (o : LocalOptions) (t : LocalTurn) (text : Text) : LocalTurn :=
  let (shown, toolText) :=
    if o.toolNames = [] then (text, t.toolText) else t.toolText.push text false
  let streams := o.stream && shown ≠ []
  { t with
    pending := [], output := t.output ++ text, toolText, started := t.started || streams
    sent := if streams then t.sent ++ [shown] else t.sent }

def finish (t : LocalTurn) (e : ChatEvent) : LocalTurn :=
  { t with
    done := true, tokens := e.tokens, eog := e.eog, promptTokens := e.promptTokens
    cachedTokens := e.cachedTokens }

end LocalTurn

/-- The loop of `chat` over the events, `none` for one that is no JSON; with it whether the loop
ends with `io.EOF`. It never reads on after `done`. -/
def readEvents (o : LocalOptions) : LocalTurn → List (Option ChatEvent) → LocalTurn × Bool
  | t, [] => (t, true)
  | t, none :: _ => (t, false)
  | t, some e :: rest =>
    let t' := t.name e
    if e.error ≠ [] then (t.fail e, false)
    else if e.bytes = [] then
      if e.done then (t'.finish e, true) else readEvents o t' rest
    else
      match hexDecode e.bytes with
      | none => (t', false)
      | some piece =>
        if ¬ Utf8.Valid (t'.pending ++ piece) then
          readEvents o { t' with pending := t'.pending ++ piece } rest
        else if e.done then ((t'.pass o (t'.pending ++ piece)).finish e, true)
        else readEvents o (t'.pass o (t'.pending ++ piece)) rest

/-! ### The reply of the local API -/

/-- The words of a text, after `skip` more bytes of white space and with this start of a word:
`strings.Fields`. -/
def fields : Nat → Text → Text → List Text
  | _, word, [] => if word = [] then [] else [word]
  | skip + 1, word, _ :: text => fields skip word text
  | 0, word, c :: text =>
    match spaceRunes.find? fun rune => rune.isPrefixOf (c :: text) with
    | some rune => (if word = [] then [] else [word]) ++ fields (rune.length - 1) [] text
    | none => fields 0 (word ++ [c]) text

structure ErrorBody where
  message : Text
  type : Text := ascii "invalid_request_error"
  code : Option Text := none
  deriving DecidableEq, Repr

/-- What `chat` replies: an error, an error behind the texts it streamed, the texts of all deltas
with the calls, or one message. -/
inductive LocalReply
  | error (status : Nat) (body : ErrorBody)
  | broken (sent : List Text) (body : ErrorBody)
  | streamed (contents : List Text) (calls : List ToolCall) (finish : Text)
  | message (content : Option Text) (calls : List ToolCall) (finish : Text)
      (promptTokens tokens cachedTokens : Nat)
  deriving DecidableEq, Repr

namespace LocalTurn

def refuse (t : LocalTurn) : LocalReply :=
  let contextError : ErrorBody :=
    { message := ascii "Conversation and tool definitions exceed the model context window. " ++
        ascii "Start a new chat, shorten the history, or disable unused tools."
      code := some (ascii "context_length_exceeded") }
  if t.invalidChat ∧ ¬ t.started then
    .error 400
      { message := ascii "invalid chat request or unsupported model template/JSON schema" }
  else if t.belowTarget ∧ ¬ t.started then
    .error 503
      { message := ascii "No DAN route is predicted to meet the speed target (" ++
          List.intercalate (ascii " ") (fields 0 [] t.reason) ++
          ascii "). Choose the dan-any model to accept a slower or not yet measured route." }
  else if t.unavailable ∧ ¬ t.started then
    .error 503
      { message := ascii "The model this conversation used is not available now. " ++
          ascii "Start a new chat to use another model." }
  else if t.contextFull then
    if t.started then .broken t.sent contextError else .error 400 contextError
  else if t.started then
    .broken t.sent
      { message := ascii "DAN inference failed or timed out", type := ascii "server_error" }
  else
    .error 503
      { message := ascii "DAN inference failed or timed out; " ++
          ascii "check that a compatible worker is online" }

/-- The reply to an output whose tool calls are not valid. -/
def refuseCall (t : LocalTurn) : LocalReply :=
  let text := ascii "model returned an invalid or incomplete tool call; " ++
    ascii "retry or increase max_tokens"
  if t.started then .broken t.sent { message := text, type := ascii "server_error" }
  else .error 502 { message := text }

/-- What a stream still shows at the end. -/
def remaining (o : LocalOptions) (t : LocalTurn) : Text :=
  if o.toolNames = [] then [] else (t.toolText.push [] true).1

def reply (o : LocalOptions) (t : LocalTurn) (content : Text) (calls : List ToolCall)
    (finish : Text) :
    LocalReply :=
  if o.stream then
    .streamed (t.sent ++ if t.remaining o = [] then [] else [t.remaining o]) calls finish
  else
    .message (if content = [] ∧ calls ≠ [] then none else some content) calls finish t.promptTokens
      t.tokens t.cachedTokens

/-- The end of `chat`. -/
def conclude (json : JsonReader) (o : LocalOptions) (id : Text) (t : LocalTurn) (eof : Bool) :
    LocalReply :=
  if ¬ eof ∨ ¬ t.done ∨ t.pending ≠ [] then t.refuse
  else
    let finish := if ¬ t.eog ∧ o.maxTokens ≤ t.tokens then ascii "length" else ascii "stop"
    if o.toolNames = [] then t.reply o t.output [] finish
    else
      match parseToolOutput json (o.toolNames.contains ·) id t.output with
      | .error _ => t.refuseCall
      | .ok (content, calls) =>
        t.reply o content calls (if calls = [] then finish else ascii "tool_calls")

end LocalTurn

/-- What `chat` replies after it has sent the request to a process that serves `model`. -/
def localChat (json : JsonReader) (o : LocalOptions) (id model : Text)
    (events : List (Option ChatEvent)) : LocalReply :=
  (readEvents o { model } events).1.conclude json o id (readEvents o { model } events).2

/-! ### Every byte becomes text -/

/-- The output as text: itself, or with its invalid bytes replaced. -/
def outputText (output : Text) : Text := if Utf8.Valid output then output else toValidUTF8 output

lemma outputText_eq (output : Text) : outputText output = toValidUTF8 output := by
  unfold outputText
  split_ifs with h
  · exact (Utf8.toValid_of_valid h).symm
  · rfl

/-- `streamChat` sends the text in deltas that are UTF-8 and ends well. -/
def StreamsText (text : Text) (events : List StreamEvent) : Prop :=
  ∃ deltas : List (Bool × Text), ∃ reason,
    events = deltas.map (fun d => .delta d.1 d.2) ++ [.finish reason, .done] ∧
      (∀ d ∈ deltas, Utf8.Valid d.2) ∧ (deltas.map Prod.snd).flatten = text

/-- The local API replies with the text, in deltas that are UTF-8 where it streams. -/
def LocalReply.Says (text : Text) (reply : LocalReply) : Prop :=
  (∃ contents finish, reply = .streamed contents [] finish ∧ (∀ c ∈ contents, Utf8.Valid c) ∧
    contents.flatten = text) ∨
  ∃ finish promptTokens tokens cachedTokens,
    reply = .message (some text) [] finish promptTokens tokens cachedTokens

lemma Emitter.emits_spec (s : Emitter) (payloads : List Text) :
    ∃ deltas : List (Bool × Text), (s.emits payloads).1 = deltas.map (fun d => .delta d.1 d.2) ∧
      (∀ d ∈ deltas, Utf8.Valid d.2) ∧
      (deltas.map Prod.snd).flatten ++ (s.emits payloads).2.pending =
        s.pending ++ payloads.flatten := by
  induction payloads generalizing s with
  | nil => exact ⟨[], rfl, List.forall_mem_nil _, (List.append_nil _).symm⟩
  | cons payload payloads ih =>
    by_cases hvalid : Utf8.Valid (s.pending ++ payload)
    · obtain ⟨deltas, hevents, hdeltas, htext⟩ := ih { started := true, pending := [] }
      have hemit : s.emit payload =
          ([.delta (!s.started) (s.pending ++ payload)], { started := true, pending := [] }) :=
        if_pos hvalid
      refine ⟨(!s.started, s.pending ++ payload) :: deltas, ?_, ?_, ?_⟩
      · rw [emits, hemit, hevents]
        rfl
      · exact List.forall_mem_cons.mpr ⟨hvalid, hdeltas⟩
      · rw [emits, hemit, List.map_cons, List.flatten_cons, List.append_assoc, htext]
        simp
    · obtain ⟨deltas, hevents, hdeltas, htext⟩ := ih { s with pending := s.pending ++ payload }
      have hemit : s.emit payload =
          ([], { s with pending := s.pending ++ payload }) := if_neg hvalid
      refine ⟨deltas, ?_, hdeltas, ?_⟩
      · rw [emits, hemit, hevents]
        rfl
      · rw [emits, hemit, htext, List.append_assoc]
        rfl

/-- `streamChat` sends the whole output, whatever it is and however it is cut. -/
lemma streamChat_streamsText (tokens : Nat) (chunks : List WireFrame) (f : WireFrame) :
    StreamsText (toValidUTF8 (chunkText chunks)) (streamChat tokens chunks (.ok f)) := by
  obtain ⟨deltas, hevents, hdeltas, htext⟩ :=
    Emitter.emits_spec {} (chunks.map WireFrame.payload)
  set last := (({} : Emitter).emits (chunks.map WireFrame.payload)).2 with hlast
  have hvalid : Utf8.Valid (deltas.map Prod.snd).flatten := by
    apply Utf8.valid_flatten
    intro text hmem
    obtain ⟨d, hd, rfl⟩ := List.mem_map.mp hmem
    exact hdeltas d hd
  have houtput : toValidUTF8 (chunkText chunks) =
      (deltas.map Prod.snd).flatten ++ toValidUTF8 last.pending := by
    have hchunks : chunkText chunks = (deltas.map Prod.snd).flatten ++ last.pending := by
      rw [htext, chunkText, List.flatMap_def]
      rfl
    rw [hchunks]
    exact Utf8.toValid_append hvalid
  by_cases hpending : last.pending = []
  · refine ⟨deltas, if f.rows = tokens then ascii "length" else ascii "stop", ?_, hdeltas, ?_⟩
    · simp [streamChat, hevents, ← hlast, hpending]
    · rw [houtput, hpending]
      simp [toValidUTF8, Utf8.toValid, Utf8.toValidFrom]
  · refine ⟨deltas ++ [(false, toValidUTF8 last.pending)],
      if f.rows = tokens then ascii "length" else ascii "stop", ?_, ?_, ?_⟩
    · simp [streamChat, hevents, ← hlast, hpending]
    · intro d hd
      rcases List.mem_append.mp hd with hd | hd
      · exact hdeltas d hd
      · rw [List.mem_singleton.mp hd]
        exact Utf8.valid_toValidFrom (by decide) false _
    · rw [houtput, List.map_append, List.flatten_append]
      simp

/-! ### The events of a generation -/

/-- A generation that completes: the pieces of its output, and what the client process reports at
its end. -/
structure Generation where
  pieces : List Text
  tokens : Nat
  eog : Bool
  promptTokens : Nat
  cachedTokens : Nat
  deriving DecidableEq, Repr

namespace Generation

def output (g : Generation) : Text := g.pieces.flatten

def events (g : Generation) : List (Option ChatEvent) :=
  g.pieces.map (fun piece => some { bytes := hexEncode piece }) ++
    [some { done := true, tokens := g.tokens, eog := g.eog, promptTokens := g.promptTokens
            cachedTokens := g.cachedTokens }]

end Generation

namespace LocalTurn

def feed (o : LocalOptions) (t : LocalTurn) (piece : Text) : LocalTurn :=
  if piece = [] then t
  else if Utf8.Valid (t.pending ++ piece) then t.pass o (t.pending ++ piece)
  else { t with pending := t.pending ++ piece }

variable {o : LocalOptions} {t : LocalTurn}

@[simp] lemma name_piece (bytes : Text) : t.name { bytes } = t := if_pos rfl

lemma readEvents_piece (piece : Text) (rest : List (Option ChatEvent)) :
    readEvents o t (some { bytes := hexEncode piece } :: rest) =
      readEvents o (t.feed o piece) rest := by
  rw [readEvents, feed]
  by_cases hpiece : piece = []
  · have hbytes : hexEncode [] = [] := rfl
    simp [hpiece, hbytes]
  · have hbytes : hexEncode piece ≠ [] := fun h => hpiece (hexEncode_eq_nil_iff.mp h)
    simp only [ne_eq, not_true_eq_false, if_false, hbytes, name_piece, hexDecode_hexEncode, hpiece]
    by_cases hvalid : Utf8.Valid (t.pending ++ piece)
    · simp [hvalid]
    · simp [hvalid]

lemma readEvents_pieces (pieces : List Text) (rest : List (Option ChatEvent)) :
    readEvents o t (pieces.map (fun piece => some { bytes := hexEncode piece }) ++ rest) =
      readEvents o (pieces.foldl (feed o) t) rest := by
  induction pieces generalizing t with
  | nil => rfl
  | cons piece pieces ih =>
    rw [List.map_cons, List.cons_append, readEvents_piece, ih]
    rfl

/-- What the loop has made of the bytes `all`: the texts `groups` it passed on, and what it
holds. -/
structure Fed (o : LocalOptions) (all : Text) (groups : List Text) (t : LocalTurn) : Prop where
  output : t.output = groups.flatten
  whole : t.output ++ t.pending = all
  valid : ∀ group ∈ groups, Utf8.Valid group
  held : Utf8.Valid t.pending → t.pending = []
  toolText : o.toolNames ≠ [] → t.toolText = (({} : ToolTextStream).pushes groups).2
  sent : t.sent.flatten =
    if o.stream then
      if o.toolNames = [] then groups.flatten else (({} : ToolTextStream).pushes groups).1
    else []
  sent_valid : o.toolNames = [] → ∀ c ∈ t.sent, Utf8.Valid c

lemma fed_empty (o : LocalOptions) (model : Text) : Fed o [] [] { model } where
  output := rfl
  whole := rfl
  valid := List.forall_mem_nil _
  held _ := rfl
  toolText _ := rfl
  sent := by split_ifs <;> rfl
  sent_valid _ := List.forall_mem_nil _

/-- What a stream shows of a text that is passed on. -/
def shown (o : LocalOptions) (t : LocalTurn) (text : Text) : Text :=
  if o.toolNames = [] then text else (t.toolText.push text false).1

lemma sent_pass (text : Text) :
    (t.pass o text).sent =
      if o.stream = true ∧ t.shown o text ≠ [] then t.sent ++ [t.shown o text] else t.sent := by
  unfold pass shown
  by_cases htools : o.toolNames = []
  · simp [htools]
  · simp [htools]

lemma Fed.pass {all : Text} {groups : List Text} (h : Fed o all groups t) {text : Text}
    (hvalid : Utf8.Valid text) : Fed o (t.output ++ text) (groups ++ [text]) (t.pass o text) where
  output := by
    rw [List.flatten_append, ← h.output]
    simp [LocalTurn.pass]
  whole := by simp [LocalTurn.pass]
  valid group hgroup := by
    rcases List.mem_append.mp hgroup with hgroup | hgroup
    · exact h.valid group hgroup
    · rw [List.mem_singleton.mp hgroup]
      exact hvalid
  held _ := rfl
  toolText htools := by
    rw [ToolTextStream.pushes_concat, ← h.toolText htools]
    simp [LocalTurn.pass, htools]
  sent := by
    have hsent : (t.pass o text).sent.flatten =
        t.sent.flatten ++ if o.stream then t.shown o text else [] := by
      rw [sent_pass]
      by_cases hshown : t.shown o text = []
      · simp [hshown]
      · cases o.stream <;> simp [hshown]
    rw [hsent, h.sent]
    cases o.stream with
    | false => rfl
    | true =>
      by_cases htools : o.toolNames = []
      · simp [shown, htools]
      · simp [shown, htools, ToolTextStream.pushes_concat, h.toolText htools]
  sent_valid hplain c hc := by
    rw [sent_pass, shown, if_pos hplain] at hc
    split_ifs at hc
    · rcases List.mem_append.mp hc with hc | hc
      · exact h.sent_valid hplain c hc
      · rw [List.mem_singleton.mp hc]
        exact hvalid
    · exact h.sent_valid hplain c hc

lemma Fed.feed {all : Text} {groups : List Text} (h : Fed o all groups t) (piece : Text) :
    ∃ groups', Fed o (all ++ piece) groups' (t.feed o piece) := by
  unfold LocalTurn.feed
  split_ifs with hpiece hvalid
  · rw [hpiece, List.append_nil]
    exact ⟨groups, h⟩
  · have := h.pass hvalid
    rw [← List.append_assoc, h.whole] at this
    exact ⟨_, this⟩
  · refine ⟨groups, { h with whole := ?_, held := fun hheld => absurd hheld hvalid }⟩
    rw [← h.whole, List.append_assoc]

lemma exists_fed_pieces {all : Text} {groups : List Text} (h : Fed o all groups t)
    (pieces : List Text) :
    ∃ groups', Fed o (all ++ pieces.flatten) groups' (pieces.foldl (LocalTurn.feed o) t) := by
  induction pieces generalizing t all groups with
  | nil => exact ⟨groups, by rwa [List.flatten_nil, List.append_nil]⟩
  | cons piece pieces ih =>
    obtain ⟨groups', hfed⟩ := h.feed piece
    rw [List.flatten_cons, ← List.append_assoc]
    exact ih hfed

end LocalTurn

open LocalTurn

/-- The turn at the end of a generation: its bytes are fed, and its last event was read. -/
lemma readEvents_generation (o : LocalOptions) (model : Text) (g : Generation) :
    ∃ groups t, Fed o g.output groups t ∧
      readEvents o { model } g.events =
        ({ t with
            done := true, tokens := g.tokens, eog := g.eog, promptTokens := g.promptTokens
            cachedTokens := g.cachedTokens }, true) := by
  obtain ⟨groups, hfed⟩ := exists_fed_pieces (fed_empty o model) g.pieces
  refine ⟨groups, _, hfed, ?_⟩
  rw [Generation.events, readEvents_pieces]
  rfl

lemma not_says_error (text : Text) (status : Nat) (body : ErrorBody) :
    ¬ (LocalReply.error status body).Says text := by
  rintro (⟨_, _, h, -⟩ | ⟨_, _, _, _, h⟩) <;> cases h

lemma not_says_broken (text : Text) (sent : List Text) (body : ErrorBody) :
    ¬ (LocalReply.broken sent body).Says text := by
  rintro (⟨_, _, h, -⟩ | ⟨_, _, _, _, h⟩) <;> cases h

/-- A request that failed has no reply with a text. -/
lemma not_says_refuse (text : Text) (t : LocalTurn) : ¬ t.refuse.Says text := by
  unfold refuse
  dsimp only
  split_ifs
  all_goals first | exact not_says_error text _ _ | exact not_says_broken text _ _

lemma reply_plain {o : LocalOptions} (htools : o.toolNames = []) (t : LocalTurn)
    (content finish : Text) :
    t.reply o content [] finish =
      if o.stream then .streamed t.sent [] finish
      else .message (some content) [] finish t.promptTokens t.tokens t.cachedTokens := by
  unfold LocalTurn.reply remaining
  simp [htools]

lemma conclude_plain (json : JsonReader) (id : Text) {o : LocalOptions} {t : LocalTurn}
    (htools : o.toolNames = []) (hdone : t.done = true) (hpending : t.pending = []) :
    ∃ finish, t.conclude json o id true = t.reply o t.output [] finish := by
  rw [conclude, if_neg (by simp [hdone, hpending])]
  exact ⟨_, if_pos htools⟩

/-- **A plain request to the local API** is answered with its output just if the bytes it holds at
the end are none. -/
lemma localChat_says_iff (json : JsonReader) (stream : Bool) (maxTokens : Nat) (id model : Text)
    (g : Generation) :
    (localChat json { stream, maxTokens } id model g.events).Says (outputText g.output) ↔
      Utf8.Valid g.output := by
  obtain ⟨groups, t, hfed, hread⟩ := readEvents_generation { stream, maxTokens } model g
  have hvalid : Utf8.Valid t.output := hfed.output ▸ Utf8.valid_flatten hfed.valid
  have hpending : t.pending = [] ↔ Utf8.Valid g.output := by
    rw [← hfed.whole, Utf8.valid_append hvalid]
    refine ⟨fun h => ?_, hfed.held⟩
    rw [h]
    exact Utf8.valid_nil
  by_cases hnone : t.pending = []
  · have hwhole := hfed.whole
    rw [hnone, List.append_nil] at hwhole
    have htext : outputText g.output = t.output := by
      rw [← hwhole]
      exact if_pos hvalid
    refine iff_of_true ?_ (hpending.mp hnone)
    rw [localChat, hread, htext]
    obtain ⟨finish, hconclude⟩ := conclude_plain json id (o := { stream, maxTokens })
      (t := { t with
        done := true, tokens := g.tokens, eog := g.eog, promptTokens := g.promptTokens
        cachedTokens := g.cachedTokens }) rfl rfl hnone
    rw [hconclude, reply_plain rfl]
    cases stream with
    | true =>
      exact .inl ⟨t.sent, finish, rfl, hfed.sent_valid rfl, hfed.sent.trans hfed.output.symm⟩
    | false => exact .inr ⟨_, _, _, _, rfl⟩
  · refine iff_of_false ?_ fun h => hnone (hpending.mpr h)
    rw [localChat, hread, conclude, if_pos (by simp [hnone])]
    exact not_says_refuse _ _

/-- **Bytes become text without loss** in both gateways just if the output is UTF-8. A coordinator's
stream loses nothing of any output (`streamChat_streamsText`). -/
theorem text_of_pieces_iff (json : JsonReader) (maxTokens : Nat) (id model : Text)
    (g : Generation) :
    ((∀ tokens chunks f, chunks.map WireFrame.payload = g.pieces →
        StreamsText (outputText g.output) (streamChat tokens chunks (.ok f))) ∧
      ∀ stream, (localChat json { stream, maxTokens } id model g.events).Says
        (outputText g.output)) ↔
      Utf8.Valid g.output := by
  constructor
  · intro h
    exact (localChat_says_iff json true maxTokens id model g).mp (h.2 true)
  · intro hvalid
    refine ⟨fun tokens chunks f hchunks => ?_, fun stream => ?_⟩
    · have := streamChat_streamsText tokens chunks f
      rwa [chunkText, List.flatMap_def, hchunks, ← Generation.output, ← outputText_eq] at this
    · exact (localChat_says_iff json stream maxTokens id model g).mpr hvalid

def cutCharacter : Generation where
  pieces := [[0x61], [0xE2, 0x82]]
  tokens := 2
  eog := false
  promptTokens := 1
  cachedTokens := 0

/-- The local API refuses it after it has streamed the first piece. -/
theorem localChat_cutCharacter :
    localChat (callReader []) { stream := true, maxTokens := 2 } [] [] cutCharacter.events =
        .broken [[0x61]]
          { message := ascii "DAN inference failed or timed out", type := ascii "server_error" } ∧
      ¬ (localChat (callReader []) { stream := true, maxTokens := 2 } [] []
        cutCharacter.events).Says (outputText cutCharacter.output) := by
  have hreply : localChat (callReader []) { stream := true, maxTokens := 2 } [] []
      cutCharacter.events = .broken [[0x61]]
        { message := ascii "DAN inference failed or timed out", type := ascii "server_error" } := by
    decide +kernel
  refine ⟨hreply, ?_⟩
  rw [hreply]
  exact not_says_broken _ _ _

/-! ### Requests with tools -/

lemma conclude_tools {json : JsonReader} {id : Text} {o : LocalOptions} {t : LocalTurn}
    {content : Text} {calls : List ToolCall} (htools : o.toolNames ≠ []) (hdone : t.done = true)
    (hpending : t.pending = [])
    (hparse : parseToolOutput json (o.toolNames.contains ·) id t.output = .ok (content, calls)) :
    ∃ finish, t.conclude json o id true = t.reply o content calls finish := by
  rw [conclude, if_neg (by simp [hdone, hpending])]
  simp only [if_neg htools, hparse]
  exact ⟨_, rfl⟩

/-- A streaming client sees what `toolTextStream` shows of the output, cut between characters;
another one gets the content `parseToolOutput` returns. Both get the calls. -/
theorem localChat_tools {json : JsonReader} {o : LocalOptions} {id model : Text} {g : Generation}
    {content : Text} {calls : List ToolCall} (htools : o.toolNames ≠ [])
    (hvalid : Utf8.Valid g.output)
    (hparse : parseToolOutput json (o.toolNames.contains ·) id g.output = .ok (content, calls)) :
    ∃ finish,
      if o.stream then
        ∃ groups contents, groups.flatten = g.output ∧
          localChat json o id model g.events = .streamed contents calls finish ∧
          contents.flatten = ToolTextStream.streamed groups
      else
        localChat json o id model g.events =
          .message (if content = [] ∧ calls ≠ [] then none else some content) calls finish
            g.promptTokens g.tokens g.cachedTokens := by
  obtain ⟨groups, t, hfed, hread⟩ := readEvents_generation o model g
  have houtput : Utf8.Valid t.output := hfed.output ▸ Utf8.valid_flatten hfed.valid
  have hpending : t.pending = [] := by
    apply hfed.held
    rwa [← hfed.whole, Utf8.valid_append houtput] at hvalid
  have hwhole := hfed.whole
  rw [hpending, List.append_nil] at hwhole
  rw [← hwhole] at hparse
  obtain ⟨finish, hconclude⟩ := conclude_tools (t := { t with
    done := true, tokens := g.tokens, eog := g.eog, promptTokens := g.promptTokens
    cachedTokens := g.cachedTokens }) htools rfl hpending hparse
  refine ⟨finish, ?_⟩
  rw [localChat, hread, hconclude, LocalTurn.reply]
  cases hstream : o.stream with
  | false => rfl
  | true =>
    refine ⟨groups, _, hfed.output ▸ hwhole, rfl, ?_⟩
    have hsent := hfed.sent
    rw [hstream, if_pos rfl, if_neg htools] at hsent
    rw [List.flatten_append, hsent, ToolTextStream.streamed, remaining, if_neg htools]
    rw [hfed.toolText htools]
    apply congrArg
    split_ifs with hnil
    · exact hnil.symm
    · exact List.append_nil _

end ProviderOwned.Gateway
