import ProviderOwned.Protocol
import ProviderOwned.Gateway.Conversation

/-!
# A chat request in the API gateway

`chatWithSession` of `main.go` with what it calls: the request resumes the session cached for its
history, or a new session is created on one coordinator after the other. What the coordinators and
the links to them do is a choice of the environment (`Served`, one for each attempt).

A chunk callback is asked about every chunk in turn and may remember the earlier ones, so it is a
function of all chunks up to this one.

`generateWithNewSession` does not go on to the next coordinator once a chunk was emitted;
`chatWithSession` does not look whether the resumed session emitted one before it starts over.
`chat_fromOneAttempt_iff` says that this is the only way in which two attempts mix.
-/

namespace ProviderOwned.Gateway

/-- `type frame struct`. `typeResult`, `typeStream` and `typeChunk` are the protocol's
`client_result`, `stream_prompt` and `client_chunk`. -/
structure WireFrame where
  type : FrameType
  session : Nat := 0
  request : Nat := 0
  rows : Nat := 0
  payload : Text := []
  deriving DecidableEq, Repr

/-- An error of a call: the coordinator's own (`coordinatorError`) or any other. -/
inductive CallError
  | coordinator (message : Text)
  | other (message : String)
  deriving DecidableEq, Repr

/-- `onChunk`: the error after these chunks, if any. -/
abbrev ChunkSink := List WireFrame → Option String

/-- What one attempt meets: the error of dialing, the answer to `create_session`, the error of
writing the prompt, what `readFrame` returns after that, and whether the context is over when the
attempt fails. -/
structure Served where
  dial : Option String := none
  created : Except String WireFrame := .ok { type := .ack }
  write : Option String := none
  reads : List (Except String WireFrame) := []
  ended : Bool := false

/-- What an exchange did: the chunks it passed to `onChunk`, whether it counts as having emitted
any, and how it ended. -/
structure Exchange where
  passed : List WireFrame := []
  emitted : Bool := false
  result : Except CallError WireFrame

/-- What `exchangeGenerate` makes of a frame of its request that is not a chunk. -/
def lastReply (f : WireFrame) : Except CallError WireFrame :=
  if f.type = .error then .error (.coordinator f.payload)
  else if f.type ≠ .clientResult then .error (.other "unexpected DAN response")
  else .ok f

/-- The loop of `exchangeGenerate`. `before` are the chunks `onChunk` has seen so far; a link with
nothing more to read is closed. -/
def readReplies (id : Nat) (onChunk : Option ChunkSink) :
    List WireFrame → Bool → List (Except String WireFrame) → Exchange
  | _, emitted, [] => { emitted, result := .error (.other "EOF") }
  | _, emitted, .error e :: _ => { emitted, result := .error (.other e) }
  | before, emitted, .ok f :: rest =>
    if f.request ≠ id then { emitted, result := .error (.other "mismatched DAN response") }
    else match onChunk with
      | none => { emitted, result := lastReply f }
      | some sink =>
        if f.type ≠ .clientChunk then { emitted, result := lastReply f }
        else if f.rows ≠ 1 then { emitted, result := .error (.other "invalid DAN stream chunk") }
        else match sink (before ++ [f]) with
          | some e => { passed := [f], emitted := true, result := .error (.other e) }
          | none =>
            { readReplies id onChunk (before ++ [f]) true rest with
              passed := f :: (readReplies id onChunk (before ++ [f]) true rest).passed }

def exchangeGenerate (id : Nat) (onChunk : Option ChunkSink) (before : List WireFrame)
    (s : Served) : Exchange :=
  match s.write with
  | some e => { result := .error (.other e) }
  | none => readReplies id onChunk before false s.reads

def generateOn (id : Nat) (onChunk : Option ChunkSink) (before : List WireFrame) (s : Served) :
    Exchange :=
  match s.dial with
  | some e => { result := .error (.other e) }
  | none => exchangeGenerate id onChunk before s

def createSessionThenGenerateOn (id : Nat) (onChunk : Option ChunkSink)
    (before : List WireFrame) (s : Served) : Exchange :=
  match s.dial with
  | some e => { result := .error (.other e) }
  | none =>
    match s.created with
    | .error e => { result := .error (.other e) }
    | .ok ack =>
      if ack.type = .error then { result := .error (.coordinator ack.payload) }
      else if ack.type ≠ .ack then
        { result := .error (.other "unexpected DAN response to create_session") }
      else exchangeGenerate id onChunk before s

def retryableCoordinatorError (message : Text) : Bool :=
  message = ascii "replica_unavailable" || message = ascii "queue_full" ||
    message = ascii "connection_queue_full" || message = ascii "queue_timeout" ||
    message = ascii "provider_disconnected" || (ascii "provider_failure:").isPrefixOf message

/-- Whether `generateWithNewSession` gives up after this error. -/
def CallError.final (err : CallError) (emitted ended : Bool) : Bool :=
  emitted || ended ||
    match err with
    | .coordinator message => !retryableCoordinatorError message
    | .other _ => false

/-- A coordinator of a round: the session id drawn for it and what it does. -/
structure Candidate where
  endpoint : String
  session : Nat
  served : Served

/-- An attempt that was made, and the chunks it passed on. -/
structure Attempt where
  endpoint : String
  session : Nat
  request : Nat
  prompt : Text
  served : Served
  passed : List WireFrame

/-- What `generateWithNewSession` did: its attempts, the sessions it destroys, and its result with
the place of the session. -/
structure NewSession where
  attempts : List Attempt := []
  destroyed : List (String × Nat) := []
  result : Except CallError (WireFrame × String × Nat)

/-- The loop of `generateWithNewSession` over the endpoints; there is always one. -/
def generateWithNewSession (id : Nat) (prompt : Text) (onChunk : Option ChunkSink) :
    List WireFrame → List Candidate → NewSession
  | _, [] => { result := .error (.other "no coordinators") }
  | before, c :: rest =>
    let exchange := createSessionThenGenerateOn id onChunk before c.served
    let attempt : Attempt :=
      ⟨c.endpoint, c.session, id, prompt, c.served, exchange.passed⟩
    match exchange.result with
    | .ok f => { attempts := [attempt], result := .ok (f, c.endpoint, c.session) }
    | .error err =>
      if err.final exchange.emitted c.served.ended ∨ rest.isEmpty then
        { attempts := [attempt], destroyed := [(c.endpoint, c.session)], result := .error err }
      else
        let more := generateWithNewSession id prompt onChunk (before ++ exchange.passed) rest
        { attempts := attempt :: more.attempts
          destroyed := (c.endpoint, c.session) :: more.destroyed
          result := more.result }

structure SessionRecord where
  id : Nat
  endpoint : String
  expires : Nat
  deriving DecidableEq, Repr

/-- A call of `chatWithSession`: its arguments, the record that was cached for its history, the
time at which it looks whether that has expired, the two request ids it may draw, and what the
coordinators do. -/
structure ChatCall where
  messages : List Message
  onChunk : Option ChunkSink := none
  found : Option SessionRecord := none
  now : Nat := 0
  resumeId : Nat := 1
  newId : Nat := 2
  served : Served := {}
  candidates : List Candidate

/-- What a call did. `recorded` is the history it caches the session under, and its place. -/
structure ChatOutcome where
  attempts : List Attempt
  destroyed : List (String × Nat)
  result : Except CallError WireFrame
  recorded : Option (List Message × String × Nat) := none

/-- The payloads of the chunks, one after the other. -/
def chunkText (chunks : List WireFrame) : Text := chunks.flatMap WireFrame.payload

/-- `replyText`: what was streamed, or the result's own text. -/
def replyText (onChunk : Option ChunkSink) (accumulated : List WireFrame) (result : WireFrame) :
    Text :=
  if onChunk.isSome then chunkText accumulated else result.payload

/-- The record `chatWithSession` may resume and the prompt it sends there. -/
def resumes (messages : List Message) (found : Option SessionRecord) (now : Nat) :
    Option (SessionRecord × Text) :=
  if 1 < messages.length then
    found.bind fun rec =>
      if now < rec.expires then
        match qwenPrompt (messages.drop (messages.length - 1)) with
        | .ok delta => some (rec, delta)
        | .error _ => none
      else none
  else none

lemma resumes_eq_some_iff {messages : List Message} {rec rec' : SessionRecord} {now : Nat}
    {delta : Text} :
    resumes messages (some rec) now = some (rec', delta) ↔
      rec' = rec ∧ 1 < messages.length ∧ now < rec.expires ∧
        qwenPrompt (messages.drop (messages.length - 1)) = .ok delta := by
  unfold resumes
  split_ifs with hlong
  · rw [Option.bind_some]
    split_ifs with hnow
    · cases hdelta : qwenPrompt (messages.drop (messages.length - 1)) with
      | ok text => simp [hlong, hnow, eq_comm]
      | error e => simp
    · simp [hnow]
  · simp [hlong]

namespace ChatCall

def history (c : ChatCall) (accumulated : List WireFrame) (result : WireFrame) : List Message :=
  c.messages ++ [assistantMessage (replyText c.onChunk accumulated result)]

/-- The end of `chatWithSession` after a round of new sessions. -/
def conclude (c : ChatCall) (earlier : List Attempt) (destroyed : List (String × Nat))
    (new : NewSession) : ChatOutcome :=
  match new.result with
  | .error err =>
    { attempts := earlier ++ new.attempts, destroyed := destroyed ++ new.destroyed
      result := .error err }
  | .ok (f, endpoint, session) =>
    { attempts := earlier ++ new.attempts, destroyed := destroyed ++ new.destroyed
      result := .ok f
      recorded := some (c.history (new.attempts.flatMap Attempt.passed) f, endpoint, session) }

/-- The part of `chatWithSession` that starts a new session, after the attempts in `earlier`. -/
def startNew (c : ChatCall) (earlier : List Attempt) (destroyed : List (String × Nat)) :
    ChatOutcome :=
  match qwenPrompt c.messages with
  | .error e => { attempts := earlier, destroyed, result := .error (.other e) }
  | .ok full =>
    c.conclude earlier destroyed
      (generateWithNewSession c.newId full c.onChunk (earlier.flatMap Attempt.passed) c.candidates)

/-- The attempt on the session of `rec`. -/
def resumedAttempt (c : ChatCall) (rec : SessionRecord) (delta : Text) : Attempt :=
  ⟨rec.endpoint, rec.id, c.resumeId, delta, c.served,
    (generateOn c.resumeId c.onChunk [] c.served).passed⟩

def chatWithSession (c : ChatCall) : ChatOutcome :=
  match resumes c.messages c.found c.now with
  | none => c.startNew [] []
  | some (rec, delta) =>
    match (generateOn c.resumeId c.onChunk [] c.served).result with
    | .ok f =>
      { attempts := [c.resumedAttempt rec delta], destroyed := [], result := .ok f
        recorded :=
          some (c.history (c.resumedAttempt rec delta).passed f, rec.endpoint, rec.id) }
    | .error _ => c.startNew [c.resumedAttempt rec delta] [(rec.endpoint, rec.id)]

end ChatCall

/-! ### Chunks of an exchange -/

def WireFrame.isChunk (id : Nat) (f : WireFrame) : Bool :=
  f.request = id && f.type = .clientChunk && f.rows = 1

/-- The chunks a coordinator sends before anything else. -/
def chunksOf (id : Nat) : List (Except String WireFrame) → List WireFrame
  | .ok f :: rest => if f.isChunk id then f :: chunksOf id rest else []
  | _ => []

/-- The chunks are all taken by `sink` and then the result comes. -/
def Completes (id : Nat) (sink : ChunkSink) (before : List WireFrame)
    (reads : List (Except String WireFrame)) : Prop :=
  (∀ p, p <+: chunksOf id reads → p ≠ [] → sink (before ++ p) = none) ∧
    ∃ f, reads[(chunksOf id reads).length]? = some (.ok f) ∧ f.request = id ∧
      f.type = .clientResult

section Replies

variable {id : Nat} {before : List WireFrame} {emitted : Bool}
  {reads : List (Except String WireFrame)} {f : WireFrame}

lemma readReplies_chunk {sink : ChunkSink} (hf : f.isChunk id)
    (hsink : sink (before ++ [f]) = none) :
    readReplies id (some sink) before emitted (.ok f :: reads) =
      { readReplies id (some sink) (before ++ [f]) true reads with
        passed := f :: (readReplies id (some sink) (before ++ [f]) true reads).passed } := by
  simp only [WireFrame.isChunk, Bool.and_eq_true, decide_eq_true_eq] at hf
  simp [readReplies, hf, hsink]

lemma readReplies_refused {sink : ChunkSink} {e : String} (hf : f.isChunk id)
    (hsink : sink (before ++ [f]) = some e) :
    readReplies id (some sink) before emitted (.ok f :: reads) =
      { passed := [f], emitted := true, result := .error (.other e) } := by
  simp only [WireFrame.isChunk, Bool.and_eq_true, decide_eq_true_eq] at hf
  simp [readReplies, hf, hsink]

lemma lastReply_eq_ok_iff {g : WireFrame} :
    lastReply f = .ok g ↔ g = f ∧ f.type = .clientResult := by
  unfold lastReply
  split_ifs with herror hother
  · simp [herror]
  · simp [hother]
  · simp [not_not.mp hother, eq_comm]

/-- Anything but a chunk ends the exchange, and only the request's result ends it well. -/
lemma readReplies_other (sink : ChunkSink) (before : List WireFrame) (emitted : Bool)
    (reads : List (Except String WireFrame)) (hf : ¬ f.isChunk id) :
    ∃ result, readReplies id (some sink) before emitted (.ok f :: reads) = { emitted, result } ∧
      ∀ g, result = .ok g ↔ g = f ∧ f.request = id ∧ f.type = .clientResult := by
  simp only [WireFrame.isChunk, Bool.and_eq_true, decide_eq_true_eq, not_and] at hf
  unfold readReplies
  split_ifs with hid hchunk hrows
  · exact ⟨_, rfl, by simp [hid]⟩
  · exact ⟨_, rfl, by simp [lastReply_eq_ok_iff, not_not.mp hid]⟩
  · exact ⟨_, rfl, by simp [not_not.mp hchunk]⟩
  · exact absurd (not_not.mp hrows) (hf ⟨not_not.mp hid, not_not.mp hchunk⟩)

/-- Without `onChunk` the first frame ends the exchange. -/
lemma readReplies_none : (readReplies id none before emitted reads).passed = [] := by
  match reads with
  | [] => rfl
  | .error e :: rest => rfl
  | .ok f :: rest =>
    unfold readReplies
    split_ifs <;> rfl

/-- What the loop passes on are the first chunks, and at least one if there is one. -/
lemma readReplies_passed (id : Nat) (sink : ChunkSink) (before : List WireFrame) (emitted : Bool)
    (reads : List (Except String WireFrame)) :
    (readReplies id (some sink) before emitted reads).passed <+: chunksOf id reads ∧
    ((readReplies id (some sink) before emitted reads).passed = [] ↔ chunksOf id reads = []) ∧
    ((readReplies id (some sink) before emitted reads).emitted =
      (emitted || (readReplies id (some sink) before emitted reads).passed ≠ [])) := by
  induction reads generalizing before emitted with
  | nil => simp [readReplies, chunksOf]
  | cons read reads ih =>
    match read with
    | .error e => simp [readReplies, chunksOf]
    | .ok f =>
      by_cases hf : f.isChunk id
      · cases hsink : sink (before ++ [f]) with
        | some e => simp [readReplies_refused hf hsink, chunksOf, hf]
        | none =>
          obtain ⟨hpre, -, hemitted⟩ := ih (before ++ [f]) true
          simp [readReplies_chunk hf hsink, chunksOf, hf, hpre, hemitted]
      · obtain ⟨result, heq, -⟩ := readReplies_other sink before emitted reads hf
        simp [heq, chunksOf, hf]

/-- The loop succeeds when every chunk is taken and the result comes after them; it has then passed
on all of them. -/
lemma readReplies_ok_iff {sink : ChunkSink} :
    (∃ g, (readReplies id (some sink) before emitted reads).result = .ok g) ↔
      Completes id sink before reads := by
  induction reads generalizing before emitted with
  | nil => simp [readReplies, Completes, chunksOf]
  | cons read reads ih =>
    match read with
    | .error e => simp [readReplies, Completes, chunksOf]
    | .ok f =>
      by_cases hf : f.isChunk id
      · cases hsink : sink (before ++ [f]) with
        | some e =>
          simp only [readReplies_refused hf hsink, reduceCtorEq, exists_false, false_iff]
          intro hall
          have := hall.1 [f] (by simp [chunksOf, hf]) (by simp)
          simp [hsink] at this
        | none =>
          rw [readReplies_chunk hf hsink, ih]
          simp only [Completes, chunksOf, hf, if_true, List.length_cons, List.getElem?_cons_succ]
          refine and_congr_left fun _ => ⟨fun h p hp hne => ?_, fun h p hp hne => ?_⟩
          · match p with
            | [] => exact absurd rfl hne
            | g :: p =>
              obtain ⟨rfl, hrest⟩ := List.cons_prefix_cons.mp hp
              by_cases hnil : p = []
              · rw [hnil]
                exact hsink
              · simpa using h p hrest hnil
          · simpa using h (f :: p) (by simpa using hp) (by simp)
      · obtain ⟨result, heq, hok⟩ := readReplies_other sink before emitted reads hf
        rw [heq]
        simp only [hok, Completes, chunksOf, hf]
        simp

lemma readReplies_passed_of_ok {sink : ChunkSink} {g : WireFrame}
    (h : (readReplies id (some sink) before emitted reads).result = .ok g) :
    (readReplies id (some sink) before emitted reads).passed = chunksOf id reads := by
  induction reads generalizing before emitted with
  | nil => simp [readReplies] at h
  | cons read reads ih =>
    match read with
    | .error e => simp [readReplies] at h
    | .ok f =>
      by_cases hf : f.isChunk id
      · cases hsink : sink (before ++ [f]) with
        | some e => simp [readReplies_refused hf hsink] at h
        | none =>
          rw [readReplies_chunk hf hsink] at h ⊢
          simp [chunksOf, hf, ih h]
      · obtain ⟨result, heq, -⟩ := readReplies_other sink before emitted reads hf
        simp [heq, chunksOf, hf]

end Replies

/-! ### One reply, one attempt -/

namespace Exchange

/-- What is known of any exchange with the coordinator of an attempt: its chunks are the first ones
the coordinator sent, all of them if it succeeds, and it knows whether it emitted any. -/
structure Tracked (e : Exchange) (id : Nat) (onChunk : Option ChunkSink) (s : Served) : Prop where
  first : e.passed <+: chunksOf id s.reads
  silent : onChunk = none → e.passed = []
  emitted : e.passed ≠ [] → e.emitted
  whole : ∀ f, e.result = .ok f → onChunk.isSome → e.passed = chunksOf id s.reads

lemma tracked_of_failed {id : Nat} {onChunk : Option ChunkSink} {s : Served} {err : CallError} :
    Tracked { result := .error err } id onChunk s where
  first := List.nil_prefix
  silent _ := rfl
  emitted h := absurd rfl h
  whole _ h := by simp at h

end Exchange

lemma exchangeGenerate_tracked (id : Nat) (onChunk : Option ChunkSink) (before : List WireFrame)
    (s : Served) : (exchangeGenerate id onChunk before s).Tracked id onChunk s := by
  unfold exchangeGenerate
  split
  · exact Exchange.tracked_of_failed
  · cases onChunk with
    | none => exact ⟨by simp [readReplies_none], fun _ => readReplies_none,
        fun h => absurd readReplies_none h, by simp⟩
    | some sink =>
      obtain ⟨hfirst, -, hemitted⟩ := readReplies_passed id sink before false s.reads
      refine ⟨hfirst, by simp, fun h => ?_, fun f hf _ => readReplies_passed_of_ok hf⟩
      simpa [hemitted] using h

lemma generateOn_tracked (id : Nat) (onChunk : Option ChunkSink) (before : List WireFrame)
    (s : Served) : (generateOn id onChunk before s).Tracked id onChunk s := by
  unfold generateOn
  split
  · exact Exchange.tracked_of_failed
  · exact exchangeGenerate_tracked id onChunk before s

/-- When the exchange passes on a chunk and still fails. -/
lemma generateOn_breaks_iff {id : Nat} {sink : ChunkSink} {before : List WireFrame} {s : Served} :
    ((generateOn id (some sink) before s).passed ≠ [] ∧
        ¬ ∃ f, (generateOn id (some sink) before s).result = .ok f) ↔
      s.dial = none ∧ s.write = none ∧ chunksOf id s.reads ≠ [] ∧
        ¬ Completes id sink before s.reads := by
  cases hdial : s.dial with
  | some e => simp [generateOn, hdial]
  | none =>
    cases hwrite : s.write with
    | some e => simp [generateOn, exchangeGenerate, hdial, hwrite]
    | none =>
      simp only [generateOn, exchangeGenerate, hdial, hwrite, true_and, readReplies_ok_iff]
      exact and_congr_left' (not_congr (readReplies_passed id sink before false s.reads).2.1)

lemma createSessionThenGenerateOn_tracked (id : Nat) (onChunk : Option ChunkSink)
    (before : List WireFrame) (s : Served) :
    (createSessionThenGenerateOn id onChunk before s).Tracked id onChunk s := by
  unfold createSessionThenGenerateOn
  split
  · exact Exchange.tracked_of_failed
  · split
    · exact Exchange.tracked_of_failed
    · split_ifs
      · exact Exchange.tracked_of_failed
      · exact Exchange.tracked_of_failed
      · exact exchangeGenerate_tracked id onChunk before s

namespace ChatOutcome

/-- Everything that was passed to `onChunk`, in order. -/
def streamed (out : ChatOutcome) : List WireFrame := out.attempts.flatMap Attempt.passed

/-- The reply comes from one attempt: only the last one may have passed on a chunk; what was
streamed is the chunks of one attempt as its coordinator sent them, all of them on success; and the
reply recorded for the next turn is what was streamed. -/
structure FromOneAttempt (out : ChatOutcome) (c : ChatCall) : Prop where
  single : ∀ a ∈ out.attempts.dropLast, a.passed = []
  chunks : out.streamed ≠ [] → ∃ a ∈ out.attempts, out.streamed = a.passed ∧
    a.passed <+: chunksOf a.request a.served.reads ∧
    ∀ f, out.result = .ok f → a.passed = chunksOf a.request a.served.reads
  reply : ∀ f, out.result = .ok f → ∃ endpoint session, out.recorded =
    some (c.messages ++ [assistantMessage (replyText c.onChunk out.streamed f)], endpoint, session)

end ChatOutcome

/-- A round of which only the last attempt may have passed on a chunk. -/
def NewSession.Tracked (new : NewSession) (id : Nat) (onChunk : Option ChunkSink) : Prop :=
  ∃ earlier a, new.attempts = earlier ++ [a] ∧ (∀ b ∈ earlier, b.passed = []) ∧ a.request = id ∧
    a.passed <+: chunksOf id a.served.reads ∧ (onChunk = none → a.passed = []) ∧
    ∀ r, new.result = .ok r → onChunk.isSome → a.passed = chunksOf id a.served.reads

lemma generateWithNewSession_tracked (id : Nat) (prompt : Text) (onChunk : Option ChunkSink)
    (before : List WireFrame) {candidates : List Candidate} (hne : candidates ≠ []) :
    (generateWithNewSession id prompt onChunk before candidates).Tracked id onChunk := by
  induction candidates generalizing before with
  | nil => exact absurd rfl hne
  | cons c rest ih =>
    have htracked := createSessionThenGenerateOn_tracked id onChunk before c.served
    simp only [generateWithNewSession]
    split
    · rename_i f hresult
      exact ⟨[], _, rfl, by simp, rfl, htracked.first, htracked.silent,
        fun _ _ => htracked.whole f hresult⟩
    · rename_i err hresult
      split_ifs with hfinal
      · exact ⟨[], _, rfl, by simp, rfl, htracked.first, htracked.silent, by simp⟩
      · -- the round goes on, so this attempt emitted nothing
        simp only [CallError.final, Bool.or_eq_true, not_or, List.isEmpty_iff] at hfinal
        have hquiet : (createSessionThenGenerateOn id onChunk before c.served).passed = [] :=
          by_contra fun h => hfinal.1.1.1 (htracked.emitted h)
        obtain ⟨earlier, a, hattempts, hearlier, hspec⟩ := ih
          (before ++ (createSessionThenGenerateOn id onChunk before c.served).passed) hfinal.2
        refine ⟨_ :: earlier, a, by rw [hattempts]; rfl, ?_, hspec⟩
        exact List.forall_mem_cons.mpr ⟨hquiet, hearlier⟩

namespace ChatCall

/-- The resumed session streams a chunk and then fails: after its first chunks something other than
the result comes, or `onChunk` does not take one of them. -/
def BreaksMidStream (c : ChatCall) : Prop :=
  ∃ sink rec delta, c.onChunk = some sink ∧ resumes c.messages c.found c.now = some (rec, delta) ∧
    c.served.dial = none ∧ c.served.write = none ∧ chunksOf c.resumeId c.served.reads ≠ [] ∧
    ¬ Completes c.resumeId sink [] c.served.reads

variable {c : ChatCall} {earlier : List Attempt} {destroyed : List (String × Nat)}

/-- A round of new sessions after attempts that passed on nothing. -/
lemma conclude_fromOneAttempt {new : NewSession} (hquiet : ∀ a ∈ earlier, a.passed = [])
    (hnew : new.Tracked c.newId c.onChunk) :
    (c.conclude earlier destroyed new).FromOneAttempt c := by
  obtain ⟨quiet, a, hattempts, hnone, hrequest, hfirst, hsilent, hwhole⟩ := hnew
  have hpassed : new.attempts.flatMap Attempt.passed = a.passed := by
    rw [hattempts, List.flatMap_append, List.flatMap_eq_nil_iff.mpr hnone]
    simp
  have hstreamed : (earlier ++ new.attempts).flatMap Attempt.passed = a.passed := by
    rw [List.flatMap_append, List.flatMap_eq_nil_iff.mpr hquiet, hpassed, List.nil_append]
  have hsingle : ∀ b ∈ (earlier ++ new.attempts).dropLast, b.passed = [] := by
    rw [hattempts, ← List.append_assoc, List.dropLast_concat]
    intro b hb
    exact (List.mem_append.mp hb).elim (hquiet b) (hnone b)
  have hmem : a ∈ earlier ++ new.attempts := by
    rw [hattempts]
    simp
  unfold conclude
  split
  · exact ⟨hsingle, fun _ => ⟨a, hmem, hstreamed, hrequest ▸ hfirst, by simp⟩, by simp⟩
  · rename_i f endpoint session hresult
    refine ⟨hsingle, fun hne => ⟨a, hmem, hstreamed, hrequest ▸ hfirst, fun g _ => ?_⟩,
      fun g hg => ⟨endpoint, session, ?_⟩⟩
    · have hsome : c.onChunk.isSome := by
        rw [Option.isSome_iff_ne_none]
        exact fun hnil => hne (hstreamed.trans (hsilent hnil))
      exact hrequest ▸ hwhole _ hresult hsome
    · obtain rfl := Except.ok.inj hg
      simp [ChatOutcome.streamed, hstreamed, hpassed, history]

lemma startNew_fromOneAttempt (hcandidates : c.candidates ≠ [])
    (hquiet : ∀ a ∈ earlier, a.passed = []) :
    (c.startNew earlier destroyed).FromOneAttempt c := by
  unfold startNew
  split
  · refine ⟨fun a ha => hquiet a (List.dropLast_subset _ ha), fun h => ?_, by simp⟩
    exact absurd (List.flatMap_eq_nil_iff.mpr hquiet) h
  · exact conclude_fromOneAttempt hquiet (generateWithNewSession_tracked _ _ _ _ hcandidates)

lemma conclude_attempts {new : NewSession} :
    (c.conclude earlier destroyed new).attempts = earlier ++ new.attempts := by
  unfold conclude
  split <;> rfl

/-- After an attempt that passed on a chunk a new session is one attempt too many. -/
lemma startNew_not_fromOneAttempt {a : Attempt} (hmessages : Accepted c.messages)
    (hcandidates : c.candidates ≠ []) (ha : a.passed ≠ []) :
    ¬ (c.startNew [a] destroyed).FromOneAttempt c := by
  intro h
  obtain ⟨quiet, b, hattempts, -⟩ := generateWithNewSession_tracked c.newId
    (rendered c.messages ++ assistantStart) c.onChunk ([a].flatMap Attempt.passed) hcandidates
  refine ha (h.single a ?_)
  rw [startNew, qwenPrompt_of_accepted hmessages]
  rw [conclude_attempts, hattempts, ← List.append_assoc, List.dropLast_concat]
  simp

/-- A resumed session that answers. -/
lemma resumed_fromOneAttempt {a : Attempt} {f : WireFrame} {endpoint : String} {session : Nat}
    (hfirst : a.passed <+: chunksOf a.request a.served.reads)
    (hwhole : a.passed ≠ [] → a.passed = chunksOf a.request a.served.reads) :
    ChatOutcome.FromOneAttempt
      { attempts := [a], destroyed := [], result := .ok f
        recorded := some (c.history a.passed f, endpoint, session) } c := by
  have hstreamed : [a].flatMap Attempt.passed = a.passed := by simp
  refine ⟨by simp, fun hne => ⟨a, by simp, hstreamed, hfirst, fun _ _ => ?_⟩, fun g hg => ?_⟩
  · exact hwhole fun hnil => hne (hstreamed.trans hnil)
  · obtain rfl := Except.ok.inj hg
    exact ⟨endpoint, session, by simp [ChatOutcome.streamed, history]⟩

/-- The streamed reply of `chatWithSession` comes from one attempt, and is what the next turn
records, unless the session it resumes breaks after its first chunk. -/
theorem chat_fromOneAttempt_iff (hmessages : Accepted c.messages)
    (hcandidates : c.candidates ≠ []) :
    c.chatWithSession.FromOneAttempt c ↔ ¬ c.BreaksMidStream := by
  cases hresumes : resumes c.messages c.found c.now with
  | none =>
    refine iff_of_true ?_ fun ⟨_, _, _, _, h, _⟩ => by simp [hresumes] at h
    rw [chatWithSession, hresumes]
    exact startNew_fromOneAttempt hcandidates (by simp)
  | some resumed =>
    obtain ⟨rec, delta⟩ := resumed
    have htracked := generateOn_tracked c.resumeId c.onChunk [] c.served
    have hbreaks : c.BreaksMidStream ↔
        (generateOn c.resumeId c.onChunk [] c.served).passed ≠ [] ∧
          ¬ ∃ f, (generateOn c.resumeId c.onChunk [] c.served).result = .ok f := by
      cases hsink : c.onChunk with
      | none =>
        rw [hsink] at htracked
        simp [BreaksMidStream, hsink, htracked.silent rfl]
      | some sink =>
        rw [generateOn_breaks_iff]
        simp [BreaksMidStream, hsink, hresumes]
    cases hresult : (generateOn c.resumeId c.onChunk [] c.served).result with
    | ok f =>
      rw [hbreaks]
      simp only [chatWithSession, hresumes, hresult]
      refine iff_of_true (resumed_fromOneAttempt htracked.first fun hne => ?_) (by simp)
      refine htracked.whole f hresult (Option.isSome_iff_ne_none.mpr fun hnone => ?_)
      exact hne (htracked.silent hnone)
    | error err =>
      rw [hbreaks]
      simp only [chatWithSession, hresumes, hresult, reduceCtorEq, exists_false, not_false_eq_true,
        and_true, not_not]
      refine ⟨fun h => by_contra fun hne => ?_, fun hnil => ?_⟩
      · exact startNew_not_fromOneAttempt hmessages hcandidates hne h
      · exact startNew_fromOneAttempt hcandidates (by simp [resumedAttempt, hnil])

/-- The second turn of a conversation whose session is cached; the coordinator that holds it
answers as in `reads`, the other one streams a whole answer. -/
def secondTurn (reads : List (Except String WireFrame)) : ChatCall where
  messages := [⟨ascii "user", ascii "Hi"⟩, assistantMessage (ascii "Hello"),
    ⟨ascii "user", ascii "Bye"⟩]
  onChunk := some fun _ => none
  found := some ⟨7, "a:50100", 600⟩
  served := { reads }
  candidates :=
    [⟨"b:50100", 8, { reads := [.ok ⟨.clientChunk, 8, 2, 1, ascii "So long"⟩,
                                .ok ⟨.clientResult, 8, 2, 1, []⟩] }⟩]

/-- The resumed session streams its answer to the end. -/
theorem secondTurn_fromOneAttempt :
    (secondTurn [.ok ⟨.clientChunk, 7, 1, 1, ascii "See"⟩,
      .ok ⟨.clientChunk, 7, 1, 1, ascii " you"⟩,
      .ok ⟨.clientResult, 7, 1, 2, []⟩]).chatWithSession.streamed.length = 2 ∧
    (secondTurn [.ok ⟨.clientChunk, 7, 1, 1, ascii "See"⟩,
      .ok ⟨.clientChunk, 7, 1, 1, ascii " you"⟩,
      .ok ⟨.clientResult, 7, 1, 2, []⟩]).chatWithSession.FromOneAttempt
      (secondTurn [.ok ⟨.clientChunk, 7, 1, 1, ascii "See"⟩,
        .ok ⟨.clientChunk, 7, 1, 1, ascii " you"⟩, .ok ⟨.clientResult, 7, 1, 2, []⟩]) := by
  refine ⟨by decide, (chat_fromOneAttempt_iff (by decide) (by simp [secondTurn])).mpr ?_⟩
  rintro ⟨sink, rec, delta, hsink, -, -, -, -, hbreaks⟩
  obtain rfl := Option.some.inj hsink
  exact hbreaks ⟨fun _ _ _ => rfl, _, rfl, rfl, rfl⟩

/-- The resumed session streams a chunk and its link breaks: the client sees the start of one answer
and then the whole of another. -/
theorem brokenResume_not_fromOneAttempt :
    ¬ ∀ c : ChatCall, Accepted c.messages → c.candidates ≠ [] →
      c.chatWithSession.FromOneAttempt c := by
  intro h
  have hsingle := (h (secondTurn [.ok ⟨.clientChunk, 7, 1, 1, ascii "See"⟩]) (by decide)
    (by simp [secondTurn])).single _ (List.mem_singleton.mpr rfl)
  exact absurd hsingle (by decide)

end ChatCall

end ProviderOwned.Gateway
