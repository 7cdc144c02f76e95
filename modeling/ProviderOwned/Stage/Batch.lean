import ProviderOwned.Lib.Causal
import ProviderOwned.Stage.Properties

/-!
# A batch through a stage

What a stage does with a batch of rows or tokens when everything is in order: the session has
decoded the rows before it, the batch fits the context and `llama_decode` succeeds. A batch at a
lower position first drops what is above it, so the stage then holds its old rows up to that
position and the batch after them (`execute_rows`, `execute_tokens`).
-/

namespace ProviderOwned

variable {H : Type*}

/-- A frame that carries rows from stage to stage. -/
def batchFrame (type : FrameType) (session request position : Nat) (rows : List H) (cols : Nat)
    (dtype : DType) : Frame H :=
  { type, session, request, position, rows := rows.length, cols, dtype, payload := .hidden rows [] }

section batchFrame

variable (type : FrameType) (session request position : Nat) (rows : List H) (cols : Nat)
  (dtype : DType)

@[simp] lemma batchFrame_type :
    (batchFrame type session request position rows cols dtype).type = type := rfl

@[simp] lemma batchFrame_session :
    (batchFrame type session request position rows cols dtype).session = session := rfl

@[simp] lemma batchFrame_request :
    (batchFrame type session request position rows cols dtype).request = request := rfl

@[simp] lemma batchFrame_position :
    (batchFrame type session request position rows cols dtype).position = position := rfl

@[simp] lemma batchFrame_rows :
    (batchFrame type session request position rows cols dtype).rows = rows.length := rfl

end batchFrame

/-- A frame that carries token ids to the first stage. -/
def tokensFrame (type : FrameType) (session request position rows : Nat) (ids : List Token) :
    Frame H :=
  { type, session, request, position, rows, payload := .tokens ids }

def promptFrame (session request position : Nat) (prompt : String) : Frame H :=
  { type := .prompt, session, request, position, payload := .text prompt }

/-- The type of the activation a frame of the first stage becomes. -/
def carriedType (input : Frame H) : FrameType :=
  if input.type = .commitToken then .commitActivation
  else if Session.isSpeculative input then .speculativeActivation else .activation

def FrameType.isBatch : FrameType → Prop
  | .activation | .speculativeActivation | .commitActivation => True
  | _ => False

/-- The last stage's reply to a batch that ends at `position`, given the sample after each of its
rows. -/
def tailReply (m : StageModel H) (type : FrameType) (session request position : Nat)
    (samples : List Token) : Frame H :=
  if type = .commitActivation then
    { type := .ack, session, request, position, payload := .timing }
  else if type = .speculativeActivation then
    { type := .result, session, request, position, rows := samples.length,
      payload := .verified samples }
  else
    { type := .result, session, request, position,
      payload := .sampled (samples.getLastD 0) (m.isEog (samples.getLastD 0))
        (m.piece (samples.getLastD 0)) }

/-- A stage's reply to a batch at `position`, decoded onto the cache `kv`. -/
def batchReply (m : StageModel H) (type : FrameType) (session request position : Nat)
    (kv batch : List (Cell H)) : Frame H :=
  if m.last then
    tailReply m type session request (position + batch.length) (Session.samplesOf m kv batch)
  else
    batchFrame type session request position (Session.rowsOf m kv batch) m.hidden m.wire

/-- What a stage passes on about the rows it has decoded. -/
def image (m : StageModel H) (cells : List (Cell H)) : List (Cell H) :=
  cells.prefixMap fun c => .hidden (m.embed c)

namespace Session

/-- A session that has decoded exactly `cells`, samples greedily and lets frames of `request` in. -/
structure Ready (request : Nat) (cells : List (Cell H)) (s : Session H) : Prop where
  kv : s.kv = cells
  position : s.position = cells.length
  plain : s.chatRequest = false
  sampler : s.chatSampler = none
  entry : s.activeRequest = request ∨ s.activeRequest = 0 ∧ s.lastRequest < request

/-- A session that is in `request`, has decoded exactly `cells` and samples greedily. -/
structure At (request : Nat) (cells : List (Cell H)) (s : Session H) : Prop where
  kv : s.kv = cells
  position : s.position = cells.length
  plain : s.chatRequest = false
  sampler : s.chatSampler = none
  active : s.activeRequest = request

variable {m : StageModel H} {s : Session H} {request p : Nat} {cells : List (Cell H)}

lemma rowsOf_eq (kv batch : List (Cell H)) :
    rowsOf m kv batch = batch.prefixMap fun c => m.embed (kv ++ c) := rfl

lemma samplesOf_eq (kv batch : List (Cell H)) :
    samplesOf m kv batch = batch.prefixMap fun c => m.greedy (kv ++ c) := rfl

@[simp] lemma length_rowsOf (kv batch : List (Cell H)) :
    (rowsOf m kv batch).length = batch.length := by
  simp [rowsOf_eq]

/-- The image of the cache grows by the rows of the batch. -/
lemma image_append (kv batch : List (Cell H)) :
    image m (kv ++ batch) = image m kv ++ (rowsOf m kv batch).map .hidden := by
  rw [image, List.prefixMap_append, rowsOf_eq, List.map_prefixMap]
  rfl

lemma image_take (kv : List (Cell H)) (n : Nat) : image m (kv.take n) = (image m kv).take n :=
  (List.take_prefixMap ..).symm

@[simp] lemma length_image (kv : List (Cell H)) : (image m kv).length = kv.length :=
  List.length_prefixMap ..

lemma At.ready (h : s.At request cells) : s.Ready request cells :=
  ⟨h.kv, h.position, h.plain, h.sampler, .inl h.active⟩

lemma At.truncate (h : s.At request cells) (hp : p ≤ cells.length) :
    (s.truncate m p).At request (cells.take p) where
  kv := by rw [← h.kv]; rfl
  position := by rw [List.length_take, min_eq_left hp]; rfl
  plain := h.plain
  sampler := h.sampler
  active := h.active

lemma At.rewind (h : s.At request cells) (hp : p ≤ cells.length) :
    (s.rewind m p).At request (cells.take p) := by
  by_cases hlow : p < s.position
  · rw [Session.rewind, if_pos hlow]
    exact h.truncate hp
  · have heq : p = cells.length := by
      have hposition := h.position
      omega
    rw [Session.rewind, if_neg hlow, heq, List.take_length]
    exact h

lemma At.append (h : s.At request cells) (batch : List (Cell H)) :
    (s.append batch).At request (cells ++ batch) where
  kv := by rw [← h.kv]; rfl
  position := by rw [List.length_append, ← h.position]; rfl
  plain := h.plain
  sampler := h.sampler
  active := h.active

lemma At.appendTokens (h : s.At request cells) (ids : List Token) :
    (s.appendTokens ids).At request (cells ++ ids.map .token) := by
  have happend := h.append (ids.map .token)
  exact ⟨happend.kv, happend.position, happend.plain, happend.sampler, happend.active⟩

lemma At.notePrompt (h : s.At request cells) (type : FrameType) :
    (s.notePrompt type).At request cells :=
  ⟨h.kv, h.position, h.plain, h.sampler, h.active⟩

lemma rewind_hasPrompt (s : Session H) (p : Nat) : (s.rewind m p).hasPrompt = s.hasPrompt := by
  rw [Session.rewind]
  split_ifs <;> rfl

lemma rewind_chatPending (s : Session H) (p : Nat) :
    (s.rewind m p).chatPending = s.chatPending := by
  rw [Session.rewind]
  split_ifs <;> rfl

/-- A frame of the request is let in and drops what is above its position. -/
lemma Ready.enter (h : s.Ready request cells) (hrequest : request ≠ 0) {f : Frame H}
    (hf : f.request = request) (hp : f.position ≤ cells.length) :
    ∃ t, s.enter m f = .ok t ∧ t.At request (cells.take f.position) ∧
      t.hasPrompt = s.hasPrompt ∧ t.chatPending = s.chatPending := by
  refine ⟨{ s with activeRequest := f.request }.rewind m f.position, ?_, ?_,
    rewind_hasPrompt .., rewind_chatPending ..⟩
  · have hold : ¬ (s.activeRequest = 0 ∧ f.request ≤ s.lastRequest) := by
      rcases h.entry with hactive | ⟨-, hlast⟩ <;> omega
    have hother : ¬ (s.activeRequest ≠ 0 ∧ s.activeRequest ≠ f.request) := by
      rcases h.entry with hactive | ⟨hactive, -⟩ <;> omega
    have hzero : ¬ f.request = 0 := by rwa [hf]
    rw [Session.enter, if_neg hzero, if_neg (by simp [h.plain]), if_neg hold, if_neg hother]
  · apply At.rewind _ hp
    exact ⟨h.kv, h.position, h.plain, h.sampler, hf⟩

/-- A single sample is the last of the batch's. -/
lemma sampleResult_at {batch : List (Cell H)} (h : s.At request (cells ++ batch))
    (hbatch : batch ≠ []) (input : Frame H) :
    s.sampleResult m input = s.answer
      { type := .result, session := input.session, request := input.request,
        position := (cells ++ batch).length,
        payload := .sampled ((samplesOf m cells batch).getLastD 0)
          (m.isEog ((samplesOf m cells batch).getLastD 0))
          (m.piece ((samplesOf m cells batch).getLastD 0)) } := by
  have hsample : (samplesOf m cells batch).getLastD 0 = m.greedy (cells ++ batch) := by
    obtain ⟨init, c, rfl⟩ := List.eq_nil_or_concat batch |>.resolve_left hbatch
    rw [samplesOf_eq, List.getLastD_eq_getLast?, List.concat_eq_append, List.getLast?_prefixMap]
    rfl
  rw [hsample, sampleResult]
  simp only [sample, h.sampler, h.kv, h.position]

/-! ### Rows at a later stage -/

@[simp] lemma guessCount_batchFrame (type : FrameType) (session q p : Nat) (rows : List H)
    (cols : Nat) (dtype : DType) :
    guessCount (batchFrame type session q p rows cols dtype) = 0 := by
  simp only [guessCount, batchFrame, List.length_nil]
  exact ite_self 0

@[simp] lemma payloadRows_batchFrame (type : FrameType) (session q p : Nat) (rows : List H)
    (cols : Nat) (dtype : DType) :
    payloadRows (batchFrame type session q p rows cols dtype) = some rows := by
  have hcount := guessCount_batchFrame type session q p rows cols dtype
  rw [payloadRows]
  simp [hcount]
  simp [batchFrame]

@[simp] lemma carriedGuesses_batchFrame (type : FrameType) (session q p : Nat) (rows : List H)
    (cols : Nat) (dtype : DType) :
    carriedGuesses (batchFrame type session q p rows cols dtype) = [] := by
  simp [carriedGuesses, batchFrame]

/-- A batch that is in order at a stage whose limits are `m`'s. -/
structure FitsBatch (m : StageModel H) (type : FrameType) (dtype : DType) (position rows : Nat) :
    Prop where
  isBatch : type.isBatch
  isActivation : activationDtype dtype
  nonempty : rows ≠ 0
  context : position + rows ≤ m.contextSize
  payload : rows * m.hidden ≤ (maxPayload - 8) / 4
  width : type = .speculativeActivation → rows ≤ maxSpeculativeWidth

lemma isActivation_of_isBatch {type : FrameType} (h : type.isBatch) :
    type.isActivation = true := by
  cases type <;> first | rfl | exact h.elim

/-- The checks before the decode pass. -/
lemma takeRows_batchFrame {type : FrameType} {dtype : DType} (session : Nat) {rows : List H}
    (h : s.At request cells) (hfits : FitsBatch m type dtype cells.length rows.length)
    (hprompt : type = .commitActivation → s.hasPrompt = true) (bad : String) :
    s.takeRows m (batchFrame type session request cells.length rows m.hidden dtype) bad =
      .ok rows := by
  have hmeta : ¬ (!type.isActivation ∨ !activationDtype dtype ∨ rows.length = 0 ∨
      m.hidden ≠ m.hidden ∨ cells.length ≠ s.position) := by
    simp [isActivation_of_isBatch hfits.isBatch, hfits.isActivation,
      List.length_eq_zero_iff.not.mp hfits.nonempty, h.position]
  have hcommit : ¬ (type = .commitActivation ∧ !s.hasPrompt) := by
    rintro ⟨htype, hnone⟩
    simp [hprompt htype] at hnone
  have hsize : ¬ ((maxPayload - 8) / 4 < rows.length * m.hidden ∨
      m.contextSize - s.position < rows.length) := by
    have hpayload := hfits.payload
    have hcontext := hfits.context
    rw [h.position]
    omega
  rw [takeRows, payloadRows_batchFrame]
  exact (if_neg hmeta).trans ((if_neg hcommit).trans (if_neg hsize))

/-- The reply of the last stage to a batch it decoded. -/
lemma lastReply_batchFrame {type : FrameType} (dtype : DType) (session : Nat) (rows : List H)
    {batch : List (Cell H)} (htype : type.isBatch) (hbatch : batch ≠ [])
    (h : s.At request (cells ++ batch)) :
    s.lastReply m (batchFrame type session request cells.length rows m.hidden dtype) cells batch =
      s.answer (tailReply m type session request (cells.length + batch.length)
        (samplesOf m cells batch)) := by
  have hlength : s.position = cells.length + batch.length := by
    rw [h.position, List.length_append]
  cases type with
  | activation =>
    rw [lastReply, if_neg (by simp [batchFrame]), if_neg (by simp [batchFrame]),
      sampleResult_at h hbatch, List.length_append]
    rfl
  | speculativeActivation =>
    rw [lastReply, if_neg (by simp [batchFrame]), if_pos (by simp [batchFrame]), verifiedResult,
      hlength]
    rfl
  | commitActivation =>
    rw [lastReply, if_pos (.inl rfl), hlength]
    rfl
  | _ => exact htype.elim

/-- A later stage decodes the rows onto what it has up to their position. -/
lemma execute_rows {type : FrameType} {dtype : DType} (session : Nat) {rows : List H}
    (h : s.Ready request cells) (hrequest : request ≠ 0) (hp : p ≤ cells.length)
    (hfirst : m.first = false) (hfits : FitsBatch m type dtype p rows.length)
    (hprompt : type = .commitActivation → s.hasPrompt = true) :
    ∃ t : Session H, t.At request (cells.take p ++ rows.map .hidden) ∧ t.hasPrompt = true ∧
      s.execute m (batchFrame type session request p rows m.hidden dtype) 0 (fun _ => true) =
        t.answer (batchReply m type session request p (cells.take p) (rows.map .hidden)) := by
  obtain ⟨t, henter, hat, hflag, -⟩ :=
    h.enter (m := m) hrequest (f := batchFrame type session request p rows m.hidden dtype) rfl hp
  have hat : t.At request (cells.take p) := hat
  have hlength : (cells.take p).length = p := List.length_take_of_le hp
  have hkept : (t.notePrompt type).hasPrompt = true := by
    cases type with
    | activation | speculativeActivation => simp [Session.notePrompt]
    | commitActivation => simp [Session.notePrompt, hflag, hprompt rfl]
    | _ => exact hfits.isBatch.elim
  have htake := fun bad => takeRows_batchFrame session hat
    (by rwa [hlength]) (by rwa [hflag]) bad
  rw [hlength] at htake
  refine ⟨(t.notePrompt type).append (rows.map .hidden), (hat.notePrompt type).append _, hkept, ?_⟩
  rw [execute, henter]
  simp only [hfirst, Bool.false_eq_true, if_false]
  cases hlast : m.last with
  | true =>
    have hwidth : ¬ (type = .speculativeActivation ∧ maxSpeculativeWidth < rows.length) := by
      rintro ⟨htype, hwide⟩
      exact absurd (hfits.width htype) (by omega)
    have hrows : rows.map Cell.hidden ≠ [] := by
      intro hnil
      exact hfits.nonempty (by simpa using congrArg List.length hnil)
    have hreply :=
      lastReply_batchFrame (m := m) dtype session rows hfits.isBatch hrows
        ((hat.notePrompt type).append _)
    rw [hlength] at hreply
    rw [if_pos rfl, runLast, batchFrame_type, batchFrame_rows, if_neg hwidth, htake]
    simp only [Bool.not_true, Bool.false_eq_true, if_false, hat.kv]
    rw [batchReply, if_pos hlast]
    exact hreply
  | false =>
    rw [if_neg (by simp), runMiddle, htake]
    simp only [Bool.not_true, Bool.false_eq_true, if_false, hat.kv, carriedGuesses_batchFrame]
    rw [batchReply, if_neg (by simp [hlast])]
    simp [batchFrame]

/-! ### Tokens at the first stage -/

/-- With everything in order the first stage decodes its tokens in one batch. -/
lemma runTokens_at (h : s.At request cells) {f : Frame H} (hf : f.request = request)
    {ids : List Token} (hids : ids ≠ []) (hroom : cells.length + ids.length ≤ m.contextSize) :
    s.runTokens m f ids 0 (fun _ => true) =
      (s.appendTokens ids).answer
        (batchReply m (carriedType f) f.session request cells.length cells (ids.map .token)) := by
  have hat := h.appendTokens ids
  have hbatch : ids.map (Cell.token (H := H)) ≠ [] := by simpa using hids
  have hlength : (s.appendTokens ids).position = cells.length + ids.length := by
    rw [hat.position, List.length_append, List.length_map]
  have hposition := h.position
  have hprefill : s.prefill m f ids 0 (fun _ => true) = (s, [], .ok (ids, 0)) :=
    if_neg (by simp)
  rw [runTokens, if_neg (by omega), hprefill]
  simp only [finalBatch, Bool.not_true, Bool.false_eq_true, if_false]
  rw [batchReply]
  cases hlast : m.last with
  | true =>
    simp only [if_true, tailReply, List.length_map]
    by_cases hcommit : f.type = .commitToken
    · rw [if_pos hcommit, carriedType, if_pos hcommit, if_pos rfl, hlength, ← hf]
      rfl
    · by_cases hspec : isSpeculative f = true
      · rw [if_neg hcommit, if_pos hspec, carriedType, if_neg hcommit, if_pos hspec, verifiedResult,
          hlength, h.kv, hf]
        rfl
      · rw [if_neg hcommit, if_neg hspec, carriedType, if_neg hcommit, if_neg hspec,
          sampleResult_at hat hbatch, List.length_append, List.length_map, hf]
        rfl
  | false =>
    simp only [Bool.false_eq_true, if_false, firstActivation, batchFrame, length_rowsOf,
      List.length_map, h.kv, hposition, hf]
    rfl

lemma runTokens_full (h : s.At request cells) (f : Frame H) {ids : List Token} (hids : ids ≠ [])
    (hfull : m.contextSize < cells.length + ids.length) (ok : Nat → Bool) :
    s.runTokens m f ids 0 ok = s.throw "session context exhausted" := by
  have hposition := h.position
  have hlength : 0 < ids.length := List.length_pos_iff.mpr hids
  rw [runTokens, if_pos (by omega)]

/-- The shapes of a `token` or `commit_token` frame: a single id, or a verify batch. -/
def FitsTokens (type : FrameType) (rows : Nat) (ids : List Token) : Prop :=
  (type = .token ∨ type = .commitToken) ∧ rows = 0 ∧ ids.length = 1 ∨
    type = .token ∧ rows = ids.length ∧ ids ≠ [] ∧ rows ≤ maxSpeculativeWidth

lemma runFirst_tokens {type : FrameType} {rows : Nat} (session : Nat) {ids : List Token}
    (h : s.At request cells) (hprompt : s.hasPrompt = true) (hfits : FitsTokens type rows ids) :
    s.runFirst m (tokensFrame type session request cells.length rows ids) 0 (fun _ => true) =
      s.runTokens m (tokensFrame type session request cells.length rows ids) ids 0
        (fun _ => true) := by
  have hposition := h.position
  rcases hfits with ⟨rfl | rfl, rfl, hone⟩ | ⟨rfl, hrows, hids, hwidth⟩
  · simp [runFirst, runToken, tokensFrame, isSpeculative, Payload.tokenIds, hone, hposition,
      hprompt]
  · simp [runFirst, runToken, tokensFrame, isSpeculative, Payload.tokenIds, hone, hposition,
      hprompt]
  · have hzero : rows ≠ 0 := by
      rw [hrows]
      simpa using hids
    have hnarrow : ¬ maxSpeculativeWidth < rows := by omega
    simp [runFirst, runToken, tokensFrame, isSpeculative, Payload.tokenIds, hzero, hnarrow, ← hrows,
      hposition, hprompt]

/-- The first stage decodes the tokens onto what it has up to their position. -/
lemma execute_tokens {type : FrameType} {rows : Nat} (session : Nat) {ids : List Token}
    (h : s.Ready request cells) (hrequest : request ≠ 0) (hp : p ≤ cells.length)
    (hfirst : m.first = true) (hprompt : s.hasPrompt = true) (hfits : FitsTokens type rows ids) :
    (p + ids.length ≤ m.contextSize ∧
      ∃ t : Session H, t.At request (cells.take p ++ ids.map .token) ∧ t.hasPrompt = true ∧
        s.execute m (tokensFrame type session request p rows ids) 0 (fun _ => true) =
          t.answer (batchReply m
            (carriedType (tokensFrame (H := H) type session request p rows ids)) session request p
            (cells.take p) (ids.map .token))) ∨
    (m.contextSize < p + ids.length ∧
      (s.execute m (tokensFrame type session request p rows ids) 0 (fun _ => true)).reply =
        .error "session context exhausted") := by
  obtain ⟨t, henter, hat, hflag, -⟩ :=
    h.enter (m := m) hrequest (f := tokensFrame type session request p rows ids) rfl hp
  have hat : t.At request (cells.take p) := hat
  have hlength : (cells.take p).length = p := List.length_take_of_le hp
  have hids : ids ≠ [] := by
    rcases hfits with ⟨-, -, hone⟩ | ⟨-, -, hids, -⟩
    · rintro rfl
      simp at hone
    · exact hids
  have hrun := runFirst_tokens (m := m) session hat (by rw [hflag, hprompt]) hfits
  rw [hlength] at hrun
  rw [execute, henter]
  simp only [hfirst, if_true, hrun]
  by_cases hroom : p + ids.length ≤ m.contextSize
  · have hdone := runTokens_at (f := tokensFrame type session request p rows ids) hat rfl hids
      (by rwa [hlength])
    rw [hlength] at hdone
    refine .inl ⟨hroom, t.appendTokens ids, hat.appendTokens ids, ?_, hdone⟩
    exact hflag.trans hprompt
  · have hfull : m.contextSize < p + ids.length := by omega
    refine .inr ⟨hfull, ?_⟩
    rw [runTokens_full hat _ hids (by rwa [hlength])]
    rfl

/-- A prompt at the position a session without a prompt has reached. -/
lemma execute_prompt (session : Nat) {prompt : String}
    (h : s.Ready request cells) (hrequest : request ≠ 0)
    (hfirst : m.first = true) (hprompt : s.hasPrompt = false) (hchat : s.chatPending = false)
    (htext : prompt ≠ "") (htokens : m.tokenize prompt ≠ [])
    (hroom : cells.length + (m.tokenize prompt).length ≤ m.contextSize) :
    ∃ t : Session H, t.At request (cells ++ (m.tokenize prompt).map .token) ∧
      t.hasPrompt = true ∧
      s.execute m (promptFrame session request cells.length prompt) 0 (fun _ => true) =
        t.answer (batchReply m .activation session request cells.length cells
          ((m.tokenize prompt).map .token)) := by
  obtain ⟨t, henter, hat, hflag, hpending⟩ :=
    h.enter (m := m) hrequest (f := promptFrame session request cells.length prompt) rfl le_rfl
  have hat : t.At request (cells.take cells.length) := hat
  rw [List.take_length] at hat
  have hposition := hat.position
  have hat' : At request cells { t with hasPrompt := true } :=
    ⟨hat.kv, hat.position, hat.plain, hat.sampler, hat.active⟩
  have hdone := runTokens_at (f := promptFrame session request cells.length prompt) hat' rfl
    htokens hroom
  refine ⟨_, hat'.appendTokens (m.tokenize prompt), rfl, ?_⟩
  rw [execute, henter]
  simp only [hfirst, if_true]
  rw [runFirst, if_neg (by simp [isSpeculative, promptFrame]), if_pos (by rfl), runPrompt,
    if_neg (by simp [promptFrame, Payload.isEmpty, hposition, htext]),
    if_neg (by simp [hflag, hprompt]), if_neg (by simp [hpending, hchat]),
    if_neg (by simpa [promptFrame, Payload.message] using htokens)]
  exact hdone

/-- A prompt with no text, no tokens or too many of them is refused. -/
lemma execute_prompt_refused (session : Nat) {prompt : String}
    (h : s.Ready request cells) (hrequest : request ≠ 0)
    (hfirst : m.first = true) (hprompt : s.hasPrompt = false) (hchat : s.chatPending = false)
    (hbad : prompt = "" ∨ m.tokenize prompt = [] ∨
      m.contextSize < cells.length + (m.tokenize prompt).length) :
    ∃ e, (s.execute m (promptFrame session request cells.length prompt) 0
      (fun _ => true)).reply = .error e := by
  obtain ⟨t, henter, hat, hflag, hpending⟩ :=
    h.enter (m := m) hrequest (f := promptFrame session request cells.length prompt) rfl le_rfl
  have hat : t.At request (cells.take cells.length) := hat
  rw [List.take_length] at hat
  rw [execute, henter]
  simp only [hfirst, if_true]
  rw [runFirst, if_neg (by simp [isSpeculative, promptFrame]), if_pos (by rfl), runPrompt]
  by_cases htext : prompt = ""
  · rw [if_pos (by simp [promptFrame, Payload.isEmpty, htext])]
    exact ⟨_, rfl⟩
  rw [if_neg (by simp [promptFrame, Payload.isEmpty, hat.position, htext]),
    if_neg (by simp [hflag, hprompt]), if_neg (by simp [hpending, hchat])]
  by_cases htokens : m.tokenize prompt = []
  · rw [if_pos (by simpa [promptFrame, Payload.message] using htokens)]
    exact ⟨_, rfl⟩
  rw [if_neg (by simpa [promptFrame, Payload.message] using htokens)]
  have hat' : At request cells { t with hasPrompt := true } :=
    ⟨hat.kv, hat.position, hat.plain, hat.sampler, hat.active⟩
  have hfull : m.contextSize < cells.length + (m.tokenize prompt).length := by
    rcases hbad with h | h | h
    · exact absurd h htext
    · exact absurd h htokens
    · exact h
  exact ⟨_, congrArg Handled.reply (runTokens_full hat' _ htokens hfull _)⟩

end Session

end ProviderOwned
