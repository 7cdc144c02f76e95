import ProviderOwned.Stage.Properties

/-!
# What a rejected frame leaves behind

A frame is rejected by the stage's own checks when it would be refused even if every `llama_decode`
call succeeded. The control handlers check everything before they write anything. A frame that runs
is different: `execute` enters it into the session's request and rewinds the session to its
position, and the runners set the prompt flag and use up a prepared chat prompt, before the last of
their checks. `Undisturbed` says when none of these assignments has happened or changed anything.
-/

namespace ProviderOwned

variable {H : Type*}

/-- The frame types `Stage::handle` passes to `execute`. -/
def FrameType.runs : FrameType → Bool
  | .prompt | .token | .commitToken | .activation | .speculativeActivation | .commitActivation
  | .promptChunk => true
  | _ => false

namespace Session

/-- What a rejected frame is to leave alone: position, KV rows, active and last request, prompt
flag, history and the prepared chat prompt. -/
def kept (s : Session H) :
    Nat × List (Cell H) × Nat × Nat × Bool × List Token × List Token × Bool :=
  (s.position, s.kv, s.activeRequest, s.lastRequest, s.hasPrompt, s.history, s.chatTokens,
    s.chatPending)

/-- The checks of `execute` that stand before its first assignment. -/
def Admits (s : Session H) (input : Frame H) : Prop :=
  input.request ≠ 0 ∧
  ¬ (s.chatRequest ∧ !s.chatSpeculative ∧ (input.type = .speculativeActivation ∨
      (input.type = .token ∧ input.rows ≠ 0))) ∧
  (s.activeRequest = 0 → s.lastRequest < input.request) ∧
  (s.activeRequest ≠ 0 → s.activeRequest = input.request)

/-- The frame passes the checks that stand before its runner sets the prompt flag. -/
def Opens (m : StageModel H) (s : Session H) (input : Frame H) : Prop :=
  s.hasPrompt = false ∧ input.position = s.position ∧
  if m.first then
    input.type = .prompt ∧ input.payload.isEmpty = false ∧ input.rows = 0 ∧ input.cols = 0 ∧
      input.dtype = .none
  else
    (input.type = .activation ∨ input.type = .speculativeActivation) ∧
      (m.last → input.type = .speculativeActivation → input.rows ≤ maxSpeculativeWidth) ∧
      activationDtype input.dtype ∧ input.rows ≠ 0 ∧ input.cols = m.hidden

/-- The frame finds its request already active, at or past the session's position, and does not
get as far as the prompt flag. -/
def Settled (m : StageModel H) (s : Session H) (input : Frame H) : Prop :=
  s.activeRequest = input.request ∧ s.position ≤ input.position ∧ ¬ s.Opens m input

end Session

/-- What happens to a stage: a frame arrives, its connection is lost, or the ring records what the
draft model has been fed. -/
inductive StageEvent (H : Type*)
  | frame (input : Frame H) (chunk : Nat) (ok : Nat → Bool)
  | disconnected
  | draft (id : Nat) (d : DraftState)

namespace Session

/-! ### The control handlers -/

/-- An operation that has checked everything before it changes the session. -/
def ChecksFirst (s : Session H) (h : Handled H) : Prop :=
  ∀ e, h.reply = .error e → h.session = s

lemma ChecksFirst.throw (s : Session H) (e : String) : s.ChecksFirst (s.throw e) :=
  fun _ _ => rfl

lemma ChecksFirst.answer (s t : Session H) (f : Frame H) : s.ChecksFirst (t.answer f) := by
  intro e h
  cases h

lemma reset_checksFirst (s : Session H) (f : Frame H) : s.ChecksFirst (s.reset f) := by
  rw [reset]
  split_ifs
  · exact .throw _ _
  · exact .throw _ _
  · exact .answer _ _ _

lemma endRequest_checksFirst (s : Session H) (f : Frame H) : s.ChecksFirst (s.endRequest f) := by
  rw [endRequest]
  split_ifs
  · exact .throw _ _
  · exact .throw _ _
  · exact .throw _ _
  · exact .answer _ _ _

lemma rollback_checksFirst (m : StageModel H) (s : Session H) (f : Frame H) :
    s.ChecksFirst (s.rollback m f) := by
  rw [rollback]
  split_ifs
  · exact .throw _ _
  · exact .answer _ _ _

lemma prepareTokens_checksFirst (m : StageModel H) (s : Session H) (f : Frame H)
    (sampling : Sampling) (tokens : List Token) :
    s.ChecksFirst (s.prepareTokens m f sampling tokens) := by
  rw [prepareTokens]
  split_ifs
  · exact .throw _ _
  · exact .throw _ _
  · exact .throw _ _
  · exact .answer _ _ _

lemma prepareChat_checksFirst (m : StageModel H) (s : Session H) (f : Frame H) :
    s.ChecksFirst (s.prepareChat m f) := by
  rw [prepareChat]
  split_ifs
  · exact .throw _ _
  · cases m.template f.payload.message with
    | none => exact .throw _ _
    | some prepared => exact s.prepareTokens_checksFirst m f prepared.2 (m.tokenize prepared.1)

/-! ### The runners -/

/-- A runner whose own checks reject the frame only with the session as it is in `s`. -/
def RejectsWith (op : (Nat → Bool) → Handled H) (s : Session H) : Prop :=
  ∀ e, (op fun _ => true).reply = .error e → ∀ ok, (op ok).session = s

/-- How a runner leaves the session `s` when its own checks reject the frame: as it was, or with
the prompt flag it has set. -/
def RejectsOpening (m : StageModel H) (op : (Nat → Bool) → Handled H) (s : Session H)
    (f : Frame H) : Prop :=
  ∀ e, (op fun _ => true).reply = .error e → ∀ ok,
    (¬ s.Opens m f ∧ (op ok).session = s) ∨ (s.Opens m f ∧ (op ok).session.hasPrompt = true)

/-- Once the chunks of a prompt are under way nothing but a failed decode stops them. -/
lemma prefillChunks_ok (m : StageModel H) (chunk : Nat) (f : Frame H) (fuel call : Nat)
    (s : Session H) (tokens : List Token) (out : List (Frame H)) :
    ∃ rest, (prefillChunks m chunk (fun _ => true) f fuel call s tokens out).2.2 = .ok rest := by
  induction fuel generalizing call s tokens out with
  | zero => exact ⟨_, rfl⟩
  | succ fuel ih =>
    rw [prefillChunks]
    split_ifs with hlast hdecoded
    · exact ⟨_, rfl⟩
    · exact absurd hdecoded (by decide)
    · exact ih ..

lemma prefill_ok (m : StageModel H) (s : Session H) (f : Frame H) (tokens : List Token)
    (chunk : Nat) : ∃ rest, (s.prefill m f tokens chunk fun _ => true).2.2 = .ok rest := by
  rw [prefill]
  split_ifs
  · exact prefillChunks_ok ..
  · exact ⟨_, rfl⟩

/-- The final batch of a prompt is answered if it is decoded. -/
lemma finalBatch_ok (m : StageModel H) (s : Session H) (f : Frame H) (tokens : List Token)
    (out : List (Frame H)) : ∃ reply, (s.finalBatch m f tokens true out).reply = .ok reply := by
  rw [finalBatch]
  split_ifs with hdecoded
  · exact absurd hdecoded (by decide)
  all_goals exact ⟨_, rfl⟩

/-- With its tokens known the first stage rejects a frame for want of room only. -/
lemma runTokens_rejects (m : StageModel H) (s : Session H) (f : Frame H) (tokens : List Token)
    (chunk : Nat) : RejectsWith (s.runTokens m f tokens chunk) s := by
  intro e he ok
  by_cases hroom : m.contextSize - s.position < tokens.length
  · rw [runTokens, if_pos hroom]
    rfl
  · obtain ⟨rest, hrest⟩ := s.prefill_ok m f tokens chunk
    rw [runTokens, if_neg hroom] at he
    rcases hprefill : s.prefill m f tokens chunk fun _ => true with ⟨t, out, result⟩
    rw [hprefill] at he hrest
    cases hrest
    obtain ⟨reply, hreply⟩ := t.finalBatch_ok m f rest.1 out
    exact absurd (he.symm.trans hreply) (by simp)

lemma runToken_rejects (m : StageModel H) (s : Session H) (f : Frame H) (chunk : Nat) :
    RejectsWith (s.runToken m f chunk) s := by
  intro e he ok
  rw [runToken] at he ⊢
  split at he
  · rfl
  · split_ifs at he ⊢
    · rfl
    · rfl
    · exact runTokens_rejects m s f _ chunk e he ok

/-- A prompt that gets as far as the prompt flag sets it, and is rejected for its tokens or for
want of room. -/
lemma runPrompt_rejects {m : StageModel H} (s : Session H) {f : Frame H} (chunk : Nat)
    (hfirst : m.first) (htype : f.type = .prompt) :
    RejectsOpening m (s.runPrompt m f chunk) s f := by
  intro e he ok
  have hopens : s.Opens m f ↔ ¬ (f.position ≠ s.position ∨ f.payload.isEmpty ∨ f.rows ≠ 0 ∨
      f.cols ≠ 0 ∨ f.dtype ≠ .none) ∧ ¬ s.hasPrompt := by
    simp only [Opens, hfirst, htype]
    grind
  rw [hopens]
  rw [runPrompt] at he ⊢
  split_ifs at he ⊢ with hbad hprompt hchat htokens
  · exact .inl ⟨fun h => h.1 hbad, rfl⟩
  · exact .inl ⟨fun h => h.2 hprompt, rfl⟩
  · refine .inr ⟨⟨hbad, hprompt⟩, ?_⟩
    rw [runTokens_rejects _ _ _ _ _ e he ok]
  · exact .inr ⟨⟨hbad, hprompt⟩, rfl⟩
  · refine .inr ⟨⟨hbad, hprompt⟩, ?_⟩
    rw [runTokens_rejects _ _ _ _ _ e he ok]

lemma runFirst_rejects {m : StageModel H} (s : Session H) (f : Frame H) (chunk : Nat)
    (hfirst : m.first) : RejectsOpening m (s.runFirst m f chunk) s f := by
  intro e he ok
  by_cases htype : f.type = .prompt
  · have hwidth : ¬ (isSpeculative f ∧ maxSpeculativeWidth < f.rows) := by
      simp [isSpeculative, htype]
    rw [runFirst, if_neg hwidth, if_pos htype] at he ⊢
    exact s.runPrompt_rejects chunk hfirst htype e he ok
  · refine .inl ⟨fun h => htype ?_, ?_⟩
    · have hframe := h.2.2
      rw [if_pos hfirst] at hframe
      exact hframe.1
    · rw [runFirst] at he ⊢
      split_ifs at he ⊢
      · rfl
      · exact s.runToken_rejects m f chunk e he ok
      · rfl

lemma notePrompt_self {s : Session H} {type : FrameType}
    (h : s.hasPrompt ∨ ¬ (type = .activation ∨ type = .speculativeActivation)) :
    s.notePrompt type = s := by
  have hprompt : (s.hasPrompt || type = .activation || type = .speculativeActivation) =
      s.hasPrompt := by
    grind
  rw [notePrompt, hprompt]

/-- `takeRows` fails before the prompt flag is set, or after it. -/
lemma takeRows_error {m : StageModel H} {s t : Session H} {f : Frame H} {bad e : String}
    (h : s.takeRows m f bad = .error (t, e)) :
    (t = s ∧ ¬ (f.type.isActivation ∧ activationDtype f.dtype ∧ f.rows ≠ 0 ∧ f.cols = m.hidden ∧
        f.position = s.position ∧ (f.type = .commitActivation → s.hasPrompt))) ∨
      (t = s.notePrompt f.type ∧ f.type.isActivation ∧ activationDtype f.dtype ∧ f.rows ≠ 0 ∧
        f.cols = m.hidden ∧ f.position = s.position) := by
  rw [takeRows] at h
  by_cases hmeta : !f.type.isActivation ∨ !activationDtype f.dtype ∨ f.rows = 0 ∨
      f.cols ≠ m.hidden ∨ f.position ≠ s.position
  · rw [if_pos hmeta] at h
    cases h
    refine .inl ⟨rfl, ?_⟩
    grind
  by_cases hcommit : f.type = .commitActivation ∧ !s.hasPrompt
  · rw [if_neg hmeta, if_pos hcommit] at h
    cases h
    refine .inl ⟨rfl, fun hall => ?_⟩
    grind
  · rw [if_neg hmeta, if_neg hcommit] at h
    refine .inr ⟨?_, by grind⟩
    cases hrows : payloadRows f with
    | none =>
      simp only [hrows] at h
      cases h
      rfl
    | some rows =>
      simp only [hrows] at h
      split_ifs at h
      cases h
      rfl

/-- The runners of the later stages, which take their rows from `takeRows`. -/
lemma takeRows_rejects {m : StageModel H} {s t : Session H} {f : Frame H} {bad e : String}
    (hfirst : m.first = false)
    (hwidth : m.last → f.type = .speculativeActivation → f.rows ≤ maxSpeculativeWidth)
    (h : s.takeRows m f bad = .error (t, e)) :
    (¬ s.Opens m f ∧ t = s) ∨ (s.Opens m f ∧ t.hasPrompt = true) := by
  have hopens : s.Opens m f ↔ s.hasPrompt = false ∧ f.position = s.position ∧
      (f.type = .activation ∨ f.type = .speculativeActivation) ∧ activationDtype f.dtype ∧
      f.rows ≠ 0 ∧ f.cols = m.hidden := by
    simp only [Opens, hfirst]
    grind
  rw [hopens]
  rcases takeRows_error h with ⟨rfl, hbad⟩ | ⟨rfl, hgood⟩
  · refine .inl ⟨fun hall => hbad ?_, rfl⟩
    obtain ⟨-, hposition, htype, hdtype, hrows, hcols⟩ := hall
    refine ⟨?_, hdtype, hrows, hcols, hposition, ?_⟩
    · rcases htype with htype | htype <;> rw [htype] <;> rfl
    · intro hcommit
      rw [hcommit] at htype
      simp at htype
  · by_cases hset : s.hasPrompt ∨ ¬ (f.type = .activation ∨ f.type = .speculativeActivation)
    · refine .inl ⟨fun hall => ?_, notePrompt_self hset⟩
      rcases hset with hset | hset
      · exact absurd hset (by simp [hall.1])
      · exact hset hall.2.2.1
    · have htype : f.type = .activation ∨ f.type = .speculativeActivation := by grind
      refine .inr ⟨⟨by grind, hgood.2.2.2.2, htype, hgood.2.1, hgood.2.2.1, hgood.2.2.2.1⟩, ?_⟩
      rcases htype with htype | htype <;> simp [notePrompt, htype]

lemma runLast_rejects {m : StageModel H} (s : Session H) (f : Frame H) (hfirst : m.first = false)
    (hlast : m.last) : RejectsOpening m (s.runLast m f) s f := by
  intro e he ok
  by_cases hwidth : f.type = .speculativeActivation ∧ maxSpeculativeWidth < f.rows
  · rw [runLast, if_pos hwidth]
    refine .inl ⟨fun h => ?_, rfl⟩
    have hframe := h.2.2
    rw [if_neg (by simp [hfirst])] at hframe
    exact absurd (hframe.2.1 hlast hwidth.1) (Nat.not_le.mpr hwidth.2)
  · rw [runLast, if_neg hwidth] at he ⊢
    cases hrows : s.takeRows m f "bad activation metadata" with
    | error failed =>
      exact takeRows_rejects hfirst (fun _ htype => Nat.not_lt.mp fun h => hwidth ⟨htype, h⟩) hrows
    | ok rows =>
      simp only [hrows] at he
      rw [if_neg (by decide), lastReply] at he
      split_ifs at he <;> simp [sampleResult] at he

lemma runMiddle_rejects {m : StageModel H} (s : Session H) (f : Frame H) (hfirst : m.first = false)
    (hlast : m.last = false) : RejectsOpening m (s.runMiddle m f) s f := by
  intro e he ok
  rw [runMiddle] at he ⊢
  cases hrows : s.takeRows m f "bad middle-stage activation metadata" with
  | error failed =>
    exact takeRows_rejects hfirst (fun h => absurd h (by simp [hlast])) hrows
  | ok rows =>
    simp only [hrows] at he
    rw [if_neg (by decide), answer_reply] at he
    cases he

/-! ### Running a frame -/

/-- The session `execute` hands to the runner of a frame it admits. -/
def entered (m : StageModel H) (s : Session H) (f : Frame H) : Session H :=
  { s with activeRequest := f.request }.rewind m f.position

lemma enter_of_admits {m : StageModel H} {s : Session H} {f : Frame H} (h : s.Admits f) :
    s.enter m f = .ok (s.entered m f) := by
  obtain ⟨hzero, hsampler, hidle, hactive⟩ := h
  have hincreasing : ¬ (s.activeRequest = 0 ∧ f.request ≤ s.lastRequest) :=
    fun h => Nat.not_le.mpr (hidle h.1) h.2
  have hmatch : ¬ (s.activeRequest ≠ 0 ∧ s.activeRequest ≠ f.request) :=
    fun h => h.2 (hactive h.1)
  rw [enter, if_neg hzero, if_neg hsampler, if_neg hincreasing, if_neg hmatch]
  rfl

lemma enter_of_not_admits (m : StageModel H) {s : Session H} {f : Frame H} (h : ¬ s.Admits f) :
    ∃ e, s.enter m f = .error e := by
  rw [enter]
  split_ifs with hzero hsampler hincreasing hmatch
  · exact ⟨_, rfl⟩
  · exact ⟨_, rfl⟩
  · exact ⟨_, rfl⟩
  · exact ⟨_, rfl⟩
  · refine absurd ⟨hzero, hsampler, fun hidle => ?_, fun hactive => ?_⟩ h
    · exact Nat.not_le.mp fun hle => hincreasing ⟨hidle, hle⟩
    · exact Classical.not_not.mp fun hne => hmatch ⟨hactive, hne⟩

lemma entered_hasPrompt (m : StageModel H) (s : Session H) (f : Frame H) :
    (s.entered m f).hasPrompt = s.hasPrompt := by
  rw [entered, rewind]
  split_ifs <;> rfl

/-- Entering a frame leaves the session alone exactly if its request is active already and it is
not behind the session's position. -/
lemma entered_kept_iff (m : StageModel H) (s : Session H) (f : Frame H) :
    (s.entered m f).kept = s.kept ↔ s.activeRequest = f.request ∧ s.position ≤ f.position := by
  rw [entered, rewind]
  split_ifs with hbehind
  · have hbehind' : f.position < s.position := hbehind
    refine iff_of_false (fun h => ?_) fun h => Nat.not_le.mpr hbehind' h.2
    have hposition : f.position = s.position := congrArg (·.1) h
    omega
  · refine ⟨fun h => ⟨?_, Nat.not_lt.mp hbehind⟩, fun h => ?_⟩
    · exact (congrArg (·.2.2.1) h).symm
    · rw [← h.1]

lemma entered_eq_self {m : StageModel H} {s : Session H} {f : Frame H}
    (hrequest : s.activeRequest = f.request) (hposition : s.position ≤ f.position) :
    s.entered m f = s := by
  rw [entered, ← hrequest, rewind, if_neg (Nat.not_lt.mpr hposition)]

lemma execute_rejects {m : StageModel H} {s : Session H} {f : Frame H} (h : s.Admits f)
    (chunk : Nat) : RejectsOpening m (s.execute m f chunk) (s.entered m f) f := by
  intro e he ok
  simp only [execute, enter_of_admits h] at he ⊢
  split_ifs at he ⊢ with hfirst hlast
  · exact runFirst_rejects _ f chunk hfirst e he ok
  · exact runLast_rejects _ f (by simpa using hfirst) hlast e he ok
  · exact runMiddle_rejects _ f (by simpa using hfirst) (by simpa using hlast) e he ok

/-- A frame that runs and is rejected leaves the session alone exactly if it was refused before the
first assignment or is `Settled`. -/
lemma execute_kept_iff (m : StageModel H) (s : Session H) (f : Frame H) (chunk : Nat) {e : String}
    (he : (s.execute m f chunk fun _ => true).reply = .error e) (ok : Nat → Bool) :
    (s.execute m f chunk ok).session.kept = s.kept ↔ (s.Admits f → s.Settled m f) := by
  by_cases hadmits : s.Admits f
  · rcases execute_rejects hadmits chunk e he ok with ⟨hopens, hsession⟩ | ⟨hopens, hprompt⟩
    · rw [hsession, entered_kept_iff]
      refine ⟨fun h _ => ⟨h.1, h.2, ?_⟩, fun h => ⟨(h hadmits).1, (h hadmits).2.1⟩⟩
      rwa [entered_eq_self h.1 h.2] at hopens
    · refine iff_of_false (fun h => ?_) fun h => ?_
      · -- the runner set the prompt flag, which the session did not have
        have hset : (s.execute m f chunk ok).session.hasPrompt = s.hasPrompt :=
          congrArg (·.2.2.2.2.1) h
        rw [hprompt, ← s.entered_hasPrompt m f, hopens.1] at hset
        cases hset
      · obtain ⟨hrequest, hposition, hclosed⟩ := h hadmits
        rw [entered_eq_self hrequest hposition] at hopens
        exact hclosed hopens
  · obtain ⟨message, henter⟩ := enter_of_not_admits m hadmits
    simp [execute, henter, hadmits]

end Session

namespace Stage

def step (st : Stage H) : StageEvent H → Stage H
  | .frame input chunk ok => (st.handle input chunk ok).1
  | .disconnected => st.coordinatorDisconnected
  | .draft id d =>
    match st.sessions.lookup id with
    | none => st
    | some s => { st with sessions := st.sessions.insert id { s with draft := d } }

/-- The event is a frame that the stage's own checks reject. -/
def Rejects (st : Stage H) : StageEvent H → Prop
  | .frame input chunk _ => ∃ message, (st.handle input chunk fun _ => true).2.2 = .error message
  | _ => False

/-- The event leaves every session as it was. -/
def Keeps (st : Stage H) (event : StageEvent H) : Prop :=
  ∀ id, ((st.step event).sessions.lookup id).map Session.kept =
    (st.sessions.lookup id).map Session.kept

/-- A frame that runs and passes the checks before the first assignment is `Settled`. -/
def Undisturbed (st : Stage H) : StageEvent H → Prop
  | .frame input _ _ => input.type.runs → ∀ s, st.requireSession input = .ok s →
      s.Admits input → s.Settled st.model input
  | _ => True

/-- `P` holds at every event of a run, of the state the event finds. -/
def Along (P : Stage H → StageEvent H → Prop) : Stage H → List (StageEvent H) → Prop
  | _, [] => True
  | st, event :: events => P st event ∧ Along P (st.step event) events

variable {st : Stage H} {f : Frame H}

/-- An operation on the session a frame names keeps every session if it keeps that one. -/
lemma onSession_kept_iff (op : Session H → Handled H) :
    (∀ id, ((st.onSession f op).1.sessions.lookup id).map Session.kept =
        (st.sessions.lookup id).map Session.kept) ↔
      ∀ s, st.requireSession f = .ok s → (op s).session.kept = s.kept := by
  cases hreq : st.requireSession f with
  | error e => simp [onSession, hreq]
  | ok s =>
    have hlookup : st.sessions.lookup f.session = some s := by
      rw [requireSession] at hreq
      split_ifs at hreq
      split at hreq
      · cases hreq
      · cases hreq
        assumption
    have hon : (st.onSession f op).1.sessions = st.sessions.insert f.session (op s).session := by
      simp only [onSession, hreq]
    rw [hon]
    constructor
    · intro h t ht
      cases ht
      have hself := h f.session
      rw [AList.lookup_insert, hlookup] at hself
      exact Option.some.inj hself
    · intro h id
      by_cases hid : id = f.session
      · rw [hid, AList.lookup_insert, hlookup, Option.map_some, Option.map_some, h s rfl]
      · rw [AList.lookup_insert_ne hid]

/-- A control handler that checks first keeps every session when it refuses. -/
lemma onSession_checksFirst {op : Session H → Handled H} {e : String}
    (hop : ∀ s : Session H, s.ChecksFirst (op s)) (he : (st.onSession f op).2.2 = .error e)
    (id : Nat) :
    ((st.onSession f op).1.sessions.lookup id).map Session.kept =
      (st.sessions.lookup id).map Session.kept := by
  refine (onSession_kept_iff op).mpr (fun s hs => ?_) id
  have hreply : (op s).reply = .error e := by
    simpa only [onSession, hs] using he
  rw [hop s e hreply]

lemma create_rejected {e : String} (he : (st.create f).2 = .error e) : (st.create f).1 = st := by
  rw [create] at he ⊢
  split_ifs at he ⊢ <;> rfl

lemma destroy_rejected {e : String} (he : (st.destroy f).2 = .error e) :
    (st.destroy f).1 = st := by
  rw [destroy] at he ⊢
  cases hreq : st.requireSession f with
  | error message => rfl
  | ok s =>
    simp only [hreq] at he
    cases hreply : (s.destroy f).reply with
    | error message => simp [hreply]
    | ok reply => simp [hreply] at he

lemma metrics_sessions : (st.metrics f).1.sessions = st.sessions := by
  rw [metrics]
  split_ifs <;> rfl

lemma shutdown_sessions : (st.shutdown f).1.sessions = st.sessions := by
  rw [shutdown]
  split_ifs <;> rfl

lemma handle_runs (hruns : f.type.runs) (chunk : Nat) (ok : Nat → Bool) :
    st.handle f chunk ok =
      if f.request = 0 then (st, [], .error "request ID must be nonzero")
      else st.onSession f (·.execute st.model f chunk ok) := by
  rw [handle]
  cases htype : f.type <;> rw [htype] at hruns <;> first | rfl | cases hruns

/-- A control frame that is rejected keeps every session. -/
lemma control_kept (hcontrol : ¬ f.type.runs) {chunk : Nat} {e : String}
    (he : (st.handle f chunk fun _ => true).2.2 = .error e) (ok : Nat → Bool) (id : Nat) :
    ((st.handle f chunk ok).1.sessions.lookup id).map Session.kept =
      (st.sessions.lookup id).map Session.kept := by
  rw [handle] at he ⊢
  cases htype : f.type <;> rw [htype] at hcontrol <;> simp only [htype] at he ⊢
  case createSession => rw [create_rejected he]
  case resetSession =>
    split_ifs at he ⊢
    · rfl
    · exact onSession_checksFirst (fun s => s.reset_checksFirst f) he id
  case destroySession =>
    split_ifs at he ⊢
    · rfl
    · rw [destroy_rejected he]
  case endRequest =>
    split_ifs at he ⊢
    · rfl
    · exact onSession_checksFirst (fun s => s.endRequest_checksFirst f) he id
  case rollback => exact onSession_checksFirst (fun s => s.rollback_checksFirst st.model f) he id
  case prepareChat =>
    exact onSession_checksFirst (fun s => s.prepareChat_checksFirst st.model f) he id
  case metrics => rw [metrics_sessions]
  case shutdown => rw [shutdown_sessions]
  all_goals exact absurd rfl hcontrol

/-- A rejected frame keeps every session exactly if it is `Undisturbed`. -/
lemma keeps_iff {event : StageEvent H} (hrejects : st.Rejects event) :
    st.Keeps event ↔ st.Undisturbed event := by
  cases event with
  | disconnected => exact hrejects.elim
  | draft id d => exact hrejects.elim
  | frame f chunk ok =>
    obtain ⟨e, he⟩ := hrejects
    by_cases hruns : f.type.runs
    · simp only [Keeps, step, Undisturbed, hruns, forall_const]
      rw [handle_runs hruns] at he ⊢
      split_ifs at he ⊢ with hzero
      · simp [Session.Admits, hzero]
      · rw [onSession_kept_iff]
        refine forall_congr' fun s => forall_congr' fun hs => ?_
        have hreply : (s.execute st.model f chunk fun _ => true).reply = .error e := by
          simpa only [onSession, hs] using he
        exact s.execute_kept_iff st.model f chunk hreply ok
    · exact iff_of_true (control_kept hruns he ok) fun h => absurd h hruns

lemma along_congr {P Q : Stage H → StageEvent H → Prop} (h : ∀ st event, P st event ↔ Q st event)
    (st : Stage H) (events : List (StageEvent H)) : Along P st events ↔ Along Q st events := by
  induction events generalizing st with
  | nil => exact Iff.rfl
  | cons event events ih => exact and_congr (h st event) (ih _)

/-- In every run of a loaded stage, the rejected frames all leave the sessions as they were exactly
if they are all `Undisturbed`. -/
theorem rejections_keep_iff (m : StageModel H) (events : List (StageEvent H)) :
    Along (fun st event => st.Rejects event → st.Keeps event) (load m) events ↔
      Along (fun st event => st.Rejects event → st.Undisturbed event) (load m) events :=
  along_congr (fun _ _ => imp_congr_right keeps_iff) _ _

/-- A stage that is the whole route, whose prompts are the characters of their text and whose
context has room for four of them. -/
def fourTokens : StageModel Nat where
  first := true
  last := true
  contextSize := 4
  maxSessions := 1
  hidden := 1
  wire := .f32le
  tokenize text := text.toList.map Char.toNat
  embed _ := 0
  greedy _ := 0
  chat _ _ := 0
  template _ := none
  piece _ := ""
  isEog _ := false

/-- A new session's first prompt is longer than the context. -/
def longPrompt : List (StageEvent Nat) :=
  [.frame { type := .createSession, session := 1 } 0 fun _ => true,
    .frame { type := .prompt, session := 1, request := 1, payload := .text "hello" } 0
      fun _ => true]

/-- The prompt that does not fit is rejected, and the session is left in its request. -/
theorem longPrompt_not_kept :
    ¬ Along (fun st event => st.Rejects event → st.Keeps event) (load fourTokens) longPrompt := by
  intro h
  have hrejects : ∃ message, (((load fourTokens).step longPrompt[0]).handle
      { type := .prompt, session := 1, request := 1, payload := .text "hello" } 0
      fun _ => true).2.2 = .error message :=
    ⟨"session context exhausted", by decide +kernel⟩
  have hkept := h.2.1 hrejects 1
  have hactive := congrArg (Option.map (·.2.2.1)) hkept
  revert hactive
  decide +kernel

end Stage

end ProviderOwned
