import ProviderOwned.Stage.Handle

/-!
# What running a frame leaves alone

Running a frame moves a session forward: it may set the prompt flag, use up a prepared chat prompt
and decode rows. Everything that says which request the session is in and how it samples stays as
`enter` left it (`runFirst_fixed`, `runLast_fixed`, `runMiddle_fixed`), so what one frame can do to
those fields is said once, in `execute_cases`.
-/

namespace ProviderOwned

variable {H : Type*}

namespace Session

@[simp] lemma throw_session (s : Session H) (e : String) (out : List (Frame H)) :
    (s.throw e out).session = s := rfl

@[simp] lemma throw_reply (s : Session H) (e : String) (out : List (Frame H)) :
    (s.throw e out).reply = .error e := rfl

@[simp] lemma throw_emitted (s : Session H) (e : String) (out : List (Frame H)) :
    (s.throw e out).emitted = out := rfl

@[simp] lemma answer_session (s : Session H) (f : Frame H) (out : List (Frame H)) :
    (s.answer f out).session = s := rfl

@[simp] lemma answer_reply (s : Session H) (f : Frame H) (out : List (Frame H)) :
    (s.answer f out).reply = .ok f := rfl

@[simp] lemma answer_emitted (s : Session H) (f : Frame H) (out : List (Frame H)) :
    (s.answer f out).emitted = out := rfl

def fixed (s : Session H) : Nat × Nat × Nat × DraftState × Bool × Bool :=
  (s.sequence, s.activeRequest, s.lastRequest, s.draft, s.chatRequest, s.chatSpeculative)

@[simp] lemma append_fixed (s : Session H) (cells : List (Cell H)) :
    (s.append cells).fixed = s.fixed := rfl

@[simp] lemma appendTokens_fixed (s : Session H) (tokens : List Token) :
    (s.appendTokens tokens).fixed = s.fixed := rfl

@[simp] lemma notePrompt_fixed (s : Session H) (type : FrameType) :
    (s.notePrompt type).fixed = s.fixed := rfl

@[simp] lemma truncate_fixed (m : StageModel H) (s : Session H) (p : Nat) :
    (s.truncate m p).fixed = s.fixed := rfl

@[simp] lemma rewind_fixed (m : StageModel H) (s : Session H) (p : Nat) :
    (s.rewind m p).fixed = s.fixed := by
  unfold rewind
  split_ifs <;> rfl

@[simp] lemma sample_fixed (m : StageModel H) (s : Session H) :
    (s.sample m).2.fixed = s.fixed := by
  unfold sample
  cases s.chatSampler <;> rfl

@[simp] lemma sampleResult_fixed (m : StageModel H) (s : Session H) (f : Frame H) :
    (s.sampleResult m f).session.fixed = s.fixed :=
  s.sample_fixed m

lemma prefillChunks_fixed (m : StageModel H) (chunk : Nat) (ok : Nat → Bool) (f : Frame H)
    (fuel call : Nat) (s : Session H) (tokens : List Token) (out : List (Frame H)) :
    (prefillChunks m chunk ok f fuel call s tokens out).1.fixed = s.fixed := by
  induction fuel generalizing call s tokens out with
  | zero => rfl
  | succ fuel ih =>
    unfold prefillChunks
    split_ifs
    · rfl
    · rfl
    · rw [ih, appendTokens_fixed]

lemma prefill_fixed (m : StageModel H) (s : Session H) (f : Frame H) (tokens : List Token)
    (chunk : Nat) (ok : Nat → Bool) : (s.prefill m f tokens chunk ok).1.fixed = s.fixed := by
  unfold prefill
  split_ifs
  · exact prefillChunks_fixed ..
  · rfl

lemma finalBatch_fixed (m : StageModel H) (s : Session H) (f : Frame H) (tokens : List Token)
    (decoded : Bool) (out : List (Frame H)) :
    (s.finalBatch m f tokens decoded out).session.fixed = s.fixed := by
  unfold finalBatch
  split_ifs <;> simp

lemma runTokens_fixed (m : StageModel H) (s : Session H) (f : Frame H) (tokens : List Token)
    (chunk : Nat) (ok : Nat → Bool) :
    (s.runTokens m f tokens chunk ok).session.fixed = s.fixed := by
  unfold runTokens
  split_ifs
  · rfl
  · have hfixed := s.prefill_fixed m f tokens chunk ok
    rcases h : s.prefill m f tokens chunk ok with ⟨t, out, e | ⟨rest, call⟩⟩ <;> rw [h] at hfixed
    · exact hfixed
    · exact (t.finalBatch_fixed m f rest (ok call) out).trans hfixed

lemma runFirst_fixed (m : StageModel H) (s : Session H) (f : Frame H) (chunk : Nat)
    (ok : Nat → Bool) : (s.runFirst m f chunk ok).session.fixed = s.fixed := by
  have hprompt : (s.runPrompt m f chunk ok).session.fixed = s.fixed := by
    unfold runPrompt
    split_ifs <;> first | rfl | exact runTokens_fixed ..
  have htoken : (s.runToken m f chunk ok).session.fixed = s.fixed := by
    unfold runToken
    split
    · rfl
    · split_ifs <;> first | rfl | exact runTokens_fixed ..
  unfold runFirst
  split_ifs <;> first | rfl | assumption

/-- `takeRows` fails with a session that differs in its prompt flag at most. -/
lemma takeRows_fixed {m : StageModel H} {s t : Session H} {f : Frame H} {bad e : String}
    (h : s.takeRows m f bad = .error (t, e)) : t.fixed = s.fixed := by
  unfold takeRows at h
  cases hrows : payloadRows f with
  | none =>
    simp only [hrows] at h
    split_ifs at h <;> (cases h; rfl)
  | some rows =>
    simp only [hrows] at h
    split_ifs at h <;> (cases h; rfl)

lemma lastReply_fixed (m : StageModel H) (s : Session H) (f : Frame H)
    (kv cells : List (Cell H)) : (s.lastReply m f kv cells).session.fixed = s.fixed := by
  unfold lastReply
  split_ifs <;> simp

lemma runLast_fixed (m : StageModel H) (s : Session H) (f : Frame H) (ok : Nat → Bool) :
    (s.runLast m f ok).session.fixed = s.fixed := by
  unfold runLast
  cases h : s.takeRows m f "bad activation metadata" with
  | error e =>
    dsimp only
    split_ifs
    · rfl
    · exact takeRows_fixed h
  | ok rows => split_ifs <;> simp [lastReply_fixed]

lemma runMiddle_fixed (m : StageModel H) (s : Session H) (f : Frame H) (ok : Nat → Bool) :
    (s.runMiddle m f ok).session.fixed = s.fixed := by
  unfold runMiddle
  cases h : s.takeRows m f "bad middle-stage activation metadata" with
  | error e => exact takeRows_fixed h
  | ok rows => split_ifs <;> simp

/-- A frame is refused by `enter` and changes nothing, or it runs in its own request. -/
lemma execute_cases (m : StageModel H) (s : Session H) (f : Frame H) (chunk : Nat)
    (ok : Nat → Bool) :
    (∃ e, s.enter m f = .error e ∧ s.execute m f chunk ok = s.throw e) ∨
    (∃ t, s.enter m f = .ok t ∧ (s.execute m f chunk ok).session.fixed = t.fixed) := by
  unfold execute
  cases h : s.enter m f with
  | error e => exact .inl ⟨e, rfl, rfl⟩
  | ok t =>
    refine .inr ⟨t, rfl, ?_⟩
    dsimp only
    split_ifs
    · exact t.runFirst_fixed m f chunk ok
    · exact t.runLast_fixed m f ok
    · exact t.runMiddle_fixed m f ok

/-- A session `enter` lets through is in the request of the frame, which is not zero. -/
lemma enter_fixed {m : StageModel H} {s t : Session H} {f : Frame H}
    (h : s.enter m f = .ok t) :
    t.fixed = { s with activeRequest := f.request }.fixed ∧ f.request ≠ 0 := by
  unfold enter at h
  split_ifs at h with hzero
  cases h
  exact ⟨rewind_fixed .., hzero⟩

lemma endRequest_position (s : Session H) (f : Frame H) :
    (s.endRequest f).session.position = s.position := by
  rw [endRequest]
  split_ifs <;> rfl

/-- The request a session is in after a frame was run on it. -/
lemma execute_activeRequest (m : StageModel H) (s : Session H) (f : Frame H) (chunk : Nat)
    (ok : Nat → Bool) :
    (s.execute m f chunk ok).session = s ∨
      ((s.execute m f chunk ok).session.activeRequest = f.request ∧ f.request ≠ 0) := by
  rcases s.execute_cases m f chunk ok with ⟨e, -, h⟩ | ⟨t, ht, h⟩
  · exact .inl (by rw [h, throw_session])
  · obtain ⟨hfixed, hzero⟩ := enter_fixed ht
    exact .inr ⟨congrArg (·.2.1) (h.trans hfixed), hzero⟩

end Session

namespace Stage

/-! ### The session table -/

/-- What `onSession` does: nothing, with an error, or one update of the session it found. -/
lemma onSession_cases (st : Stage H) (f : Frame H) (op : Session H → Handled H) :
    (∃ e, st.onSession f op = (st, [], .error e)) ∨
    (∃ s, f.session ≠ 0 ∧ st.sessions.lookup f.session = some s ∧
      st.onSession f op =
        ({ st with sessions := st.sessions.insert f.session (op s).session },
         (op s).emitted, (op s).reply)) := by
  unfold onSession requireSession
  split_ifs with hzero
  · exact .inl ⟨_, rfl⟩
  · cases hs : st.sessions.lookup f.session with
    | none => exact .inl ⟨_, rfl⟩
    | some s => exact .inr ⟨s, hzero, rfl, rfl⟩

lemma onSession_of_lookup {st : Stage H} {f : Frame H} {s : Session H} (hzero : f.session ≠ 0)
    (hs : st.sessions.lookup f.session = some s) (op : Session H → Handled H) :
    st.onSession f op =
      ({ st with sessions := st.sessions.insert f.session (op s).session },
       (op s).emitted, (op s).reply) := by
  simp [onSession, requireSession, hzero, hs]

lemma lookup_create_of_ne (st : Stage H) (f : Frame H) {id : Nat} (hid : id ≠ f.session) :
    (st.create f).1.sessions.lookup id = st.sessions.lookup id := by
  unfold create
  split_ifs <;> simp [AList.lookup_insert_ne hid]

lemma lookup_onSession_of_ne (st : Stage H) (f : Frame H) (op : Session H → Handled H) {id : Nat}
    (hid : id ≠ f.session) : (st.onSession f op).1.sessions.lookup id = st.sessions.lookup id := by
  rcases st.onSession_cases f op with ⟨e, h⟩ | ⟨s, -, -, h⟩
  · rw [h]
  · rw [h]
    exact AList.lookup_insert_ne hid

lemma lookup_destroy_of_ne (st : Stage H) (f : Frame H) {id : Nat} (hid : id ≠ f.session) :
    (st.destroy f).1.sessions.lookup id = st.sessions.lookup id := by
  unfold destroy
  cases st.requireSession f with
  | error e => rfl
  | ok s =>
    cases h : (s.destroy f).reply with
    | error e => simp [h]
    | ok reply => simp [h, AList.lookup_erase_ne hid]

/-- A frame changes no session but the one it names. -/
lemma lookup_handle_of_ne (st : Stage H) (f : Frame H) (chunk : Nat) (ok : Nat → Bool) {id : Nat}
    (hid : id ≠ f.session) :
    (st.handle f chunk ok).1.sessions.lookup id = st.sessions.lookup id := by
  have hmetrics : (st.metrics f).1.sessions = st.sessions := by
    unfold metrics; split_ifs <;> rfl
  have hshutdown : (st.shutdown f).1.sessions = st.sessions := by
    unfold shutdown; split_ifs <;> rfl
  unfold handle
  cases f.type <;> dsimp only <;> (try split_ifs) <;>
    simp [lookup_create_of_ne, lookup_onSession_of_ne, lookup_destroy_of_ne, hid, hmetrics,
      hshutdown]

@[simp] lemma handle_model (st : Stage H) (f : Frame H) (chunk : Nat) (ok : Nat → Bool) :
    (st.handle f chunk ok).1.model = st.model := by
  have hcreate : (st.create f).1.model = st.model := by
    unfold create; split_ifs <;> rfl
  have hon : ∀ op, (st.onSession f op).1.model = st.model := by
    intro op
    rcases st.onSession_cases f op with ⟨e, h⟩ | ⟨s, -, -, h⟩ <;> rw [h]
  have hdestroy : (st.destroy f).1.model = st.model := by
    unfold destroy
    cases st.requireSession f with
    | error e => rfl
    | ok s => cases h : (s.destroy f).reply <;> simp [h]
  have hmetrics : (st.metrics f).1.model = st.model := by
    unfold metrics; split_ifs <;> rfl
  have hshutdown : (st.shutdown f).1.model = st.model := by
    unfold shutdown; split_ifs <;> rfl
  unfold handle
  cases f.type <;> dsimp only <;> (try split_ifs) <;>
    simp [hcreate, hon, hdestroy, hmetrics, hshutdown]

end Stage

/-! ### Sessions with no request have no prompt -/

/-- A session that is in no request has no prompt flag set. -/
def Session.IdleClear (s : Session H) : Prop :=
  s.activeRequest = 0 → s.hasPrompt = false

namespace Session.IdleClear

variable {s : Session H} (h : s.IdleClear) (m : StageModel H) (f : Frame H)
include h

lemma reset : (s.reset f).session.IdleClear := by
  unfold Session.reset
  split_ifs
  · exact h
  · exact h
  · exact fun _ => rfl

lemma endRequest : (s.endRequest f).session.IdleClear := by
  unfold Session.endRequest
  split_ifs
  · exact h
  · exact h
  · exact h
  · exact fun _ => rfl

lemma rollback : (s.rollback m f).session.IdleClear := by
  unfold Session.rollback
  split_ifs <;> exact h

lemma prepareChat : (s.prepareChat m f).session.IdleClear := by
  have htokens : ∀ sampling tokens, (s.prepareTokens m f sampling tokens).session.IdleClear := by
    intro sampling tokens
    unfold Session.prepareTokens
    split_ifs <;> exact h
  unfold Session.prepareChat
  cases m.template f.payload.message with
  | none => split_ifs <;> exact h
  | some prepared =>
    split_ifs
    · exact h
    · exact htokens prepared.2 (m.tokenize prepared.1)

lemma execute (chunk : Nat) (ok : Nat → Bool) : (s.execute m f chunk ok).session.IdleClear := by
  rcases s.execute_activeRequest m f chunk ok with heq | ⟨hreq, hzero⟩
  · rwa [heq]
  · intro hidle
    exact absurd (hreq.symm.trans hidle) hzero

end Session.IdleClear

namespace Stage

/-- Every session of the stage that is in no request has no prompt flag set. -/
def IdleClear (st : Stage H) : Prop :=
  ∀ id s, st.sessions.lookup id = some s → s.IdleClear

namespace IdleClear

variable {st : Stage H} (h : st.IdleClear)
include h

lemma insert {t : Session H} (ht : t.IdleClear) (id : Nat) (used : List Bool) :
    IdleClear { st with sessions := st.sessions.insert id t, sequenceUsed := used } := by
  intro id' s hs
  by_cases hid : id' = id
  · subst hid
    rw [AList.lookup_insert] at hs
    cases hs
    exact ht
  · rw [AList.lookup_insert_ne hid] at hs
    exact h id' s hs

lemma onSession (f : Frame H) {op : Session H → Handled H}
    (hop : ∀ s, s.IdleClear → (op s).session.IdleClear) : (st.onSession f op).1.IdleClear := by
  rcases st.onSession_cases f op with ⟨e, heq⟩ | ⟨s, -, hs, heq⟩
  · rwa [heq]
  · rw [heq]
    exact h.insert (hop s (h _ s hs)) _ _

lemma create (f : Frame H) : (st.create f).1.IdleClear := by
  have hnew : Session.IdleClear ({ sequence := st.sequenceUsed.idxOf false } : Session H) :=
    fun _ => rfl
  unfold Stage.create
  split_ifs <;> first | exact h | exact h.insert hnew _ _

lemma destroy (f : Frame H) : (st.destroy f).1.IdleClear := by
  intro id s hs
  by_cases hid : id = f.session
  · -- the destroyed session is gone, or it was refused and is as before
    unfold Stage.destroy at hs
    cases hreq : st.requireSession f with
    | error e => exact h id s (by simpa [hreq] using hs)
    | ok t =>
      cases hreply : (t.destroy f).reply with
      | error e => exact h id s (by simpa [hreq, hreply] using hs)
      | ok reply =>
        subst hid
        simp [hreq, hreply, AList.lookup_erase] at hs
  · exact h id s (by rwa [st.lookup_destroy_of_ne f hid] at hs)

lemma handle (f : Frame H) (chunk : Nat) (ok : Nat → Bool) :
    (st.handle f chunk ok).1.IdleClear := by
  have hmetrics : (st.metrics f).1.IdleClear := by
    unfold metrics; split_ifs <;> exact h
  have hshutdown : (st.shutdown f).1.IdleClear := by
    unfold shutdown; split_ifs <;> exact h
  have hexecute := h.onSession f fun s hs => hs.execute st.model f chunk ok
  have hreset := h.onSession f fun s hs => hs.reset f
  have hend := h.onSession f fun s hs => hs.endRequest f
  unfold Stage.handle
  cases f.type <;> dsimp only <;> (try split_ifs) <;>
    first
      | assumption
      | exact h.create f
      | exact h.destroy f
      | exact h.onSession f fun s hs => hs.prepareChat st.model f
      | exact h.onSession f fun s hs => hs.rollback st.model f

end IdleClear

lemma Reachable.idleClear {st : Stage H} (h : st.Reachable) : st.IdleClear := by
  induction h with
  | load m => intro id s hs; simp [Stage.load, AList.lookup_empty] at hs
  | handle f chunk ok _ ih => exact ih.handle f chunk ok
  | disconnected _ ih => intro id s hs; simp [coordinatorDisconnected, AList.lookup_empty] at hs
  | @draft st id s d _ hs ih =>
    have hidle : Session.IdleClear { s with draft := d } := ih id s hs
    exact ih.insert hidle id st.sequenceUsed

end Stage

end ProviderOwned
