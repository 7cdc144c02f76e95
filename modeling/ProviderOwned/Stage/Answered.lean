import ProviderOwned.Stage.CatchUp

/-!
# Frames that a stage answers

What a frame has done to its session where the stage answered it (`handle_answered`). A control
frame that is refused has done nothing (`lookup_handle_of_refused`).
-/

namespace ProviderOwned

variable {H : Type*}

/-- The session that `Stage::reset` leaves. -/
def Session.cleared (s : Session H) : Session H :=
  { s with
    position := 0, activeRequest := 0, lastRequest := 0, hasPrompt := false, draft := {},
    history := [], chatTokens := [], chatPending := false, chatRequest := false,
    chatSampler := none, kv := [] }

namespace Stage

variable {st : Stage H} {f : Frame H} {chunk : Nat} {ok : Nat → Bool}

/-- The session that a frame names before and after a stage with this model has answered it. -/
inductive Answered (m : StageModel H) (f : Frame H) (chunk : Nat) (ok : Nat → Bool) :
    Option (Session H) → Option (Session H) → Prop
  | create (htype : f.type = .createSession) (sequence : Nat) :
      Answered m f chunk ok none (some { sequence })
  | reset (htype : f.type = .resetSession) {s : Session H} (hidle : s.activeRequest = 0) :
      Answered m f chunk ok (some s) (some s.cleared)
  | destroy (htype : f.type = .destroySession) {s : Session H} (hidle : s.activeRequest = 0) :
      Answered m f chunk ok (some s) none
  | endRequest (htype : f.type = .endRequest) (hzero : f.session ≠ 0) {s : Session H}
      (hrequest : f.request ≠ 0) (hactive : s.activeRequest = f.request) :
      Answered m f chunk ok (some s)
        (some { s with lastRequest := f.request, activeRequest := 0, hasPrompt := false })
  | rollback (htype : f.type = .rollback) (hzero : f.session ≠ 0) {s : Session H}
      (hrequest : f.request ≠ 0) (hactive : s.activeRequest = f.request) (hposition : f.position ≤
        s.position) :
      Answered m f chunk ok (some s) (some (s.truncate m f.position))
  | prepareChat (htype : f.type = .prepareChat) {s t : Session H} (hidle : s.activeRequest = 0)
      (hchat : t.chatRequest = true) : Answered m f chunk ok (some s) (some t)
  | run (hruns : f.type.runs) (hzero : f.session ≠ 0) {s : Session H} {out : Frame H}
      (hreply : (s.execute m f chunk ok).reply = .ok out) :
      Answered m f chunk ok (some s) (some (s.execute m f chunk ok).session)
  | other (htype : f.type = .metrics ∨ f.type = .shutdown) (s : Option (Session H)) :
      Answered m f chunk ok s s

/-- An operation that answers on the session of a frame. -/
lemma onSession_answered {op : Session H → Handled H} {out : Frame H}
    (h : (st.onSession f op).2.2 = .ok out) :
    f.session ≠ 0 ∧ ∃ s, st.sessions.lookup f.session = some s ∧ (op s).reply = .ok out ∧
      (st.onSession f op).1.sessions.lookup f.session = some (op s).session := by
  rcases st.onSession_cases f op with ⟨e, hrefused⟩ | ⟨s, hzero, hs, hon⟩
  · rw [hrefused] at h
    cases h
  · rw [hon] at h ⊢
    exact ⟨hzero, s, hs, h, AList.lookup_insert _⟩

lemma create_answered {out : Frame H} (h : (st.create f).2 = .ok out)
    (htype : f.type = .createSession) :
    Answered st.model f chunk ok (st.sessions.lookup f.session)
      ((st.create f).1.sessions.lookup f.session) := by
  rw [create] at h ⊢
  split_ifs at h ⊢ with hcontrol hold
  rw [AList.lookup_eq_none.mpr hold, AList.lookup_insert]
  exact .create htype _

lemma destroy_answered {out : Frame H} (h : (st.destroy f).2 = .ok out)
    (htype : f.type = .destroySession) :
    Answered st.model f chunk ok (st.sessions.lookup f.session)
      ((st.destroy f).1.sessions.lookup f.session) := by
  rw [destroy] at h ⊢
  cases hreq : st.requireSession f with
  | error e =>
    rw [hreq] at h
    cases h
  | ok s =>
    simp only [hreq] at h ⊢
    cases hreply : (s.destroy f).reply with
    | error e =>
      rw [hreply] at h
      cases h
    | ok reply =>
      rw [(requireSession_ok hreq).2]
      rw [Session.destroy] at hreply
      split_ifs at hreply with hcontrol hidle
      · cases hreply
      · cases hreply
      · dsimp only
        rw [AList.lookup_erase]
        exact .destroy htype (not_not.mp hidle)

end Stage

namespace Session

variable {m : StageModel H} {s : Session H} {f : Frame H} {out : Frame H}

lemma reset_ok (h : (s.reset f).reply = .ok out) :
    s.activeRequest = 0 ∧ (s.reset f).session = s.cleared := by
  rw [reset] at h ⊢
  split_ifs at h ⊢ with hcontrol hidle
  · cases h
  · cases h
  · exact ⟨not_not.mp hidle, rfl⟩

lemma endRequest_ok (h : (s.endRequest f).reply = .ok out) :
    f.request ≠ 0 ∧ s.activeRequest = f.request ∧ (s.endRequest f).session =
      { s with lastRequest := f.request, activeRequest := 0, hasPrompt := false } := by
  rw [endRequest] at h ⊢
  split_ifs at h ⊢ with hcontrol hactive hprompt
  · cases h
  · cases h
  · cases h
  · refine ⟨?_, not_not.mp hactive, rfl⟩
    rw [Bool.not_eq_true', Bool.not_eq_false, requireControl] at hcontrol
    simp only [Bool.and_eq_true, if_true, decide_eq_true_eq] at hcontrol
    exact hcontrol.2

lemma rollback_ok (h : (s.rollback m f).reply = .ok out) :
    f.request ≠ 0 ∧ s.activeRequest = f.request ∧ f.position ≤ s.position ∧
      (s.rollback m f).session = s.truncate m f.position := by
  rw [rollback] at h ⊢
  split_ifs at h ⊢ with hbad
  · cases h
  · rw [not_or, not_or, not_or] at hbad
    exact ⟨hbad.1, not_not.mp hbad.2.1, Nat.le_of_not_lt hbad.2.2.1, rfl⟩

/-- A chat that is prepared. -/
lemma prepareChat_prepared (h : (s.prepareChat m f).reply = .ok out) :
    s.activeRequest = 0 ∧ ∃ prompt sampling, m.template f.payload.message =
      some (prompt, sampling) ∧
      m.tokenize prompt ≠ [] ∧ s.cachedPrefix m f (m.tokenize prompt) ≤ s.position ∧
      s.cachedPrefix m f (m.tokenize prompt) < (m.tokenize prompt).length ∧
      (s.prepareChat m f).session =
        s.withChat m sampling (m.tokenize prompt) (s.cachedPrefix m f (m.tokenize prompt)) ∧
      out = { ack f (s.cachedPrefix m f (m.tokenize prompt)) with
        rows := (m.tokenize prompt).length } := by
  rw [prepareChat] at h ⊢
  split_ifs at h ⊢ with hbad
  · cases h
  · rw [not_or] at hbad
    refine ⟨not_not.mp hbad.1, ?_⟩
    cases htemplate : m.template f.payload.message with
    | none =>
      rw [htemplate] at h
      cases h
    | some prepared =>
      rw [htemplate] at h
      dsimp only at h
      rw [prepareTokens] at h
      refine ⟨prepared.1, prepared.2, rfl, ?_⟩
      dsimp only
      rw [prepareTokens]
      split_ifs at h ⊢ with hempty hfull hcached
      · cases h
      · cases h
      · cases h
      · rw [not_or, not_lt, not_le] at hcached
        exact ⟨hempty, hcached.1, hcached.2, rfl, (Except.ok.inj h).symm⟩

lemma prepareChat_ok (h : (s.prepareChat m f).reply = .ok out) :
    s.activeRequest = 0 ∧ (s.prepareChat m f).session.chatRequest = true := by
  obtain ⟨hidle, prompt, sampling, -, -, -, -, hsession, -⟩ := prepareChat_prepared h
  rw [hsession]
  exact ⟨hidle, rfl⟩

end Session

namespace Stage

variable {st : Stage H} {f : Frame H} {chunk : Nat} {ok : Nat → Bool}

lemma handle_endRequest_ok (htype : f.type = .endRequest) {out : Frame H}
    (h : (st.handle f chunk ok).2.2 = .ok out) :
    f.session ≠ 0 ∧ ∃ s, st.sessions.lookup f.session = some s ∧ f.request ≠ 0 ∧
      s.activeRequest = f.request ∧
      (st.handle f chunk ok).1.sessions.lookup f.session =
        some { s with lastRequest := f.request, activeRequest := 0, hasPrompt := false } := by
  simp only [handle, htype] at h ⊢
  split_ifs at h ⊢
  obtain ⟨hzero, s, hs, hreply, hlookup⟩ := onSession_answered h
  obtain ⟨hrequest, hactive, hsession⟩ := Session.endRequest_ok hreply
  exact ⟨hzero, s, hs, hrequest, hactive, hsession ▸ hlookup⟩

lemma handle_rollback_ok (htype : f.type = .rollback) {out : Frame H}
    (h : (st.handle f chunk ok).2.2 = .ok out) :
    f.session ≠ 0 ∧ ∃ s, st.sessions.lookup f.session = some s ∧ f.request ≠ 0 ∧
      s.activeRequest = f.request ∧
      f.position ≤ s.position ∧ (st.handle f chunk ok).1.sessions.lookup f.session =
        some (s.truncate st.model f.position) := by
  simp only [handle, htype] at h ⊢
  obtain ⟨hzero, s, hs, hreply, hlookup⟩ := onSession_answered h
  obtain ⟨hrequest, hactive, hposition, hsession⟩ := Session.rollback_ok hreply
  exact ⟨hzero, s, hs, hrequest, hactive, hposition, hsession ▸ hlookup⟩

/-- What an answered frame has done to the session it names. -/
lemma handle_answered {out : Frame H} (h : (st.handle f chunk ok).2.2 = .ok out) :
    Answered st.model f chunk ok (st.sessions.lookup f.session)
      ((st.handle f chunk ok).1.sessions.lookup f.session) := by
  by_cases hruns : f.type.runs
  · obtain ⟨hzero, s, hs, hreply, hlookup⟩ := handle_run_ok hruns h
    rw [hs, hlookup]
    exact .run hruns hzero hreply
  by_cases hend : f.type = .endRequest
  · obtain ⟨hzero, s, hs, hrequest, hactive, hlookup⟩ := handle_endRequest_ok hend h
    rw [hs, hlookup]
    exact .endRequest hend hzero hrequest hactive
  by_cases hback : f.type = .rollback
  · obtain ⟨hzero, s, hs, hrequest, hactive, hposition, hlookup⟩ := handle_rollback_ok hback h
    rw [hs, hlookup]
    exact .rollback hback hzero hrequest hactive hposition
  rw [handle] at h ⊢
  cases htype : f.type <;> rw [htype] at hruns <;> simp only [htype] at h ⊢
  case createSession => exact create_answered h htype
  case resetSession =>
    split_ifs at h ⊢
    obtain ⟨hzero, s, hs, hreply, hlookup⟩ := onSession_answered h
    obtain ⟨hidle, hsession⟩ := Session.reset_ok hreply
    rw [hs, hlookup, hsession]
    exact .reset htype hidle
  case destroySession =>
    split_ifs at h ⊢
    exact destroy_answered h htype
  case prepareChat =>
    obtain ⟨hzero, s, hs, hreply, hlookup⟩ := onSession_answered h
    obtain ⟨hidle, hchat⟩ := Session.prepareChat_ok hreply
    rw [hs, hlookup]
    exact .prepareChat htype hidle hchat
  case metrics =>
    rw [metrics_sessions]
    exact .other (.inl htype) _
  case shutdown =>
    rw [shutdown_sessions]
    exact .other (.inr htype) _
  all_goals first | cases h | exact absurd rfl hruns | exact absurd htype hend |
    exact absurd htype hback

/-- A control handler that checks first leaves its session alone when it refuses. -/
lemma lookup_onSession_of_refused {op : Session H → Handled H} {e : String}
    (hop : ∀ s : Session H, s.ChecksFirst (op s)) (he : (st.onSession f op).2.2 = .error e) :
    (st.onSession f op).1.sessions.lookup f.session = st.sessions.lookup f.session := by
  rcases st.onSession_cases f op with ⟨e, hrefused⟩ | ⟨s, -, hs, hon⟩
  · rw [hrefused]
  · rw [hon] at he ⊢
    rw [hop s e he, hs]
    exact AList.lookup_insert _

/-- A control frame that is refused leaves its session alone. -/
lemma lookup_handle_of_refused (hcontrol : ¬ f.type.runs) {e : String}
    (he : (st.handle f chunk ok).2.2 = .error e) :
    (st.handle f chunk ok).1.sessions.lookup f.session = st.sessions.lookup f.session := by
  rw [handle] at he ⊢
  cases htype : f.type <;> rw [htype] at hcontrol <;> simp only [htype] at he ⊢
  case createSession => rw [create_rejected he]
  case resetSession =>
    split_ifs at he ⊢
    · rfl
    · exact lookup_onSession_of_refused (fun s => s.reset_checksFirst f) he
  case destroySession =>
    split_ifs at he ⊢
    · rfl
    · rw [destroy_rejected he]
  case endRequest =>
    split_ifs at he ⊢
    · rfl
    · exact lookup_onSession_of_refused (fun s => s.endRequest_checksFirst f) he
  case rollback => exact lookup_onSession_of_refused (fun s => s.rollback_checksFirst st.model f) he
  case prepareChat =>
    exact lookup_onSession_of_refused (fun s => s.prepareChat_checksFirst st.model f) he
  case metrics => rw [metrics_sessions]
  case shutdown => rw [shutdown_sessions]
  all_goals exact absurd rfl hcontrol

end Stage

end ProviderOwned
