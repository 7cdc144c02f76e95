import ProviderOwned.Stage.MirrorControl

/-!
# Control frames that the stage answers

What `Mirrors` says of a session after any control frame (`Mirrors.control`), by what the frame has
done to the session at the stage.
-/

namespace ProviderOwned

open RingHead (settles mirrored mirroredFrame)

variable {H : Type*} {md : StageModel H} {r : RingHead H} {f : Frame H} {c : Chance}

/-- The head when the stage has answered a control frame and the draft has not seen it yet. -/
def RingHead.answered (r : RingHead H) (f : Frame H) (stage : Stage H) : RingHead H :=
  if f.type = .resetSession ∨ f.type = .destroySession then
    RingHead.setGuessed { r with stage } f.session none
  else { r with stage }

lemma serveControl_ok {chunk : Nat} {out : Frame H}
    (hout : (r.stage.handle f chunk c.ok).2.2 = .ok out) :
    r.serveControl f chunk c =
      ((r.answered f (r.stage.handle f chunk c.ok).1).followControl f c, .ok out) := by
  rw [RingHead.serveControl]
  generalize r.stage.handle f chunk c.ok = handled at hout ⊢
  obtain ⟨stage, emitted, reply⟩ := handled
  cases hout
  rfl

lemma serveControl_error {chunk : Nat} {e : String}
    (he : (r.stage.handle f chunk c.ok).2.2 = .error e) :
    r.serveControl f chunk c = ({ r with stage := (r.stage.handle f chunk c.ok).1 }, .error e) := by
  rw [RingHead.serveControl]
  generalize r.stage.handle f chunk c.ok = handled at he ⊢
  obtain ⟨stage, emitted, reply⟩ := handled
  cases he
  rfl

section answered

variable (r f) (stage : Stage H)

@[simp] lemma answered_stage : (r.answered f stage).stage = stage := by
  rw [RingHead.answered]
  split_ifs <;> rfl

@[simp] lemma answered_draft : (r.answered f stage).draft = r.draft := by
  rw [RingHead.answered]
  split_ifs <;> rfl

lemma answered_guessed (h : r.guessed f.session = none) :
    (r.answered f stage).guessed f.session = none := by
  rw [RingHead.answered]
  split_ifs
  · exact Function.update_self ..
  · exact h

lemma answered_of_ne (h : ¬ (f.type = .resetSession ∨ f.type = .destroySession)) :
    r.answered f stage = { r with stage } :=
  if_neg h

end answered

lemma Resting.answered (h : Resting md r f.session) (stage : Stage H) :
    Resting md (r.answered f stage) f.session := by
  obtain ⟨st, hst, hmodel, hidle⟩ := h
  exact ⟨st, (answered_draft ..).trans hst, hmodel, hidle⟩

/-- A session of the draft in no request makes no difference to a session without text. -/
lemma Resting.fresh (h : Resting md r f.session)
    (htype : f.type = .createSession ∨ f.type = .resetSession) {t : Session H}
    (ht : r.stage.sessions.lookup f.session = some t) (hplain : t.Plain)
    (hprompt : t.hasPrompt = false)
    (hpending : t.draft.pending = []) (hg : r.guessed f.session = none) (hempty : t.history = []) :
    Mirrors md (r.followControl f c) f.session none := by
  have hcan := canModelDraft_of_plain ht hplain.greedy
  have htypes : f.type = .createSession ∨ f.type = .resetSession ∨ f.type = .destroySession := by
    rcases htype with h | h
    · exact .inl h
    · exact .inr (.inl h)
  obtain ⟨st, hst, -, -⟩ := id h
  obtain ⟨hmirrored, hsettles⟩ : mirrored f.type = true ∧ settles f.type = false := by
    rcases htype with h | h
    all_goals
      rw [h]
      decide
  have hrests := h.bookkeeping htypes hcan (c := c)
  rw [followControl_bookkeeping hst hcan hmirrored hsettles] at hrests ⊢
  refine .idle ht hplain hprompt hpending hg hrests fun _ d _ _ => ?_
  rw [hempty]
  exact .inl (List.nil_prefix)

/-- A session that is gone is gone from the draft, or in no request there. -/
lemma Resting.gone (h : Resting md r f.session) (htype : f.type = .destroySession)
    (ht : r.stage.sessions.lookup f.session = none) (hg : r.guessed f.session = none) :
    Mirrors md (r.followControl f c) f.session none := by
  have hcan : r.stage.canModelDraft f = true := by rw [Stage.canModelDraft, ht]
  obtain ⟨st, hst, -, -⟩ := id h
  obtain ⟨hmirrored, hsettles⟩ : mirrored f.type = true ∧ settles f.type = false := by
    rw [htype]
    decide
  have hrests := h.bookkeeping (.inr (.inr htype)) hcan (c := c)
  rw [followControl_bookkeeping hst hcan hmirrored hsettles] at hrests ⊢
  exact .closed ht hg hrests

/-- Over a frame of its request the draft is left alone in a chat, reads along, or is given up. -/
lemma Mirrors.followed_cases {k : Option (Nat × Nat)} (h : Mirrors md r f.session k)
    (hmd : md.first) (hzero : f.session ≠ 0)
    (htype : f.type = .commitToken ∨ f.type = .rollback ∨ f.type = .endRequest)
    {t t' : Session H} (ht : r.stage.sessions.lookup f.session = some t) {stage : Stage H}
    (ht' : stage.sessions.lookup f.session = some t') (hchat : t'.chatRequest = t.chatRequest)
    (hdraft : t'.draft = t.draft) {st' : Stage H}
    (hst' : (({ r with stage } : RingHead H).followControl f c).draft = some st') :
    (∀ k', Mirrors md (({ r with stage } : RingHead H).followControl f c) f.session k') ∨
      ∃ d text, t.Plain ∧ t.activeRequest = d.activeRequest ∧ t.hasPrompt = true ∧
        t.history <+: text ∧
        Following md { r with stage } f.session t' d text := by
  have hresting : t.Plain → t.draft.pending = [] → r.guessed f.session = none →
      ¬ Resting md r f.session := by
    intro hplain hpending hg hd
    rw [Resting.givesUp (r := { r with stage }) hd hmd hzero htype ht' (hchat.trans hplain.greedy)
      ((congrArg DraftState.pending hdraft).trans hpending) hg] at hst'
    cases hst'
  cases h with
  | closed hnone => cases hnone.symm.trans ht
  | chat hsome hyes hd =>
    cases hsome.symm.trans ht
    exact .inl (Resting.chat (r := { r with stage }) hd ht' (hchat.trans hyes))
  | idle hsome hplain _ hpending hg hd =>
    cases hsome.symm.trans ht
    exact absurd hd (hresting hplain hpending hg)
  | lost hsome hplain _ hpending hg hd =>
    cases hsome.symm.trans ht
    exact absurd hd (hresting hplain hpending hg)
  | live hplain hactive hprompt hd hread _ =>
    cases hd.stage.symm.trans ht
    exact .inr ⟨_, _, hplain, hactive, hprompt, hread, hzero, hd.draft, ht', hchat.trans hd.greedy,
      hd.plain, hd.active, hd.prompted, hdraft.symm ▸ hd.followed⟩

/-- A control frame that the stage has answered leaves the draft as `Mirrors` says, if it leaves
it. -/
lemma Mirrors.answered {k : Option (Nat × Nat)} (h : Mirrors md r f.session k) (hmd : md.first)
    (hfirst : r.stage.model.first) (hvocab : md.tokenize = r.stage.model.tokenize)
    (hother : f.type ≠ .token) {chunk : Nat} {ok : Nat → Bool} {out : Frame H}
    (hout : (r.stage.handle f chunk ok).2.2 = .ok out) {r' : RingHead H}
    (hr' : r' = (r.answered f (r.stage.handle f chunk ok).1).followControl f c) {st' : Stage H}
    (hst' : r'.draft = some st') : Mirrors md r' f.session (committedAfter r' f (.ok out) k) := by
  have hanswered := Stage.handle_answered hout
  have hmodel := r.stage.handle_model f chunk ok
  generalize (r.stage.handle f chunk ok).1 = stage at hr' hanswered hmodel
  generalize hbefore : r.stage.sessions.lookup f.session = before at hanswered
  generalize hafter : stage.sessions.lookup f.session = after at hanswered
  have hlookup : (r.answered f stage).stage.sessions.lookup f.session = after := by
    rw [answered_stage, hafter]
  have hset : ∀ t, r.stage.sessions.lookup f.session = some t → some t = before :=
    fun t ht => ht.symm.trans hbefore
  subst hr'
  cases hanswered with
  | create htype sequence =>
    simp only [committedAfter, htype]
    cases h with
    | closed _ hg hd =>
      exact (hd.answered stage).fresh (.inl htype) hlookup (Session.plain_new sequence) rfl rfl
        (answered_guessed _ _ _ hg) rfl
    | chat ht => cases hset _ ht
    | idle ht => cases hset _ ht
    | lost ht => cases hset _ ht
    | live _ _ _ hd => cases hset _ hd.stage
  | reset htype hidle =>
    simp only [committedAfter, htype]
    have hd := h.resting fun t ht => by cases hset t ht; exact hidle
    refine (hd.answered stage).fresh (.inr htype) hlookup (Session.plain_cleared _) rfl rfl ?_ rfl
    rw [RingHead.answered, if_pos (.inl htype)]
    exact Function.update_self ..
  | destroy htype hidle =>
    simp only [committedAfter, htype]
    have hd := h.resting fun t ht => by cases hset t ht; exact hidle
    refine (hd.answered stage).gone htype hlookup ?_
    rw [RingHead.answered, if_pos (.inr htype)]
    exact Function.update_self ..
  | prepareChat htype hidle hchat =>
    have hd := h.resting fun t ht => by cases hset t ht; exact hidle
    exact (hd.answered stage).chat hlookup hchat _
  | endRequest htype hzero hrequest hactive =>
    simp only [committedAfter, htype]
    rw [answered_of_ne _ _ _ (by rw [htype]; simp)] at hlookup hst' ⊢
    rcases h.followed_cases hmd hzero (.inr (.inr htype)) hbefore hlookup rfl rfl hst' with
      hchat | ⟨d, text, hplain, -, -, hread, hd⟩
    · exact hchat _
    · refine hd.endRequest hmd ?_ htype rfl hread hst'
      exact ⟨⟨rfl, hplain.holds.kv, hplain.holds.position⟩, hplain.greedy, hplain.noChat,
        fun _ => rfl⟩
  | rollback htype hzero hrequest hactive hposition =>
    simp only [committedAfter, htype]
    rw [answered_of_ne _ _ _ (by rw [htype]; simp)] at hlookup hst' ⊢
    rcases h.followed_cases hmd hzero (.inr (.inl htype)) hbefore hlookup rfl rfl hst' with
      hchat | ⟨d, text, hplain, hactive', hprompt, hread, hd⟩
    · exact hchat _
    · rw [hplain.holds.position] at hposition
      have hholds := hplain.holds.truncate hfirst hposition
      exact hd.rollback hmd ⟨hholds.self, hplain.greedy, hplain.noChat,
        hplain.idleClear⟩ htype hactive'
        (hactive.symm.trans hactive') hprompt ((List.take_prefix ..).trans hread)
        (List.length_take_of_le hposition) hholds.history hst'
  | @run hruns hzero s out hreply =>
    have hclear : ¬ (f.type = .resetSession ∨ f.type = .destroySession) := by
      rintro (h | h)
      all_goals
        rw [h] at hruns
        cases hruns
    rw [answered_of_ne _ _ _ hclear] at hlookup hst' ⊢
    cases h with
    | closed ht =>
      rw [hbefore] at ht
      cases ht
    | chat ht hchat hd =>
      cases hset _ ht
      exact Resting.chat (r := { r with stage }) hd hlookup
        (Session.execute_chatRequest.trans hchat) _
    | idle ht hplain hprompt hpending hg hd hread =>
      cases hset _ ht
      obtain ⟨hplain', haccepted, hentered⟩ := hplain.execute_ok hfirst hreply
      rcases haccepted.kind with ⟨htype, -, -⟩ | ⟨-, hprompted, -⟩
      · have htokens : Session.brought r.stage.model s f = md.tokenize f.payload.message := by
          rw [Session.brought, if_pos htype, hplain.noChat, if_neg (by simp), hvocab]
        simp only [committedAfter, htype]
        exact Resting.prompt (r := { r with stage }) hd hmd hzero htype hlookup hplain'
          hentered.active
          haccepted.prompted ((congrArg DraftState.pending hentered.draft).trans hpending) hg hread
          haccepted.position (htokens ▸ haccepted.holds.history) hst'
      · rw [hprompt] at hprompted
        cases hprompted
    | lost ht hplain hprompt hpending hg hd =>
      cases hset _ ht
      obtain ⟨hplain', haccepted, hentered⟩ := hplain.execute_ok hfirst hreply
      rcases haccepted.kind with ⟨-, hnone, -⟩ | ⟨htype, -, -⟩
      · rw [hprompt] at hnone
        cases hnone
      · rw [Resting.givesUp (r := { r with stage }) hd hmd hzero (.inl (htype.resolve_left hother))
          hlookup hplain'.greedy ((congrArg DraftState.pending hentered.draft).trans hpending) hg]
            at hst'
        cases hst'
    | @live t d text _ hplain hactive hprompt hd hread _ =>
      cases hset _ hd.stage
      obtain ⟨hplain', haccepted, hentered⟩ := hplain.execute_ok hfirst hreply
      rcases haccepted.kind with ⟨-, hnone, -⟩ | ⟨htype, -, -⟩
      · rw [hprompt] at hnone
        cases hnone
      · have hcommit := htype.resolve_left hother
        have hrequest : f.request = d.activeRequest := by
          rcases hentered.before with hidle | hsame
          · exact absurd (hactive.symm.trans hidle) hd.active
          · exact hsame.symm.trans hactive
        simp only [committedAfter, hcommit]
        exact Following.commit (r := { r with stage }) ⟨hzero, hd.draft, hlookup, hplain'.greedy,
          hd.plain, hd.active, hd.prompted, hentered.draft.symm ▸ hd.followed⟩ hmd hplain' hcommit
          (hentered.active.trans hrequest) hrequest haccepted.prompted
          ((List.take_prefix ..).trans hread) (List.length_take_of_le haccepted.position)
          haccepted.holds.history hst'
  | other htype =>
    have hunmirrored : mirrored f.type = false := by
      rcases htype with h | h
      all_goals
        rw [h]
        rfl
    have hk : ∀ r' : RingHead H, committedAfter r' f (.ok out) k = k := by
      intro r'
      rcases htype with h | h
      all_goals simp only [committedAfter, h]
    rw [answered_of_ne _ _ _ (by rcases htype with h | h <;> rw [h] <;> simp)] at hlookup hst' ⊢
    rw [hk]
    refine Mirrors.unmirrored (r := { r with stage }) ?_ hunmirrored
    exact h.congr (hlookup.trans hbefore.symm) rfl fun st hst => ⟨st, hst, rfl, rfl⟩

/-- A control frame leaves the draft as `Mirrors` says, if it leaves it. -/
lemma Mirrors.control {k : Option (Nat × Nat)} (h : Mirrors md r f.session k) (hmd : md.first)
    (hfirst : r.stage.model.first) (hvocab : md.tokenize = r.stage.model.tokenize)
    (hother : f.type ≠ .token) (chunk : Nat) {st' : Stage H}
    (hst' : (r.serveControl f chunk c).1.draft = some st') :
    Mirrors md (r.serveControl f chunk c).1 f.session
      (committedAfter (r.serveControl f chunk c).1 f (r.serveControl f chunk c).2 k) := by
  cases hreply : (r.stage.handle f chunk c.ok).2.2 with
  | error e =>
    rw [serveControl_error hreply]
    exact h.refused hfirst hreply
  | ok out =>
    rw [serveControl_ok hreply] at hst' ⊢
    exact h.answered hmd hfirst hvocab hother hreply rfl hst'

end ProviderOwned
