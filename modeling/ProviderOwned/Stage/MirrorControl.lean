import ProviderOwned.Stage.Mirror

/-!
# The draft follows control frames

A control frame that the stage has answered is shown to the draft. Where the draft cannot follow it,
though it has text that the draft must see, the draft is given up; else it stands to the session as
before (`Mirrors.control`).
-/

namespace ProviderOwned

open RingHead (settles mirrored mirroredFrame)

variable {H : Type*} {md : StageModel H} {r : RingHead H} {id : Nat} {f : Frame H} {c : Chance}

lemma canModelDraft_of_plain {t : Session H} (ht : r.stage.sessions.lookup f.session = some t)
    (hgreedy : t.chatRequest = false) : r.stage.canModelDraft f = true := by
  rw [Stage.canModelDraft, ht]
  simp only [hgreedy, Bool.not_false]

/-! ### Bookkeeping -/

/-- The draft is shown a frame that carries no text, and stays whether or not it can follow it. -/
lemma followControl_bookkeeping {st : Stage H} (hst : r.draft = some st)
    (hcan : r.stage.canModelDraft f = true) (hmirrored : mirrored f.type = true)
    (hsettles : settles f.type = false) :
    r.followControl f c =
      { r with draft := some (st.handle (mirroredFrame f) 0 c.okMirror).1 } := by
  have hend : ¬ (f.type = .endRequest ∨ f.type = .rollback) := by
    rintro (h | h)
    all_goals
      rw [h] at hsettles
      cases hsettles
  have hready : r.readyDraft f c = (r, none) := by
    simp only [RingHead.readyDraft, hsettles, Bool.false_eq_true, false_and, if_false, if_neg hend]
  have hmirror : (r.mirror f c).1 =
      { r with draft := some (st.handle (mirroredFrame f) 0 c.okMirror).1 } := by
    simp only [RingHead.mirror, hready, hst]
  have hsome : r.draft.isSome = true := by
    rw [hst]
    rfl
  rw [RingHead.followControl, hcan, if_neg (by simp), if_pos ⟨hsome, hmirrored⟩, hsettles,
    ← hmirror]
  rcases r.mirror f c with ⟨r', _ | e⟩
  · rfl
  · rfl

/-- A session that was just created or cleared. -/
lemma Session.plain_of_empty {s : Session H} (hhistory : s.history = []) (hkv : s.kv = [])
    (hposition : s.position = 0) (hgreedy : s.chatRequest = false) (hnoChat : s.chatPending = false)
    (hprompt : s.hasPrompt = false) : s.Plain := by
  refine ⟨⟨rfl, ?_, ?_⟩, hgreedy, hnoChat, fun _ => hprompt⟩
  · rw [hhistory, hkv]
    rfl
  · rw [hhistory, hposition]
    rfl

lemma Session.plain_cleared (s : Session H) : s.cleared.Plain :=
  plain_of_empty rfl rfl rfl rfl rfl rfl

lemma Session.plain_new (sequence : Nat) : ({ sequence } : Session H).Plain :=
  plain_of_empty rfl rfl rfl rfl rfl rfl

/-- A frame of bookkeeping leaves the session of the draft in no request. -/
lemma Resting.bookkeeping (h : Resting md r f.session)
    (htype : f.type = .createSession ∨ f.type = .resetSession ∨ f.type = .destroySession)
    (hcan : r.stage.canModelDraft f = true) : Resting md (r.followControl f c) f.session := by
  obtain ⟨st, hst, hmodel, hidle⟩ := h
  obtain ⟨hmirrored, hsettles, hruns, hother⟩ : mirrored f.type = true ∧ settles f.type = false ∧
      ¬ f.type.runs ∧ f.type ∉ [.endRequest, .rollback, .prepareChat, .metrics, .shutdown] := by
    rcases htype with h | h | h
    all_goals
      rw [h]
      decide
  rw [followControl_bookkeeping hst hcan hmirrored hsettles]
  refine ⟨_, rfl, (st.handle_model ..).trans hmodel, fun d hd => ?_⟩
  cases hreply : (st.handle (mirroredFrame f) 0 c.okMirror).2.2 with
  | error e =>
    have hsame := Stage.lookup_handle_of_refused (f := mirroredFrame f) hruns hreply
    exact hidle d (hsame ▸ hd)
  | ok out =>
    have hanswered := Stage.handle_answered hreply
    have hsession : (mirroredFrame f).session = f.session := rfl
    have htypes : (mirroredFrame f).type = f.type := rfl
    rw [hsession, hd] at hanswered
    rw [← htypes] at hother
    generalize hbefore : st.sessions.lookup f.session = before at hanswered
    cases hanswered with
    | create _ sequence => exact ⟨Session.plain_new sequence, rfl⟩
    | reset _ _ => exact ⟨Session.plain_cleared _, rfl⟩
    | endRequest hend => exact absurd (by rw [hend]; decide) hother
    | rollback hback => exact absurd (by rw [hback]; decide) hother
    | prepareChat hchat => exact absurd (by rw [hchat]; decide) hother
    | run hrun => exact absurd hrun hruns
    | other hnone => exact absurd (by rcases hnone with h | h <;> rw [h] <;> decide) hother

/-! ### Frames with text -/

/-- A draft that is kept over a frame it must follow was made ready for it and has answered it. -/
lemma followControl_text (hcan : r.stage.canModelDraft f = true) (hsettles : settles f.type = true)
    {st₀ st' : Stage H} (hst₀ : r.draft = some st₀)
    (hst' : (r.followControl f c).draft = some st') :
    (r.readyDraft f c).2 = none ∧ ∃ st out, (r.readyDraft f c).1.draft = some st ∧
      (st.handle (mirroredFrame f) 0 c.okMirror).2.2 = .ok out ∧
      r.followControl f c = { (r.readyDraft f c).1 with
        draft := some (st.handle (mirroredFrame f) 0 c.okMirror).1 } := by
  have hmirrored : mirrored f.type = true := by
    cases htype : f.type <;> rw [htype] at hsettles <;> first | rfl | cases hsettles
  have hsome : r.draft.isSome = true := by
    rw [hst₀]
    rfl
  rw [RingHead.followControl, hcan, if_neg (by simp), if_pos ⟨hsome, hmirrored⟩, hsettles] at hst' ⊢
  rw [RingHead.mirror] at hst' ⊢
  generalize r.readyDraft f c = ready at hst' ⊢
  rcases ready with ⟨r', _ | e⟩
  · refine ⟨rfl, ?_⟩
    dsimp only at hst' ⊢
    cases hst : r'.draft with
    | none => simp only [hst, reduceCtorEq] at hst'
    | some st =>
      simp only [hst] at hst' ⊢
      cases hreply : (st.handle (mirroredFrame f) 0 c.okMirror).2.2 with
      | ok out => exact ⟨st, out, rfl, hreply, rfl⟩
      | error e =>
        rw [hreply] at hst'
        cases hst'
  · cases hst'

lemma setGuessed_self {g : Option Guesses} (h : r.guessed id = g) : r.setGuessed id g = r := by
  rw [RingHead.setGuessed, ← h, Function.update_eq_self]

/-- A draft that lacks nothing is ready. -/
lemma readyDraft_settled {t : Session H} (hzero : f.session ≠ 0)
    (ht : r.stage.sessions.lookup f.session = some t) (hpending : t.draft.pending = [])
    (hg : r.guessed f.session = none) : r.readyDraft f c = (r, none) := by
  have hcaught : r.catchUpDraft f c = (r, none) := by
    rw [RingHead.catchUpDraft, hg]
  have hflushed : r.flushDraft f c = (r, none) := by
    rw [RingHead.flushDraft, Stage.requireSession_of_lookup hzero ht]
    exact if_pos hpending
  simp only [RingHead.readyDraft, hcaught, hflushed, ite_self, setGuessed_self hg]

/-- A draft in no request follows none of the frames of one. -/
lemma Resting.refuses {st : Stage H} (hfirst : st.model.first)
    (hidle : ∀ d, st.sessions.lookup f.session = some d → d.Plain ∧ d.activeRequest = 0)
    (htype : f.type = .commitToken ∨ f.type = .rollback ∨ f.type = .endRequest) {ok : Nat → Bool}
    {out : Frame H} : (st.handle (mirroredFrame f) 0 ok).2.2 ≠ .ok out := by
  intro hout
  have htypes : (mirroredFrame f).type = f.type := rfl
  rcases htype with h | h | h
  · obtain ⟨-, d, hd, hreply, -⟩ := Stage.handle_run_ok (by rw [htypes, h]; rfl) hout
    obtain ⟨hplain, hzero⟩ := hidle d hd
    obtain ⟨-, haccepted, -⟩ := hplain.execute_ok hfirst hreply
    rcases haccepted.kind with ⟨hprompt, -⟩ | ⟨-, hprompt, -⟩
    · rw [htypes, h] at hprompt
      cases hprompt
    · rw [hplain.idleClear hzero] at hprompt
      cases hprompt
  · obtain ⟨-, d, hd, hrequest, hactive, -⟩ :=
      Stage.handle_rollback_ok (f := mirroredFrame f) h hout
    exact hrequest (hactive.symm.trans (hidle d hd).2)
  · obtain ⟨-, d, hd, hrequest, hactive, -⟩ :=
      Stage.handle_endRequest_ok (f := mirroredFrame f) h hout
    exact hrequest (hactive.symm.trans (hidle d hd).2)

/-- A draft in no request is given up over the frames of one. -/
lemma Resting.givesUp (h : Resting md r f.session) (hfirst : md.first) (hzero : f.session ≠ 0)
    (htype : f.type = .commitToken ∨ f.type = .rollback ∨ f.type = .endRequest) {t : Session H}
    (ht : r.stage.sessions.lookup f.session = some t) (hgreedy : t.chatRequest = false)
    (hpending : t.draft.pending = []) (hg : r.guessed f.session = none) :
    (r.followControl f c).draft = none := by
  obtain ⟨st₀, hst₀, hmodel, hidle⟩ := h
  have hsettles : settles f.type = true := by
    rcases htype with h | h | h
    all_goals
      rw [h]
      rfl
  have hcan := canModelDraft_of_plain ht hgreedy
  cases hst' : (r.followControl f c).draft with
  | none => rfl
  | some st' =>
    obtain ⟨-, st, out, hst, hout, -⟩ := followControl_text hcan hsettles hst₀ hst'
    rw [readyDraft_settled hzero ht hpending hg, hst₀] at hst
    cases hst
    exact absurd hout (refuses (hmodel ▸ hfirst) hidle htype)

/-- A draft that follows its session is made ready for a frame that goes on from `l`. -/
lemma Following.ready {t d : Session H} {text l : List Token}
    (h : Following md r f.session t d text)
    (hfirst : md.first) (htype : f.type = .commitToken ∨ f.type = .rollback)
    (hrequest : f.request = d.activeRequest) (hl : l <+: text) (hlength : l.length = f.position)
    (hdone : (r.readyDraft f c).2 = none) :
    (r.readyDraft f c).1.guessed f.session = none ∧ ∃ t' d',
      Following md (r.readyDraft f c).1 f.session t' d' d'.history ∧
        d'.activeRequest = d.activeRequest ∧ t'.draft.pending = [] ∧
        t' = { t with draft := t'.draft } ∧
        l <+: d'.history := by
  have hsettles : settles f.type = true ∧ f.type ≠ .endRequest := by
    rcases htype with h | h
    all_goals
      rw [h]
      decide
  have hcaught := h.catchUp (c := c) hfirst hrequest hl hlength
  rw [RingHead.readyDraft, if_pos hsettles] at hdone ⊢
  generalize r.catchUpDraft f c = caught at hcaught hdone ⊢
  rcases caught with ⟨r₁, _ | e⟩
  · obtain ⟨hg₁, d₁, text₁, hfollows₁, hactive₁, hl₁, -⟩ := hcaught rfl
    have hflushed := hfollows₁.flush (c := c) hfirst
    dsimp only at hdone hfollows₁ hflushed ⊢
    rw [if_pos hsettles.1] at hdone ⊢
    generalize r₁.flushDraft f c = flushed at hflushed hdone ⊢
    rcases flushed with ⟨r₂, _ | e⟩
    · obtain ⟨hg₂, t', d₂, hfollows₂, hactive₂, hpending, hsame⟩ := hflushed rfl
      have hg : r₂.guessed f.session = none := (congrFun hg₂ _).trans hg₁
      have hread := hfollows₂.followed.eq_of_settled hpending hg
      dsimp only
      rw [setGuessed_self hg, ite_self]
      exact ⟨hg, t', d₂, hread ▸ hfollows₂, hactive₂.trans hactive₁, hpending, hsame, hread ▸ hl₁⟩
    · cases hdone
  · cases hdone

/-- A draft that follows its session is flushed where the request ends. -/
lemma Following.readyEnd {t d : Session H} {text : List Token}
    (h : Following md r f.session t d text)
    (hfirst : md.first) (htype : f.type = .endRequest) (hdone : (r.readyDraft f c).2 = none) :
    (r.readyDraft f c).1.guessed f.session = none ∧ ∃ t' d' st,
      (r.readyDraft f c).1.stage.sessions.lookup f.session = some t' ∧
        (r.readyDraft f c).1.draft = some st ∧ st.model = md ∧
        st.sessions.lookup f.session = some d' ∧ d'.Plain ∧ d'.history <+: text ∧
        t'.draft.pending = [] ∧ t' = { t with draft := t'.draft } := by
  have hflushed := h.flush (c := c) hfirst
  have hsettles : settles f.type = true := by
    rw [htype]
    rfl
  rw [RingHead.readyDraft, if_neg (by rw [htype]; simp)] at hdone ⊢
  dsimp only at hdone ⊢
  rw [if_pos hsettles] at hdone ⊢
  generalize r.flushDraft f c = flushed at hflushed hdone ⊢
  rcases flushed with ⟨r', _ | e⟩
  · obtain ⟨-, t', d', hfollows, -, hpending, hsame⟩ := hflushed rfl
    obtain ⟨st, hst, hmodel, hd'⟩ := hfollows.draft
    dsimp only
    rw [if_pos (.inl htype)]
    exact ⟨Function.update_self .., t', d', st, hfollows.stage, hst, hmodel, hd', hfollows.plain,
      hfollows.followed.prefix_of_flushed hpending, hpending, hsame⟩
  · cases hdone

/-! ### Frames that the stage answers -/

/-- In a chat the draft is left alone. -/
lemma Resting.chat (h : Resting md r f.session) {t : Session H}
    (ht : r.stage.sessions.lookup f.session = some t) (hchat : t.chatRequest = true)
    (k : Option (Nat × Nat)) : Mirrors md (r.followControl f c) f.session k := by
  obtain ⟨st, hst, hmodel, hidle⟩ := h
  have hcan : (!r.stage.canModelDraft f) = true := by
    rw [Stage.canModelDraft, ht]
    simp only [hchat, Bool.not_true, Bool.not_false]
  have hsome : r.draft.isSome = true := by
    rw [hst]
    rfl
  rw [RingHead.followControl, if_pos ⟨hsome, hcan⟩]
  exact .chat (r := r.setGuessed f.session none) ht hchat ⟨st, hst, hmodel, hidle⟩ k

/-- A frame of another kind leaves the draft alone. -/
lemma Mirrors.unmirrored {k : Option (Nat × Nat)} (h : Mirrors md r f.session k)
    (hmirrored : mirrored f.type = false) :
    Mirrors md (r.followControl f c) f.session k := by
  have hkept : r.stage.canModelDraft f = true → r.followControl f c = r := by
    intro hcan
    rw [RingHead.followControl, hcan, if_neg (by simp), hmirrored, if_neg (by simp)]
  cases h with
  | closed ht hg hd =>
    rw [hkept (by rw [Stage.canModelDraft, ht])]
    exact .closed ht hg hd
  | chat ht hchat hd => exact hd.chat ht hchat k
  | idle ht hplain hprompt hpending hg hd hread =>
    rw [hkept (canModelDraft_of_plain ht hplain.greedy)]
    exact .idle ht hplain hprompt hpending hg hd hread
  | lost ht hplain hprompt hpending hg hd =>
    rw [hkept (canModelDraft_of_plain ht hplain.greedy)]
    exact .lost ht hplain hprompt hpending hg hd
  | live hplain hactive hprompt hd hread hk =>
    rw [hkept (canModelDraft_of_plain hd.stage hd.greedy)]
    exact .live hplain hactive hprompt hd hread hk

/-- Where all that the draft has read is the session's text, it mirrors it. -/
lemma Following.mirrors {t d : Session H} (h : Following md r id t d d.history) (ht : t.Plain)
    (hactive : t.activeRequest = d.activeRequest) (hprompt : t.hasPrompt = true)
    (hpending : t.draft.pending = []) (hread : t.history = d.history) :
    Mirrors md r id ((r.stage.sessions.lookup id).map fun s => (s.activeRequest, s.position)) := by
  refine .live ht hactive hprompt h (hread ▸ List.prefix_rfl) fun request n hk => ?_
  rw [h.stage] at hk
  cases hk
  exact ⟨hactive, ht.holds.position.le, fun hne => absurd hpending hne⟩

/-- The draft reads a prompt that the stage has read, after the tokens both have kept. -/
lemma Resting.prompt (h : Resting md r f.session) (hfirst : md.first) (hzero : f.session ≠ 0)
    (htype : f.type = .prompt) {t : Session H} (ht : r.stage.sessions.lookup f.session = some t)
    (hplain : t.Plain) (hactive : t.activeRequest = f.request) (hprompt : t.hasPrompt = true)
    (hpending : t.draft.pending = []) (hg : r.guessed f.session = none) {l : List Token}
    (hread : ∀ st d, r.draft = some st → st.sessions.lookup f.session = some d →
      l <+: d.history ∨ d.history <+: l)
    (hlength : f.position ≤ l.length)
    (hhistory : t.history = l.take f.position ++ md.tokenize f.payload.message) {st' : Stage H}
    (hst' : (r.followControl f c).draft = some st') :
    Mirrors md (r.followControl f c) f.session
      (((r.followControl f c).stage.sessions.lookup f.session).map
        fun s => (s.activeRequest, s.position)) := by
  obtain ⟨st₀, hst₀, hmodel, hidle⟩ := h
  have hsettles : settles f.type = true := by
    rw [htype]
    rfl
  obtain ⟨-, st, out, hst, hout, hfollow⟩ :=
    followControl_text (canModelDraft_of_plain ht hplain.greedy) hsettles hst₀ hst'
  rw [readyDraft_settled hzero ht hpending hg] at hst hfollow
  rw [hst₀] at hst
  cases hst
  have htype' : (mirroredFrame f).type = .prompt := htype
  obtain ⟨-, d, hd, hreply, hlookup⟩ := Stage.handle_run_ok (by rw [htype']; rfl) hout
  obtain ⟨hplain', haccepted, hentered⟩ := (hidle d hd).1.execute_ok (hmodel ▸ hfirst) hreply
  have hposition : f.position ≤ d.history.length := haccepted.position
  have htake : d.history.take f.position = l.take f.position := by
    rcases hread st₀ d hst₀ hd with ⟨rest, hrest⟩ | ⟨rest, hrest⟩
    · rw [← hrest, List.take_append_of_le_length hlength]
    · rw [← hrest, List.take_append_of_le_length hposition]
  have htokens : Session.brought st₀.model d (mirroredFrame f) = md.tokenize f.payload.message := by
    have hpayload : (mirroredFrame f).payload = f.payload := if_pos (.inl htype)
    rw [Session.brought, if_pos htype', (hidle d hd).1.noChat, if_neg (by simp), hmodel, hpayload]
  have hread' := haccepted.holds.history
  rw [show (mirroredFrame f).position = f.position from rfl, htake, htokens, ← hhistory] at hread'
  have hactive' : t.activeRequest =
      (d.execute st₀.model (mirroredFrame f) 0 c.okMirror).session.activeRequest :=
    hactive.trans hentered.active.symm
  have hfollows :
      Following md { r with draft := some (st₀.handle (mirroredFrame f) 0 c.okMirror).1 }
      f.session t _ _ :=
    ⟨hzero, ⟨_, rfl, (st₀.handle_model ..).trans hmodel, hlookup⟩, ht, hplain.greedy, hplain',
      hentered.active ▸ hentered.nonzero, haccepted.prompted, .even hpending (by rw [hg]; simp)⟩
  rw [hfollow]
  exact hfollows.mirrors hplain hactive' hprompt hpending hread'.symm

lemma Session.Plain.withDraft {s t : Session H} (h : s.Plain)
    (hsame : t = { s with draft := t.draft }) :
    t.Plain := by
  rw [hsame]
  exact ⟨⟨rfl, h.holds.kv, h.holds.position⟩, h.greedy, h.noChat, h.idleClear⟩

/-- The tokens of a frame that is not a prompt are those it carries. -/
lemma Session.brought_mirroredFrame (htype : f.type = .commitToken) (m : StageModel H)
    (s : Session H) (md : StageModel H) (d : Session H) :
    Session.brought md d (mirroredFrame f) = Session.brought m s f := by
  have hpayload : (mirroredFrame f).payload = f.payload := if_pos (.inr htype)
  have hother : f.type ≠ .prompt := by
    rw [htype]
    decide
  rw [Session.brought, Session.brought, if_neg hother, hpayload]
  exact if_neg hother

/-- A prefix is what stands before its length. -/
lemma take_of_isPrefix {l text : List Token} (hl : l <+: text) {p : Nat} (hp : l.length = p) :
    text.take p = l := by
  rw [← hp]
  exact (List.prefix_iff_eq_take.mp hl).symm

section Following

variable {t d : Session H} {text : List Token} (h : Following md r f.session t d text)
  (hfirst : md.first) (hplain : t.Plain)
include h hfirst hplain

/-- The draft commits the tokens that the stage has committed. -/
lemma Following.commit (htype : f.type = .commitToken) (hactive : t.activeRequest = d.activeRequest)
    (hrequest : f.request = d.activeRequest) (hprompt : t.hasPrompt = true) {l : List Token}
    (hl : l <+: text) (hlength : l.length = f.position) {m : StageModel H} {s : Session H}
    (hhistory : t.history = l ++ Session.brought m s f) {st' : Stage H}
    (hst' : (r.followControl f c).draft = some st') :
    Mirrors md (r.followControl f c) f.session
      (((r.followControl f c).stage.sessions.lookup f.session).map
        fun s => (s.activeRequest, s.position)) := by
  obtain ⟨st₀, hst₀, -, -⟩ := h.draft
  have hsettles : settles f.type = true := by
    rw [htype]
    rfl
  obtain ⟨hdone, st, out, hst, hout, hfollow⟩ :=
    followControl_text h.canModelDraft hsettles hst₀ hst'
  obtain ⟨hg, t', d', hfollows, hactive', hpending, hsame, hl'⟩ :=
    h.ready hfirst (.inl htype) hrequest hl hlength hdone
  obtain ⟨st₁, hst₁, hmodel, hd'⟩ := hfollows.draft
  rw [hst] at hst₁
  cases hst₁
  have htype' : (mirroredFrame f).type = .commitToken := htype
  obtain ⟨-, d₁, hd₁, hreply, hlookup⟩ := Stage.handle_run_ok (by rw [htype']; rfl) hout
  obtain rfl : d₁ = d' := Option.some.inj (hd₁.symm.trans hd')
  obtain ⟨hplain', haccepted, hentered⟩ := hfollows.plain.execute_ok (hmodel ▸ hfirst) hreply
  have hread := haccepted.holds.history
  rw [show (mirroredFrame f).position = f.position from rfl, take_of_isPrefix hl' hlength,
    Session.brought_mirroredFrame htype m s, ← hhistory] at hread
  have hfollows' : Following md { (r.readyDraft f c).1 with
      draft := some (st.handle (mirroredFrame f) 0 c.okMirror).1 } f.session t' _ _ :=
    ⟨h.nonzero, ⟨_, rfl, (st.handle_model ..).trans hmodel, hlookup⟩, hfollows.stage,
      hfollows.greedy, hplain', hentered.active ▸ hentered.nonzero, haccepted.prompted,
      .even hpending (by rw [hg]; simp)⟩
  have hhistory' : t'.history = t.history := by rw [hsame]
  have hactive'' : t'.activeRequest = t.activeRequest := by rw [hsame]
  have hprompt' : t'.hasPrompt = t.hasPrompt := by rw [hsame]
  rw [hfollow]
  refine hfollows'.mirrors (hplain.withDraft hsame) ?_ (hprompt'.trans hprompt) hpending
    (hhistory'.trans hread.symm)
  exact hactive''.trans ((hactive.trans hrequest.symm).trans hentered.active.symm)

/-- The draft goes back to where the stage has gone back. -/
lemma Following.rollback (htype : f.type = .rollback) (hactive : t.activeRequest = d.activeRequest)
    (hrequest : f.request = d.activeRequest) (hprompt : t.hasPrompt = true) {l : List Token}
    (hl : l <+: text) (hlength : l.length = f.position) (hhistory : t.history = l) {st' : Stage H}
    (hst' : (r.followControl f c).draft = some st') :
    Mirrors md (r.followControl f c) f.session
      (((r.followControl f c).stage.sessions.lookup f.session).map
        fun s => (s.activeRequest, s.position)) := by
  obtain ⟨st₀, hst₀, -, -⟩ := h.draft
  have hsettles : settles f.type = true := by
    rw [htype]
    rfl
  obtain ⟨hdone, st, out, hst, hout, hfollow⟩ :=
    followControl_text h.canModelDraft hsettles hst₀ hst'
  obtain ⟨hg, t', d', hfollows, hactive', hpending, hsame, hl'⟩ :=
    h.ready hfirst (.inr htype) hrequest hl hlength hdone
  obtain ⟨st₁, hst₁, hmodel, hd'⟩ := hfollows.draft
  rw [hst] at hst₁
  cases hst₁
  obtain ⟨-, d₁, hd₁, -, -, -, hlookup⟩ :=
    Stage.handle_rollback_ok (f := mirroredFrame f) htype hout
  obtain rfl : d₁ = d' := Option.some.inj (hd₁.symm.trans hd')
  have htake := take_of_isPrefix hl' hlength
  have hholds := hfollows.plain.holds.truncate (m := st.model) (hmodel ▸ hfirst)
    (p := f.position) (hlength ▸ hl'.length_le)
  have hfollows' : Following md { (r.readyDraft f c).1 with
      draft := some (st.handle (mirroredFrame f) 0 c.okMirror).1 } f.session t' _ _ :=
    ⟨h.nonzero, ⟨_, rfl, (st.handle_model ..).trans hmodel, hlookup⟩, hfollows.stage,
      hfollows.greedy, ⟨hholds.self, hfollows.plain.greedy, hfollows.plain.noChat,
        hfollows.plain.idleClear⟩,
      hfollows.active, hfollows.prompted, .even hpending (by rw [hg]; simp)⟩
  have hread : (d₁.truncate st.model f.position).history = t.history := by
    rw [hholds.history, htake, hhistory]
  have hhistory' : t'.history = t.history := by rw [hsame]
  have hactive'' : t'.activeRequest = t.activeRequest := by rw [hsame]
  have hprompt' : t'.hasPrompt = t.hasPrompt := by rw [hsame]
  rw [hfollow]
  exact hfollows'.mirrors (hplain.withDraft hsame) (hactive''.trans (hactive.trans hactive'.symm))
    (hprompt'.trans hprompt) hpending (hhistory'.trans hread.symm)

/-- The draft ends the request that the stage has ended. -/
lemma Following.endRequest (htype : f.type = .endRequest) (hprompt : t.hasPrompt = false)
    (hread : t.history <+: text) {st' : Stage H} (hst' : (r.followControl f c).draft = some st') :
    Mirrors md (r.followControl f c) f.session none := by
  obtain ⟨st₀, hst₀, -, -⟩ := h.draft
  have hsettles : settles f.type = true := by
    rw [htype]
    rfl
  obtain ⟨hdone, st, out, hst, hout, hfollow⟩ :=
    followControl_text h.canModelDraft hsettles hst₀ hst'
  obtain ⟨hg, t', d', st₁, ht', hst₁, hmodel, hd', hplain', hread', hpending, hsame⟩ :=
    h.readyEnd hfirst htype hdone
  rw [hst] at hst₁
  cases hst₁
  obtain ⟨-, d₁, hd₁, -, -, hlookup⟩ := Stage.handle_endRequest_ok (f := mirroredFrame f) htype hout
  obtain rfl : d₁ = d' := Option.some.inj (hd₁.symm.trans hd')
  have hhistory' : t'.history = t.history := by rw [hsame]
  have hprompt' : t'.hasPrompt = t.hasPrompt := by rw [hsame]
  rw [hfollow]
  refine .idle ht' (hplain.withDraft hsame) (hprompt'.trans hprompt) hpending hg
    ⟨_, rfl, (st.handle_model ..).trans hmodel, ?_⟩ ?_
  · rintro d₂ hd₂
    obtain rfl := Option.some.inj (hlookup.symm.trans hd₂)
    exact ⟨⟨⟨rfl, hplain'.holds.kv, hplain'.holds.position⟩, hplain'.greedy, hplain'.noChat,
      fun _ => rfl⟩, rfl⟩
  · rintro st₂ d₂ hst₂ hd₂
    cases hst₂
    obtain rfl := Option.some.inj (hlookup.symm.trans hd₂)
    rw [hhistory']
    exact List.prefix_or_prefix_of_prefix hread hread'

end Following

end ProviderOwned
