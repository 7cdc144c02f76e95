import ProviderOwned.Planner.Numbers
import ProviderOwned.Stage.Adaptive
import ProviderOwned.Stage.Deferred

/-!
# The deferred inputs are bounded

In the runs of a head whose rounds have the width of their session's policy, no more than 20 inputs
are deferred at a time: there is room for each of them among the rounds that the policy may still
hold at width 1 (`Deferring`). The draft takes so many in one batch (`deferral_bounded`).
-/

namespace ProviderOwned

open RingHead (settles mirrored mirroredFrame)

variable {H : Type*} {D : Type} {r : RingHead H} {f : Frame H} {c : Chance} {id : Nat}
  {t' : Session H}

/-! ### Control frames -/

lemma readyDraft_lessens (r : RingHead H) (f : Frame H) (c : Chance) :
    r.stage.Lessens f.session (r.readyDraft f c).1.stage := by
  have hcaught : (if settles f.type ∧ f.type ≠ .endRequest then r.catchUpDraft f c
      else (r, none)).1.stage = r.stage := by
    split_ifs
    · exact catchUpDraft_stage r f c
    · rfl
  rw [RingHead.readyDraft]
  split
  · rename_i heq
    rw [heq] at hcaught
    rw [hcaught]
    exact .refl _ _
  · rename_i r₁ heq
    rw [heq] at hcaught
    have hflushed : r.stage.Lessens f.session
        (if settles f.type then r₁.flushDraft f c else (r₁, none)).1.stage := by
      rw [← hcaught]
      split_ifs
      · exact flushDraft_lessens r₁ f c
      · exact .refl _ _
    split
    · rename_i heq
      rw [heq] at hflushed
      exact hflushed
    · rename_i heq
      rw [heq] at hflushed
      dsimp only
      split_ifs
      · exact hflushed
      · exact hflushed

/-- A draft that is ready for a frame that it must see has read all that was deferred. -/
lemma readyDraft_pending (hsettles : settles f.type = true) (hdone : (r.readyDraft f c).2 = none)
    {st : Stage H} (hst : (r.readyDraft f c).1.draft = some st) :
    (r.readyDraft f c).1.guessed f.session = none ∧
      ∀ t', (r.readyDraft f c).1.stage.sessions.lookup f.session = some t' →
        t'.draft.pending = [] := by
  have hguessed : f.type ≠ .endRequest →
      (if settles f.type ∧ f.type ≠ .endRequest then r.catchUpDraft f c
      else (r, none)).1.guessed f.session = none := by
    intro hother
    rw [if_pos ⟨hsettles, hother⟩]
    exact catchUpDraft_guessed r f c
  rw [RingHead.readyDraft] at hdone hst ⊢
  generalize (if settles f.type ∧ f.type ≠ .endRequest then r.catchUpDraft f c else (r, none)) =
    caught
    at hguessed hdone hst ⊢
  rcases caught with ⟨r₁, _ | e⟩
  · dsimp only at hguessed hdone hst ⊢
    rw [if_pos hsettles] at hdone hst ⊢
    have hkept := flushDraft_guessed r₁ f c
    have hnone := (RingHead.Local.flushDraft r₁ f c).draft_none
    have hflushed : (r₁.flushDraft f c).2 = none → ∀ st, r₁.draft = some st → ∀ t',
        (r₁.flushDraft f c).1.stage.sessions.lookup f.session = some t' → t'.draft.pending = [] :=
      fun hdone st hst t' ht' => flushDraft_pending hdone hst ht'
    generalize r₁.flushDraft f c = flushed at hkept hnone hflushed hdone hst ⊢
    rcases flushed with ⟨r₂, _ | e⟩
    · dsimp only at hkept hnone hflushed hst ⊢
      have hdraft : ∃ st₁, r₁.draft = some st₁ := by
        cases hst₁ : r₁.draft with
        | some st₁ => exact ⟨st₁, rfl⟩
        | none =>
          split_ifs at hst
          · cases (hnone hst₁).symm.trans hst
          · cases (hnone hst₁).symm.trans hst
      obtain ⟨st₁, hst₁⟩ := hdraft
      split_ifs with hforget
      · exact ⟨Function.update_self .., hflushed rfl st₁ hst₁⟩
      · refine ⟨?_, hflushed rfl st₁ hst₁⟩
        rw [hkept]
        exact hguessed fun hend => hforget (.inl hend)
    · cases hdone
  · cases hdone

lemma followControl_lessens (r : RingHead H) (f : Frame H) (c : Chance) :
    r.stage.Lessens f.session (r.followControl f c).stage := by
  have hmirror : r.stage.Lessens f.session (r.mirror f c).1.stage := by
    have hready := readyDraft_lessens r f c
    rw [RingHead.mirror]
    split
    · rename_i heq
      rw [heq] at hready
      exact hready
    · rename_i heq
      rw [heq] at hready
      split
      · exact hready
      · exact hready
  rw [RingHead.followControl]
  split_ifs
  · exact .refl _ _
  · split
    · rename_i heq
      rw [heq] at hmirror
      exact hmirror
    · rename_i heq
      rw [heq] at hmirror
      exact hmirror
  · split
    · rename_i heq
      rw [heq] at hmirror
      exact hmirror
    · rename_i heq
      rw [heq] at hmirror
      exact hmirror
  · exact .refl _ _

lemma bookkeeping_of_mirrored {type : FrameType} (hmirrored : mirrored type = true)
    (hsettles : settles type = false) :
    type = .createSession ∨ type = .resetSession ∨ type = .destroySession := by
  revert hmirrored hsettles
  cases type <;> decide

/-- What is deferred of a session after a control frame was deferred before, and in a chat it was
when the chat was prepared. -/
lemma serveControl_draft {chunk : Nat}
    (ht' : (r.serveControl f chunk c).1.stage.sessions.lookup f.session = some t') :
    t'.draft.pending = [] ∨ ∃ t, r.stage.sessions.lookup f.session = some t ∧ t'.draft = t.draft ∧
      (t'.chatRequest = true → t.chatRequest = true ∨ t.activeRequest = 0) := by
  have hkept : ∀ {st' : Stage H}, r.stage.Lessens f.session st' →
      st'.sessions.lookup f.session = some t' → t'.draft.pending = [] ∨
        ∃ t, r.stage.sessions.lookup f.session = some t ∧ t'.draft = t.draft ∧
          (t'.chatRequest = true → t.chatRequest = true ∨ t.activeRequest = 0) := by
    intro st' hlessens ht'
    obtain ⟨t, ht, hchat, hdraft⟩ := hlessens t' ht'
    exact hdraft.imp id fun hsame => ⟨t, ht, hsame, fun hyes => .inl (hchat.symm.trans hyes)⟩
  cases hreply : (r.stage.handle f chunk c.ok).2.2 with
  | error e =>
    rw [serveControl_error hreply] at ht'
    exact hkept (Stage.lessens_of_refused hreply) ht'
  | ok out =>
    rw [serveControl_ok hreply] at ht'
    have hfollowed := followControl_lessens (r.answered f (r.stage.handle f chunk c.ok).1) f c
    rw [answered_stage] at hfollowed
    by_cases htype : f.type ∈ [.createSession, .resetSession, .prepareChat]
    · obtain ⟨t, ht, -, hempty | hsame⟩ := hfollowed t' ht'
      · exact .inl hempty
      · rw [hsame]
        simp only [List.mem_cons, List.not_mem_nil, or_false] at htype
        rcases htype with hcreate | hreset | hprepare
        · exact .inl (Stage.cleared_of_answered (.inl hcreate) hreply ht).1
        · exact .inl (Stage.cleared_of_answered (.inr (.inl hreset)) hreply ht).1
        · obtain ⟨-, t₀, ht₀, hidle, hdraft⟩ := Stage.prepared_of_answered hprepare hreply ht
          exact .inr ⟨t₀, ht₀, hdraft, fun _ => .inr hidle⟩
    · exact hkept ((Stage.lessens_of_answered htype hreply).trans hfollowed) ht'

/-- What a control frame leaves of a session outside a chat, if the draft is kept: nothing is
deferred and no round is to be observed, or what was deferred is and the rounds are as before. -/
lemma serveControl_plain {chunk : Nat} {st' : Stage H}
    (hst' : (r.serveControl f chunk c).1.draft = some st')
    (ht' : (r.serveControl f chunk c).1.stage.sessions.lookup f.session = some t')
    (hplain : t'.chatRequest = false) :
    (t'.draft.pending = [] ∧ ((r.serveControl f chunk c).1.guessed f.session = none ∨
        f.type = .createSession ∧ ∃ out, (r.serveControl f chunk c).2 = .ok out)) ∨
    ∃ t, r.stage.sessions.lookup f.session = some t ∧ t.chatRequest = false ∧
      (t'.draft.pending = [] ∨ t'.draft = t.draft) ∧
      (r.serveControl f chunk c).1.guessed f.session = r.guessed f.session ∧
      ((∃ e, (r.serveControl f chunk c).2 = .error e) ∨ mirrored f.type = false) := by
  cases hreply : (r.stage.handle f chunk c.ok).2.2 with
  | error e =>
    rw [serveControl_error hreply] at ht' ⊢
    obtain ⟨t, ht, hchat, hdraft⟩ := Stage.lessens_of_refused hreply t' ht'
    exact .inr ⟨t, ht, hchat.symm.trans hplain, hdraft, rfl, .inl ⟨e, rfl⟩⟩
  | ok out =>
    rw [serveControl_ok hreply] at hst' ht' ⊢
    obtain ⟨r₁, hr₁⟩ : ∃ r₁, r₁ = r.answered f (r.stage.handle f chunk c.ok).1 := ⟨_, rfl⟩
    have hstage : r₁.stage = (r.stage.handle f chunk c.ok).1 := by rw [hr₁, answered_stage]
    rw [← hr₁] at hst' ht' ⊢
    obtain ⟨t₁, ht₁, hchat₁, hdraft₁⟩ := followControl_lessens r₁ f c t' ht'
    have hcan : r₁.stage.canModelDraft f = true :=
      canModelDraft_of_plain ht₁ (hchat₁.symm.trans hplain)
    obtain ⟨st₁, hst₁, -⟩ := (RingHead.Local.followControl r₁ f c).draft st' hst'
    by_cases hsettles : settles f.type = true
    · obtain ⟨hdone, st, out', hst, -, hfollow⟩ := followControl_text hcan hsettles hst₁ hst'
      obtain ⟨hguessed, hpending⟩ := readyDraft_pending hsettles hdone hst
      rw [hfollow] at ht' ⊢
      exact .inl ⟨hpending t' ht', .inl hguessed⟩
    rw [Bool.not_eq_true] at hsettles
    by_cases hmirrored : mirrored f.type = true
    · have htypes := bookkeeping_of_mirrored hmirrored hsettles
      rw [followControl_bookkeeping hst₁ hcan hmirrored hsettles] at ht' ⊢
      rw [hstage] at ht₁
      have hempty : t'.draft.pending = [] := by
        rcases hdraft₁ with hempty | hsame
        · exact hempty
        · rw [hsame]
          exact (Stage.cleared_of_answered htypes hreply ht₁).1
      refine .inl ⟨hempty, ?_⟩
      rcases htypes with hcreate | hclear
      · exact .inr ⟨hcreate, out, rfl⟩
      · refine .inl ?_
        rw [hr₁, RingHead.answered, if_pos hclear]
        exact Function.update_self ..
    · rw [Bool.not_eq_true] at hmirrored
      have hkept : r₁.followControl f c = r₁ := by
        rw [RingHead.followControl, hcan, if_neg (by simp), hmirrored, if_neg (by simp)]
      have hclear : ¬ (f.type = .resetSession ∨ f.type = .destroySession) := by
        rintro (h | h)
        all_goals
          rw [h] at hmirrored
          cases hmirrored
      have hother : f.type ∉ [.createSession, .resetSession, .prepareChat] := by
        intro htype
        simp only [List.mem_cons, List.not_mem_nil, or_false] at htype
        rcases htype with hcreate | hreset | hprepare
        · rw [hcreate] at hmirrored
          cases hmirrored
        · exact hclear (.inl hreset)
        · rw [hstage] at ht₁
          have hchat := (Stage.prepared_of_answered hprepare hreply ht₁).1
          rw [hchat₁, hchat] at hplain
          cases hplain
      have hlessens := Stage.lessens_of_answered hother hreply
      rw [← hstage] at hlessens
      rw [hkept] at ht' ⊢
      obtain ⟨t, ht, hchat, hdraft⟩ := hlessens t' ht'
      refine .inr ⟨t, ht, hchat.symm.trans hplain, hdraft, ?_, .inr hmirrored⟩
      rw [hr₁, answered_of_ne _ _ _ hclear]

/-- A frame that is refused, or that the draft does not follow, commits nothing. -/
lemma committedAfter_eq_some {r' : RingHead H} {reply : Except String (Frame H)}
    {k : Option (Nat × Nat)}
    {at_ : Nat × Nat} (hwhy : (∃ e, reply = .error e) ∨ mirrored f.type = false)
    (hk : committedAfter r' f reply k = some at_) : k = some at_ := by
  rcases hwhy with ⟨e, rfl⟩ | hunmirrored
  · simp only [committedAfter] at hk
    split_ifs at hk
    exact hk
  · cases reply with
    | error e =>
      simp only [committedAfter] at hk
      split_ifs at hk
      exact hk
    | ok out =>
      simp only [committedAfter] at hk
      cases htype : f.type <;> rw [htype] at hk hunmirrored <;>
        first | exact hk | cases hk | cases hunmirrored

/-- Where a session is in no request, nothing is deferred of it. -/
lemma Mirrors.pending_of_idle {md : StageModel H} {k : Option (Nat × Nat)} {t : Session H}
    (h : Mirrors md r id k) (ht : r.stage.sessions.lookup id = some t) (hidle : t.activeRequest = 0)
    (hchat : t.chatRequest = true → t.draft.pending = []) : t.draft.pending = [] := by
  cases h with
  | closed hnone => cases hnone.symm.trans ht
  | chat hsome hyes =>
    cases hsome.symm.trans ht
    exact hchat hyes
  | idle hsome _ _ hpending =>
    cases hsome.symm.trans ht
    exact hpending
  | lost hsome _ _ hpending =>
    cases hsome.symm.trans ht
    exact hpending
  | live _ hactive _ hd =>
    cases hd.stage.symm.trans ht
    exact absurd (hactive.symm.trans hidle) hd.active

/-! ### The batch of a flush -/

/-- A session that has answered a frame that the draft must see is there still. -/
lemma Stage.settled_of_answered {st : Stage H} {chunk : Nat} {ok : Nat → Bool} {out : Frame H}
    (hsettles : settles f.type = true) (hout : (st.handle f chunk ok).2.2 = .ok out) :
    f.session ≠ 0 ∧ ∃ t, (st.handle f chunk ok).1.sessions.lookup f.session = some t := by
  have hanswered := Stage.handle_answered hout
  generalize (st.handle f chunk ok).1.sessions.lookup f.session = after at hanswered
  generalize st.sessions.lookup f.session = before at hanswered
  cases hanswered with
  | create h => rw [h] at hsettles; cases hsettles
  | reset h => rw [h] at hsettles; cases hsettles
  | destroy h => rw [h] at hsettles; cases hsettles
  | endRequest _ hzero _ _ => exact ⟨hzero, _, rfl⟩
  | rollback _ hzero _ _ _ => exact ⟨hzero, _, rfl⟩
  | prepareChat h => rw [h] at hsettles; cases hsettles
  | run _ hzero _ => exact ⟨hzero, _, rfl⟩
  | other h => rcases h with h | h <;> rw [h] at hsettles <;> cases hsettles

/-- Tokens that come where the session has been before, and are not too many, are decoded if
`llama_decode` can. -/
lemma Session.Plain.execute_tokens_ok {m : StageModel H} {s : Session H} (h : s.Plain)
    (hfirst : m.first)
    {p : Nat} {ids : List Token} (hrequest : f.request ≠ 0) (hactive : s.activeRequest = f.request)
    (hprompt : s.hasPrompt = true) (hp : p ≤ s.history.length) (hids : ids ≠ [])
    (hwidth : ids.length ≤ maxSpeculativeWidth) (hroom : p + ids.length ≤ m.contextSize)
    {ok : Nat → Bool}
    (hok : ok 0 = true) : ∃ out, (s.execute m (tokenFrame f p ids) 0 ok).reply = .ok out := by
  have hadmits : s.Admits (tokenFrame f p ids) := by
    refine ⟨hrequest, ?_, fun hidle => ?_, fun _ => hactive⟩
    · rw [h.greedy]
      exact fun h => absurd h.1 (by simp)
    · exact absurd (hactive.symm.trans hidle) hrequest
  have henter := Session.enter_of_admits (m := m) hadmits
  obtain ⟨hholds, hflag, -⟩ := Session.enter_holds h.holds hfirst henter
  rw [Session.execute, henter]
  simp only [hfirst, if_true]
  generalize s.entered m (tokenFrame f p ids) = t at hholds hflag ⊢
  have hposition : t.position = p := hholds.position.trans (List.length_take_of_le hp)
  have hpos := List.length_pos_of_ne_nil hids
  have hflag' : t.hasPrompt = true := hflag.trans hprompt
  have hrun : t.runFirst m (tokenFrame f p ids) 0 ok =
      t.runTokens m (tokenFrame f p ids) ids 0 ok := by
    by_cases hmany : 1 < ids.length
    · have hnarrow : ¬ maxSpeculativeWidth < ids.length := Nat.not_lt_of_le hwidth
      have hsome : ids.length ≠ 0 := hpos.ne'
      simp [Session.runFirst, Session.runToken, tokenFrame, Session.isSpeculative, Payload.tokenIds,
        hmany, hnarrow, hsome, hposition, hflag']
    · have hone : ids.length = 1 := by omega
      simp [Session.runFirst, Session.runToken, tokenFrame, Session.isSpeculative, Payload.tokenIds,
        hone, hposition, hflag']
  have hprefill : t.prefill m (tokenFrame f p ids) ids 0 ok = (t, [], .ok (ids, 0)) :=
    if_neg (by simp)
  rw [hrun, Session.runTokens, if_neg (by omega), hprefill]
  dsimp only
  rw [hok]
  exact t.finalBatch_ok m _ ids []

lemma flushDraft_of_empty (hzero : f.session ≠ 0) {t : Session H}
    (ht : r.stage.sessions.lookup f.session = some t) (hpending : t.draft.pending = []) :
    (r.flushDraft f c).2 = none := by
  rw [RingHead.flushDraft, Stage.requireSession_of_lookup hzero ht]
  dsimp only
  rw [if_pos hpending]

/-- What is deferred of a session that the draft follows is decoded in one batch if `llama_decode`
can. -/
lemma Following.flush_answered {md : StageModel H} {t t₁ d : Session H} {text : List Token}
    (h : Following md r f.session t d text) (hfirst : md.first)
    (hlength : t.draft.pending.length ≤ maxSpeculativeWidth)
    (hfits : t.draft.pending = [] ∨ t.draft.start + t.draft.pending.length ≤ md.contextSize)
    {r₁ : RingHead H} (hdraft : (∀ x ∈ r.guessed f.session, x.tokens = []) → r₁.draft = r.draft)
    (ht₁ : r₁.stage.sessions.lookup f.session = some t₁) (hsame : t₁.draft = t.draft)
    (hok : c.okFlush 0 = true) : (r₁.flushDraft f c).2 = none := by
  by_cases hpending : t.draft.pending = []
  · exact flushDraft_of_empty h.nonzero ht₁ (hsame.symm ▸ hpending)
  · obtain ⟨st, hst, hmodel, hd⟩ := h.draft
    obtain ⟨hrequest, hstart, hg⟩ : t.draft.request = d.activeRequest ∧
        t.draft.start ≤ d.history.length ∧
        ∀ x ∈ r.guessed f.session, x.tokens = [] := by
      cases h.followed with
      | even hnone => exact absurd hnone hpending
      | deferred _ hrequest hstart hg => exact ⟨hrequest, hstart, hg⟩
      | guessed hnone => exact absurd hnone hpending
    have hst₁ : r₁.draft = some st := (hdraft hg).trans hst
    have hnonzero : t.draft.request ≠ 0 := hrequest ▸ h.active
    obtain ⟨out, hout⟩ : ∃ out, (d.execute md (replayFrame f t.draft) 0 c.okFlush).reply =
        .ok out :=
      h.plain.execute_tokens_ok (f := { f with request := t.draft.request }) hfirst hnonzero
        hrequest.symm
        h.prompted hstart hpending hlength (hfits.resolve_left hpending) hok
    have hreply :=
      (Stage.handle_run_of_lookup (f := replayFrame f t.draft) rfl hnonzero h.nonzero hd 0
      c.okFlush).1
    rw [hmodel, hout] at hreply
    rw [RingHead.flushDraft, Stage.requireSession_of_lookup h.nonzero ht₁]
    simp only [hsame, hpending, if_false, hst₁]
    generalize st.handle (replayFrame f t.draft) 0 c.okFlush = handled at hreply
    obtain ⟨draft, emitted, reply⟩ := handled
    cases hreply
    rfl

/-- So it is of any session outside a chat. -/
lemma Mirrors.flush_answered {md : StageModel H} {k : Option (Nat × Nat)} {t t₁ : Session H}
    (h : Mirrors md r f.session k) (hfirst : md.first) (hzero : f.session ≠ 0)
    (ht : r.stage.sessions.lookup f.session = some t) (hplain : t.chatRequest = false)
    (hlength : t.draft.pending.length ≤ maxSpeculativeWidth)
    (hfits : t.draft.pending = [] ∨ t.draft.start + t.draft.pending.length ≤ md.contextSize)
    {r₁ : RingHead H} (hdraft : (∀ x ∈ r.guessed f.session, x.tokens = []) → r₁.draft = r.draft)
    (ht₁ : r₁.stage.sessions.lookup f.session = some t₁)
    (hkept : t₁.draft.pending = [] ∨ t₁.draft = t.draft) (hok : c.okFlush 0 = true) :
    (r₁.flushDraft f c).2 = none := by
  rcases hkept with hempty | hsame
  · exact flushDraft_of_empty hzero ht₁ hempty
  cases h with
  | closed hnone => cases hnone.symm.trans ht
  | chat hsome hchat =>
    cases hsome.symm.trans ht
    cases hchat.symm.trans hplain
  | idle hsome _ _ hpending =>
    cases hsome.symm.trans ht
    exact flushDraft_of_empty hzero ht₁ (hsame.symm ▸ hpending)
  | lost hsome _ _ hpending =>
    cases hsome.symm.trans ht
    exact flushDraft_of_empty hzero ht₁ (hsame.symm ▸ hpending)
  | live _ _ _ hd =>
    cases hd.stage.symm.trans ht
    exact hd.flush_answered hfirst hlength hfits hdraft ht₁ hsame hok

/-! ### Runs with the policies of the sessions -/

/-- The head in its runs and, of each of its sessions, `DraftState::policy`. -/
structure Adapting (D : Type) (H : Type*) where
  streaming : Streaming H
  policy : Nat → AdaptiveDraftWidth D

namespace Adapting

variable [Planner.Arithmetic D]

/-- A freshly loaded stage and its draft model, for rounds of this width at most. -/
def load (m md : StageModel H) (draftWidth : Nat) : Adapting D H where
  streaming := .load m md
  policy _ := .new draftWidth

/-- The policy of a session after `catch_up_draft`; the last round has taken so many nanoseconds. -/
def caughtUp (h : Adapting D H) (next : Frame H) (c : Chance) (elapsed : Nat) :
    AdaptiveDraftWidth D :=
  match h.streaming.ring.guessed next.session with
  | none => h.policy next.session
  | some last =>
    if next.request = last.request ∧ (h.streaming.ring.catchUpDraft next c).2 = none ∧
        next.type = .token ∧ last.start < next.position ∧ next.position ≤ last.behindAt + 1 then
      (h.policy next.session).observe ⟨last.tokens.length + 1, next.position - last.start, elapsed⟩
    else h.policy next.session

/-- The policy of a session when the width of its round is asked for. -/
def roundPolicy (h : Adapting D H) (ngramDraft : Bool) (input : Frame H) (c : Chance)
    (elapsed : Nat) :
    AdaptiveDraftWidth D :=
  if ((h.streaming.ring.draft.isSome ∧ h.streaming.ring.stage.canModelDraft input) ∨ ngramDraft) ∧
      h.streaming.ring.stage.canDraft input ∧
        (h.streaming.ring.stage.requireSession input).isOk then
    h.caughtUp input c elapsed
  else h.policy input.session

/-- What happens in a round whose width is that of the policy. -/
def chance (h : Adapting D H) (ngramDraft : Bool) (input : Frame H) (c : Chance) (elapsed : Nat) :
    Chance :=
  { c with width := (h.roundPolicy ngramDraft input c elapsed).width }

/-- A round, of which the last stage accepts so many guesses. -/
def round (h : Adapting D H) (ngramDraft : Bool) (input : Frame H) (c : Chance)
    (elapsed accepted : Nat) :
    Adapting D H where
  streaming := h.streaming.round ngramDraft input (h.chance ngramDraft input c elapsed) accepted
  policy := Function.update h.policy input.session (h.roundPolicy ngramDraft input c elapsed)

/-- A frame on the control connection. A session that is made or reset has a new policy. -/
def control (h : Adapting D H) (draftWidth : Nat) (input : Frame H) (chunk : Nat) (c : Chance) :
    Adapting D H where
  streaming := h.streaming.control input chunk c
  policy :=
    if (input.type = .createSession ∨ input.type = .resetSession) ∧
        (h.streaming.ring.serveControl input chunk c).2.isOk then
      Function.update h.policy input.session (.new draftWidth)
    else h.policy

/-- The connection is lost, and every session with it. -/
def disconnected (h : Adapting D H) : Adapting D H :=
  { h with streaming := h.streaming.disconnected }

/-- The states of a head in its runs. A round takes time. -/
inductive Reached (m md : StageModel H) (ngramDraft : Bool) (draftWidth : Nat) : Adapting D H → Prop
  | load : Reached m md ngramDraft draftWidth (load m md draftWidth)
  | control {h : Adapting D H} (input : Frame H) (hother : input.type ≠ .token) (chunk : Nat)
      (c : Chance) :
      Reached m md ngramDraft draftWidth h →
        Reached m md ngramDraft draftWidth (h.control draftWidth input chunk c)
  | round {h : Adapting D H} {input : Frame H} (htoken : input.type = .token)
      (hawaits : h.streaming.Awaits input) (c : Chance) {elapsed : Nat} (helapsed : 0 < elapsed)
      {accepted : Nat} (haccepted : accepted ≤ (h.streaming.ring.decodeRound ngramDraft input
        (h.chance ngramDraft input c elapsed)).1.guessCount input.session) :
      Reached m md ngramDraft draftWidth h →
        Reached m md ngramDraft draftWidth (h.round ngramDraft input c elapsed accepted)
  | disconnected {h : Adapting D H} : Reached m md ngramDraft draftWidth h →
      Reached m md ngramDraft draftWidth h.disconnected

/-- The head `r` where a step replays the deferred inputs of the session of a frame:
`flush_draft`. -/
inductive Flushes (ngramDraft : Bool) (h : Adapting D H) : RingHead H → Frame H → Chance → Prop
  | round {input : Frame H} (htoken : input.type = .token) (hawaits : h.streaming.Awaits input)
      (c : Chance)
      {elapsed : Nat} (helapsed : 0 < elapsed) {r : RingHead H}
      (hcaught : h.streaming.ring.catchUpDraft input c = (r, none))
      (hwidth : 1 < (h.chance ngramDraft input c elapsed).width) (hdraft : r.draft.isSome)
      (hcan : r.stage.canModelDraft input = true) : Flushes ngramDraft h r input c
  | control {input : Frame H} (hother : input.type ≠ .token) (hsettles : settles input.type = true)
      (chunk : Nat) (c : Chance) {out : Frame H} {answered r : RingHead H}
      (hout : (h.streaming.ring.stage.handle input chunk c.ok).2.2 = .ok out)
      (hanswered : answered =
        h.streaming.ring.answered input (h.streaming.ring.stage.handle input chunk c.ok).1)
      (hcan : answered.stage.canModelDraft input = true)
      (hcaught : (if input.type ≠ .endRequest then answered.catchUpDraft input c
        else (answered, none)) =
        (r, none)) (hdraft : r.draft.isSome) : Flushes ngramDraft h r input c

end Adapting

/-! ### Room for the deferred inputs -/

/-- There is room for the inputs deferred of a session, `pending` of them, among the rounds that its
policy may still hold at width 1. At a greater width only the last round may be deferred. -/
def Within (p : AdaptiveDraftWidth D) (pending outstanding : Nat) : Prop :=
  if p.width = 1 then pending + p.left ≤ 20 + outstanding else pending ≤ outstanding

section

variable {p : AdaptiveDraftWidth D} {pending pending' outstanding : Nat}

lemma within_zero (p : AdaptiveDraftWidth D) (outstanding : Nat) : Within p 0 outstanding := by
  have hleft := p.left_le
  rw [Within]
  split_ifs
  · omega
  · exact Nat.zero_le _

lemma Within.mono (h : Within p pending outstanding) (hle : pending' ≤ pending) :
    Within p pending' outstanding := by
  rw [Within] at h ⊢
  split_ifs at h ⊢
  · exact (Nat.add_le_add_right hle _).trans h
  · exact hle.trans h

lemma Within.le_twenty (h : Within p pending outstanding) (hleft : p.width = 1 → 0 < p.left)
    (hone : outstanding ≤ 1) : pending ≤ 20 := by
  rw [Within] at h
  split_ifs at h with hwidth
  · have hpos := hleft hwidth
    omega
  · omega

end

/-- How what is deferred of a session stands to its policy. -/
structure Deferring (p : AdaptiveDraftWidth D) (r : RingHead H) (id : Nat)
    (k : Option (Nat × Nat)) :
    Prop where
  chat : ∀ t, r.stage.sessions.lookup id = some t → t.chatRequest = true → t.draft.pending = []
  within : ∀ t, r.stage.sessions.lookup id = some t → t.chatRequest = false →
    Within p t.draft.pending.length (r.outstanding id)
  last : ∀ t, r.stage.sessions.lookup id = some t → t.chatRequest = false →
    ∀ x, r.guessed id = some x →
    ∀ request n, k = some (request, n) → request = x.request ∧ x.start < n ∧ n ≤ x.behindAt + 1

section Deferring

variable {p p' : AdaptiveDraftWidth D} {k k' : Option (Nat × Nat)} {r' : RingHead H}

/-- The same holds of any head that agrees on the session. -/
lemma Deferring.congr (h : Deferring p r id k)
    (ht : r'.stage.sessions.lookup id = r.stage.sessions.lookup id)
    (hg : r'.guessed id = r.guessed id) :
    Deferring p r' id k := by
  have houtstanding : r'.outstanding id = r.outstanding id := by
    rw [RingHead.outstanding, RingHead.outstanding, hg]
  refine ⟨fun t h' => h.chat t (ht.symm.trans h'), fun t h' => ?_, fun t h' hplain x hx => ?_⟩
  · rw [houtstanding]
    exact h.within t (ht.symm.trans h')
  · exact h.last t (ht.symm.trans h') hplain x (hg.symm.trans hx)

lemma Deferring.pending_le (h : Deferring p r id k) (hleft : p.width = 1 → 0 < p.left)
    {t : Session H} (ht : r.stage.sessions.lookup id = some t) : t.draft.pending.length ≤ 20 := by
  cases hchat : t.chatRequest with
  | true =>
    rw [h.chat t ht hchat]
    exact Nat.zero_le _
  | false => exact (h.within t ht hchat).le_twenty hleft (outstanding_le ..)

variable [Planner.Arithmetic D]

/-- What `observe` makes of the room there is. -/
lemma Within.observe {limit pending outstanding : Nat} {o : RoundCost}
    (h : Within p pending outstanding) (hp : p.Sound limit) (hcounts : p.counts o = true)
    (hone : p.width = 1 → outstanding ≤ 1) (hmore : p.width ≠ 1 → outstanding = 0) :
    pending + (p.observe o).left ≤ 20 := by
  have hleft := (p.observe o).left_le
  rw [Within] at h
  split_ifs at h with hwidth
  · have hfalls := hp.left_observe hcounts hwidth
    have hle := hone hwidth
    omega
  · rw [hmore hwidth] at h
    omega

/-- At width 1 there is room for the input of the round: its policy has observed the last one. -/
lemma Deferring.caughtUp {h : Adapting D H} {limit : Nat}
    (hdeferring : Deferring (h.policy f.session) h.streaming.ring f.session
      (some (f.request, f.position)))
    (hp : (h.policy f.session).Sound limit) (hlimit : 2 ≤ limit) (htoken : f.type = .token)
    {elapsed : Nat}
    (helapsed : 0 < elapsed) {st : Stage H} (hst : h.streaming.ring.draft = some st) {t : Session H}
    (ht : h.streaming.ring.stage.sessions.lookup f.session = some t)
    (hplain : t.chatRequest = false) (hwidth : (h.caughtUp f c elapsed).width = 1) :
    t.draft.pending.length + (h.caughtUp f c elapsed).left ≤ 20 := by
  have hwithin := hdeferring.within t ht hplain
  have hone := outstanding_le h.streaming.ring f.session
  have hsettled : (h.policy f.session).width = 1 → h.streaming.ring.outstanding f.session = 0 →
      t.draft.pending.length + (h.policy f.session).left ≤ 20 := by
    intro hwidth hnone
    rwa [Within, if_pos hwidth, hnone] at hwithin
  rw [Adapting.caughtUp] at hwidth ⊢
  cases hguessed : h.streaming.ring.guessed f.session with
  | none =>
    rw [hguessed] at hwidth
    refine hsettled hwidth ?_
    rw [RingHead.outstanding, hguessed]
  | some last =>
    obtain ⟨hrequest, hafter, hbefore⟩ := hdeferring.last t ht hplain last hguessed _ _ rfl
    have houtstanding := outstanding_of_guessed hguessed
    simp only [hguessed] at hwidth ⊢
    by_cases htokens : last.tokens = []
    · -- the last round was one of width 1, and is observed now
      have hcaught := (catchUpDraft_of_unguessed (f := f) (c := c) hst fun x hx => by
        cases hguessed.symm.trans hx
        exact htokens).1
      have hcommitted : f.position - last.start = 1 := by
        rw [Guesses.behindAt, htokens, List.length_nil] at hbefore
        omega
      rw [if_pos ⟨hrequest, hcaught, htoken, hafter, hbefore⟩, htokens, List.length_nil,
        Nat.zero_add, hcommitted] at hwidth ⊢
      by_cases hcounts : (h.policy f.session).counts ⟨1, 1, elapsed⟩ = true
      · refine hwithin.observe hp hcounts (fun _ => hone) fun hwide => ?_
        exact absurd (AdaptiveDraftWidth.counts_iff.mp hcounts).2.1.symm hwide
      · rw [AdaptiveDraftWidth.observe_of_not_counts (Bool.not_eq_true _ ▸ hcounts)] at hwidth
        refine absurd (AdaptiveDraftWidth.counts_iff.mpr ⟨?_, hwidth.symm, one_ne_zero, le_rfl,
          helapsed.ne'⟩)
          hcounts
        rw [hp.limit_eq]
        omega
    · rw [if_neg htokens] at houtstanding
      split_ifs at hwidth ⊢ with hobserved
      · by_cases hcounts : (h.policy f.session).counts
            ⟨last.tokens.length + 1, f.position - last.start, elapsed⟩ = true
        · exact hwithin.observe hp hcounts (fun _ => hone) fun _ => houtstanding
        · rw [AdaptiveDraftWidth.observe_of_not_counts (Bool.not_eq_true _ ▸ hcounts)] at hwidth ⊢
          exact hsettled hwidth houtstanding
      · exact hsettled hwidth houtstanding

end Deferring

namespace Adapting

variable {m md : StageModel H} {draftWidth : Nat} {h : Adapting D H} {ngramDraft : Bool}

/-- What holds in every run, beside how the draft stands to the sessions. -/
structure Inv (m : StageModel H) (draftWidth : Nat) (h : Adapting D H) : Prop where
  sound : ∀ id, (h.policy id).Sound draftWidth
  bounded : ∀ id t, h.streaming.ring.stage.sessions.lookup id = some t → t.draft.pending.length ≤ 20
  fits : ∀ id t, h.streaming.ring.stage.sessions.lookup id = some t →
    t.draft.pending = [] ∨ t.draft.start + t.draft.pending.length ≤ m.contextSize
  deferring : ∀ st, h.streaming.ring.draft = some st → ∀ id,
    Deferring (h.policy id) h.streaming.ring id (h.streaming.committed id)

/-- A step at one session keeps the invariant if it keeps it there. -/
lemma Inv.of_local (hinv : h.Inv m draftWidth) {id : Nat} {r' : RingHead H} {k : Option (Nat × Nat)}
    {p : AdaptiveDraftWidth D} (hlocal : h.streaming.ring.Local id r') (hsound : p.Sound draftWidth)
    (hhere : ∀ t', r'.stage.sessions.lookup id = some t' → t'.draft.pending.length ≤ 20 ∧
      (t'.draft.pending = [] ∨ t'.draft.start + t'.draft.pending.length ≤ m.contextSize))
    (hdeferring : ∀ st, r'.draft = some st → Deferring p r' id k) :
    Inv m draftWidth
      ⟨⟨r', Function.update h.streaming.committed id k⟩, Function.update h.policy id p⟩ := by
  refine ⟨fun i => ?_, fun i t ht => ?_, fun i t ht => ?_, fun st hst i => ?_⟩
  all_goals
    dsimp only at *
    by_cases hi : i = id
  · rw [hi, Function.update_self]
    exact hsound
  · rw [Function.update_of_ne hi]
    exact hinv.sound i
  · exact (hhere t (hi ▸ ht)).1
  · exact hinv.bounded i t ((hlocal.stage i hi).symm.trans ht)
  · exact (hhere t (hi ▸ ht)).2
  · exact hinv.fits i t ((hlocal.stage i hi).symm.trans ht)
  · rw [hi, Function.update_self, Function.update_self]
    exact hdeferring st hst
  · obtain ⟨st₀, hst₀, -⟩ := hlocal.draft st hst
    rw [Function.update_of_ne hi, Function.update_of_ne hi]
    exact (hinv.deferring st₀ hst₀ i).congr (hlocal.stage i hi) (hlocal.guessed i hi)

/-- What is deferred as before is bounded as before. -/
lemma Inv.kept (hinv : h.Inv m draftWidth) (id : Nat) (hkept : t'.draft.pending = [] ∨
      ∃ t, h.streaming.ring.stage.sessions.lookup id = some t ∧ t'.draft = t.draft) :
    t'.draft.pending.length ≤ 20 ∧
      (t'.draft.pending = [] ∨ t'.draft.start + t'.draft.pending.length ≤ m.contextSize) := by
  rcases hkept with hempty | ⟨t, ht, hsame⟩
  · rw [hempty]
    exact ⟨Nat.zero_le _, .inl rfl⟩
  · rw [hsame]
    exact ⟨hinv.bounded id t ht, hinv.fits id t ht⟩

variable [Planner.Arithmetic D]

lemma caughtUp_sound (hp : (h.policy f.session).Sound draftWidth) (hwidth : 2 ≤ draftWidth)
    (elapsed : Nat) :
    (h.caughtUp f c elapsed).Sound draftWidth := by
  rw [caughtUp]
  split
  · exact hp
  · split_ifs
    · exact hp.observe hwidth _
    · exact hp

lemma roundPolicy_sound (hp : (h.policy f.session).Sound draftWidth) (hwidth : 2 ≤ draftWidth)
    (elapsed : Nat) : (h.roundPolicy ngramDraft f c elapsed).Sound draftWidth := by
  rw [roundPolicy]
  split_ifs
  · exact caughtUp_sound hp hwidth elapsed
  · exact hp

/-- A round of a session that the draft follows asks the policy that has caught up. -/
lemma roundPolicy_of_following {t d : Session H} {text : List Token}
    (hd : Following md h.streaming.ring f.session t d text) (elapsed : Nat) :
    h.roundPolicy ngramDraft f c elapsed = h.caughtUp f c elapsed := by
  obtain ⟨st, hst, -⟩ := hd.draft
  have hsome : h.streaming.ring.draft.isSome = true := by
    rw [hst]
    rfl
  have hcan : h.streaming.ring.stage.canDraft f = true := by
    rw [Stage.canDraft, hd.stage]
    simp only [hd.greedy, Bool.not_false, Bool.true_or]
  refine if_pos ⟨.inl ⟨hsome, hd.canModelDraft⟩, hcan, ?_⟩
  rw [Stage.requireSession_of_lookup hd.nonzero hd.stage]
  rfl

/-- What is deferred of a session that the draft follows stands to its policy after a round as
before. -/
lemma deferring_round {t d : Session H} {text : List Token} {elapsed accepted : Nat}
    (hdeferring : Deferring (h.policy f.session) h.streaming.ring f.session
      (some (f.request, f.position)))
    (hp : (h.policy f.session).Sound draftWidth) (hwidth : 2 ≤ draftWidth)
    (hfirst : h.streaming.ring.stage.model.first)
    (hd : Following md h.streaming.ring f.session t d text) (htoken : f.type = .token)
    (helapsed : 0 < elapsed)
    (haccepted : accepted ≤ (h.streaming.ring.decodeRound ngramDraft f
      (h.chance ngramDraft f c elapsed)).1.guessCount f.session) {st' : Stage H}
    (hst' : (h.streaming.ring.decodeRound ngramDraft f (h.chance ngramDraft f c elapsed)).1.draft =
      some st') :
    Deferring (h.roundPolicy ngramDraft f c elapsed)
      (h.streaming.ring.decodeRound ngramDraft f (h.chance ngramDraft f c elapsed)).1 f.session
      (committedRound f
        (h.streaming.ring.decodeRound ngramDraft f (h.chance ngramDraft f c elapsed)).2
        accepted) := by
  obtain ⟨st, hst, -⟩ := hd.draft
  have hround := fun t' (ht' : (h.streaming.ring.decodeRound ngramDraft f
      (h.chance ngramDraft f c elapsed)).1.stage.sessions.lookup f.session = some t') =>
    decodeRound_deferred hfirst hd.canModelDraft
      (Stage.requireSession_of_lookup hd.nonzero hd.stage) hst' ht'
  refine ⟨fun t' ht' hchat => ?_, fun t' ht' _ => ?_, fun t' ht' _ x hx request n hk => ?_⟩
  · rw [(hround t' ht').1, hd.greedy] at hchat
    cases hchat
  · obtain ⟨-, hlength, -⟩ := hround t' ht'
    have hpolicy : h.roundPolicy ngramDraft f c elapsed = h.caughtUp f c elapsed :=
      roundPolicy_of_following hd elapsed
    have hroom := hdeferring.caughtUp (c := c) hp hwidth htoken helapsed hst hd.stage hd.greedy
    rw [← hpolicy] at hroom
    have hchance : (h.chance ngramDraft f c elapsed).width =
      (h.roundPolicy ngramDraft f c elapsed).width := rfl
    rw [hchance] at hlength
    rw [Within]
    split_ifs with hone
    · rw [if_neg (by rw [hone]; exact lt_irrefl 1)] at hlength
      have hle := hroom hone
      omega
    · have hwide : 1 < (h.roundPolicy ngramDraft f c elapsed).width :=
        lt_of_le_of_ne (roundPolicy_sound hp hwidth elapsed).width.1 (Ne.symm hone)
      rwa [if_pos hwide, Nat.zero_add] at hlength
  · obtain ⟨hstart, hrequest⟩ := (hround t' ht').2.2.1 x hx
    have haccepted' : accepted ≤ x.tokens.length := by
      rwa [RingHead.guessCount, hx] at haccepted
    rw [committedRound.eq_def] at hk
    split at hk
    · cases hk
      rw [Guesses.behindAt, hstart, hrequest]
      exact ⟨rfl, by omega, by omega⟩
    · cases hk

section steps

variable (hwidth : 2 ≤ draftWidth) (hfirst : m.first) (hinv : h.Inv m draftWidth)
  (hstreaming : h.streaming.Inv m md)
include hwidth hfirst hinv hstreaming

lemma Inv.round (htoken : f.type = .token) (hawaits : h.streaming.Awaits f) {elapsed accepted : Nat}
    (helapsed : 0 < elapsed) (haccepted : accepted ≤ (h.streaming.ring.decodeRound ngramDraft f
      (h.chance ngramDraft f c elapsed)).1.guessCount f.session) :
    (h.round ngramDraft f c elapsed accepted).Inv m draftWidth := by
  have hlocal :=
    RingHead.Local.decodeRound ngramDraft h.streaming.ring f (h.chance ngramDraft f c elapsed)
  have hsound : (h.roundPolicy ngramDraft f c elapsed).Sound draftWidth :=
    roundPolicy_sound (hinv.sound _) hwidth elapsed
  have hlessens : ∀ t', (h.streaming.ring.decodeRound ngramDraft f
        (h.chance ngramDraft f c elapsed)).1.stage.sessions.lookup f.session = some t' →
      (h.streaming.ring.decodeRound ngramDraft f (h.chance ngramDraft f c elapsed)).1.draft = none ∨
        InChat h.streaming.ring.stage f.session →
      ∃ t, h.streaming.ring.stage.sessions.lookup f.session = some t ∧
        t'.chatRequest = t.chatRequest ∧
        (t'.draft.pending = [] ∨ t'.draft = t.draft) := fun t' ht' h =>
    decodeRound_lessens h t' ht'
  cases hst' :
    (h.streaming.ring.decodeRound ngramDraft f (h.chance ngramDraft f c elapsed)).1.draft with
  | none =>
    refine hinv.of_local hlocal hsound (fun t' ht' => ?_) fun st hst => ?_
    · obtain ⟨t, ht, -, hkept⟩ := hlessens t' ht' (.inl hst')
      exact hinv.kept f.session (hkept.imp id fun hsame => ⟨t, ht, hsame⟩)
    · cases hst'.symm.trans hst
  | some st' =>
    obtain ⟨st, hst, -⟩ := hlocal.draft st' hst'
    have hdeferring := hinv.deferring st hst f.session
    have hmirrors := hstreaming.mirrors st hst f.session
    rw [show h.streaming.committed f.session = some (f.request, f.position) from hawaits]
      at hdeferring hmirrors
    cases hmirrors with
    | chat ht hchat _ =>
      have hnone : ∀ t', (h.streaming.ring.decodeRound ngramDraft f
          (h.chance ngramDraft f c elapsed)).1.stage.sessions.lookup f.session = some t' →
          t'.draft.pending = [] ∧ t'.chatRequest = true := by
        intro t' ht'
        obtain ⟨t, ht₀, hsame, hkept⟩ := hlessens t' ht' (.inr ⟨_, ht, hchat⟩)
        obtain rfl := Option.some.inj (ht₀.symm.trans ht)
        refine ⟨?_, hsame.trans hchat⟩
        rcases hkept with hempty | hdraft
        · exact hempty
        · rw [hdraft]
          exact hdeferring.chat _ ht hchat
      refine hinv.of_local hlocal hsound (fun t' ht' => hinv.kept f.session (.inl (hnone t' ht').1))
        fun _ _ => ?_
      refine ⟨fun t' ht' _ => (hnone t' ht').1, fun t' ht' hplain => ?_, fun t' ht' hplain => ?_⟩
      · rw [(hnone t' ht').2] at hplain
        cases hplain
      · rw [(hnone t' ht').2] at hplain
        cases hplain
    | live _ _ _ hd _ _ =>
      have hmodel : h.streaming.ring.stage.model.first := hstreaming.stage ▸ hfirst
      have hdeferring' :=
        deferring_round hdeferring (hinv.sound _) hwidth hmodel hd htoken helapsed haccepted
        hst'
      refine hinv.of_local hlocal hsound (fun t' ht' => ?_) fun _ _ => hdeferring'
      refine ⟨hdeferring'.pending_le hsound.left_pos ht', ?_⟩
      have hrequire := Stage.requireSession_of_lookup hd.nonzero hd.stage
      rcases (decodeRound_deferred hmodel hd.canModelDraft hrequire hst' ht').2.2.2 with
        hempty | hsame | hfits
      · exact .inl hempty
      · rw [hsame]
        exact hinv.fits _ _ hd.stage
      · rw [hstreaming.stage] at hfits
        exact .inr hfits

omit hwidth hfirst in
lemma Inv.control (hone : 1 ≤ draftWidth) (hmax : draftWidth ≤ maxSpeculativeWidth) (f : Frame H)
    (chunk : Nat) (c : Chance) : (h.control draftWidth f chunk c).Inv m draftWidth := by
  have hlocal := RingHead.Local.serveControl h.streaming.ring f chunk c
  obtain ⟨p, hp⟩ : ∃ p : AdaptiveDraftWidth D,
      p = if (f.type = .createSession ∨ f.type = .resetSession) ∧
        (h.streaming.ring.serveControl f chunk c).2.isOk then .new draftWidth
        else h.policy f.session :=
    ⟨_, rfl⟩
  have hsound : p.Sound draftWidth := by
    rw [hp]
    split_ifs
    · exact AdaptiveDraftWidth.sound_new hone hmax
    · exact hinv.sound _
  have hpolicy : (h.control draftWidth f chunk c).policy =
      Function.update h.policy f.session p := by
    rw [Adapting.control, hp]
    split_ifs
    · rfl
    · exact (Function.update_eq_self ..).symm
  have hdraft :=
    fun t' (ht' : (h.streaming.ring.serveControl f chunk c).1.stage.sessions.lookup f.session =
    some t') => serveControl_draft ht'
  have hstep := hinv.of_local (k := committedAfter (h.streaming.ring.serveControl f chunk c).1 f
    (h.streaming.ring.serveControl f chunk c).2 (h.streaming.committed f.session)) hlocal hsound
    (fun t' ht' => hinv.kept f.session ((hdraft t' ht').imp id
      fun ⟨t, ht, hsame, _⟩ => ⟨t, ht, hsame⟩)) ?_
  · rw [← hpolicy] at hstep
    exact hstep
  intro st' hst'
  obtain ⟨st, hst, -⟩ := hlocal.draft st' hst'
  have hdeferring := hinv.deferring st hst f.session
  have hmirrors := hstreaming.mirrors st hst f.session
  refine ⟨fun t' ht' hchat => ?_, fun t' ht' hplain => ?_,
    fun t' ht' hplain x hx request n hk => ?_⟩
  · rcases hdraft t' ht' with hempty | ⟨t, ht, hsame, hbefore⟩
    · exact hempty
    rw [hsame]
    rcases hbefore hchat with hyes | hidle
    · exact hdeferring.chat t ht hyes
    · exact hmirrors.pending_of_idle ht hidle (hdeferring.chat t ht)
  · rcases serveControl_plain hst' ht' hplain with
      ⟨hempty, -⟩ | ⟨t, ht, hplain', hkept, hguessed, hwhy⟩
    · rw [hempty]
      exact within_zero _ _
    · have hsame : p = h.policy f.session := by
        rw [hp]
        refine if_neg ?_
        rintro ⟨htype, hok⟩
        rcases hwhy with ⟨e, he⟩ | hunmirrored
        · rw [he] at hok
          cases hok
        · rcases htype with htype | htype
          all_goals
            rw [htype] at hunmirrored
            cases hunmirrored
      rw [hsame, RingHead.outstanding, hguessed]
      refine (hdeferring.within t ht hplain').mono ?_
      rcases hkept with hempty | hdraft
      · rw [hempty]
        exact Nat.zero_le _
      · rw [hdraft]
  · rcases serveControl_plain hst' ht' hplain with ⟨-, hnone | ⟨hcreate, out, hout⟩⟩ |
      ⟨t, ht, hplain', -, hguessed, hwhy⟩
    · cases hnone.symm.trans hx
    · rw [hout] at hk
      simp only [committedAfter, hcreate] at hk
      cases hk
    · refine hdeferring.last t ht hplain' x (hguessed.symm.trans hx) request n ?_
      exact committedAfter_eq_some hwhy hk

end steps

lemma inv_load (hone : 1 ≤ draftWidth) (hmax : draftWidth ≤ maxSpeculativeWidth) :
    (load m md draftWidth : Adapting D H).Inv m draftWidth := by
  have hnone : ∀ id t,
      (load m md draftWidth : Adapting D H).streaming.ring.stage.sessions.lookup id ≠ some t :=
    fun id t ht => by cases (AList.lookup_empty id).symm.trans ht
  exact ⟨fun _ => AdaptiveDraftWidth.sound_new hone hmax, fun id t ht => absurd ht (hnone id t),
    fun id t ht => absurd ht (hnone id t), fun _ _ id => ⟨fun t ht => absurd ht (hnone id t),
      fun t ht => absurd ht (hnone id t), fun t ht => absurd ht (hnone id t)⟩⟩

omit [Planner.Arithmetic D] in
lemma Inv.disconnected (hinv : h.Inv m draftWidth) : h.disconnected.Inv m draftWidth := by
  have hnone : ∀ id t, h.disconnected.streaming.ring.stage.sessions.lookup id ≠ some t :=
    fun id t ht => by cases (AList.lookup_empty id).symm.trans ht
  exact ⟨hinv.sound, fun id t ht => absurd ht (hnone id t),
    fun id t ht => absurd ht (hnone id t), fun _ _ id => ⟨fun t ht => absurd ht (hnone id t),
      fun t ht => absurd ht (hnone id t), fun t ht => absurd ht (hnone id t)⟩⟩

lemma Reached.streaming (hreached : Reached m md ngramDraft draftWidth h) :
    Streaming.Reached m md ngramDraft h.streaming := by
  induction hreached with
  | load => exact .load
  | control input hother chunk c _ ih => exact .control input hother chunk c ih
  | round _ hawaits c _ haccepted _ ih => exact .round hawaits _ haccepted ih
  | disconnected _ ih => exact .disconnected ih

/-! ### The batches of a run -/

section flushes

variable (hinv : h.Inv m draftWidth) (hstreaming : h.streaming.Inv m md) (hmd : md.first)
  (hcontext : md.contextSize = m.contextSize)
include hinv hstreaming hmd hcontext

omit [Planner.Arithmetic D] in
/-- The deferred inputs are few enough before a round that asks the draft, which decodes them if
`llama_decode` can. -/
lemma Inv.flush_round (hawaits : h.streaming.Awaits f)
    (hcaught : h.streaming.ring.catchUpDraft f c = (r, none))
    (hdraft : r.draft.isSome) (hcan : r.stage.canModelDraft f = true) :
    (∀ t, r.stage.sessions.lookup f.session = some t → t.draft.pending.length ≤ 20) ∧
      (c.okFlush 0 = true → (r.flushDraft f c).2 = none) := by
  have htwenty : 20 ≤ maxSpeculativeWidth := by decide
  have hstage := catchUpDraft_stage h.streaming.ring f c
  have hlocal := RingHead.Local.catchUpDraft h.streaming.ring f c
  rw [hcaught] at hstage hlocal
  dsimp only at hstage hlocal
  refine ⟨fun t ht => hinv.bounded _ t (hstage ▸ ht), fun hok => ?_⟩
  obtain ⟨st₁, hst₁⟩ := Option.isSome_iff_exists.mp hdraft
  obtain ⟨st, hst, -⟩ := hlocal.draft st₁ hst₁
  have hmirrors := hstreaming.mirrors st hst f.session
  rw [show h.streaming.committed f.session = some (f.request, f.position) from hawaits] at hmirrors
  obtain ⟨t, ht, hplain, hzero⟩ : ∃ t, h.streaming.ring.stage.sessions.lookup f.session = some t ∧
      t.chatRequest = false ∧ f.session ≠ 0 := by
    cases hmirrors with
    | chat ht hchat =>
      rw [hstage, InChat.canModelDraft ⟨_, ht, hchat⟩] at hcan
      cases hcan
    | live _ _ _ hd => exact ⟨_, hd.stage, hd.greedy, hd.nonzero⟩
  refine hmirrors.flush_answered hmd hzero ht hplain ((hinv.bounded _ t ht).trans htwenty)
    (hcontext.symm ▸ hinv.fits _ t ht) (fun hg => ?_) (hstage ▸ ht) (.inr rfl) hok
  have hkept := (catchUpDraft_of_unguessed (f := f) (c := c) hst hg).2
  rw [hcaught] at hkept
  exact hkept.trans hst.symm

omit [Planner.Arithmetic D] in
/-- So they are after a control frame that the draft must see. -/
lemma Inv.flush_control (hsettles : settles f.type = true) {chunk : Nat} {out : Frame H}
    {answered : RingHead H} (hout : (h.streaming.ring.stage.handle f chunk c.ok).2.2 = .ok out)
    (hanswered : answered =
      h.streaming.ring.answered f (h.streaming.ring.stage.handle f chunk c.ok).1)
    (hcan : answered.stage.canModelDraft f = true)
    (hcaught : (if f.type ≠ .endRequest then answered.catchUpDraft f c else (answered, none)) =
      (r, none))
    (hdraft : r.draft.isSome) :
    (∀ t, r.stage.sessions.lookup f.session = some t → t.draft.pending.length ≤ 20) ∧
      (c.okFlush 0 = true → (r.flushDraft f c).2 = none) := by
  have htwenty : 20 ≤ maxSpeculativeWidth := by decide
  obtain ⟨hzero, t₁, ht₁⟩ := Stage.settled_of_answered hsettles hout
  obtain ⟨hlessens, hclear⟩ : f.type ∉ [.createSession, .resetSession, .prepareChat] ∧
      ¬ (f.type = .resetSession ∨ f.type = .destroySession) := by
    revert hsettles
    cases f.type <;> decide
  obtain ⟨t, ht, hchat, hkept⟩ := Stage.lessens_of_answered hlessens hout t₁ ht₁
  rw [answered_of_ne _ _ _ hclear] at hanswered
  have hstage : answered.stage = (h.streaming.ring.stage.handle f chunk c.ok).1 := by rw [hanswered]
  obtain ⟨hsame, hguessed⟩ : answered.draft = h.streaming.ring.draft ∧
      answered.guessed = h.streaming.ring.guessed := by
    rw [hanswered]
    exact ⟨rfl, rfl⟩
  have hcaughtStage : r.stage = answered.stage := by
    have hsame :
        (if f.type ≠ .endRequest then answered.catchUpDraft f c else (answered, none)).1.stage =
        answered.stage := by
      split_ifs
      · exact catchUpDraft_stage answered f c
      · rfl
    rw [← hsame, hcaught]
  have hr₁ : r.stage.sessions.lookup f.session = some t₁ := by rw [hcaughtStage, hstage, ht₁]
  refine ⟨fun t' ht' => ?_, fun hok => ?_⟩
  · cases hr₁.symm.trans ht'
    exact (hinv.kept f.session (hkept.imp id fun hsame => ⟨t, ht, hsame⟩)).1
  have hplain : t.chatRequest = false := by
    rw [hstage, Stage.canModelDraft, ht₁] at hcan
    rw [← hchat]
    simpa using hcan
  obtain ⟨st, hst⟩ : ∃ st, h.streaming.ring.draft = some st := by
    have hlocal : answered.Local f.session
        (if f.type ≠ .endRequest then answered.catchUpDraft f c else (answered, none)).1 := by
      split_ifs
      · exact .catchUpDraft answered f c
      · exact .refl _ _
    rw [hcaught] at hlocal
    obtain ⟨st', hst'⟩ := Option.isSome_iff_exists.mp hdraft
    obtain ⟨st, hst, -⟩ := hlocal.draft st' hst'
    exact ⟨st, hsame.symm.trans hst⟩
  refine (hstreaming.mirrors st hst f.session).flush_answered hmd hzero ht hplain
    ((hinv.bounded _ t ht).trans htwenty) (hcontext.symm ▸ hinv.fits _ t ht)
      (fun hg => ?_) hr₁ hkept hok
  have hsettled :
      (if f.type ≠ .endRequest then answered.catchUpDraft f c else (answered, none)).1.draft =
      some st := by
    split_ifs
    · exact (catchUpDraft_of_unguessed (hsame.trans hst) fun x hx => hg x (hguessed ▸ hx)).2
    · exact hsame.trans hst
  rw [hcaught] at hsettled
  exact hsettled.trans hst.symm

lemma Inv.flush (hflush : h.Flushes ngramDraft r f c) :
    (∀ t, r.stage.sessions.lookup f.session = some t → t.draft.pending.length ≤ 20) ∧
      (c.okFlush 0 = true → (r.flushDraft f c).2 = none) := by
  cases hflush with
  | round _ hawaits c _ hcaught _ hdraft hcan =>
    exact hinv.flush_round hstreaming hmd hcontext hawaits hcaught hdraft hcan
  | control _ hsettles chunk c hout hanswered hcan hcaught hdraft =>
    exact hinv.flush_control hstreaming hmd hcontext hsettles hout hanswered hcan hcaught hdraft

end flushes

section runs

variable (hwidth : 2 ≤ draftWidth) (hmax : draftWidth ≤ maxSpeculativeWidth) (hfirst : m.first)
  (hmd : md.first) (hvocab : md.tokenize = m.tokenize)
include hwidth hmax hfirst hmd hvocab

/-- The invariant holds in every run. -/
lemma Reached.inv (hreached : Reached m md ngramDraft draftWidth h) : h.Inv m draftWidth := by
  have hone : 1 ≤ draftWidth := one_le_two.trans hwidth
  induction hreached with
  | load => exact inv_load hone hmax
  | control input _ chunk c hbefore ih =>
    exact ih.control (hbefore.streaming.inv hfirst hmd hvocab) hone hmax input chunk c
  | round htoken hawaits c helapsed haccepted hbefore ih =>
    exact ih.round hwidth hfirst (hbefore.streaming.inv hfirst hmd hvocab) htoken hawaits helapsed
      haccepted
  | disconnected _ ih => exact ih.disconnected

/-- Whatever its rounds cost, a policy keeps to widths from 1 to its limit, and to width 1 for no
more than 20 counted rounds in a row. So in every run no more inputs are deferred of a session than
a batch may have, and the draft refuses none of the batches in which they are replayed: one fails
only if `llama_decode` does. -/
theorem deferral_bounded (hcontext : md.contextSize = m.contextSize) :
    (∀ costs : List RoundCost,
      ((AdaptiveDraftWidth.new draftWidth : AdaptiveDraftWidth D).after costs).width ∈
        Set.Icc 1 draftWidth ∧
        ∀ n, List.replicate n 1 <:+:
          (AdaptiveDraftWidth.new draftWidth : AdaptiveDraftWidth D).widths costs → n ≤ 20) ∧
      ∀ h : Adapting D H, Reached m md ngramDraft draftWidth h →
        (∀ id, (h.policy id).width ∈ Set.Icc 1 draftWidth) ∧
        (∀ id t, h.streaming.ring.stage.sessions.lookup id = some t →
          t.draft.pending.length ≤ maxSpeculativeWidth) ∧
        ∀ r f c, h.Flushes ngramDraft r f c →
          (∀ t, r.stage.sessions.lookup f.session = some t →
            t.draft.pending.length ≤ maxSpeculativeWidth) ∧
          ∀ e, (r.flushDraft f c).2 = some e → c.okFlush 0 = false := by
  have hone : 1 ≤ draftWidth := one_le_two.trans hwidth
  have htwenty : 20 ≤ maxSpeculativeWidth := by decide
  have hnew : (AdaptiveDraftWidth.new draftWidth : AdaptiveDraftWidth D).Sound draftWidth :=
    AdaptiveDraftWidth.sound_new hone hmax
  refine ⟨fun costs => ⟨(hnew.after hwidth costs).width, fun n => hnew.widths_burst hwidth⟩,
    fun h hreached => ?_⟩
  have hinv := hreached.inv hwidth hmax hfirst hmd hvocab
  refine ⟨fun id => (hinv.sound id).width, fun id t ht => (hinv.bounded id t ht).trans htwenty,
    fun r f c hflush => ?_⟩
  obtain ⟨hlength, hanswered⟩ :=
    hinv.flush (hreached.streaming.inv hfirst hmd hvocab) hmd hcontext hflush
  refine ⟨fun t ht => (hlength t ht).trans htwenty, fun e he => ?_⟩
  cases hok : c.okFlush 0 with
  | false => rfl
  | true =>
    rw [hanswered hok] at he
    cases he

end runs

/-- A width that is not worth its cost is given up for 20 rounds. -/
example : (AdaptiveDraftWidth.new 4 : AdaptiveDraftWidth Binary64.Double).widths
    (List.replicate 4 ⟨1, 1, 1000⟩ ++ List.replicate 4 ⟨2, 1, 1200⟩ ++
      List.replicate 21 ⟨1, 1, 1000⟩) =
      List.replicate 4 1 ++ List.replicate 4 2 ++ List.replicate 20 1 := by decide +kernel

section microseconds

open Streaming (sixteenTokens threeWide roundInput)

/-- A session with a prompt, after so many rounds of a microsecond each. -/
def microseconds : Nat → Adapting Binary64.Double Nat
  | 0 => ((load sixteenTokens sixteenTokens 4).control 4 { type := .createSession, session := 1 } 0
      (threeWide [])).control 4
        { type := .prompt, session := 1, request := 1, payload := .text "hi" } 0
      (threeWide [])
  | n + 1 => (microseconds n).round false (roundInput (n + 2) 7) (threeWide [8]) 1000 0

/-- The fifth round is wider, and has the inputs of the first four replayed. -/
theorem deferral_bounded_fifth :
    ∃ r, Flushes false (microseconds 4) r (roundInput 6 7) (threeWide [8]) ∧
    (r.stage.sessions.lookup 1).map (·.draft.pending) = some [7, 7, 7, 7] ∧
    (∀ t, r.stage.sessions.lookup 1 = some t → t.draft.pending.length ≤ maxSpeculativeWidth) ∧
    ∀ e, (r.flushDraft (roundInput 6 7) (threeWide [8])).2 = some e →
      (threeWide [8]).okFlush 0 = false := by
  have hprompted : Reached sixteenTokens sixteenTokens false 4 (microseconds 0) :=
    .control _ (by decide) 0 _ (.control _ (by decide) 0 _ .load)
  have hrun : Reached sixteenTokens sixteenTokens false 4 (microseconds 4) := by
    refine .round rfl ?_ _ (by decide) (by decide +kernel)
      (.round rfl ?_ _ (by decide) (by decide +kernel)
      (.round rfl ?_ _ (by decide) (by decide +kernel)
        (.round rfl ?_ _ (by decide) (by decide +kernel)
        hprompted)))
    all_goals
      rw [Streaming.Awaits]
      decide +kernel
  have hawaits : (microseconds 4).streaming.Awaits (roundInput 6 7) := by
    rw [Streaming.Awaits]
    decide +kernel
  have hflush : Flushes false (microseconds 4)
      ((microseconds 4).streaming.ring.catchUpDraft (roundInput 6 7) (threeWide [8])).1
        (roundInput 6 7)
      (threeWide [8]) :=
    .round rfl hawaits _ (Nat.succ_pos 999) (Prod.ext rfl (by decide +kernel))
      (by decide +kernel) (by decide +kernel) (by decide +kernel)
  refine ⟨_, hflush, by decide +kernel, ?_⟩
  exact ((deferral_bounded (by decide) (by decide) rfl rfl rfl rfl).2 _ hrun).2.2 _ _ _ hflush

end microseconds

end Adapting

end ProviderOwned
