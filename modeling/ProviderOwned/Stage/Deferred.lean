import ProviderOwned.Stage.Streaming

/-!
# Deferred inputs

A step of the head leaves the deferred inputs of a session as they were or drops them
(`Stage.Lessens`), but for a round without guesses, which adds its input (`decodeRound_deferred`). A
round that asks the draft drops them first.
-/

namespace ProviderOwned

open RingHead (settles mirrored mirroredFrame)

variable {H : Type*} {r : RingHead H} {f : Frame H} {c : Chance} {id : Nat} {t' : Session H}

namespace Stage

/-- What is deferred of a session stays or is dropped, and so is the session. -/
def Lessens (id : Nat) (st st' : Stage H) : Prop :=
  ∀ t', st'.sessions.lookup id = some t' → ∃ t, st.sessions.lookup id = some t ∧
    t'.chatRequest = t.chatRequest ∧ (t'.draft.pending = [] ∨ t'.draft = t.draft)

namespace Lessens

variable {st st₁ st₂ st₃ : Stage H}

lemma refl (id : Nat) (st : Stage H) : st.Lessens id st :=
  fun t ht => ⟨t, ht, rfl, .inr rfl⟩

lemma of_lookup (h : st₂.sessions.lookup id = st₁.sessions.lookup id) : st₁.Lessens id st₂ :=
  fun t ht => ⟨t, h.symm.trans ht, rfl, .inr rfl⟩

lemma trans (h : st₁.Lessens id st₂) (h' : st₂.Lessens id st₃) : st₁.Lessens id st₃ := by
  intro t₃ ht₃
  obtain ⟨t₂, ht₂, hchat₂, hdraft₂⟩ := h' t₃ ht₃
  obtain ⟨t₁, ht₁, hchat₁, hdraft₁⟩ := h t₂ ht₂
  refine ⟨t₁, ht₁, hchat₂.trans hchat₁, ?_⟩
  rcases hdraft₂ with hnone | hsame
  · exact .inl hnone
  · rw [hsame]
    exact hdraft₁

lemma change {g : Session H → Session H} (hchat : ∀ s, (g s).chatRequest = s.chatRequest)
    (hdraft : ∀ s, (g s).draft.pending = [] ∨ (g s).draft = s.draft) :
    st.Lessens id (st.change id g) := by
  intro t' ht'
  cases ht : st.sessions.lookup id with
  | none =>
    rw [Stage.change, ht, ht] at ht'
    cases ht'
  | some t =>
    rw [Stage.lookup_change _ _ ht] at ht'
    cases ht'
    exact ⟨t, rfl, hchat t, hdraft t⟩

/-- A session outside a chat stays outside. -/
lemma canModelDraft (h : st₁.Lessens f.session st₂) (hcan : st₁.canModelDraft f = true) :
    st₂.canModelDraft f = true := by
  rw [Stage.canModelDraft] at hcan ⊢
  cases ht₂ : st₂.sessions.lookup f.session with
  | none => rfl
  | some t₂ =>
    obtain ⟨t₁, ht₁, hchat, -⟩ := h t₂ ht₂
    rw [ht₁] at hcan
    dsimp only at hcan ⊢
    rwa [hchat]

/-- A frame that runs. -/
lemma run (hruns : f.type.runs) (chunk : Nat) (ok : Nat → Bool) :
    st.Lessens f.session (st.handle f chunk ok).1 := by
  have hran : ∀ s : Session H, st.sessions.lookup f.session = some s →
      (st.handle f chunk ok).1.sessions.lookup f.session =
        some (s.execute st.model f chunk ok).session →
            st.Lessens f.session (st.handle f chunk ok).1 := by
    intro s hs hlookup t' ht'
    rw [hlookup] at ht'
    cases ht'
    refine ⟨s, hs, Session.execute_chatRequest, .inr ?_⟩
    rcases s.execute_cases st.model f chunk ok with ⟨e, -, hrefused⟩ | ⟨t, henter, hfixed⟩
    · rw [hrefused, Session.throw_session]
    · exact congrArg (·.2.2.2.1) (hfixed.trans (Session.enter_fixed henter).1)
  cases hreply : (st.handle f chunk ok).2.2 with
  | ok out =>
    obtain ⟨-, s, hs, -, hlookup⟩ := handle_run_ok hruns hreply
    exact hran s hs hlookup
  | error e =>
    rcases handle_run_error hruns hreply with hlookup | ⟨s, hs, -, hlookup⟩
    · exact of_lookup hlookup
    · exact hran s hs hlookup

end Lessens

variable {st : Stage H} {chunk : Nat} {ok : Nat → Bool}

/-- A frame that is refused. -/
lemma lessens_of_refused {e : String} (he : (st.handle f chunk ok).2.2 = .error e) :
    st.Lessens f.session (st.handle f chunk ok).1 := by
  by_cases hruns : f.type.runs
  · exact .run hruns chunk ok
  · exact .of_lookup (lookup_handle_of_refused hruns he)

/-- A frame that is answered, and neither makes a session, clears it nor prepares a chat. -/
lemma lessens_of_answered (htype : f.type ∉ [.createSession, .resetSession, .prepareChat])
    {out : Frame H} (hout : (st.handle f chunk ok).2.2 = .ok out) :
    st.Lessens f.session (st.handle f chunk ok).1 := by
  have hanswered := handle_answered hout
  intro t' ht'
  rw [ht'] at hanswered
  generalize hbefore : st.sessions.lookup f.session = before at hanswered
  cases hanswered with
  | create hcreate => exact absurd (by rw [hcreate]; decide) htype
  | reset hreset => exact absurd (by rw [hreset]; decide) htype
  | prepareChat hprepare => exact absurd (by rw [hprepare]; decide) htype
  | endRequest _ _ _ _ => exact ⟨_, rfl, rfl, .inr rfl⟩
  | rollback _ _ _ _ _ => exact ⟨_, rfl, rfl, .inr rfl⟩
  | run hruns _ _ =>
    rw [← hbefore]
    exact Lessens.run hruns chunk ok _ ht'
  | other _ _ => exact ⟨t', rfl, rfl, .inr rfl⟩

/-- A session that is made or cleared has nothing deferred. -/
lemma cleared_of_answered
    (htype : f.type = .createSession ∨ f.type = .resetSession ∨ f.type = .destroySession)
    {out : Frame H} (hout : (st.handle f chunk ok).2.2 = .ok out)
    (ht' : (st.handle f chunk ok).1.sessions.lookup f.session = some t') :
    t'.draft.pending = [] ∧ t'.chatRequest = false := by
  have hanswered := handle_answered hout
  rw [ht'] at hanswered
  generalize st.sessions.lookup f.session = before at hanswered
  have hother : ¬ f.type.runs ∧ f.type ∉ [.endRequest, .rollback, .prepareChat, .metrics,
      .shutdown] := by
    rcases htype with h | h | h
    all_goals
      rw [h]
      decide
  cases hanswered with
  | create _ _ => exact ⟨rfl, rfl⟩
  | reset _ _ => exact ⟨rfl, rfl⟩
  | prepareChat h => exact absurd (by rw [h]; decide) hother.2
  | endRequest h _ _ _ => exact absurd (by rw [h]; decide) hother.2
  | rollback h _ _ _ _ => exact absurd (by rw [h]; decide) hother.2
  | run hruns _ _ => exact absurd hruns hother.1
  | other h _ => exact absurd (by rcases h with h | h <;> rw [h] <;> decide) hother.2

/-- A chat is prepared in no request. -/
lemma prepared_of_answered (htype : f.type = .prepareChat) {out : Frame H}
    (hout : (st.handle f chunk ok).2.2 = .ok out)
    (ht' : (st.handle f chunk ok).1.sessions.lookup f.session = some t') :
    t'.chatRequest = true ∧ ∃ t, st.sessions.lookup f.session = some t ∧ t.activeRequest = 0 ∧
      t'.draft = t.draft := by
  simp only [handle, htype] at hout ht'
  obtain ⟨-, t, ht, hreply, hlookup⟩ := onSession_answered hout
  obtain ⟨hidle, prompt, sampling, -, -, -, -, hsession, -⟩ := Session.prepareChat_prepared hreply
  rw [hlookup, hsession] at ht'
  cases ht'
  exact ⟨rfl, t, ht, hidle, rfl⟩

end Stage

/-! ### Before the draft is asked -/

lemma catchUpDraft_stage (r : RingHead H) (f : Frame H) (c : Chance) :
    (r.catchUpDraft f c).1.stage = r.stage := by
  rw [RingHead.catchUpDraft]
  split
  · rfl
  · dsimp only
    split_ifs
    · rfl
    · split
      · rfl
      · rfl
    · split
      · rfl
      · rfl

lemma catchUpDraft_guessed (r : RingHead H) (f : Frame H) (c : Chance) :
    (r.catchUpDraft f c).1.guessed f.session = none := by
  have hnone : (r.setGuessed f.session none).guessed f.session = none := Function.update_self ..
  rw [RingHead.catchUpDraft]
  split
  · assumption
  · dsimp only
    split_ifs
    · exact hnone
    · split
      · exact hnone
      · exact hnone
    · split
      · exact hnone
      · exact hnone

/-- The draft is not fed where there is no last guess. -/
lemma catchUpDraft_of_unguessed {st : Stage H} (hst : r.draft = some st)
    (hg : ∀ x ∈ r.guessed f.session, x.tokens = []) :
    (r.catchUpDraft f c).2 = none ∧ (r.catchUpDraft f c).1.draft = some st := by
  rcases Following.catchUpDraft_cases (f := f) (c := c) hst with ⟨-, heq⟩ | ⟨-, -, -, heq⟩ |
    ⟨last, guess, hlast, hguess, -⟩
  · rw [heq]
    exact ⟨rfl, hst⟩
  · rw [heq]
    exact ⟨rfl, hst⟩
  · rw [hg last hlast] at hguess
    cases hguess

lemma flushDraft_guessed (r : RingHead H) (f : Frame H) (c : Chance) :
    (r.flushDraft f c).1.guessed = r.guessed := by
  rw [RingHead.flushDraft]
  split
  · rfl
  · split_ifs
    · rfl
    · split
      · rfl
      · split
        · rfl
        · rfl

lemma flushDraft_lessens (r : RingHead H) (f : Frame H) (c : Chance) :
    r.stage.Lessens f.session (r.flushDraft f c).1.stage := by
  rw [RingHead.flushDraft]
  split
  · exact .refl _ _
  · split_ifs
    · exact .refl _ _
    · split
      · exact .refl _ _
      · split
        · exact .refl _ _
        · exact .change (fun _ => rfl) fun _ => .inl rfl

/-- After a flush nothing is deferred. -/
lemma flushDraft_pending (hdone : (r.flushDraft f c).2 = none) {st : Stage H}
    (hst : r.draft = some st)
    (ht' : (r.flushDraft f c).1.stage.sessions.lookup f.session = some t') : t'.draft.pending =
      [] := by
  cases hrequire : r.stage.requireSession f with
  | error e =>
    rw [RingHead.flushDraft, hrequire] at hdone
    cases hdone
  | ok s =>
    obtain ⟨hzero, hs⟩ := Stage.requireSession_ok hrequire
    rcases Following.flushDraft_cases (c := c) hzero hst hs with ⟨hpending, heq⟩ | ⟨e, draft, heq⟩ |
      ⟨-, out, -, heq⟩
    · rw [heq] at ht'
      rwa [← Option.some.inj (hs.symm.trans ht')]
    · rw [heq] at hdone
      cases hdone
    · rw [heq, Stage.lookup_change _ _ hs] at ht'
      cases ht'
      rfl

/-! ### The guesses of a round -/

lemma beforeProposals_lessens (r : RingHead H) (f : Frame H) (c : Chance) :
    r.stage.Lessens f.session (r.beforeProposals f c).1.stage := by
  have hcaught := catchUpDraft_stage r f c
  rw [RingHead.beforeProposals]
  split
  · rename_i heq
    rw [heq] at hcaught
    rw [hcaught]
    exact .refl _ _
  · rename_i r₁ heq
    rw [heq] at hcaught
    rw [← hcaught]
    split_ifs
    · exact flushDraft_lessens r₁ f c
    · exact .refl _ _

lemma beforeProposals_guessed (r : RingHead H) (f : Frame H) (c : Chance) :
    (r.beforeProposals f c).1.guessed f.session = none := by
  have hcaught := catchUpDraft_guessed r f c
  rw [RingHead.beforeProposals]
  split
  · rename_i heq
    rw [heq] at hcaught
    exact hcaught
  · rename_i r₁ heq
    rw [heq] at hcaught
    split_ifs
    · rw [flushDraft_guessed]
      exact hcaught
    · exact hcaught

/-- A round of width 1 does not ask the draft. -/
lemma beforeProposals_narrow (hwidth : ¬ 1 < c.width) :
    r.beforeProposals f c = r.catchUpDraft f c := by
  rw [RingHead.beforeProposals]
  split
  · rename_i heq
    exact heq.symm
  · rename_i heq
    rw [if_neg fun h => hwidth h.1, heq]

/-- A wider round has the draft flushed. -/
lemma beforeProposals_wide (hwidth : 1 < c.width) (hcan : r.stage.canModelDraft f = true)
    (hdone : (r.beforeProposals f c).2 = none) {st : Stage H}
    (hst : (r.beforeProposals f c).1.draft = some st)
    (ht' : (r.beforeProposals f c).1.stage.sessions.lookup f.session = some t') : t'.draft.pending =
      [] := by
  have hcaught := catchUpDraft_stage r f c
  rw [RingHead.beforeProposals] at hdone hst ht'
  generalize r.catchUpDraft f c = caught at hcaught hdone hst ht'
  rcases caught with ⟨r₁, _ | e⟩
  · dsimp only at hcaught hdone hst ht'
    cases hst₁ : r₁.draft with
    | none =>
      simp only [hst₁, Option.isSome_none, Bool.false_eq_true, false_and, and_false, if_false]
        at hst
      cases hst
    | some st₁ =>
      have hask : 1 < c.width ∧ r₁.draft.isSome ∧ r₁.stage.canModelDraft f = true :=
        ⟨hwidth, by rw [hst₁]; rfl, by rwa [hcaught]⟩
      rw [if_pos hask] at hdone ht'
      exact flushDraft_pending hdone hst₁ ht'
  · cases hdone

/-- Asking for guesses leaves what is deferred as it is. -/
lemma proposals_kept (ngramDraft : Bool) (r : RingHead H) (f : Frame H) (c : Chance) :
    (r.proposals ngramDraft f c).1.guessed = (r.beforeProposals f c).1.guessed ∧
      (r.beforeProposals f c).1.stage.Lessens f.session (r.proposals ngramDraft f c).1.stage ∧
      ∀ guesses, (r.proposals ngramDraft f c).2 = .ok guesses → (r.beforeProposals f c).2 = none ∧
        ∀ st, (r.proposals ngramDraft f c).1.draft = some st →
          ∃ st', (r.beforeProposals f c).1.draft = some st' := by
  rw [RingHead.proposals]
  generalize r.beforeProposals f c = ready
  rcases ready with ⟨r₁, _ | e⟩
  · dsimp only
    split_ifs
    · split
      · rename_i st' hst' _
        exact ⟨rfl, .refl _ _, fun _ _ => ⟨rfl, fun _ _ => ⟨st', hst'⟩⟩⟩
      · refine ⟨rfl, ?_, fun _ _ => ⟨rfl, fun st hst => ⟨st, hst⟩⟩⟩
        rw [Stage.ngramProposals]
        split
        · exact .refl _ _
        · dsimp only
          split_ifs
          · exact .refl _ _
          · exact .refl _ _
          · exact .change (fun _ => rfl) fun _ => .inr rfl
    · split
      · rename_i st' hst' _
        exact ⟨rfl, .refl _ _, fun _ _ => ⟨rfl, fun _ _ => ⟨st', hst'⟩⟩⟩
      · exact ⟨rfl, .refl _ _, fun _ _ => ⟨rfl, fun st hst => ⟨st, hst⟩⟩⟩
    · exact ⟨rfl, .refl _ _, fun _ _ => ⟨rfl, fun st hst => ⟨st, hst⟩⟩⟩
  · exact ⟨rfl, .refl _ _, fun _ hok => by cases hok⟩

lemma roundGuesses_guessed (ngramDraft : Bool) (r : RingHead H) (f : Frame H) (c : Chance) :
    (r.roundGuesses ngramDraft f c).1.guessed f.session = none := by
  have hkept := (proposals_kept ngramDraft r f c).1
  have hnone := beforeProposals_guessed r f c
  rw [← hkept] at hnone
  rw [RingHead.roundGuesses]
  generalize r.proposals ngramDraft f c = proposed at hnone ⊢
  obtain ⟨r₁, e | guesses⟩ := proposed
  · exact hnone
  · exact hnone

lemma roundGuesses_lessens (ngramDraft : Bool) (r : RingHead H) (f : Frame H) (c : Chance) :
    r.stage.Lessens f.session (r.roundGuesses ngramDraft f c).1.stage := by
  have hproposed := (beforeProposals_lessens r f c).trans (proposals_kept ngramDraft r f c).2.1
  rw [RingHead.roundGuesses]
  generalize r.proposals ngramDraft f c = proposed at hproposed ⊢
  obtain ⟨r₁, e | guesses⟩ := proposed
  · exact hproposed.trans (.change (fun _ => rfl) fun _ => .inl rfl)
  · exact hproposed

/-- A round of width 1 has no guesses, and leaves what is deferred. -/
lemma roundGuesses_narrow (hwidth : ¬ 1 < c.width) {ngramDraft : Bool} {st : Stage H}
    (hst : (r.roundGuesses ngramDraft f c).1.draft = some st) :
    (r.roundGuesses ngramDraft f c).2 = [] ∧ (r.roundGuesses ngramDraft f c).1.stage = r.stage := by
  have hcaught := catchUpDraft_stage r f c
  rw [RingHead.roundGuesses, RingHead.proposals, beforeProposals_narrow hwidth] at hst ⊢
  generalize r.catchUpDraft f c = caught at hcaught hst ⊢
  rcases caught with ⟨r₁, _ | e⟩
  · dsimp only
    rw [if_neg hwidth]
    exact ⟨rfl, hcaught⟩
  · cases hst

/-- A wider round has nothing deferred when it asks the draft. -/
lemma roundGuesses_wide (hwidth : 1 < c.width) (hcan : r.stage.canModelDraft f = true)
    {ngramDraft : Bool} {st : Stage H} (hst : (r.roundGuesses ngramDraft f c).1.draft = some st)
    (ht' : (r.roundGuesses ngramDraft f c).1.stage.sessions.lookup f.session = some t') :
    t'.draft.pending = [] := by
  obtain ⟨-, hlessens, hready⟩ := proposals_kept ngramDraft r f c
  rw [RingHead.roundGuesses] at hst ht'
  generalize r.proposals ngramDraft f c = proposed at hlessens hready hst ht'
  obtain ⟨r₁, e | guesses⟩ := proposed
  · cases hst
  · obtain ⟨hdone, hbefore⟩ := hready guesses rfl
    obtain ⟨st', hst'⟩ := hbefore st hst
    obtain ⟨t, ht, -, hnone | hsame⟩ := hlessens t' ht'
    · exact hnone
    · rw [hsame]
      exact beforeProposals_wide hwidth hcan hdone hst' ht

/-! ### What a round leaves -/

/-- The rounds without guesses that are not observed yet. -/
def RingHead.outstanding (r : RingHead H) (id : Nat) : Nat :=
  match r.guessed id with
  | some g => if g.tokens = [] then 1 else 0
  | none => 0

lemma outstanding_le (r : RingHead H) (id : Nat) : r.outstanding id ≤ 1 := by
  rw [RingHead.outstanding]
  split
  · split_ifs
    · exact le_rfl
    · exact Nat.zero_le _
  · exact Nat.zero_le _

/-- An input is deferred after those that were, or is not. -/
lemma defer_cases {s : Session H} (hs : r.stage.requireSession f = .ok s) :
    ∃ state : DraftState,
      (r.defer f).1 =
        { r with stage := r.stage.change f.session fun s => { s with draft := state } } ∧
      ((∃ e, (r.defer f).2 = some e) ∧ (state.pending = [] ∨ state = s.draft) ∨
        (r.defer f).2 = none ∧ state.pending.length = s.draft.pending.length + 1 ∧
          state.start + state.pending.length = f.position + 1) := by
  rw [RingHead.defer, hs]
  dsimp only
  obtain ⟨state, hstate⟩ :
      ∃ state, state = (if s.draft.pending = [] then ⟨[], f.position, f.request⟩ else s.draft) :=
        ⟨_, rfl⟩
  rw [← hstate]
  have hsame : state.pending = s.draft.pending ∧ (state.pending = [] ∨ state = s.draft) := by
    rw [hstate]
    split_ifs with hnone
    · exact ⟨hnone.symm, .inl rfl⟩
    · exact ⟨rfl, .inr rfl⟩
  split_ifs with hbad
  · exact ⟨state, rfl, .inl ⟨⟨_, rfl⟩, hsame.2⟩⟩
  · rw [not_or, not_not, not_not] at hbad
    refine ⟨_, rfl, .inr ⟨rfl, ?_, ?_⟩⟩
    · rw [List.length_append, hsame.1, List.length_singleton]
    · rw [List.length_append, List.length_singleton, hbad.2]
      rfl

/-- Recording a round defers its input where there were no guesses. -/
lemma recordRound_deferred {ngramDraft : Bool} {guesses : List Token} {st : Stage H}
    (hst : r.draft = some st)
    (hcan : r.stage.canModelDraft f = true) (hg : r.guessed f.session = none)
    (ht' : (r.recordRound ngramDraft f guesses).1.stage.sessions.lookup f.session = some t') :
    ∃ t, r.stage.sessions.lookup f.session = some t ∧ t'.chatRequest = t.chatRequest ∧
      ((t'.draft.pending = [] ∨ t'.draft = t.draft) ∧
          ((r.recordRound ngramDraft f guesses).1.guessed f.session = none ∨
            guesses ≠ [] ∧ (r.recordRound ngramDraft f guesses).1.guessed f.session =
              some ⟨f.position, guesses, f.request⟩) ∨
        guesses = [] ∧ t'.draft.pending.length = t.draft.pending.length + 1 ∧
          t'.draft.start + t'.draft.pending.length = f.position + 1 ∧
          (r.recordRound ngramDraft f guesses).1.guessed f.session =
            some ⟨f.position, [], f.request⟩) := by
  have hsome : r.draft.isSome = true := by
    rw [hst]
    rfl
  have hset : ∀ (r : RingHead H) g, (r.setGuessed f.session g).guessed f.session = g := fun _ _ =>
    Function.update_self ..
  rw [RingHead.recordRound, if_pos (.inl hsome)] at ht' ⊢
  by_cases hnone : guesses = []
  · subst hnone
    rw [if_pos ⟨hsome, hcan, rfl⟩] at ht' ⊢
    cases hs : r.stage.requireSession f with
    | error e =>
      have hdefer : r.defer f = (r, some e) := by
        rw [RingHead.defer, hs]
      rw [hdefer] at ht' ⊢
      exact ⟨t', ht', rfl, .inl ⟨.inr rfl, .inl hg⟩⟩
    | ok s =>
      obtain ⟨-, hlookup⟩ := Stage.requireSession_ok hs
      obtain ⟨state, hstage, hcases⟩ := defer_cases hs
      generalize r.defer f = deferred at hstage hcases ht' ⊢
      obtain ⟨r₁, error⟩ := deferred
      dsimp only at hstage
      subst hstage
      rcases hcases with ⟨⟨e, rfl⟩, hkept⟩ | ⟨rfl, hlength, hend⟩
      · rw [Stage.lookup_change _ _ hlookup] at ht'
        cases ht'
        exact ⟨s, hlookup, rfl, .inl ⟨hkept, .inl hg⟩⟩
      · have hchanged := (Stage.lookup_change _ _ hlookup).symm.trans ht'
        cases hchanged
        exact ⟨s, hlookup, rfl, .inr ⟨rfl, hlength, hend, hset ..⟩⟩
  · rw [if_neg fun h => hnone h.2.2] at ht' ⊢
    exact ⟨t', ht', rfl, .inl ⟨.inr rfl, .inr ⟨hnone, hset ..⟩⟩⟩

/-- The tokens of a frame that the first stage accepts fit into its context. -/
lemma Session.execute_fits {m : StageModel H} {s : Session H} (hfirst : m.first)
    (htype : f.type = .token)
    {ids : List Token} (hpayload : f.payload = .tokens ids) (hids : ids ≠ []) {chunk : Nat}
    {ok : Nat → Bool} {out : Frame H} (hok : (s.execute m f chunk ok).reply = .ok out) :
    f.position + ids.length ≤ m.contextSize := by
  rw [Session.execute] at hok
  cases henter : s.enter m f with
  | error e =>
    rw [henter] at hok
    cases hok
  | ok t =>
    simp only [henter, hfirst, if_true] at hok
    have hprompt : ¬ f.type = .prompt := by
      rw [htype]
      decide
    rw [Session.runFirst] at hok
    split_ifs at hok with hwidth hrun
    · cases hok
    · rw [Session.runToken] at hok
      split at hok
      · cases hok
      · rename_i ids' hids'
        split_ifs at hok with hbad hno
        · cases hok
        · cases hok
        · have hsame : ids' = ids := by
            have hbrought := Session.brought_of_tokenIds (m := m) (s := t) hprompt hids'
            rw [Session.brought, if_neg hprompt, hpayload] at hbrought
            exact hbrought.symm
          rw [not_or, not_not] at hbad
          rw [Session.runTokens] at hok
          split_ifs at hok with hfull
          · cases hok
          · have hpos := List.length_pos_of_ne_nil hids
            rw [hsame, ← hbad.1] at hfull
            omega
    · exact absurd (.inl htype) hrun

lemma outstanding_of_guessed {g : Guesses} (h : r.guessed id = some g) :
    r.outstanding id = if g.tokens = [] then 1 else 0 := by
  rw [RingHead.outstanding, h]

lemma recordRound_draft (ngramDraft : Bool) (r : RingHead H) (f : Frame H) (guesses : List Token) :
    (r.recordRound ngramDraft f guesses).1.draft = r.draft := by
  have hdefer : (r.defer f).1.draft = r.draft := by
    cases hs : r.stage.requireSession f with
    | error e => rw [RingHead.defer, hs]
    | ok s =>
      obtain ⟨state, hstage, -⟩ := defer_cases hs
      rw [hstage]
  rw [RingHead.recordRound]
  split_ifs
  · split
    · rename_i heq
      rw [← hdefer, heq]
    · rename_i heq
      rw [← hdefer, heq]
      rfl
  · rfl
  · rfl

/-- What a round has made of the head. -/
lemma draftRound_head {ngramDraft : Bool} {s : Session H} (hs : r.stage.requireSession f = .ok s)
    {r₁ : RingHead H} {guesses : List Token}
    (hguesses : r.roundGuesses ngramDraft f c = (r₁, guesses)) :
    (∃ e, (r₁.stage.handle (roundFrame f guesses) 0 c.ok).2.2 = .error e ∧
      (r.draftRound ngramDraft f c).1 =
        { r₁ with stage := (r₁.stage.handle (roundFrame f guesses) 0 c.ok).1 }) ∨
    (∃ out, (r₁.stage.handle (roundFrame f guesses) 0 c.ok).2.2 = .ok out ∧
      (r.draftRound ngramDraft f c).1 = (RingHead.recordRound ngramDraft
        { r₁ with stage := (r₁.stage.handle (roundFrame f guesses) 0 c.ok).1 } f guesses).1) := by
  have hframe : tokenFrame f f.position (frameToken f :: guesses) = roundFrame f guesses := rfl
  simp only [RingHead.draftRound, hs, hguesses, hframe]
  generalize r₁.stage.handle (roundFrame f guesses) 0 c.ok = handled
  obtain ⟨stage, emitted, e | out⟩ := handled
  · exact .inl ⟨e, rfl, rfl⟩
  · refine .inr ⟨out, rfl, ?_⟩
    dsimp only
    generalize RingHead.recordRound ngramDraft { r₁ with stage } f guesses = recorded
    obtain ⟨r', _ | error⟩ := recorded
    · rfl
    · rfl

/-- A round of a head without a draft, or in a chat, defers nothing. -/
lemma decodeRound_lessens {ngramDraft : Bool}
    (h : (r.decodeRound ngramDraft f c).1.draft = none ∨ InChat r.stage f.session) :
    r.stage.Lessens f.session (r.decodeRound ngramDraft f c).1.stage := by
  rw [RingHead.decodeRound] at h ⊢
  split_ifs at h ⊢
  · cases hs : r.stage.requireSession f with
    | error e =>
      rw [RingHead.draftRound, hs]
      exact .refl _ _
    | ok s =>
      have hguesses := roundGuesses_lessens ngramDraft r f c
      have hchat := fun hchat :
        InChat r.stage f.session => (hchat.roundGuesses (c := c) ngramDraft).1
      have hcases := draftRound_head hs (r.roundGuesses ngramDraft f c).eta.symm
      generalize (r.roundGuesses ngramDraft f c).1 = r₁ at hguesses hchat hcases
      generalize (r.roundGuesses ngramDraft f c).2 = guesses at hcases
      have hran := hguesses.trans (Stage.Lessens.run (f := roundFrame f guesses) rfl 0 c.ok)
      rcases hcases with ⟨e, -, hround⟩ | ⟨out, -, hround⟩
      · rw [hround]
        exact hran
      · rw [hround] at h ⊢
        rw [recordRound_draft] at h
        have hno : r₁.draft = none ∨
            (r₁.stage.handle (roundFrame f guesses) 0 c.ok).1.canModelDraft f = false :=
          h.imp id fun hyes => ((hchat hyes).batch guesses c.ok).canModelDraft
        rw [(recordRound_undrafted (r := { r₁ with
          stage := (r₁.stage.handle (roundFrame f guesses) 0 c.ok).1 }) hno ngramDraft guesses).2.1]
        exact hran
  · exact Stage.Lessens.run (f := tokenFrame f f.position [frameToken f]) rfl 0 c.ok

/-- A round of a session that the draft follows: what is deferred grows by its input if it has no
guesses, and is dropped first if it asks the draft. -/
lemma decodeRound_deferred (hfirst : r.stage.model.first) (hcan : r.stage.canModelDraft f = true)
    {s : Session H} (hs : r.stage.requireSession f = .ok s) {ngramDraft : Bool} {st : Stage H}
    (hst : (r.decodeRound ngramDraft f c).1.draft = some st)
    (ht' : (r.decodeRound ngramDraft f c).1.stage.sessions.lookup f.session = some t') :
    t'.chatRequest = s.chatRequest ∧
      t'.draft.pending.length ≤ (if 1 < c.width then 0 else s.draft.pending.length) +
        (r.decodeRound ngramDraft f c).1.outstanding f.session ∧
      (∀ x, (r.decodeRound ngramDraft f c).1.guessed f.session = some x →
        x.start = f.position ∧ x.request = f.request) ∧
      (t'.draft.pending = [] ∨ t'.draft = s.draft ∨
        t'.draft.start + t'.draft.pending.length ≤ r.stage.model.contextSize) := by
  obtain ⟨-, hlookup⟩ := Stage.requireSession_ok hs
  have hdecode : r.decodeRound ngramDraft f c = r.draftRound ngramDraft f c := by
    have hsome : r.draft.isSome = true := by
      obtain ⟨st₀, hst₀, -⟩ := (RingHead.Local.decodeRound ngramDraft r f c).draft st hst
      rw [hst₀]
      rfl
    have hcan' : r.stage.canDraft f = true := by
      rw [Stage.canModelDraft, hlookup] at hcan
      rw [Stage.canDraft, hlookup]
      dsimp only at hcan ⊢
      rw [hcan, Bool.true_or]
    exact if_pos ⟨.inl ⟨hsome, hcan⟩, hcan'⟩
  rw [hdecode] at hst ht' ⊢
  have hguesses := roundGuesses_lessens ngramDraft r f c
  have hnone := roundGuesses_guessed ngramDraft r f c
  have hmodel := (RingHead.Local.roundGuesses ngramDraft r f c).model
  have hnarrow :=
    fun st (hst : (r.roundGuesses ngramDraft f c).1.draft = some st) (h : ¬ 1 < c.width) =>
    (roundGuesses_narrow h hst).1
  have hwide : ∀ st, (r.roundGuesses ngramDraft f c).1.draft = some st → 1 < c.width → ∀ t',
      (r.roundGuesses ngramDraft f c).1.stage.sessions.lookup f.session = some t' →
          t'.draft.pending = [] :=
    fun st hst h t' ht' => roundGuesses_wide h hcan hst ht'
  have hcases := draftRound_head hs (r.roundGuesses ngramDraft f c).eta.symm
  generalize (r.roundGuesses ngramDraft f c).1 = r₁ at hguesses hnone hmodel hnarrow hwide hcases
  generalize (r.roundGuesses ngramDraft f c).2 = guesses at hnarrow hcases
  have hran : r₁.stage.Lessens f.session (r₁.stage.handle (roundFrame f guesses) 0 c.ok).1 :=
    .run (f := roundFrame f guesses) rfl 0 c.ok
  have hboth := hguesses.trans hran
  -- what is deferred when the stage has run the batch
  have hbatch : ∀ st₁, r₁.draft = some st₁ → ∀ t₂,
      (r₁.stage.handle (roundFrame f guesses) 0 c.ok).1.sessions.lookup f.session = some t₂ →
      t₂.chatRequest = s.chatRequest ∧
        t₂.draft.pending.length ≤ (if 1 < c.width then 0 else s.draft.pending.length) ∧
        (t₂.draft.pending = [] ∨ t₂.draft = s.draft) := by
    intro st₁ hst₁ t₂ ht₂
    obtain ⟨t, ht, hchat, hkept⟩ := hboth t₂ ht₂
    obtain rfl := Option.some.inj (ht.symm.trans hlookup)
    refine ⟨hchat, ?_, hkept⟩
    split_ifs with hwidth
    · obtain ⟨t₁, ht₁, -, hempty | hsame⟩ := hran t₂ ht₂
      · rw [hempty]
        exact le_rfl
      · rw [hsame, hwide st₁ hst₁ hwidth t₁ ht₁]
        exact le_rfl
    · rcases hkept with hempty | hsame
      · rw [hempty]
        exact Nat.zero_le _
      · rw [hsame]
  rcases hcases with ⟨e, -, hround⟩ | ⟨out, hout, hround⟩
  · rw [hround] at hst ht' ⊢
    obtain ⟨hchat, hlength, hkept⟩ := hbatch st hst t' ht'
    refine ⟨hchat, hlength.trans (Nat.le_add_right _ _), ?_, hkept.imp id .inl⟩
    intro x hx
    cases hnone.symm.trans hx
  · rw [hround] at hst ht' ⊢
    rw [recordRound_draft] at hst
    have hcan₂ := hboth.canModelDraft hcan
    obtain ⟨t₂, ht₂, hchat₂, hrecord⟩ := recordRound_deferred (r := { r₁ with
      stage := (r₁.stage.handle (roundFrame f guesses) 0 c.ok).1 }) hst hcan₂ hnone ht'
    obtain ⟨hchat, hlength, hkept⟩ := hbatch st hst t₂ ht₂
    generalize (RingHead.recordRound ngramDraft { r₁ with
      stage := (r₁.stage.handle (roundFrame f guesses) 0 c.ok).1 } f guesses).1 = r' at hrecord ⊢
    refine ⟨hchat₂.trans hchat, ?_⟩
    rcases hrecord with ⟨hkept₂, hguessed⟩ | ⟨hnoGuesses, hmore, hend, hguessed⟩
    · refine ⟨?_, ?_, ?_⟩
      · refine le_trans ?_ (hlength.trans (Nat.le_add_right _ _))
        rcases hkept₂ with hempty | hsame
        · rw [hempty]
          exact Nat.zero_le _
        · rw [hsame]
      · intro x hx
        rcases hguessed with hno | ⟨-, hyes⟩
        · cases hno.symm.trans hx
        · cases hyes.symm.trans hx
          exact ⟨rfl, rfl⟩
      · rcases hkept₂ with hempty | hsame
        · exact .inl hempty
        · rw [hsame]
          exact hkept.imp id .inl
    · refine ⟨?_, ?_, .inr (.inr ?_)⟩
      · rw [hmore, outstanding_of_guessed hguessed, if_pos rfl]
        omega
      · intro x hx
        cases hguessed.symm.trans hx
        exact ⟨rfl, rfl⟩
      · obtain ⟨-, s₁, -, hreply, -⟩ := Stage.handle_run_ok (f := roundFrame f guesses) rfl hout
        have hfits := Session.execute_fits (f := roundFrame f guesses) (hmodel ▸ hfirst) rfl rfl
          (List.cons_ne_nil _ _) hreply
        rw [hnoGuesses] at hfits
        rw [hend, ← hmodel]
        exact hfits

end ProviderOwned
