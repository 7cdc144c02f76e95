import ProviderOwned.Stage.MirrorAnswers

/-!
# Rounds of a session that the draft follows

Before the draft is asked it has read the committed text (`Following.before`), after it has guessed
it is ahead by all its guesses but the last (`Following.proposals`), and the round leaves to be
known what it has not read: its last guess, or the input where there was none (`Following.record`).
-/

namespace ProviderOwned

variable {H : Type*} {md : StageModel H} {r : RingHead H} {f : Frame H} {c : Chance}
  {t d : Session H} {text l : List Token}

/-- What holds in a round before the stage runs it: the draft follows the session, which has not
changed, and has read or will have read the committed text `l`. -/
structure Following.Asked (md : StageModel H) (r : RingHead H) (f : Frame H) (request : Nat)
    (t : Session H) (l text : List Token) (t' d' : Session H) : Prop where
  following : Following md r f.session t' d' text
  active : d'.activeRequest = request
  same : t' = { t with draft := t'.draft }
  guessed : r.guessed f.session = none
  read : l <+: text
  deferred : t'.draft.pending ≠ [] → text = l

/-- The draft before it is asked. -/
lemma Following.before (h : Following md r f.session t d text) (hfirst : md.first)
    (hrequest : f.request = d.activeRequest) (hl : l <+: text) (hlength : l.length = f.position)
    (hdeferred : t.draft.pending ≠ [] → text = l) (hdone : (r.beforeProposals f c).2 = none) :
    ∃ text' t' d', Asked md (r.beforeProposals f c).1 f d.activeRequest t l text' t' d' ∧
      (1 < c.width → t'.draft.pending = []) := by
  have hcaught := h.catchUp (c := c) hfirst hrequest hl hlength
  rw [RingHead.beforeProposals] at hdone ⊢
  generalize r.catchUpDraft f c = caught at hcaught hdone ⊢
  rcases caught with ⟨r₁, _ | e⟩
  · obtain ⟨hg, d₁, text₁, hfollows, hactive, hl₁, hsame⟩ := hcaught rfl
    have hdeferred₁ : t.draft.pending ≠ [] →
        text₁ = l := fun hne => (hsame hne).trans (hdeferred hne)
    dsimp only at hfollows hg hdone ⊢
    split_ifs at hdone ⊢ with hask
    · obtain ⟨hg₂, t₂, d₂, hfollows₂, hactive₂, hpending, hsame₂⟩ := hfollows.flush hfirst hdone
      exact ⟨text₁, t₂, d₂, ⟨hfollows₂, hactive₂.trans hactive, hsame₂, (congrFun hg₂ _).trans hg,
        hl₁, fun hne => absurd hpending hne⟩, fun _ => hpending⟩
    · refine ⟨text₁, t, d₁, ⟨hfollows, hactive, rfl, hg, hl₁, hdeferred₁⟩, fun hwidth => ?_⟩
      obtain ⟨st, hst, -, -⟩ := hfollows.draft
      exact absurd ⟨hwidth, by rw [hst]; rfl, hfollows.canModelDraft⟩ hask
  · cases hdone

/-- The draft after it has guessed. -/
lemma Following.proposals (h : Following md r f.session t d text) (hfirst : md.first)
    (hrequest : f.request = d.activeRequest) (hl : l <+: text) (hlength : l.length = f.position)
    (hdeferred : t.draft.pending ≠ [] → text = l) {ngramDraft : Bool} {guesses : List Token}
    (hdone : (r.proposals ngramDraft f c).2 = .ok guesses) :
    ∃ text' t' d', Asked md (r.proposals ngramDraft f c).1 f d.activeRequest t l text' t' d' ∧
      (guesses ≠ [] → t'.draft.pending = [] ∧ text' = l ++ frameToken f :: guesses.dropLast) := by
  have hbefore := h.before (c := c) hfirst hrequest hl hlength hdeferred
  rw [RingHead.proposals] at hdone ⊢
  generalize r.beforeProposals f c = ready at hbefore hdone ⊢
  rcases ready with ⟨r₁, _ | e⟩
  · obtain ⟨text₁, t₁, d₁, hasked, hpending⟩ := hbefore rfl
    have hfollows := hasked.following
    obtain ⟨st, hst, -, -⟩ := hfollows.draft
    have hcan := hfollows.canModelDraft
    dsimp only at hfollows hst hcan hasked
    simp only [hst, hcan] at hdone ⊢
    split_ifs at hdone ⊢ with hwidth
    · obtain ⟨hmodel, d₂, hd₂, hplain, hprompted, hactive, hl₂, hguesses⟩ :=
        hfollows.guess (hpending hwidth) hasked.guessed hasked.read hlength hst hdone
      refine ⟨d₂.history, t₁, d₂, ⟨⟨hfollows.nonzero, ⟨_, rfl, hmodel, hd₂⟩, hfollows.stage,
        hfollows.greedy, hplain, hactive.symm ▸ hfollows.active, hprompted,
        .even (hpending hwidth) ?_⟩, hactive.trans hasked.active, hasked.same, hasked.guessed, hl₂,
        fun hne => absurd (hpending hwidth) hne⟩, fun hne => ⟨hpending hwidth, hguesses hne⟩⟩
      rw [hasked.guessed]
      simp
    · cases hdone
      exact ⟨text₁, t₁, d₁, hasked, fun hne => absurd rfl hne⟩
  · cases hdone

lemma guessCount_setGuessed (r : RingHead H) (id : Nat) (g : Guesses) :
    (r.setGuessed id (some g)).guessCount id = g.tokens.length := by
  rw [RingHead.guessCount, RingHead.setGuessed]
  simp only [Function.update_self]

section record

variable (h : Following md r f.session t d text) (hg : r.guessed f.session = none)
  (hrequest : f.request = d.activeRequest) (hlength : l.length = f.position)
  (hplain : t.Plain) (hactive : t.activeRequest = d.activeRequest) (hprompt : t.hasPrompt = true)
  (ngramDraft : Bool)
include h hg hrequest hlength hplain hactive hprompt

/-- A round with guesses leaves the last of them for the draft to read. -/
lemma Following.recordGuesses {guesses : List Token} (hsome : guesses ≠ [])
    (hpending : t.draft.pending = []) (htext : text = l ++ frameToken f :: guesses.dropLast)
    (hhistory : t.history = l ++ frameToken f :: guesses) :
    (r.recordRound ngramDraft f guesses).2 = none ∧
      ∀ accepted ≤ (r.recordRound ngramDraft f guesses).1.guessCount f.session,
        Mirrors md (r.recordRound ngramDraft f guesses).1 f.session
          (some (f.request, f.position + 1 + accepted)) := by
  obtain ⟨st, hst, hmodel, hd⟩ := h.draft
  have hrecord : r.recordRound ngramDraft f guesses =
      (r.setGuessed f.session (some ⟨f.position, guesses, f.request⟩), none) := by
    rw [RingHead.recordRound, if_pos (.inl (by rw [hst]; rfl)), if_neg fun h => hsome h.2.2]
  rw [hrecord, guessCount_setGuessed]
  refine ⟨rfl, fun accepted haccepted => ?_⟩
  have hd' : text = d.history := h.followed.eq_of_settled hpending hg
  have hsplit := List.dropLast_append_getLast hsome
  have hguessed :
      (r.setGuessed f.session (some ⟨f.position, guesses, f.request⟩)).guessed f.session =
      some ⟨f.position, guesses, f.request⟩ := Function.update_self ..
  have hbehind : d.history.length = f.position + guesses.length := by
    have hpos := List.length_pos_of_ne_nil hsome
    rw [← hd', htext, List.length_append, hlength, List.length_cons, List.length_dropLast]
    omega
  have hfollows :
      Following md (r.setGuessed f.session (some ⟨f.position, guesses, f.request⟩)) f.session t
      d (d.history ++ [guesses.getLast hsome]) :=
    ⟨h.nonzero, h.draft, h.stage, h.greedy, h.plain, h.active, h.prompted,
      .guessed hpending hguessed hrequest (List.getLast?_eq_some_getLast hsome) hbehind⟩
  have hall : t.history = d.history ++ [guesses.getLast hsome] := by
    rw [hhistory, ← hd', htext, List.append_assoc, List.cons_append, hsplit]
  refine .live hplain hactive hprompt hfollows (hall ▸ List.prefix_rfl) fun request n hk => ?_
  cases hk
  refine ⟨hrequest, ?_, fun hne => absurd hpending hne⟩
  have haccepted' : accepted ≤ guesses.length := haccepted
  rw [hhistory, List.length_append, hlength, List.length_cons]
  omega

/-- A round without guesses leaves its input for the draft to read. -/
lemma Following.recordInput (hread : l <+: text) (hdeferred : t.draft.pending ≠ [] → text = l)
    (hhistory : t.history = l ++ [frameToken f]) :
    (r.recordRound ngramDraft f []).2 = none ∧
      ∀ accepted ≤ (r.recordRound ngramDraft f []).1.guessCount f.session,
        Mirrors md (r.recordRound ngramDraft f []).1 f.session
          (some (f.request, f.position + 1 + accepted)) := by
  obtain ⟨st, hst, hmodel, hd⟩ := h.draft
  have hsome : r.draft.isSome = true := by
    rw [hst]
    rfl
  obtain ⟨state, hrequest', hstart, hpending, htext, hdefer⟩ : ∃ state : DraftState,
      state.request = d.activeRequest ∧ state.start ≤ d.history.length ∧ state.pending ≠ [] ∧
        d.history.take state.start ++ state.pending = l ++ [frameToken f] ∧
        r.defer f =
          ({ r with stage := r.stage.change f.session fun s => { s with draft := state } },
          none) := by
    rw [RingHead.defer, Stage.requireSession_of_lookup h.nonzero h.stage]
    by_cases hpending : t.draft.pending = []
    · have hread' : l <+: d.history := h.followed.eq_of_settled hpending hg ▸ hread
      refine ⟨⟨[frameToken f], f.position, f.request⟩, hrequest, ?_, List.cons_ne_nil _ _, ?_, ?_⟩
      · exact hlength ▸ hread'.length_le
      · rw [take_of_isPrefix hread' hlength]
      · simp only [hpending, if_true, ne_eq, List.length_nil, Nat.add_zero, not_true, or_self,
          if_false, List.nil_append]
    · obtain ⟨hstate, hstart, htake⟩ : t.draft.request = d.activeRequest ∧
          t.draft.start ≤ d.history.length ∧
              text = d.history.take t.draft.start ++ t.draft.pending := by
        cases h.followed with
        | even hnone => exact absurd hnone hpending
        | deferred _ hstate hstart => exact ⟨hstate, hstart, rfl⟩
        | guessed hnone => exact absurd hnone hpending
      have hl := (hdeferred hpending).symm.trans htake
      have hposition : f.position = t.draft.start + t.draft.pending.length := by
        rw [← hlength, hl, List.length_append, List.length_take_of_le hstart]
      refine ⟨⟨t.draft.pending ++ [frameToken f], t.draft.start, t.draft.request⟩, hstate, hstart,
        List.append_ne_nil_of_right_ne_nil _ (List.cons_ne_nil _ _), ?_, ?_⟩
      · rw [← List.append_assoc, ← hl]
      · have hgood : ¬ (t.draft.request ≠ f.request ∨
            f.position ≠ t.draft.start + t.draft.pending.length) := by
          rw [not_or, not_not, not_not]
          exact ⟨hstate.trans hrequest.symm, hposition⟩
        simp only [hpending, if_false, if_neg hgood]
  have hrecord : r.recordRound ngramDraft f [] =
      (RingHead.setGuessed
        { r with stage := r.stage.change f.session fun s => { s with draft := state } }
        f.session (some ⟨f.position, [], f.request⟩), none) := by
    rw [RingHead.recordRound, if_pos (.inl hsome), if_pos ⟨hsome, h.canModelDraft, rfl⟩, hdefer]
  rw [hrecord, guessCount_setGuessed]
  refine ⟨rfl, fun accepted haccepted => ?_⟩
  have hfollows :
      Following md (RingHead.setGuessed { r with stage := r.stage.change f.session fun s =>
      { s with draft := state } } f.session (some ⟨f.position, [], f.request⟩)) f.session
      { t with draft := state } d (l ++ [frameToken f]) := by
    refine ⟨h.nonzero, h.draft, Stage.lookup_change _ _ h.stage, h.greedy, h.plain, h.active,
      h.prompted, ?_⟩
    rw [← htext]
    refine .deferred hpending hrequest' hstart ?_
    rw [RingHead.setGuessed]
    simp only [Function.update_self]
    rintro x ⟨rfl⟩
    rfl
  refine .live (t := { t with draft := state }) (hplain.withDraft rfl) hactive hprompt hfollows ?_
    fun request n hk => ?_
  · change t.history <+: l ++ [frameToken f]
    exact hhistory ▸ List.prefix_rfl
  cases hk
  have hnone : accepted = 0 := Nat.le_zero.mp haccepted
  refine ⟨hrequest, ?_, fun _ => ?_⟩
  · change f.position + 1 + accepted ≤ t.history.length
    rw [hnone, hhistory, List.length_append, hlength]
    exact le_rfl
  · rw [hnone, List.length_append, hlength]
    rfl

end record

/-! ### The whole round -/

def roundFrame (f : Frame H) (guesses : List Token) : Frame H :=
  tokenFrame f f.position (frameToken f :: guesses)

/-- A round without an exception of its own: it fails only where the stage does. -/
lemma draftRound_cases {ngramDraft : Bool} {s : Session H} (hs : r.stage.requireSession f = .ok s)
    {r₁ : RingHead H} {guesses : List Token}
    (hguesses : r.roundGuesses ngramDraft f c = (r₁, guesses))
    (hrecord : ∀ out, (r₁.stage.handle (roundFrame f guesses) 0 c.ok).2.2 = .ok out →
      (RingHead.recordRound ngramDraft
        { r₁ with stage := (r₁.stage.handle (roundFrame f guesses) 0 c.ok).1 } f guesses).2 =
          none) :
    (∃ e, (r₁.stage.handle (roundFrame f guesses) 0 c.ok).2.2 = .error e ∧
      r.draftRound ngramDraft f c =
        ({ r₁ with stage := (r₁.stage.handle (roundFrame f guesses) 0 c.ok).1 }, .error e)) ∨
    (∃ out, (r₁.stage.handle (roundFrame f guesses) 0 c.ok).2.2 = .ok out ∧
      r.draftRound ngramDraft f c =
        ((RingHead.recordRound ngramDraft
          { r₁ with stage := (r₁.stage.handle (roundFrame f guesses) 0 c.ok).1 } f guesses).1,
          .ok (RingHead.withGuesses out guesses))) := by
  have hframe : tokenFrame f f.position (frameToken f :: guesses) = roundFrame f guesses := rfl
  simp only [RingHead.draftRound, hs, hguesses, hframe]
  generalize r₁.stage.handle (roundFrame f guesses) 0 c.ok = handled at hrecord ⊢
  obtain ⟨stage, emitted, e | out⟩ := handled
  · exact .inl ⟨e, rfl, rfl⟩
  · refine .inr ⟨out, rfl, ?_⟩
    have hnone := hrecord out rfl
    dsimp only at hnone ⊢
    generalize RingHead.recordRound ngramDraft { r₁ with stage } f guesses = recorded at hnone ⊢
    obtain ⟨r', error⟩ := recorded
    cases hnone
    rfl

/-- A round of a stage that has no draft, or of a session that it does not draft for, defers
nothing. -/
lemma recordRound_undrafted (h : r.draft = none ∨ r.stage.canModelDraft f = false)
    (ngramDraft : Bool) (guesses : List Token) : (r.recordRound ngramDraft f guesses).2 = none ∧
      (r.recordRound ngramDraft f guesses).1.stage = r.stage ∧
      (r.recordRound ngramDraft f guesses).1.draft = r.draft := by
  have hno : ¬ (r.draft.isSome ∧ r.stage.canModelDraft f = true ∧ guesses = []) := by
    rintro ⟨hsome, hcan, -⟩
    rcases h with h | h
    · rw [h] at hsome
      cases hsome
    · rw [h] at hcan
      cases hcan
  rw [RingHead.recordRound, if_neg hno]
  split_ifs
  · exact ⟨rfl, rfl, rfl⟩
  · exact ⟨rfl, rfl, rfl⟩

/-! ### What the stage makes of the batch -/

lemma admits_roundFrame (hrequest : f.request ≠ 0) (hgreedy : t.chatRequest = false)
    (hactive : t.activeRequest = f.request) (guesses : List Token) :
    t.Admits (roundFrame f guesses) := by
  refine ⟨hrequest, ?_, fun hidle => ?_, fun _ => hactive⟩
  · rw [hgreedy]
    exact fun h => absurd h.1 (by simp)
  · exact absurd (hactive.symm.trans hidle) hrequest

section batch

variable (h : Following md r f.session t d text) (hfirst : r.stage.model.first) (hplain : t.Plain)
  (hactive : t.activeRequest = d.activeRequest) (hrequest : f.request = d.activeRequest)
  (hprompt : t.hasPrompt = true) (hl : t.history.take f.position = l) {guesses : List Token}
include h hfirst hplain hactive hrequest hprompt hl

/-- The batch is answered: its tokens come after the committed text. -/
lemma Following.batch_ok {out : Frame H}
    (hout : (r.stage.handle (roundFrame f guesses) 0 c.ok).2.2 = .ok out) :
    ∃ t', Following md { r with stage := (r.stage.handle (roundFrame f guesses) 0 c.ok).1 }
      f.session t' d
        text ∧ t'.Plain ∧ t'.activeRequest = d.activeRequest ∧ t'.hasPrompt = true ∧
      t'.draft = t.draft ∧ t'.history = l ++ frameToken f :: guesses := by
  obtain ⟨-, s, hs, hreply, hlookup⟩ := Stage.handle_run_ok (f := roundFrame f guesses) rfl hout
  obtain rfl : s = t := Option.some.inj (hs.symm.trans h.stage)
  obtain ⟨hplain', haccepted, hentered⟩ := hplain.execute_ok hfirst hreply
  refine ⟨_, ⟨h.nonzero, h.draft, hlookup, hplain'.greedy, h.plain, h.active, h.prompted, ?_⟩,
    hplain', hentered.active.trans hrequest, haccepted.prompted, hentered.draft, ?_⟩
  · rw [hentered.draft]
    exact h.followed
  · rw [haccepted.holds.history, ← hl]
    rfl

/-- The batch is refused: the session is back at the end of the committed text. -/
lemma Following.batch_error {e : String}
    (he : (r.stage.handle (roundFrame f guesses) 0 c.ok).2.2 = .error e) :
    ∃ t', Following md { r with stage := (r.stage.handle (roundFrame f guesses) 0 c.ok).1 }
      f.session t' d
        text ∧ t'.Plain ∧ t'.activeRequest = d.activeRequest ∧ t'.hasPrompt = true ∧
            t'.history = l := by
  have hnonzero : f.request ≠ 0 := hrequest ▸ h.active
  obtain ⟨hreply, hlookup⟩ :=
    Stage.handle_run_of_lookup (f := roundFrame f guesses) rfl hnonzero h.nonzero
    h.stage 0 c.ok
  rw [he] at hreply
  have hadmits := admits_roundFrame hnonzero h.greedy (hactive.trans hrequest.symm) guesses
  have hrefused := hplain.execute_error_of_admits hfirst hadmits hreply.symm
  have hsame : (t.execute r.stage.model (roundFrame f guesses) 0 c.ok).session.Plain ∧
      (t.execute r.stage.model (roundFrame f guesses) 0 c.ok).session.activeRequest =
        d.activeRequest ∧
      (t.execute r.stage.model (roundFrame f guesses) 0 c.ok).session.draft = t.draft := by
    rcases hplain.execute_error hfirst hreply.symm with hsame | ⟨hplain', -, hentered⟩
    · rw [hsame]
      exact ⟨hplain, hactive, rfl⟩
    · exact ⟨hplain', hentered.active.trans hrequest, hentered.draft⟩
  obtain ⟨hplain', hactive', hdraft⟩ := hsame
  have hprompt' : (t.execute r.stage.model (roundFrame f guesses) 0 c.ok).session.hasPrompt =
      t.hasPrompt := by
    rcases hrefused.prompted with hsame | ⟨-, hnone, -⟩
    · exact hsame
    · rw [hprompt] at hnone
      cases hnone
  obtain ⟨l', hl', htake⟩ := hrefused.holds
  refine ⟨_, ⟨h.nonzero, h.draft, hlookup, hplain'.greedy, h.plain, h.active, h.prompted, ?_⟩,
    hplain', hactive', hprompt'.trans hprompt, ?_⟩
  · rw [hdraft]
    exact h.followed
  · rw [hl'.history, htake hprompt', ← hl]
    rfl

end batch

/-! ### A session that the draft follows -/

/-- The texts of the exceptions that a batch of tokens meets at the first stage. -/
def roundErrors : List String :=
  ["request ID must be nonzero", "session ID must be nonzero", "unknown session ID",
    "speculation is unavailable for this chat sampler", "request ID is not increasing",
    "request ID mismatch", "speculative batch exceeds supported width", "bad token frame",
    "token received before prompt", "session context exhausted", "stage A decode failed"]

lemma finalBatch_error {m : StageModel H} {tokens : List Token} {decoded : Bool}
    {out : List (Frame H)}
    {e : String} (h : (t.finalBatch m f tokens decoded out).reply = .error e) :
    e = "stage A decode failed" := by
  rw [Session.finalBatch] at h
  split at h
  · cases h
    rfl
  · split at h
    · split at h
      · cases h
      · split at h
        · cases h
        · cases h
    · cases h

lemma runToken_error {m : StageModel H} (htype : f.type = .token) {chunk : Nat} {ok : Nat → Bool}
    {e : String} (h : (t.runToken m f chunk ok).reply = .error e) : e ∈ roundErrors := by
  rw [Session.runToken] at h
  split at h
  · cases h
    decide
  · split at h
    · cases h
      decide
    · split at h
      · cases h
        decide
      · rw [Session.runTokens] at h
        split at h
        · cases h
          decide
        · rw [Session.prefill, if_neg (by rw [htype]; simp)] at h
          rw [finalBatch_error h]
          decide

lemma execute_error_mem {m : StageModel H} (hfirst : m.first) (htype : f.type = .token)
    {chunk : Nat} {ok : Nat → Bool} {e : String} (h : (t.execute m f chunk ok).reply = .error e) :
    e ∈ roundErrors := by
  rw [Session.execute] at h
  cases henter : t.enter m f with
  | error e' =>
    rw [henter] at h
    cases h
    rw [Session.enter] at henter
    split_ifs at henter
    all_goals
      cases henter
      decide
  | ok s =>
    simp only [henter, hfirst, if_true] at h
    rw [Session.runFirst] at h
    split_ifs at h with hwidth hprompt hrun
    · cases h
      decide
    · rw [htype] at hprompt
      cases hprompt
    · exact runToken_error htype h
    · exact absurd (.inl htype) hrun

/-- The stage refuses a batch with one of these texts. -/
lemma handle_roundFrame_error {st : Stage H} (hfirst : st.model.first) {guesses : List Token}
    {ok : Nat → Bool} {e : String} (he : (st.handle (roundFrame f guesses) 0 ok).2.2 = .error e) :
    e ∈ roundErrors := by
  rw [Stage.handle_runs rfl] at he
  split_ifs at he
  · cases he
    decide
  · rw [Stage.onSession] at he
    cases hrequire : st.requireSession (roundFrame f guesses) with
    | error e' =>
      rw [hrequire] at he
      cases he
      rw [Stage.requireSession] at hrequire
      split_ifs at hrequire
      · cases hrequire
        decide
      · split at hrequire
        · cases hrequire
          decide
        · cases hrequire
    | ok s =>
      rw [hrequire] at he
      exact execute_error_mem hfirst rfl he

/-- What a round leaves: it fails only as the stage fails, and the draft, if it is not given up,
stands to the session as before. -/
structure Rounded (md : StageModel H) (f : Frame H) (r' : RingHead H)
    (reply : Except String (Frame H)) : Prop where
  fails : ∀ e, reply = .error e → e ∈ roundErrors
  mirrors : ∀ st, r'.draft = some st → ∀ accepted ≤ r'.guessCount f.session,
    Mirrors md r' f.session (committedRound f reply accepted)

lemma Following.roundGuesses (h : Following md r f.session t d text) (hfirst : md.first)
    (hrequest : f.request = d.activeRequest) (hl : l <+: text) (hlength : l.length = f.position)
    (hdeferred : t.draft.pending ≠ [] → text = l) (ngramDraft : Bool) :
    (r.roundGuesses ngramDraft f c).1.draft = none ∨ ∃ text' t' d',
      Asked md (r.roundGuesses ngramDraft f c).1 f d.activeRequest t l text' t' d' ∧
      ((r.roundGuesses ngramDraft f c).2 ≠ [] → t'.draft.pending = [] ∧
        text' = l ++ frameToken f :: (r.roundGuesses ngramDraft f c).2.dropLast) := by
  have hproposals := fun guesses (hdone : (r.proposals ngramDraft f c).2 = .ok guesses) =>
    h.proposals hfirst hrequest hl hlength hdeferred hdone
  rw [RingHead.roundGuesses]
  generalize r.proposals ngramDraft f c = proposed at hproposals ⊢
  obtain ⟨r₁, e | guesses⟩ := proposed
  · exact .inl rfl
  · exact .inr (hproposals guesses rfl)

/-- A round of a session that the draft follows. -/
lemma Following.round (h : Following md r f.session t d text) (hmd : md.first)
    (hfirst : r.stage.model.first) (hplain : t.Plain) (hactive : t.activeRequest = d.activeRequest)
    (hprompt : t.hasPrompt = true) (hread : t.history <+: text)
    (hrequest : f.request = d.activeRequest) (hposition : f.position ≤ t.history.length)
    (hdeferred : t.draft.pending ≠ [] → f.position = text.length) (ngramDraft : Bool) :
    Rounded md f (r.draftRound ngramDraft f c).1 (r.draftRound ngramDraft f c).2 := by
  obtain ⟨l, hl⟩ : ∃ l, t.history.take f.position = l := ⟨_, rfl⟩
  have hlength : l.length = f.position := hl ▸ List.length_take_of_le hposition
  have hl' : l <+: text := hl ▸ (List.take_prefix ..).trans hread
  have hdeferred' : t.draft.pending ≠ [] → text = l := fun hne =>
    (hl'.eq_of_length (hlength.trans (hdeferred hne))).symm
  have hasked := h.roundGuesses (c := c) hmd hrequest hl' hlength hdeferred' ngramDraft
  have hmodel := (RingHead.Local.roundGuesses ngramDraft r f c).model
  have hcases := draftRound_cases (Stage.requireSession_of_lookup h.nonzero h.stage)
    (r.roundGuesses ngramDraft f c).eta.symm
  generalize (r.roundGuesses ngramDraft f c).1 = r₁ at hasked hmodel hcases
  generalize (r.roundGuesses ngramDraft f c).2 = guesses at hasked hcases
  have hfirst₁ : r₁.stage.model.first := by rwa [hmodel]
  rcases hasked with hoff | ⟨text', t', d', ⟨hfollows, hactive', hsame, hg, hread', hdeferred₁⟩,
    hguesses⟩
  · -- the draft was given up
    have hundrafted :=
      fun stage => recordRound_undrafted (r := { r₁ with stage }) (f := f) (.inl hoff)
      ngramDraft guesses
    rcases hcases fun out _ => (hundrafted _).1 with ⟨e, he, hround⟩ | ⟨out, -, hround⟩
    · rw [hround]
      refine ⟨fun e' he' => ?_, fun st hst => ?_⟩
      · cases he'
        exact handle_roundFrame_error hfirst₁ he
      · rw [hoff] at hst
        cases hst
    · rw [hround]
      refine ⟨fun e' he' => ?_, fun st hst => ?_⟩
      · cases he'
      · rw [(hundrafted _).2.2, hoff] at hst
        cases hst
  · have hplain' := hplain.withDraft hsame
    have hhistory : t'.history = t.history := by rw [hsame]
    have hprompt' : t'.hasPrompt = true := by rw [hsame]; exact hprompt
    have hrequest' : f.request = d'.activeRequest := hrequest.trans hactive'.symm
    have hactive₁ : t'.activeRequest = d'.activeRequest := by
      rw [hactive', ← hactive, hsame]
    have hl₁ : t'.history.take f.position = l := by rw [hhistory, hl]
    have hrecord : ∀ out, (r₁.stage.handle (roundFrame f guesses) 0 c.ok).2.2 = .ok out →
        (RingHead.recordRound ngramDraft
          { r₁ with stage := (r₁.stage.handle (roundFrame f guesses) 0 c.ok).1 } f guesses).2 =
            none ∧
        ∀ accepted ≤ (RingHead.recordRound ngramDraft
            { r₁ with stage := (r₁.stage.handle (roundFrame f guesses) 0 c.ok).1 } f
              guesses).1.guessCount
              f.session,
          Mirrors md (RingHead.recordRound ngramDraft
            { r₁ with stage := (r₁.stage.handle (roundFrame f guesses) 0 c.ok).1 } f guesses).1
              f.session
            (some (f.request, f.position + 1 + accepted)) := by
      intro out hout
      obtain ⟨t₂, hfollows₂, hplain₂, hactive₂, hprompt₂, hdraft₂, hhistory₂⟩ :=
        hfollows.batch_ok hfirst₁ hplain' hactive₁ hrequest' hprompt' hl₁ hout
      by_cases hsome : guesses = []
      · subst hsome
        exact hfollows₂.recordInput hg hrequest' hlength hplain₂ hactive₂ hprompt₂ ngramDraft hread'
          (by rwa [hdraft₂]) hhistory₂
      · obtain ⟨hpending, htext⟩ := hguesses hsome
        exact hfollows₂.recordGuesses hg hrequest' hlength hplain₂ hactive₂ hprompt₂ ngramDraft
          hsome
          (by rwa [hdraft₂]) htext hhistory₂
    rcases hcases fun out hout => (hrecord out hout).1 with ⟨e, he, hround⟩ | ⟨out, hout, hround⟩
    · rw [hround]
      refine ⟨fun e' he' => ?_, fun st hst accepted _ => ?_⟩
      · cases he'
        exact handle_roundFrame_error hfirst₁ he
      · obtain ⟨t₂, hfollows₂, hplain₂, hactive₂, hprompt₂, hhistory₂⟩ :=
          hfollows.batch_error hfirst₁ hplain' hactive₁ hrequest' hprompt' hl₁ he
        exact .live hplain₂ hactive₂ hprompt₂ hfollows₂ (hhistory₂ ▸ hread')
          (by simp [committedRound])
    · rw [hround]
      refine ⟨fun e' he' => ?_, fun st hst => (hrecord out hout).2⟩
      cases he'

/-! ### A session that the draft does not follow -/

lemma requireSession_error_mem {st : Stage H} {e : String} (h : st.requireSession f = .error e) :
    e ∈ roundErrors := by
  rw [Stage.requireSession] at h
  split_ifs at h
  · cases h
    decide
  · split at h
    · cases h
      decide
    · cases h

def InChat (st : Stage H) (id : Nat) : Prop :=
  ∃ t, st.sessions.lookup id = some t ∧ t.chatRequest = true

lemma InChat.canModelDraft {st : Stage H} (h : InChat st f.session) :
    st.canModelDraft f = false := by
  obtain ⟨t, ht, hchat⟩ := h
  rw [Stage.canModelDraft, ht]
  simp only [hchat, Bool.not_true]

lemma InChat.change {st : Stage H} {id : Nat} (h : InChat st id) {g : Session H → Session H}
    (hg : ∀ s, (g s).chatRequest = s.chatRequest) : InChat (st.change id g) id := by
  obtain ⟨t, ht, hchat⟩ := h
  exact ⟨g t, Stage.lookup_change _ _ ht, (hg t).trans hchat⟩

lemma InChat.batch {st : Stage H} (h : InChat st f.session) (guesses : List Token)
    (ok : Nat → Bool) :
    InChat (st.handle (roundFrame f guesses) 0 ok).1 f.session := by
  obtain ⟨t, ht, hchat⟩ := h
  have hran : ∀ s, st.sessions.lookup f.session = some s →
      (s.execute st.model (roundFrame f guesses) 0 ok).session.chatRequest = true := by
    intro s hs
    obtain rfl : s = t := Option.some.inj (hs.symm.trans ht)
    exact Session.execute_chatRequest.trans hchat
  cases hreply : (st.handle (roundFrame f guesses) 0 ok).2.2 with
  | ok out =>
    obtain ⟨-, s, hs, -, hlookup⟩ := Stage.handle_run_ok (f := roundFrame f guesses) rfl hreply
    exact ⟨_, hlookup, hran s hs⟩
  | error e =>
    rcases Stage.handle_run_error (f := roundFrame f guesses) rfl hreply with
      hlookup | ⟨s, hs, -, hlookup⟩
    · exact ⟨t, hlookup.trans ht, hchat⟩
    · exact ⟨_, hlookup, hran s hs⟩

/-- In a chat the draft is neither caught up nor flushed before a round. -/
lemma InChat.before (h : InChat r.stage f.session) :
    ∃ guessed, r.beforeProposals f c = ({ r with guessed }, none) := by
  have hcan := h.canModelDraft
  have hcaught : ∃ guessed, r.catchUpDraft f c = ({ r with guessed }, none) := by
    have hset : (r.setGuessed f.session none).stage.canModelDraft f = false := hcan
    rw [RingHead.catchUpDraft]
    split
    · exact ⟨_, rfl⟩
    · simp only [hset, Bool.false_eq_true, false_and, if_false]
      split_ifs
      · exact ⟨_, rfl⟩
      · split
        · exact ⟨_, rfl⟩
        · exact ⟨_, rfl⟩
  obtain ⟨guessed, hcaught⟩ := hcaught
  refine ⟨guessed, ?_⟩
  have hno : ¬ (1 < c.width ∧ r.draft.isSome ∧ r.stage.canModelDraft f = true) := by
    rw [hcan]
    simp
  simp only [RingHead.beforeProposals, hcaught]
  exact if_neg hno

/-- In a chat the draft is not asked for guesses. -/
lemma InChat.roundGuesses (h : InChat r.stage f.session) (ngramDraft : Bool) :
    InChat (r.roundGuesses ngramDraft f c).1.stage f.session ∧
      ((r.roundGuesses ngramDraft f c).1.draft = r.draft ∨
        (r.roundGuesses ngramDraft f c).1.draft = none) := by
  have hngram : InChat (r.stage.ngramProposals f (c.width - 1) c).1 f.session := by
    rw [Stage.ngramProposals]
    split
    · exact h
    · dsimp only
      split_ifs
      · exact h
      · exact h
      · exact h.change fun _ => rfl
  have hproposals : InChat (r.proposals ngramDraft f c).1.stage f.session ∧
      (r.proposals ngramDraft f c).1.draft = r.draft := by
    obtain ⟨guessed, hbefore⟩ := h.before (c := c)
    rw [RingHead.proposals, hbefore]
    dsimp only
    split_ifs
    · split
      · rename_i hcan
        rw [h.canModelDraft] at hcan
        cases hcan
      · exact ⟨hngram, rfl⟩
    · split
      · rename_i hcan
        rw [h.canModelDraft] at hcan
        cases hcan
      · exact ⟨h, rfl⟩
    · exact ⟨h, rfl⟩
  rw [RingHead.roundGuesses]
  generalize r.proposals ngramDraft f c = proposed at hproposals ⊢
  obtain ⟨r₁, e | guesses⟩ := proposed
  · exact ⟨hproposals.1.change fun _ => rfl, .inr rfl⟩
  · exact ⟨hproposals.1, .inl hproposals.2⟩

/-- A round in a chat. -/
lemma InChat.draftRound (h : InChat r.stage f.session) (hd : Resting md r f.session)
    (hfirst : r.stage.model.first) (ngramDraft : Bool) :
    Rounded md f (r.draftRound ngramDraft f c).1 (r.draftRound ngramDraft f c).2 := by
  cases hrequire : r.stage.requireSession f with
  | error e =>
    obtain ⟨t, ht, hchat⟩ := h
    rw [RingHead.draftRound, hrequire]
    refine ⟨fun e' he' => ?_, fun _ _ _ _ => .chat ht hchat hd _⟩
    cases he'
    exact requireSession_error_mem hrequire
  | ok s =>
    have hmodel := (RingHead.Local.roundGuesses ngramDraft r f c).model
    have hkept := h.roundGuesses (c := c) ngramDraft
    have hcases := draftRound_cases hrequire (r.roundGuesses ngramDraft f c).eta.symm
    generalize (r.roundGuesses ngramDraft f c).1 = r₁ at hkept hmodel hcases
    generalize (r.roundGuesses ngramDraft f c).2 = guesses at hcases
    obtain ⟨hchat, hdraft⟩ := hkept
    have hbatch := hchat.batch guesses c.ok
    have hundrafted := recordRound_undrafted (r := { r₁ with
      stage := (r₁.stage.handle (roundFrame f guesses) 0 c.ok).1 }) (.inr hbatch.canModelDraft)
      ngramDraft guesses
    -- the draft has its session in no request still, if it was not given up
    have hrests : ∀ r₂ : RingHead H, r₂.draft = r₁.draft → ∀ st, r₂.draft = some st →
        Resting md r₂ f.session := by
      intro r₂ hsame st hst
      obtain ⟨st₀, hst₀, hidle⟩ := hd
      rcases hdraft with hdraft | hdraft
      · exact ⟨st₀, hsame.trans (hdraft.trans hst₀), hidle⟩
      · rw [hsame, hdraft] at hst
        cases hst
    rcases hcases fun out _ => hundrafted.1 with ⟨e, he, hround⟩ | ⟨out, -, hround⟩
    · rw [hround]
      refine ⟨fun e' he' => ?_, fun st hst _ _ => ?_⟩
      · cases he'
        exact handle_roundFrame_error (hmodel ▸ hfirst) he
      · obtain ⟨t, ht, hchat⟩ := hbatch
        exact .chat (r := { r₁ with stage := _ }) ht hchat (hrests _ rfl st hst) _
    · rw [hround]
      refine ⟨fun e' he' => ?_, fun st hst _ _ => ?_⟩
      · cases he'
      · obtain ⟨t, ht, hchat⟩ := hbatch
        refine .chat ?_ hchat (hrests _ hundrafted.2.2 st hst) _
        exact (congrArg (·.sessions.lookup f.session) hundrafted.2.1).trans ht

/-- A round of a head without a draft. -/
lemma draftRound_undrafted (h : r.draft = none) (hfirst : r.stage.model.first) (ngramDraft : Bool) :
    Rounded md f (r.draftRound ngramDraft f c).1 (r.draftRound ngramDraft f c).2 := by
  have hnone := (RingHead.Local.draftRound ngramDraft r f c).draft_none h
  refine ⟨fun e he => ?_, fun st hst => ?_⟩
  · cases hrequire : r.stage.requireSession f with
    | error e' =>
      rw [RingHead.draftRound, hrequire] at he
      cases he
      exact requireSession_error_mem hrequire
    | ok s =>
      have hlocal := RingHead.Local.roundGuesses ngramDraft r f c
      have hcases := draftRound_cases hrequire (r.roundGuesses ngramDraft f c).eta.symm
      generalize (r.roundGuesses ngramDraft f c).1 = r₁ at hlocal hcases
      generalize (r.roundGuesses ngramDraft f c).2 = guesses at hcases
      have hoff := hlocal.draft_none h
      have hundrafted := recordRound_undrafted (r := { r₁ with
        stage := (r₁.stage.handle (roundFrame f guesses) 0 c.ok).1 }) (f := f)
          (.inl hoff) ngramDraft guesses
      rcases hcases fun out _ => hundrafted.1 with ⟨e₁, he₁, hround⟩ | ⟨out, -, hround⟩
      · rw [hround] at he
        cases he
        exact handle_roundFrame_error (hlocal.model ▸ hfirst) he₁
      · rw [hround] at he
        cases he
  · rw [hnone] at hst
    cases hst

/-! ### A round of any session -/

/-- A round that is only a step of the stage. -/
lemma decodeRound_plain {ngramDraft : Bool}
    (h : ¬ (((r.draft.isSome ∧ r.stage.canModelDraft f) ∨ ngramDraft) ∧ r.stage.canDraft f)) :
    r.decodeRound ngramDraft f c = ({ r with stage := (r.stage.handle (roundFrame f []) 0 c.ok).1 },
      (r.stage.handle (roundFrame f []) 0 c.ok).2.2) :=
  if_neg h

/-- A round of a session that streams. -/
lemma Mirrors.round (h : Mirrors md r f.session (some (f.request, f.position))) (hmd : md.first)
    (hfirst : r.stage.model.first) (ngramDraft : Bool) :
    Rounded md f (r.decodeRound ngramDraft f c).1 (r.decodeRound ngramDraft f c).2 := by
  cases h with
  | chat ht hchat hd =>
    by_cases hguess : ((r.draft.isSome ∧ r.stage.canModelDraft f) ∨ ngramDraft) ∧ r.stage.canDraft f
    · rw [RingHead.decodeRound, if_pos hguess]
      exact InChat.draftRound ⟨_, ht, hchat⟩ hd hfirst ngramDraft
    · rw [decodeRound_plain hguess]
      have hbatch : InChat (r.stage.handle (roundFrame f []) 0 c.ok).1 f.session :=
        InChat.batch ⟨_, ht, hchat⟩ [] c.ok
      obtain ⟨t, ht, hchat⟩ := hbatch
      refine ⟨fun e he => handle_roundFrame_error hfirst he, fun _ _ _ _ => ?_⟩
      exact .chat (r := { r with stage := _ }) ht hchat hd _
  | live hplain hactive hprompt hd hread hk =>
    obtain ⟨hrequest, hposition, hdeferred⟩ := hk _ _ rfl
    obtain ⟨st, hst, -, -⟩ := hd.draft
    have hcan : r.stage.canDraft f = true := by
      rw [Stage.canDraft, hd.stage]
      simp only [hd.greedy, Bool.not_false, Bool.true_or]
    have hguess : ((r.draft.isSome ∧ r.stage.canModelDraft f) ∨ ngramDraft) ∧ r.stage.canDraft f :=
      ⟨.inl ⟨by rw [hst]; rfl, hd.canModelDraft⟩, hcan⟩
    rw [RingHead.decodeRound, if_pos hguess]
    exact hd.round hmd hfirst hplain hactive hprompt hread hrequest hposition hdeferred ngramDraft

/-- A round of a head without a draft. -/
lemma decodeRound_undrafted (h : r.draft = none) (hfirst : r.stage.model.first)
    (ngramDraft : Bool) :
    Rounded md f (r.decodeRound ngramDraft f c).1 (r.decodeRound ngramDraft f c).2 := by
  by_cases hguess : ((r.draft.isSome ∧ r.stage.canModelDraft f) ∨ ngramDraft) ∧ r.stage.canDraft f
  · rw [RingHead.decodeRound, if_pos hguess]
    exact draftRound_undrafted h hfirst ngramDraft
  · rw [decodeRound_plain hguess]
    refine ⟨fun e he => handle_roundFrame_error hfirst he, fun st hst => ?_⟩
    rw [h] at hst
    cases hst

end ProviderOwned
