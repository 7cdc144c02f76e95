import ProviderOwned.Stage.MirrorRounds

/-!
# The draft mirrors the target

Control frames of all kinds, rounds of any width, any number of accepted guesses and lost
connections, in any order: the draft that is asked for guesses has read the committed text of the
session it guesses for, and the deferred inputs are contiguous (`draft_mirrors`).
-/

namespace ProviderOwned

variable {H : Type*} {m md : StageModel H} {r r₁ : RingHead H} {f : Frame H} {c : Chance}

/-! ### When the draft is asked -/

lemma asksDraft_eq_some {draft : Stage H} (h : r.asksDraft f c = some (draft, r₁)) :
    r.beforeProposals f c = (r₁, none) ∧ 1 < c.width ∧ r₁.stage.canModelDraft f = true ∧
      r₁.draft = some draft := by
  rw [RingHead.asksDraft] at h
  split at h
  · cases h
  · rename_i r' heq
    split_ifs at h with hask
    rw [Option.map_eq_some_iff] at h
    obtain ⟨draft', hdraft, hsame⟩ := h
    cases hsame
    exact ⟨heq, hask.1, hask.2, hdraft⟩

/-- The draft has read the first `n` tokens of the session of the stage, which holds so many. -/
def SameTokens (n : Nat) (d t : Session H) : Prop :=
  n ≤ d.history.length ∧ n ≤ t.history.length ∧ d.history.take n = t.history.take n ∧
    d.kv.take n = t.kv.take n

lemma sameTokens_of_isPrefix {d t : Session H} {l : List Token} (hd : d.Plain) (ht : t.Plain)
    (hl : l <+: d.history) (hl' : l <+: t.history) : SameTokens l.length d t := by
  have hsame : d.history.take l.length = t.history.take l.length := by
    rw [take_of_isPrefix hl rfl, take_of_isPrefix hl' rfl]
  refine ⟨hl.length_le, hl'.length_le, hsame, ?_⟩
  rw [hd.holds.kv, ht.holds.kv, ← List.map_take, ← List.map_take, hsame]

/-- The draft that is asked has read the committed text. -/
lemma Mirrors.asked (h : Mirrors md r f.session (some (f.request, f.position))) (hmd : md.first)
    {draft : Stage H} (hask : r.asksDraft f c = some (draft, r₁)) :
    ∃ d t, draft.sessions.lookup f.session = some d ∧ r₁.stage.sessions.lookup f.session = some t ∧
      SameTokens f.position d t := by
  obtain ⟨hbefore, hwidth, hcan, hdraft⟩ := asksDraft_eq_some hask
  cases h with
  | chat ht hchat hd =>
    have hinChat : InChat r.stage f.session := ⟨_, ht, hchat⟩
    obtain ⟨guessed, hready⟩ := hinChat.before (c := c)
    rw [hready] at hbefore
    cases hbefore
    rw [hinChat.canModelDraft] at hcan
    cases hcan
  | @live t d text _ hplain hactive hprompt hd hread hk =>
    obtain ⟨hrequest, hposition, hdeferred⟩ := hk _ _ rfl
    have hlength := List.length_take_of_le hposition
    have hl := (List.take_prefix f.position t.history).trans hread
    have hsame : t.draft.pending ≠ [] → text = t.history.take f.position := fun hne =>
      (hl.eq_of_length (hlength.trans (hdeferred hne))).symm
    have hready := hd.before (c := c) hmd hrequest hl hlength hsame
    rw [hbefore] at hready
    obtain ⟨text', t', d', hasked, hpending⟩ := hready rfl
    obtain ⟨st, hst, -, hd'⟩ := hasked.following.draft
    obtain rfl : draft = st := Option.some.inj (hdraft.symm.trans hst)
    have hread' := hasked.read
    rw [hasked.following.followed.eq_of_settled (hpending hwidth) hasked.guessed] at hread'
    have hhistory : t'.history = t.history := by rw [hasked.same]
    refine ⟨d', t', hd', hasked.following.stage, ?_⟩
    rw [← hlength]
    exact sameTokens_of_isPrefix hasked.following.plain (hplain.withDraft hasked.same) hread'
      (hhistory ▸ List.take_prefix ..)

/-! ### Runs -/

namespace Streaming

/-- What holds in every run: the models stay, and the draft stands to every session as `Mirrors`
says. -/
structure Inv (m md : StageModel H) (h : Streaming H) : Prop where
  stage : h.ring.stage.model = m
  draft : ∀ st, h.ring.draft = some st → st.model = md
  mirrors : ∀ st, h.ring.draft = some st → ∀ id, Mirrors md h.ring id (h.committed id)

lemma inv_load : (load m md).Inv m md := by
  refine ⟨rfl, fun st hst => ?_, fun st hst id => ?_⟩
  · cases hst
    rfl
  · refine .closed (AList.lookup_empty _) rfl ⟨_, rfl, rfl, fun d hd => ?_⟩
    cases (AList.lookup_empty id).symm.trans hd

lemma Inv.disconnected {h : Streaming H} (hinv : h.Inv m md) : h.disconnected.Inv m md := by
  have hdraft : ∀ st, h.disconnected.ring.draft = some st → st.model = md ∧ st.sessions = ∅ := by
    intro st hst
    obtain ⟨st₀, hst₀, rfl⟩ := Option.map_eq_some_iff.mp hst
    exact ⟨hinv.draft st₀ hst₀, rfl⟩
  refine ⟨hinv.stage, fun st hst => (hdraft st hst).1, fun st hst id => ?_⟩
  obtain ⟨hmodel, hempty⟩ := hdraft st hst
  refine .closed (AList.lookup_empty _) rfl ⟨st, hst, hmodel, fun d hd => ?_⟩
  rw [hempty] at hd
  cases (AList.lookup_empty id).symm.trans hd

/-- A step at one session keeps the invariant if it keeps it there. -/
lemma Inv.of_local {h : Streaming H} (hinv : h.Inv m md) {id : Nat} {r' : RingHead H}
    (hlocal : h.ring.Local id r') {k : Option (Nat × Nat)}
    (hhere : Mirrors md h.ring id (h.committed id) → ∀ st, r'.draft = some st →
      Mirrors md r' id k) :
    Inv m md ⟨r', Function.update h.committed id k⟩ := by
  refine ⟨hlocal.model.trans hinv.stage, fun st hst => ?_, fun st hst i => ?_⟩
  · obtain ⟨st₀, hst₀, hmodel, -⟩ := hlocal.draft st hst
    exact hmodel.trans (hinv.draft st₀ hst₀)
  · obtain ⟨st₀, hst₀, -, -⟩ := hlocal.draft st hst
    have hmirrors := hinv.mirrors st₀ hst₀ i
    dsimp only
    by_cases hi : i = id
    · subst hi
      rw [Function.update_self]
      exact hhere hmirrors st hst
    · rw [Function.update_of_ne hi]
      exact hmirrors.of_local hlocal hi hst

section

variable {ngramDraft : Bool} (hfirst : m.first) (hmd : md.first) (hvocab : md.tokenize = m.tokenize)
include hfirst hmd hvocab

/-- The invariant holds in every run. -/
lemma Reached.inv {h : Streaming H} (hreached : Reached m md ngramDraft h) : h.Inv m md := by
  induction hreached with
  | load => exact inv_load
  | @control h f hother chunk c _ ih =>
    have hmodel : h.ring.stage.model.first := ih.stage ▸ hfirst
    refine ih.of_local (RingHead.Local.serveControl ..) fun hmirrors st hst => ?_
    exact hmirrors.control hmd hmodel (ih.stage ▸ hvocab) hother chunk hst
  | @round h f hawaits c accepted haccepted _ ih =>
    have hmodel : h.ring.stage.model.first := ih.stage ▸ hfirst
    refine ih.of_local (RingHead.Local.decodeRound ..) fun hmirrors st hst => ?_
    rw [show h.committed f.session = _ from hawaits] at hmirrors
    exact (hmirrors.round hmd hmodel ngramDraft).mirrors st hst accepted haccepted
  | disconnected _ ih => exact ih.disconnected

/-- In every run, when the draft is asked for guesses at a position it has read the first tokens of
the session up to there, as the stage has; and no round meets deferred inputs that are not
contiguous. -/
theorem draft_mirrors {h : Streaming H} (hreached : Reached m md ngramDraft h) {input : Frame H}
    (hawaits : h.Awaits input) (c : Chance) :
    (∀ draft r, h.ring.asksDraft input c = some (draft, r) →
      ∃ d t, draft.sessions.lookup input.session = some d ∧
        r.stage.sessions.lookup input.session = some t ∧ SameTokens input.position d t) ∧
    ∀ e, (h.ring.decodeRound ngramDraft input c).2 = .error e →
      e ≠ "noncontiguous deferred draft inputs" := by
  have hinv := hreached.inv hfirst hmd hvocab
  have hmodel : h.ring.stage.model.first := hinv.stage ▸ hfirst
  have hcontiguous : "noncontiguous deferred draft inputs" ∉ roundErrors := by decide
  have hround : Rounded md input (h.ring.decodeRound ngramDraft input c).1
      (h.ring.decodeRound ngramDraft input c).2 := by
    cases hdraft : h.ring.draft with
    | none => exact decodeRound_undrafted hdraft hmodel ngramDraft
    | some st =>
      have hmirrors := hinv.mirrors st hdraft input.session
      rw [show h.committed input.session = _ from hawaits] at hmirrors
      exact hmirrors.round hmd hmodel ngramDraft
  refine ⟨fun draft r hask => ?_, fun e he hsame => hcontiguous (hsame ▸ hround.fails e he)⟩
  obtain ⟨hbefore, -, -, hdraft⟩ := asksDraft_eq_some hask
  have hlocal := RingHead.Local.beforeProposals h.ring input c
  rw [hbefore] at hlocal
  obtain ⟨st, hst, -⟩ := hlocal.draft draft hdraft
  have hmirrors := hinv.mirrors st hst input.session
  rw [show h.committed input.session = _ from hawaits] at hmirrors
  exact hmirrors.asked hmd hask

end

/-- A whole model with room for sixteen tokens, and its own draft. -/
def sixteenTokens : StageModel Nat :=
  { Stage.fourTokens with contextSize := 16 }

/-- Rounds of three tokens at most, in which nothing fails. -/
def threeWide (guesses : List Token) : Chance where
  ok _ := true
  okCatchUp _ := true
  okFlush _ := true
  okMirror _ := true
  width := 3
  trims := true
  starts := true
  guesses
  ngrams := []

/-- The input of a round of the first request of the first session. -/
def roundInput (position : Nat) (token : Token) : Frame Nat :=
  { type := .token, session := 1, request := 1, position, payload := .tokens [token] }

def prompted : Streaming Nat :=
  ((load sixteenTokens sixteenTokens).control { type := .createSession, session := 1 } 0
    (threeWide [])).control { type := .prompt, session := 1, request := 1, payload := .text "hi" } 0
    (threeWide [])

/-- The same session after a round of which both guesses were accepted. -/
def advanced : Streaming Nat :=
  prompted.round false (roundInput 2 7) (threeWide [8, 9]) 2

/-- The next round asks the draft, which has caught up with its last guess. -/
theorem draft_mirrors_advanced :
    (advanced.ring.asksDraft (roundInput 5 4) (threeWide [5, 6])).isSome = true ∧
      (∀ draft r, advanced.ring.asksDraft (roundInput 5 4) (threeWide [5, 6]) = some (draft, r) →
        ∃ d t, draft.sessions.lookup 1 = some d ∧ r.stage.sessions.lookup 1 = some t ∧
          SameTokens 5 d t) ∧
      ∀ e, (advanced.ring.decodeRound false (roundInput 5 4) (threeWide [5, 6])).2 = .error e →
        e ≠ "noncontiguous deferred draft inputs" := by
  have hprompted : Reached sixteenTokens sixteenTokens false prompted :=
    .control _ (by decide) 0 _ (.control _ (by decide) 0 _ .load)
  have hawaits : prompted.Awaits (roundInput 2 7) := by
    rw [Awaits]
    decide +kernel
  have hadvanced : Reached sixteenTokens sixteenTokens false advanced :=
    .round hawaits _ (by decide +kernel) hprompted
  have hnext : advanced.Awaits (roundInput 5 4) := by
    rw [Awaits]
    decide +kernel
  exact ⟨by decide +kernel, draft_mirrors rfl rfl rfl hadvanced hnext (threeWide [5, 6])⟩

end Streaming

end ProviderOwned
