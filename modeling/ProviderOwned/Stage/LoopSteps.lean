import ProviderOwned.Stage.LoopRounds

/-!
# A local decode step

`local_decode` on the ring's side: whichever way the guesses of a round come, the session they are
made for is the one that streams, and what the step returns are the next tokens of plain decoding
(`localDecode_fresh`). It returns none where guesses of an earlier round are left over and the round
makes none (`Stale`, `localDecode_plain`).
-/

namespace ProviderOwned

open Decode (outputs)
open Session (tokenAt)

variable {H : Type*} {r : RingHead H} {f : Frame H} {c : Chance} {ngramDraft : Bool}
  {cut : Option Nat}
  {s : Session H}

/-- The texts of the exceptions of a local decode step. -/
def stepErrors : List String := "noncontiguous deferred draft inputs" :: roundErrors

/-! ### What guessing does to the session -/

namespace Stage

variable {id : Nat} {st st₁ st₂ st₃ : Stage H}

/-- The session is there still, with other deferred inputs and perhaps a shorter history. -/
def Redrafts (cut : Option Nat) (id : Nat) (st st' : Stage H) : Prop :=
  Option.Rel (Session.Redrafted cut) (st.sessions.lookup id) (st'.sessions.lookup id)

lemma canModelDraft_of_lookup (hs : st.sessions.lookup f.session = some s) :
    st.canModelDraft f = !s.chatRequest := by
  rw [canModelDraft, hs]

lemma canDraft_of_lookup (hs : st.sessions.lookup f.session = some s) :
    st.canDraft f = (!s.chatRequest || s.chatSpeculative) := by
  rw [canDraft, hs]

namespace Redrafts

lemma refl (cut : Option Nat) (id : Nat) (st : Stage H) : st.Redrafts cut id st := by
  rw [Redrafts]
  cases st.sessions.lookup id with
  | none => exact .none
  | some s => exact .some ⟨rfl, .inl rfl⟩

lemma trans (h : st₁.Redrafts cut id st₂) (h' : st₂.Redrafts cut id st₃) :
    st₁.Redrafts cut id st₃ := by
  rw [Redrafts] at h h' ⊢
  generalize st₁.sessions.lookup id = before at h ⊢
  generalize st₂.sessions.lookup id = between at h h'
  generalize st₃.sessions.lookup id = after at h' ⊢
  cases h with
  | none => exact h'
  | some h =>
    cases h' with
    | some h' => exact .some (h.trans h')

lemma change {g : Session H → Session H} (hg : ∀ s : Session H, s.Redrafted cut (g s)) :
    st.Redrafts cut id (st.change id g) := by
  rw [Redrafts]
  cases hs : st.sessions.lookup id with
  | none =>
    rw [Stage.change, hs]
    exact hs.symm ▸ .none
  | some s =>
    rw [lookup_change id g hs]
    exact .some (hg s)

lemma forward (h : st₁.Redrafts cut id st₂) {s : Session H} (hs : st₁.sessions.lookup id = some s) :
    ∃ s', st₂.sessions.lookup id = some s' ∧ s.Redrafted cut s' := by
  rw [Redrafts, hs] at h
  generalize st₂.sessions.lookup id = after at h ⊢
  cases h with
  | some h => exact ⟨_, rfl, h⟩

lemma backward (h : st₁.Redrafts cut id st₂) {s' : Session H}
    (hs' : st₂.sessions.lookup id = some s') :
    ∃ s, st₁.sessions.lookup id = some s ∧ s.Redrafted cut s' := by
  rw [Redrafts, hs'] at h
  generalize st₁.sessions.lookup id = before at h ⊢
  cases h with
  | some h => exact ⟨_, rfl, h⟩

end Redrafts

lemma ngramProposals_redrafts (st : Stage H) (f : Frame H) (count : Nat) (c : Chance) :
    st.Redrafts (some f.position) f.session (st.ngramProposals f count c).1 := by
  rw [ngramProposals]
  split
  · exact .refl _ _ _
  · dsimp only
    split_ifs
    · exact .refl _ _ _
    · exact .refl _ _ _
    · exact .change fun _ => ⟨rfl, .inr ⟨_, rfl, rfl⟩⟩

end Stage

namespace RingHead

lemma flushDraft_redrafts (cut : Option Nat) (r : RingHead H) (f : Frame H) (c : Chance) :
    r.stage.Redrafts cut f.session (r.flushDraft f c).1.stage := by
  rw [flushDraft]
  split
  · exact .refl _ _ _
  · split_ifs
    · exact .refl _ _ _
    · split
      · exact .refl _ _ _
      · split
        · exact .refl _ _ _
        · exact .change fun s => s.redrafted_draft cut _

lemma beforeProposals_redrafts (cut : Option Nat) (r : RingHead H) (f : Frame H) (c : Chance) :
    r.stage.Redrafts cut f.session (r.beforeProposals f c).1.stage := by
  have hcaught := catchUpDraft_stage r f c
  rw [beforeProposals]
  generalize r.catchUpDraft f c = caught at hcaught ⊢
  obtain ⟨r₁, _ | error⟩ := caught
  · dsimp only at hcaught ⊢
    rw [← hcaught]
    split_ifs
    · exact flushDraft_redrafts cut r₁ f c
    · exact .refl _ _ _
  · exact hcaught ▸ .refl _ _ _

/-- Guesses come of a draft or of the n-gram table, and change no more of the session than its
history. -/
lemma roundGuesses_cases (ngramDraft : Bool) (r : RingHead H) (f : Frame H) (c : Chance) :
    r.stage.Redrafts (some f.position) f.session (r.roundGuesses ngramDraft f c).1.stage ∧
      ((r.roundGuesses ngramDraft f c).2 ≠ [] →
        ((r.roundGuesses ngramDraft f c).1.draft.isSome ∧
          (r.roundGuesses ngramDraft f c).1.stage.canModelDraft f) ∨ ngramDraft) := by
  have hbefore := beforeProposals_redrafts (some f.position) r f c
  have hproposals :
      r.stage.Redrafts (some f.position) f.session (r.proposals ngramDraft f c).1.stage ∧
      ∀ guesses, (r.proposals ngramDraft f c).2 = .ok guesses → guesses ≠ [] →
        ((r.proposals ngramDraft f c).1.draft.isSome ∧
          (r.proposals ngramDraft f c).1.stage.canModelDraft f) ∨ ngramDraft := by
    rw [proposals]
    generalize r.beforeProposals f c = ready at hbefore ⊢
    obtain ⟨r₁, _ | error⟩ := ready
    · dsimp only at hbefore ⊢
      split_ifs with hwidth hngram
      · split
        · rename_i hcan
          exact ⟨hbefore, fun _ _ _ => .inl ⟨rfl, hcan⟩⟩
        · exact ⟨hbefore.trans (r₁.stage.ngramProposals_redrafts f _ c), fun _ _ _ => .inr hngram⟩
      · split
        · rename_i hcan
          exact ⟨hbefore, fun _ _ _ => .inl ⟨rfl, hcan⟩⟩
        · refine ⟨hbefore, fun guesses hguesses hsome => ?_⟩
          cases hguesses
          exact absurd rfl hsome
      · refine ⟨hbefore, fun guesses hguesses hsome => ?_⟩
        cases hguesses
        exact absurd rfl hsome
    · exact ⟨hbefore, fun guesses hguesses => by cases hguesses⟩
  rw [roundGuesses]
  generalize r.proposals ngramDraft f c = proposed at hproposals ⊢
  obtain ⟨r₁, error | guesses⟩ := proposed
  · refine ⟨hproposals.1.trans (.change fun s => s.redrafted_draft _ _),
      fun hsome => absurd rfl hsome⟩
  · exact ⟨hproposals.1, hproposals.2 guesses rfl⟩

variable (ngramDraft) in
/-- What a round records touches the deferred inputs at most, and leaves its guesses. -/
lemma recordRound_cases (r : RingHead H) (f : Frame H) (guesses : List Token)
    (hguesses : guesses ≠ [] → (r.draft.isSome ∧ r.stage.canModelDraft f) ∨ ngramDraft) :
    r.stage.Redrafts none f.session (r.recordRound ngramDraft f guesses).1.stage ∧
      (∀ e, (r.recordRound ngramDraft f guesses).2 = some e → e ∈ stepErrors) ∧
      ((r.recordRound ngramDraft f guesses).2 = none →
        (r.recordRound ngramDraft f guesses).1.draft = r.draft ∧
        (r.recordRound ngramDraft f guesses).1.left f.session = guesses) := by
  have hset : ∀ (r : RingHead H) (g : Option Guesses), g.elim [] Guesses.tokens = guesses →
      (r.setGuessed f.session g).left f.session = guesses := by
    intro r g hg
    rw [left, setGuessed]
    simp only [Function.update_self]
    exact hg
  have hdefer : r.stage.Redrafts none f.session (r.defer f).1.stage ∧
      (∀ e, (r.defer f).2 = some e → e ∈ stepErrors) ∧ (r.defer f).1.draft = r.draft := by
    rw [defer]
    split
    · rename_i hrefused
      refine ⟨.refl _ _ _, fun e he => ?_, rfl⟩
      cases he
      exact List.mem_cons_of_mem _ (requireSession_error_mem hrefused)
    · rename_i s _
      dsimp only
      generalize (if s.draft.pending = [] then (⟨[], f.position, f.request⟩ : DraftState)
        else s.draft) = state
      split_ifs
      · refine ⟨.change fun s => s.redrafted_draft _ _, fun e he => ?_, rfl⟩
        cases he
        exact List.mem_cons_self
      · exact ⟨.change fun s => s.redrafted_draft _ _, (by rintro _ ⟨⟩), rfl⟩
  rw [recordRound]
  split_ifs with hdrafts hdefers
  · generalize r.defer f = deferred at hdefer ⊢
    obtain ⟨r₁, _ | error⟩ := deferred
    · exact ⟨hdefer.1, (by rintro _ ⟨⟩), fun _ => ⟨hdefer.2.2, hset r₁ _ rfl⟩⟩
    · exact ⟨hdefer.1, hdefer.2.1, fun h => by cases h⟩
  · exact ⟨.refl _ _ _, (by rintro _ ⟨⟩), fun _ => ⟨rfl, hset r _ rfl⟩⟩
  · refine ⟨.refl _ _ _, (by rintro _ ⟨⟩), fun _ => ⟨rfl, hset r none ?_⟩⟩
    by_contra hsome
    rcases hguesses (Ne.symm hsome) with ⟨hdraft, -⟩ | hngram
    · exact hdrafts (.inl hdraft)
    · exact hdrafts (.inr hngram)

end RingHead

/-! ### A batch of the stage -/

lemma Session.Sound.redrafted {s s' : Session H} (h : s.Sound) (hs' : s.Redrafted none s') :
    s'.Sound := by
  refine ⟨?_, h.sampled.of_samplesAs hs'.samplesAs⟩
  rw [hs'.1]
  rcases hs'.2 with hsame | ⟨p, hp, -⟩
  · rw [hsame]
    exact ⟨rfl, h.holds.kv, h.holds.position⟩
  · cases hp

/-- The session is there, and holds its own. -/
def Stage.SoundAt (st : Stage H) (id : Nat) : Prop := ∃ s, st.sessions.lookup id = some s ∧ s.Sound

lemma Stage.SoundAt.redrafts {st st' : Stage H} {id : Nat} (h : st.SoundAt id)
    (h' : st.Redrafts none id st') :
    st'.SoundAt id := by
  obtain ⟨s, hs, hsound⟩ := h
  obtain ⟨s', hs', hredrafted⟩ := h'.forward hs
  exact ⟨s', hs', hsound.redrafted hredrafted⟩

lemma Session.Decoding.redrafted {m : StageModel H} {request k : Nat} {next : List Token → Token}
    {text : List Token} {s s' : Session H} (h : s.Decoding m request next text k)
    (hs' : s.Redrafted none s') :
    s'.Decoding m request next text k := by
  have hsame : s'.history = s.history := by
    rcases hs'.2 with hsame | ⟨p, hp, -⟩
    · exact hsame
    · cases hp
  have hsampled := h.sampled.of_samplesAs hs'.samplesAs
  have hfollows : s'.Follows m next (text ++ outputs next text (k + 1)) :=
    h.follows.of_sampler hs'.samplesAs.1
  refine ⟨?_, hfollows, hsampled⟩
  rw [hs'.1, hsame]
  exact ⟨⟨rfl, h.streams.holds.kv, h.streams.holds.position⟩, h.streams.text, h.streams.active,
    h.streams.nonzero, h.streams.prompted⟩

section batch

variable {m : StageModel H} {request k : Nat} {next : List Token → Token} {text : List Token}
  {like : Frame H}
  {st : Stage H} {s s' : Session H}

/-- The stage decodes the pending token and the guesses behind it, and answers with what plain
decoding has. -/
lemma handle_batch (hfirst : m.first) (hlast : m.last) (hm : m.GreedyChats) (hst : st.model = m)
    (hzero : like.session ≠ 0) (hlookup : st.sessions.lookup like.session = some s')
    (h : s.Decoding m request next text k) (hs' : s.Redrafted (some (text.length + k)) s')
    (hrequest : like.request = request) (guesses : List Token) (hv : guesses ≠ [] → s.Verifies)
    (ok : Nat → Bool) :
    (∃ e ∈ roundErrors,
      (st.handle (tokenFrame like (text.length + k) (tokenAt next text k :: guesses)) 0 ok).2.2 =
        .error e ∧
      (st.handle
        (tokenFrame like (text.length + k) (tokenAt next text k :: guesses)) 0 ok).1.SoundAt
          like.session) ∨
    ∃ out n t,
      (st.handle (tokenFrame like (text.length + k) (tokenAt next text k :: guesses)) 0 ok).2.2 =
        .ok out ∧
      out.type = .result ∧
      committedTokens guesses out = .ok (outputs next (text ++ outputs next text (k + 1)) (n + 1)) ∧
      (st.handle
        (tokenFrame like (text.length + k) (tokenAt next text k :: guesses)) 0 ok).1.sessions.lookup
          like.session = some t ∧
      t.Decoding m request next text (k + 1 + n) ∧ t.chatRequest = s.chatRequest ∧
      t.chatSpeculative = s.chatSpeculative := by
  subst hst
  have hactive : like.request ≠ 0 := hrequest ▸ h.streams.nonzero
  obtain ⟨hreply, hthere⟩ := Stage.handle_run_of_lookup
    (f := tokenFrame like (text.length + k) (tokenAt next text k :: guesses)) rfl hactive hzero
      hlookup 0 ok
  change (st.handle _ 0 ok).1.sessions.lookup like.session = _ at hthere
  have hchat :
      (s'.execute st.model (tokenFrame like (text.length + k) (tokenAt next text k :: guesses)) 0
      ok).session.chatRequest = s.chatRequest ∧
      (s'.execute st.model (tokenFrame like (text.length + k) (tokenAt next text k :: guesses)) 0
        ok).session.chatSpeculative = s.chatSpeculative := by
    rw [← hs'.samplesAs.2.1, ← hs'.samplesAs.2.2]
    exact ⟨Session.execute_chatRequest, Session.execute_chatSpeculative⟩
  rw [hreply, hthere]
  have herror : ∀ e,
      (s'.execute st.model (tokenFrame like (text.length + k) (tokenAt next text k :: guesses)) 0
      ok).reply = .error e → e ∈ roundErrors := fun e => execute_error_mem hfirst rfl
  rcases eq_or_ne guesses [] with rfl | hguesses
  · rcases h.execute_token hfirst hlast hs' hrequest ok with ⟨e, he, hsound⟩ | ⟨hout, hdecoding⟩
    · exact .inl ⟨e, herror e he, he, _, hthere, hsound⟩
    · exact .inr ⟨_, 0, _, hout, rfl, by rw [Decode.outputs_succ_cons]; rfl, rfl, hdecoding, hchat⟩
  · rcases h.execute_batch hfirst hlast hs' hrequest ok hm (hv hguesses) hguesses with
      ⟨e, he, hsound⟩ | ⟨out, samples, n, hout, htype, hpayload, haccepted, hdecoding⟩
    · exact .inl ⟨e, herror e he, he, _, hthere, hsound⟩
    · refine .inr ⟨out, n, _, hout, htype, ?_, rfl, hdecoding, hchat⟩
      rw [committedTokens, if_pos hguesses, acceptedTokens, htype, hpayload]
      exact congrArg _ haccepted

end batch

/-! ### The step -/

namespace RingHead

/-- A round of this session is one with guesses: the condition in `local_decode`. -/
def Drafts (ngramDraft : Bool) (r : RingHead H) (f : Frame H) : Prop :=
  ((r.draft.isSome ∧ r.stage.canModelDraft f) ∨ ngramDraft) ∧ r.stage.canDraft f

/-- The guesses of an earlier round of this session are there, and its next round will not replace
them. -/
def Stale (ngramDraft : Bool) (r : RingHead H) (f : Frame H) : Prop :=
  r.left f.session ≠ [] ∧ ¬ r.Drafts ngramDraft f

end RingHead

lemma localDecode_fst (ngramDraft : Bool) (r : RingHead H) (token position : Nat) (like : Frame H)
    (c : Chance) :
    (localDecode ngramDraft r token position like c).1 =
      (r.decodeRound ngramDraft (tokenFrame like position [token]) c).1 := by
  rw [localDecode]
  generalize r.decodeRound ngramDraft (tokenFrame like position [token]) c = decoded
  obtain ⟨r₁, error | verified⟩ := decoded
  · rfl
  · rfl

lemma localDecode_local (ngramDraft : Bool) (r : RingHead H) (token position : Nat) (like : Frame H)
    (c : Chance) : r.Local like.session (localDecode ngramDraft r token position like c).1 := by
  rw [localDecode_fst]
  exact RingHead.Local.decodeRound (f := tokenFrame like position [token]) ..

section step

variable {m : StageModel H} {request k : Nat} {next : List Token → Token} {text : List Token}
  {like : Frame H}
  (hfirst : m.first) (hlast : m.last) (hm : m.GreedyChats) (hr : r.stage.model = m)
  (hzero : like.session ≠ 0) (hs : r.stage.sessions.lookup like.session = some s)
  (h : s.Decoding m request next text k) (hrequest : like.request = request)
include hfirst hlast hm hr hzero hs h hrequest

/-- A round with guesses. -/
lemma draftRound_decodes (hdrafts : r.Drafts ngramDraft like) (c : Chance) :
    (∃ e ∈ stepErrors, ∃ r',
      r.draftRound ngramDraft (tokenFrame like (text.length + k) [tokenAt next text k]) c =
        (r', .error e) ∧
      r'.stage.SoundAt like.session) ∨
    ∃ out r' n t,
      r.draftRound ngramDraft (tokenFrame like (text.length + k) [tokenAt next text k]) c =
        (r', .ok out) ∧
      committedTokens (r'.left like.session) out =
        .ok (outputs next (text ++ outputs next text (k + 1)) (n + 1)) ∧
      r'.stage.sessions.lookup like.session = some t ∧ t.Decoding m request next text (k + 1 + n) ∧
      ¬ r'.Stale ngramDraft like := by
  have hrequire : r.stage.requireSession (tokenFrame like (text.length + k) [tokenAt next text k]) =
      .ok s :=
    Stage.requireSession_of_lookup hzero hs
  have hverifies : s.Verifies := by
    have hcan := hdrafts.2
    rw [Stage.canDraft_of_lookup hs] at hcan
    rcases Bool.or_eq_true_iff.mp hcan with hno | hyes
    · exact .inl (by simpa using hno)
    · exact .inr hyes
  obtain ⟨hredrafts, hsource⟩ :=
    RingHead.roundGuesses_cases ngramDraft r
      (tokenFrame like (text.length + k) [tokenAt next text k]) c
  have hlocal := RingHead.Local.roundGuesses ngramDraft r
    (tokenFrame like (text.length + k) [tokenAt next text k]) c
  obtain ⟨s', hs', hredrafted⟩ := hredrafts.forward hs
  have hframe : ∀ guesses, tokenFrame (tokenFrame like (text.length + k) [tokenAt next text k])
      (tokenFrame like (text.length + k) [tokenAt next text k]).position
      (frameToken (tokenFrame like (text.length + k) [tokenAt next text k]) :: guesses) =
        tokenFrame like (text.length + k) (tokenAt next text k :: guesses) := fun _ => rfl
  simp only [RingHead.draftRound, hrequire, hframe]
  generalize r.roundGuesses ngramDraft (tokenFrame like (text.length + k) [tokenAt next text k]) c =
    guessed
    at hsource hlocal hs'
  obtain ⟨r₁, guesses⟩ := guessed
  change r₁.stage.sessions.lookup like.session = some s' at hs'
  have hmodels := Stage.canModelDraft_of_lookup (f := like) hs'
  rw [hredrafted.samplesAs.2.1] at hmodels
  dsimp only at hsource hlocal ⊢
  have hmodel : r₁.stage.model = m := hlocal.model.trans hr
  have hbatch := handle_batch hfirst hlast hm hmodel hzero hs' h hredrafted hrequest guesses
    (fun _ => hverifies) c.ok
  generalize r₁.stage.handle
    (tokenFrame like (text.length + k) (tokenAt next text k :: guesses)) 0 c.ok = handled
    at hbatch ⊢
  obtain ⟨stage, emitted, e | out⟩ := handled
  · rcases hbatch with ⟨e', hmem, he, hsound⟩ | ⟨out, n, t, hout, -⟩
    · cases he
      exact .inl ⟨e, List.mem_cons_of_mem _ hmem, _, rfl, hsound⟩
    · cases hout
  · rcases hbatch with ⟨e', -, he, -⟩ |
      ⟨out', n, t, hout, htype, htokens, hlookup, hdecoding, hchat, hspeculative⟩
    · cases he
    · cases hout
      change stage.sessions.lookup like.session = some t at hlookup
      have hcan : stage.canModelDraft like = r₁.stage.canModelDraft like := by
        rw [hmodels, Stage.canModelDraft_of_lookup hlookup, hchat]
      have hrecord := RingHead.recordRound_cases ngramDraft { r₁ with stage }
        (tokenFrame like (text.length + k) [tokenAt next text k]) guesses
        fun hsome => (hsource hsome).imp_left fun hmodel => ⟨hmodel.1, hcan.trans hmodel.2⟩
      dsimp only
      generalize RingHead.recordRound ngramDraft { r₁ with stage }
        (tokenFrame like (text.length + k) [tokenAt next text k]) guesses = recorded at hrecord ⊢
      obtain ⟨r₂, _ | error⟩ := recorded
      · obtain ⟨hdraft, hleft⟩ := hrecord.2.2 rfl
        obtain ⟨t', ht', hredrafted'⟩ := hrecord.1.forward hlookup
        have hplain : RingHead.withGuesses out guesses = out := by
          rw [RingHead.withGuesses, if_neg (by rw [htype]; decide)]
        change r₂.left like.session = guesses at hleft
        change r₂.stage.sessions.lookup like.session = some t' at ht'
        refine .inr ⟨out, r₂, n, t', by rw [hplain], ?_, ht', hdecoding.redrafted hredrafted', ?_⟩
        · rw [hleft, htokens]
        · rintro ⟨hsome, hno⟩
          rw [hleft] at hsome
          refine hno ⟨?_, ?_⟩
          · refine (hsource hsome).imp_left fun hmodel => ⟨hdraft ▸ hmodel.1, ?_⟩
            rw [Stage.canModelDraft_of_lookup ht', hredrafted'.samplesAs.2.1, hchat, ← hmodels]
            exact hmodel.2
          · rw [Stage.canDraft_of_lookup ht', hredrafted'.samplesAs.2.1, hredrafted'.samplesAs.2.2,
              hchat, hspeculative, ← Stage.canDraft_of_lookup hs]
            exact hdrafts.2
      · have hsound : stage.SoundAt like.session :=
          ⟨t, hlookup, hdecoding.streams.holds, hdecoding.sampled⟩
        exact .inl ⟨error, hrecord.2.1 error rfl, r₂, rfl, hsound.redrafts hrecord.1⟩

variable (like) in
/-- A step without guesses of its own: its one token is committed where none are left over. -/
lemma localDecode_plain (hdrafts : ¬ r.Drafts ngramDraft like) (c : Chance) :
    (∃ e ∈ stepErrors,
      (r.stage.handle (tokenFrame like (text.length + k) [tokenAt next text k]) 0 c.ok).2.2 =
        .error e ∧
      ∃ r', localDecode ngramDraft r (tokenAt next text k) (text.length + k) like c =
        (r', .error e) ∧
        r'.stage.SoundAt like.session) ∨
    ∃ out r' t,
      (r.stage.handle (tokenFrame like (text.length + k) [tokenAt next text k]) 0 c.ok).2.2 =
        .ok out ∧
      localDecode ngramDraft r (tokenAt next text k) (text.length + k) like c =
        (r', .ok (if r.left like.session = []
          then outputs next (text ++ outputs next text (k + 1)) 1 else [])) ∧
      r'.stage.sessions.lookup like.session = some t ∧ t.Decoding m request next text (k + 1) ∧
      r'.draft = r.draft ∧ r'.left like.session = r.left like.session ∧
      ¬ r'.Drafts ngramDraft like := by
  have hround :
      r.decodeRound ngramDraft (tokenFrame like (text.length + k) [tokenAt next text k]) c =
      ({ r with
          stage :=
            (r.stage.handle (tokenFrame like (text.length + k) [tokenAt next text k]) 0 c.ok).1 },
        (r.stage.handle (tokenFrame like (text.length + k) [tokenAt next text k]) 0 c.ok).2.2) :=
    if_neg hdrafts
  rw [localDecode, hround]
  have hbatch := handle_batch hfirst hlast hm hr hzero hs h ⟨rfl, .inl rfl⟩ hrequest []
    (fun hsome => absurd rfl hsome) c.ok
  generalize r.stage.handle (tokenFrame like (text.length + k) [tokenAt next text k]) 0 c.ok =
    handled
    at hbatch ⊢
  obtain ⟨stage, emitted, e | out⟩ := handled
  · rcases hbatch with ⟨e', hmem, he, hsound⟩ | ⟨out, n, t, hout, -⟩
    · cases he
      exact .inl ⟨e, List.mem_cons_of_mem _ hmem, rfl, _, rfl, hsound⟩
    · cases hout
  · rcases hbatch with ⟨e', -, he, -⟩ |
      ⟨out', n, t, hout, htype, htokens, hlookup, hdecoding, hchat, hspeculative⟩
    · cases he
    cases hout
    change stage.sessions.lookup like.session = some t at hlookup
    -- the reply to a single token has one token
    obtain ⟨token, eog, piece, hpayload⟩ : ∃ token eog piece, out.payload =
        .sampled token eog piece := by
      rw [committedTokens, if_neg (fun hne => hne rfl), htype] at htokens
      cases hpayload : out.payload with
      | sampled token eog piece => exact ⟨token, eog, piece, rfl⟩
      | _ =>
        rw [hpayload] at htokens
        cases htokens
    obtain rfl : n = 0 := by
      rw [committedTokens, if_neg (fun hne => hne rfl), htype, hpayload] at htokens
      have hlength := congrArg List.length (Except.ok.inj htokens)
      rw [Decode.length_outputs] at hlength
      exact (Nat.succ_inj.mp hlength).symm
    refine .inr ⟨out, { r with stage }, t, rfl, ?_, hlookup, hdecoding, rfl, rfl, ?_⟩
    · have hleft : RingHead.left { r with stage } like.session = r.left like.session := rfl
      dsimp only
      rw [hleft]
      split_ifs with hnone
      · rw [hnone, htokens]
      · rw [committedTokens, if_pos hnone, acceptedTokens, htype, hpayload]
    · intro hdrafts'
      apply hdrafts
      rw [RingHead.Drafts, Stage.canModelDraft_of_lookup hlookup, Stage.canDraft_of_lookup hlookup,
        hchat, hspeculative] at hdrafts'
      rw [RingHead.Drafts, Stage.canModelDraft_of_lookup hs, Stage.canDraft_of_lookup hs]
      exact hdrafts'

variable (like) in
/-- A step is refused, or it commits tokens of plain decoding. -/
lemma localDecode_fresh (hfresh : ¬ r.Stale ngramDraft like) (c : Chance) :
    (∃ e ∈ stepErrors, ∃ r',
      localDecode ngramDraft r (tokenAt next text k) (text.length + k) like c = (r', .error e) ∧
      r'.stage.SoundAt like.session) ∨
    ∃ r' n t, localDecode ngramDraft r (tokenAt next text k) (text.length + k) like c =
        (r', .ok (outputs next (text ++ outputs next text (k + 1)) (n + 1))) ∧
      r'.stage.sessions.lookup like.session = some t ∧ t.Decoding m request next text (k + 1 + n) ∧
      ¬ r'.Stale ngramDraft like := by
  by_cases hdrafts : r.Drafts ngramDraft like
  · have hround :
        r.decodeRound ngramDraft (tokenFrame like (text.length + k) [tokenAt next text k]) c =
        r.draftRound ngramDraft (tokenFrame like (text.length + k) [tokenAt next text k]) c :=
          if_pos hdrafts
    rw [localDecode, hround]
    rcases draftRound_decodes hfirst hlast hm hr hzero hs h hrequest hdrafts c with
      ⟨e, hmem, r', heq, hsound⟩ | ⟨out, r', n, t, heq, htokens, hlookup, hdecoding, hfresh'⟩
    · rw [heq]
      exact .inl ⟨e, hmem, r', rfl, hsound⟩
    · rw [heq]
      exact .inr ⟨r', n, t, by rw [← htokens], hlookup, hdecoding, hfresh'⟩
  · have hnone : r.left like.session = [] := by
      by_contra hsome
      exact hfresh ⟨hsome, hdrafts⟩
    rcases localDecode_plain like hfirst hlast hm hr hzero hs h hrequest hdrafts c with
      ⟨e, hmem, -, r', heq, hsound⟩ | ⟨out, r', t, -, heq, hlookup, hdecoding, -, hleft, -⟩
    · exact .inl ⟨e, hmem, r', heq, hsound⟩
    · rw [if_pos hnone] at heq
      exact .inr ⟨r', 0, t, heq, hlookup, hdecoding, fun hstale => hstale.1 (hleft.trans hnone)⟩

end step

end ProviderOwned
