import ProviderOwned.Stage.LoopStreams

/-!
# A client in loop mode

From any state that a worker comes to: the answer to a prompt that streams is the stream of plain
decoding (`prompt_streamed`), and the one way in which it breaks off although no step is refused is
that guesses of an earlier request are left over (`no_token_iff`).
-/

namespace ProviderOwned

open Session (tokenAt)

variable {H : Type*} {m : StageModel H} {f : Frame H} {chunk : Nat} {ok : Nat → Bool}

/-! ### The sessions of a whole model -/

namespace Session

variable {s t : Session H}

/-- What the session holds once a frame is decoded. -/
def textAfter (m : StageModel H) (s : Session H) (f : Frame H) : List Token :=
  s.history.take f.position ++ brought m s f

def nextAfter (m : StageModel H) (s : Session H) (f : Frame H) : List Token → Token :=
  s.decodes m (s.textAfter m f)

/-! ### Replies to control frames -/

lemma reset_not_result (s : Session H) {out : Frame H} (h : (s.reset f).reply = .ok out) :
    out.type ≠ .result := by
  rw [reset] at h
  split_ifs at h <;> cases h
  rintro ⟨⟩

lemma destroy_not_result (s : Session H) {out : Frame H} (h : (s.destroy f).reply = .ok out) :
    out.type ≠ .result := by
  rw [Session.destroy] at h
  split_ifs at h <;> cases h
  rintro ⟨⟩

lemma endRequest_not_result (s : Session H) {out : Frame H} (h : (s.endRequest f).reply = .ok out) :
    out.type ≠ .result := by
  rw [endRequest] at h
  split_ifs at h <;> cases h
  rintro ⟨⟩

lemma rollback_not_result (s : Session H) {out : Frame H} (h : (s.rollback m f).reply = .ok out) :
    out.type ≠ .result := by
  rw [rollback] at h
  split_ifs at h <;> cases h
  rintro ⟨⟩

/-! ### Sound sessions -/

lemma Sound.cleared (s : Session H) : s.cleared.Sound := by
  refine ⟨⟨rfl, rfl, rfl⟩, rfl, fun sampler h => ?_⟩
  cases h

lemma Sound.truncate (h : s.Sound) (hfirst : m.first) {p : Nat} (hp : p ≤ s.position) :
    (s.truncate m p).Sound :=
  ⟨(h.holds.truncate hfirst (hp.trans h.holds.position.le)).self, h.sampled.chat,
    h.sampled.speculative⟩

lemma Sound.withChat (h : s.Sound) (hfirst : m.first) (hlast : m.last) (sampling : Sampling)
    (tokens : List Token) {reuse : Nat} (hreuse : reuse ≤ s.position) :
    (s.withChat m sampling tokens reuse).Sound := by
  have hsampler : (s.withChat m sampling tokens reuse).chatSampler = some ⟨sampling, tokens⟩ :=
    if_pos hlast
  have hback := (h.truncate hfirst hreuse).holds
  refine ⟨⟨rfl, hback.kv, hback.position⟩, ?_, fun sampler hsome => ?_⟩
  · rw [hsampler]
    rfl
  · rw [hsampler] at hsome
    cases hsome
    rfl

end Session

namespace Stage

variable {st : Stage H}

/-- Every session of the stage holds its own. -/
def Sound (st : Stage H) : Prop := ∀ id s, st.sessions.lookup id = some s → s.Sound

lemma Sound.of_self {st' : Stage H} (h : st.Sound) {id : Nat}
    (hother : ∀ i ≠ id, st'.sessions.lookup i = st.sessions.lookup i)
    (hid : ∀ s, st'.sessions.lookup id = some s → s.Sound) : st'.Sound := by
  intro i s hs
  by_cases hi : i = id
  · exact hid s (hi ▸ hs)
  · exact h i s ((hother i hi).symm.trans hs)

/-- A frame that is answered or refused. -/
lemma Sound.handle (h : st.Sound) (hfirst : st.model.first) (hlast : st.model.last) (f : Frame H)
    (chunk : Nat) (ok : Nat → Bool) : (st.handle f chunk ok).1.Sound := by
  refine h.of_self (fun i hi => st.lookup_handle_of_ne f chunk ok hi) fun s hs => ?_
  cases hreply : (st.handle f chunk ok).2.2 with
  | error e =>
    by_cases hruns : f.type.runs
    · rcases handle_run_error hruns hreply with hsame | ⟨t, ht, -, hrun⟩
      · exact h _ s (hsame.symm.trans hs)
      · cases hrun.symm.trans hs
        exact (h _ t ht).execute hfirst hlast chunk ok
    · exact h _ s ((lookup_handle_of_refused hruns hreply).symm.trans hs)
  | ok out =>
    by_cases hprepare : f.type = .prepareChat
    · simp only [Stage.handle, hprepare] at hreply hs
      obtain ⟨-, t, ht, hanswer, hlookup⟩ := onSession_answered hreply
      obtain ⟨-, prompt, sampling, -, -, hreuse, -, hsession, -⟩ :=
        Session.prepareChat_prepared hanswer
      cases hlookup.symm.trans hs
      rw [hsession]
      exact (h _ t ht).withChat hfirst hlast sampling _ hreuse
    · have hanswered := handle_answered hreply
      rw [hs] at hanswered
      generalize hbefore : st.sessions.lookup f.session = before at hanswered
      cases hanswered with
      | create htype sequence => exact ⟨⟨rfl, rfl, rfl⟩, rfl, fun sampler hnone => by cases hnone⟩
      | reset htype hidle => exact .cleared _
      | endRequest htype hzero hrequest hactive =>
        have ht := h _ _ hbefore
        exact ⟨⟨rfl, ht.holds.kv, ht.holds.position⟩, ht.sampled.chat, ht.sampled.speculative⟩
      | rollback htype hzero hrequest hactive hposition =>
          exact (h _ _ hbefore).truncate hfirst hposition
      | prepareChat htype hidle hchat => exact absurd htype hprepare
      | run hruns hzero hrun => exact (h _ _ hbefore).execute hfirst hlast chunk ok
      | other htype => exact h _ s hbefore

/-- A control frame is not answered with a token. -/
lemma control_not_result (hruns : ¬ f.type.runs) {out : Frame H}
    (hout : (st.handle f chunk ok).2.2 = .ok out) :
    out.type ≠ .result := by
  rw [Stage.handle] at hout
  cases htype : f.type <;> rw [htype] at hruns <;> simp only [htype] at hout
  case createSession =>
    rw [create] at hout
    split_ifs at hout
    cases hout
    rintro ⟨⟩
  case prepareChat =>
    obtain ⟨-, s, -, hreply, -⟩ := onSession_answered hout
    obtain ⟨-, prompt, sampling, -, -, -, -, -, rfl⟩ := Session.prepareChat_prepared hreply
    rintro ⟨⟩
  case resetSession =>
    split_ifs at hout
    obtain ⟨-, s, -, hreply, -⟩ := onSession_answered hout
    exact s.reset_not_result hreply
  case destroySession =>
    split_ifs at hout
    rw [destroy] at hout
    cases hrequire : st.requireSession f with
    | error e =>
      rw [hrequire] at hout
      cases hout
    | ok s =>
      rw [hrequire] at hout
      dsimp only at hout
      cases hreply : (s.destroy f).reply with
      | error e =>
        rw [hreply] at hout
        cases hout
      | ok out' =>
        rw [hreply] at hout
        cases hout
        exact s.destroy_not_result hreply
  case endRequest =>
    split_ifs at hout
    obtain ⟨-, s, -, hreply, -⟩ := onSession_answered hout
    exact s.endRequest_not_result hreply
  case rollback =>
    obtain ⟨-, s, -, hreply, -⟩ := onSession_answered hout
    exact s.rollback_not_result hreply
  case metrics =>
    rw [metrics] at hout
    split_ifs at hout
    cases hout
    rintro ⟨⟩
  case shutdown =>
    rw [shutdown] at hout
    split_ifs at hout
    cases hout
    rintro ⟨⟩
  all_goals first | cases hout | exact absurd rfl hruns

/-- Of the frames on the control connection only a prompt is answered with a token. -/
lemma prompt_of_result (hfirst : st.model.first) (hlast : st.model.last) (htoken : f.type ≠ .token)
    {out : Frame H} (hout : (st.handle f chunk ok).2.2 = .ok out) (hresult : out.type = .result) :
    f.type = .prompt := by
  by_cases hruns : f.type.runs
  · obtain ⟨-, s, -, hreply, -⟩ := handle_run_ok hruns hout
    rw [Session.execute] at hreply
    cases henter : s.enter st.model f with
    | error e =>
      rw [henter] at hreply
      cases hreply
    | ok t =>
      simp only [henter, if_pos hfirst] at hreply
      obtain ⟨t', -, -, ⟨e, heq⟩ | ⟨-, hkind, tokens, -, heq⟩⟩ := t.runFirst_whole hlast f chunk ok
      · rw [heq] at hreply
        cases hreply
      · rcases hkind with hprompt | htoken' | hcommit
        · exact hprompt
        · exact absurd htoken' htoken
        · rw [heq, Session.finalBatch, if_neg (by decide), if_pos hlast, if_pos hcommit] at hreply
          cases hreply
          cases hresult
  · exact absurd hresult (control_not_result hruns hout)

end Stage

namespace RingHead

variable {r : RingHead H} {c : Chance}

lemma mirror_redrafts (cut : Option Nat) (r : RingHead H) (f : Frame H) (c : Chance) :
    r.stage.Redrafts cut f.session (r.mirror f c).1.stage := by
  have hready : r.stage.Redrafts cut f.session (r.readyDraft f c).1.stage := by
    have hcaught :
        (if settles f.type ∧ f.type ≠ .endRequest then r.catchUpDraft f c else (r, none)).1.stage =
        r.stage := by
      split_ifs
      · exact catchUpDraft_stage r f c
      · rfl
    rw [readyDraft]
    generalize (if settles f.type ∧ f.type ≠ .endRequest then r.catchUpDraft f c else (r, none)) =
      caught
      at hcaught ⊢
    obtain ⟨r₁, _ | error⟩ := caught
    · dsimp only at hcaught ⊢
      have hflushed : r.stage.Redrafts cut f.session
          (if settles f.type then r₁.flushDraft f c else (r₁, none)).1.stage := by
        rw [← hcaught]
        split_ifs
        · exact flushDraft_redrafts cut r₁ f c
        · exact .refl _ _ _
      generalize (if settles f.type then r₁.flushDraft f c else (r₁, none)) = flushed at hflushed ⊢
      obtain ⟨r₂, _ | error⟩ := flushed
      · dsimp only at hflushed ⊢
        split_ifs
        · exact hflushed
        · exact hflushed
      · exact hflushed
    · exact hcaught ▸ .refl _ _ _
  rw [mirror]
  generalize r.readyDraft f c = ready at hready ⊢
  obtain ⟨r₁, _ | error⟩ := ready
  · dsimp only at hready ⊢
    cases r₁.draft with
    | none => exact hready
    | some draft => exact hready
  · exact hready

/-- What follows the answer to a control frame touches the deferred inputs at most. -/
lemma followControl_redrafts (cut : Option Nat) (r : RingHead H) (f : Frame H) (c : Chance) :
    r.stage.Redrafts cut f.session (r.followControl f c).stage := by
  have hmirror := mirror_redrafts cut r f c
  rw [followControl]
  generalize r.mirror f c = mirrored at hmirror ⊢
  obtain ⟨r₁, _ | error⟩ := mirrored
  all_goals
    split_ifs
    all_goals first | exact hmirror | exact .refl _ _ _

/-- A control frame that is answered: what the stage made of it, and then the draft. -/
lemma serveControl_ok {out : Frame H} (hout : (r.stage.handle f chunk c.ok).2.2 = .ok out) :
    (r.serveControl f chunk c).2 = .ok out ∧
      (r.stage.handle f chunk c.ok).1.Redrafts none f.session (r.serveControl f chunk c).1.stage ∧
      RingHead.Local f.session { r with stage := (r.stage.handle f chunk c.ok).1 }
        (r.serveControl f chunk c).1 := by
  rw [serveControl]
  generalize r.stage.handle f chunk c.ok = handled at hout ⊢
  obtain ⟨stage, emitted, e | out'⟩ := handled
  · cases hout
  · cases hout
    dsimp only
    refine ⟨rfl, ?_, ?_⟩
    · split_ifs
      · exact followControl_redrafts none ({ r with stage }.setGuessed f.session none) f c
      · exact followControl_redrafts none { r with stage } f c
    · split_ifs
      · exact (Local.setGuessed f.session { r with stage } none).trans (Local.followControl ..)
      · exact Local.followControl ..

lemma serveControl_error {e : String} (he : (r.stage.handle f chunk c.ok).2.2 = .error e) :
    r.serveControl f chunk c = ({ r with stage := (r.stage.handle f chunk c.ok).1 }, .error e) := by
  rw [serveControl]
  generalize r.stage.handle f chunk c.ok = handled at he ⊢
  obtain ⟨stage, emitted, e' | out'⟩ := handled
  · cases he
    rfl
  · cases he

lemma serveControl_sound (h : r.stage.Sound) (hfirst : r.stage.model.first)
    (hlast : r.stage.model.last)
    (f : Frame H) (chunk : Nat) (c : Chance) : (r.serveControl f chunk c).1.stage.Sound := by
  have hhandled := h.handle hfirst hlast f chunk c.ok
  cases hreply : (r.stage.handle f chunk c.ok).2.2 with
  | error e =>
    rw [serveControl_error hreply]
    exact hhandled
  | ok out =>
    obtain ⟨-, hredrafts, hlocal⟩ := serveControl_ok hreply
    refine hhandled.of_self hlocal.stage fun s hs => ?_
    obtain ⟨s', hs', hredrafted⟩ := hredrafts.backward hs
    exact (hhandled _ s' hs').redrafted hredrafted

/-! ### Guesses that are left over -/

/-- Guesses of an earlier request are left over in the session of a prompt: no draft will take them
up, and no round will replace them. -/
def Leftover (ngramDraft : Bool) (r : RingHead H) (f : Frame H) : Prop :=
  r.draft = none ∧ r.left f.session ≠ [] ∧ ¬ (ngramDraft = true ∧ r.stage.canDraft f = true)

variable {ngramDraft : Bool}

lemma stale_iff (hdraft : r.draft = none) : r.Stale ngramDraft f ↔ r.Leftover ngramDraft f := by
  rw [Stale, Leftover, Drafts, hdraft]
  simp

lemma left_of_guessed (h : r.guessed f.session = none) : r.left f.session = [] := by
  rw [left, h]
  rfl

lemma readyDraft_guessed (hsettles : settles f.type = true) (hend : f.type ≠ .endRequest) :
    (r.readyDraft f c).1.guessed f.session = none := by
  have hcaught := catchUpDraft_guessed r f c
  rw [readyDraft, if_pos ⟨hsettles, hend⟩]
  generalize r.catchUpDraft f c = caught at hcaught ⊢
  obtain ⟨r₁, _ | error⟩ := caught
  · have hflushed := flushDraft_guessed r₁ f c
    dsimp only at hcaught ⊢
    rw [if_pos hsettles]
    generalize r₁.flushDraft f c = flushed at hflushed ⊢
    obtain ⟨r₂, _ | error⟩ := flushed
    · dsimp only at hflushed ⊢
      split_ifs
      · exact Function.update_self ..
      · rw [hflushed]
        exact hcaught
    · exact (congrFun hflushed _).trans hcaught
  · exact hcaught

/-- With a draft, a prompt leaves no guesses. -/
lemma followControl_guessed (hprompt : f.type = .prompt) (hdraft : r.draft.isSome) :
    (r.followControl f c).guessed f.session = none := by
  have hready : (r.readyDraft f c).1.guessed f.session = none :=
    readyDraft_guessed (by rw [hprompt]; rfl) (by rw [hprompt]; decide)
  have hmirrored : (r.mirror f c).1.guessed f.session = none := by
    rw [mirror]
    generalize r.readyDraft f c = ready at hready ⊢
    obtain ⟨r₁, _ | error⟩ := ready
    · dsimp only
      cases r₁.draft with
      | none => exact hready
      | some draft => exact hready
    · exact hready
  have hmirrors : r.draft.isSome ∧ mirrored f.type = true := ⟨hdraft, by rw [hprompt]; rfl⟩
  rw [followControl, if_pos hmirrors]
  generalize r.mirror f c = followed at hmirrored ⊢
  obtain ⟨r₁, _ | error⟩ := followed
  all_goals
    dsimp only
    split_ifs
    all_goals first | exact Function.update_self .. | exact hmirrored

/-- Once a prompt is answered, its rounds run into the guesses that were left over before it. -/
lemma serveControl_stale (ngramDraft : Bool) (hprompt : f.type = .prompt) {out : Frame H}
    (hout : (r.stage.handle f chunk c.ok).2.2 = .ok out) :
    ((r.serveControl f chunk c).1.Stale ngramDraft f ↔ r.Leftover ngramDraft f) ∧
      (r.Leftover ngramDraft f → (r.serveControl f chunk c).1 =
        { r with stage := (r.stage.handle f chunk c.ok).1 }) := by
  have hruns : f.type.runs := by rw [hprompt]; rfl
  obtain ⟨-, s, hs, -, hlookup⟩ := Stage.handle_run_ok hruns hout
  have hcan : (r.stage.handle f chunk c.ok).1.canDraft f = r.stage.canDraft f := by
    rw [Stage.canDraft_of_lookup hlookup, Stage.canDraft_of_lookup hs, Session.execute_chatRequest,
      Session.execute_chatSpeculative]
  have hserved : (r.serveControl f chunk c).1 =
      followControl { r with stage := (r.stage.handle f chunk c.ok).1 } f c := by
    rw [serveControl]
    generalize r.stage.handle f chunk c.ok = handled at hout ⊢
    obtain ⟨stage, emitted, e | out'⟩ := handled
    · cases hout
    · dsimp only
      rw [if_neg (by rw [hprompt]; decide)]
  rw [hserved]
  by_cases hdraft : r.draft.isSome
  · have hnone : ¬ r.Leftover ngramDraft f := by
      rintro ⟨hno, -⟩
      rw [hno] at hdraft
      cases hdraft
    refine ⟨iff_of_false ?_ hnone, fun h => absurd h hnone⟩
    rintro ⟨hleft, -⟩
    exact hleft (left_of_guessed (followControl_guessed hprompt hdraft))
  · have hsame : followControl { r with stage := (r.stage.handle f chunk c.ok).1 } f c =
        { r with stage := (r.stage.handle f chunk c.ok).1 } := by
      rw [followControl, if_neg (fun h => hdraft h.1), if_neg (fun h => hdraft h.1)]
    rw [hsame]
    refine ⟨?_, fun _ => rfl⟩
    rw [stale_iff (by simpa using hdraft), Leftover, Leftover, hcan]
    rfl

end RingHead

/-! ### The states that a worker comes to -/

namespace LoopWorker

variable {w : LoopWorker H} {md : Option (StageModel H)} {ngramDraft : Bool} {c : Chance}

lemma Sound.disconnected (h : w.Sound m) : w.disconnected.Sound m :=
  ⟨h.model, nofun, LoopState.positive_clear⟩

lemma Sound.replied (h : w.Sound m) (reply : Frame H) (sent : Bool) :
    (w.replied reply sent).worker.Sound m := by
  rw [LoopWorker.replied]
  dsimp only
  split_ifs
  · exact h
  · exact h.disconnected

lemma Sound.answered (h : w.Sound m) (f reply : Frame H) (sent : Bool) :
    (w.answered f reply sent).worker.Sound m := by
  have hring : (if sent then w else w.disconnected).Sound m := by
    split_ifs
    · exact h
    · exact h.disconnected
  rw [LoopWorker.answered]
  split
  all_goals exact hring

lemma Sound.settled {run : LoopRun H} (h : run.worker.Sound m) : (settled run).worker.Sound m := by
  rw [LoopWorker.settled]
  split_ifs
  · exact h
  · exact h.disconnected

/-! ### A frame for the stage -/

lemma Sound.serveControl (h : w.Sound m) (hfirst : m.first) (hlast : m.last) (f : Frame H)
    (chunk : Nat) (c : Chance) {l : LoopState} (hl : l.Positive) :
    Sound m ⟨(w.ring.serveControl f chunk c).1, l⟩ := by
  have hmodel := h.model
  subst hmodel
  exact ⟨(RingHead.Local.serveControl w.ring f chunk c).model,
    RingHead.serveControl_sound h.sessions hfirst hlast f chunk c, hl⟩

lemma serveStage_error {e : String} (he : (w.ring.stage.handle f chunk c.ok).2.2 = .error e)
    (sent : Bool) (turn : Nat → LoopTurn H) :
    w.serveStage ngramDraft f chunk c sent turn =
      if f.session = 0 then
        settled { answered ⟨(w.ring.serveControl f chunk c).1, w.loop.finish f⟩ f
          (errorFrame f e) sent with
          held := false }
      else answered ⟨(w.ring.serveControl f chunk c).1, w.loop.finish f⟩ f
          (errorFrame f e) sent := by
  rw [serveStage, RingHead.serveControl_error he]

lemma serveStage_answered {out : Frame H} (hout : (w.ring.stage.handle f chunk c.ok).2.2 = .ok out)
    (hother : out.type = .result → w.loop.find out = none) (sent : Bool) (turn : Nat → LoopTurn H) :
    w.serveStage ngramDraft f chunk c sent turn =
      answered ⟨(w.ring.serveControl f chunk c).1, w.loop⟩ f out sent := by
  have hserved := (RingHead.serveControl_ok hout).1
  rw [serveStage]
  generalize w.ring.serveControl f chunk c = served at hserved ⊢
  obtain ⟨ring, reply⟩ := served
  cases hserved
  have hnone : (if out.type = .result then w.loop.find out else none) = none := by
    split_ifs with hresult
    · exact hother hresult
    · rfl
  dsimp only
  rw [hnone]

lemma serveStage_streams {out : Frame H} (hout : (w.ring.stage.handle f chunk c.ok).2.2 = .ok out)
    (hresult : out.type = .result) {e : LoopStream} (hfind : w.loop.find out = some e) (sent : Bool)
    (turn : Nat → LoopTurn H) :
    w.serveStage ngramDraft f chunk c sent turn =
      settled
        (continueLoop ngramDraft turn e.remaining 0 ⟨(w.ring.serveControl f chunk c).1, w.loop⟩
          [out]) := by
  have hserved := (RingHead.serveControl_ok hout).1
  rw [serveStage]
  generalize w.ring.serveControl f chunk c = served at hserved ⊢
  obtain ⟨ring, reply⟩ := served
  cases hserved
  dsimp only
  rw [if_pos hresult, hfind]

/-- A prompt is answered with the first token of plain decoding, and its session decodes from there
on. -/
lemma Sound.prompt_answered (h : w.Sound m) (hfirst : m.first) (hlast : m.last)
    (hprompt : f.type = .prompt)
    {out : Frame H} (hout : (w.ring.stage.handle f chunk c.ok).2.2 = .ok out) {s : Session H}
    (hs : w.ring.stage.sessions.lookup f.session = some s) :
    f.session ≠ 0 ∧ out = frameAt m f (s.nextAfter m f) (s.textAfter m f) 0 ∧
      (∃ t, (w.ring.stage.handle f chunk c.ok).1.sessions.lookup f.session = some t ∧
        t.Decoding m f.request (s.nextAfter m f) (s.textAfter m f) 0) ∧
      ∃ t, (w.ring.serveControl f chunk c).1.stage.sessions.lookup f.session = some t ∧
        t.Decoding m f.request (s.nextAfter m f) (s.textAfter m f) 0 := by
  have hmodel := h.model
  subst hmodel
  obtain ⟨hzero, s', hs', hreply, hlookup⟩ := Stage.handle_run_ok (by rw [hprompt]; rfl) hout
  cases hs.symm.trans hs'
  obtain ⟨hfirstToken, hdecoding⟩ := (h.sessions _ s hs).execute_prompt hfirst hlast hprompt hreply
    (Eq.refl (s.textAfter w.ring.stage.model f))
  obtain ⟨t, ht, hredrafted⟩ := (RingHead.serveControl_ok hout).2.1.forward hlookup
  exact ⟨hzero, hfirstToken, ⟨_, hlookup, hdecoding⟩, t, ht, hdecoding.redrafted hredrafted⟩

lemma Sound.entry (h : w.Sound m) {e : LoopStream} (he : w.loop f.session = some e)
    (hrequest : e.request = f.request) (turn : Nat → LoopTurn H) : Entry f e turn 0 w.loop := by
  refine ⟨h.loop _ e he, e.cancelled, ?_, ?_⟩
  · rw [he, Nat.sub_zero, ← hrequest]
  · simp

lemma settled_streamed (run : LoopRun H) : (settled run).streamed = run.streamed := by
  rw [settled]
  split_ifs
  · rfl
  · rfl

lemma settled_held (run : LoopRun H) : (settled run).held = run.held := by
  rw [settled]
  split_ifs
  · rfl
  · rfl

lemma settled_loop {run : LoopRun H} {id : Nat} (h : run.worker.loop id = none) :
    (settled run).worker.loop id = none := by
  rw [settled]
  split_ifs
  · exact h
  · rfl

lemma streamed_settled {next : List Token → Token} {text : List Token} {e : LoopStream}
    {turn : Nat → LoopTurn H} {n : Nat} {run : LoopRun H}
    (h : Streamed m f next text e turn n run) :
    Streamed m f next text e turn n (settled run) := by
  cases h with
  | ended hk hends hgoes hstreamed hheld hentry =>
    exact .ended hk hends hgoes ((settled_streamed run).trans hstreamed)
      ((settled_held run).trans hheld)
      (settled_loop hentry)
  | failed hk herror hgoes hstreamed hheld hentry =>
    exact .failed hk herror hgoes ((settled_streamed run).trans hstreamed)
      ((settled_held run).trans hheld)
      (settled_loop hentry)
  | lost hk hlost hgoes hstreamed hheld =>
    exact .lost hk hlost hgoes ((settled_streamed run).trans hstreamed)
      ((settled_held run).trans hheld)

section streams

variable (h : w.Sound m) (hfirst : m.first) (hlast : m.last) (hm : m.GreedyChats)
  (hprompt : f.type = .prompt)
  {out : Frame H} (hout : (w.ring.stage.handle f chunk c.ok).2.2 = .ok out) {s : Session H}
  (hs : w.ring.stage.sessions.lookup f.session = some s) {e : LoopStream}
    (he : w.loop f.session = some e)
  (hrequest : e.request = f.request) (sent : Bool) (turn : Nat → LoopTurn H)
include h hfirst hlast hm hprompt hout hs he hrequest

/-- A prompt that streams, where no guesses are left over. -/
lemma Sound.stream_fresh (hfresh : ¬ w.ring.Leftover ngramDraft f) :
    (w.serveStage ngramDraft f chunk c sent turn).worker.Sound m ∧
      Streamed m f (s.nextAfter m f) (s.textAfter m f) e turn 0
        (w.serveStage ngramDraft f chunk c sent turn) := by
  obtain ⟨hzero, rfl, -, t, ht, hdecoding⟩ := h.prompt_answered hfirst hlast hprompt hout hs
  rw [serveStage_streams hout rfl (LoopState.find_eq_some.mpr ⟨he, hrequest⟩)]
  have hring := h.serveControl hfirst hlast f chunk c h.loop
  have hstale : ¬ (w.ring.serveControl f chunk c).1.Stale ngramDraft f :=
    fun hstale => hfresh ((RingHead.serveControl_stale ngramDraft hprompt hout).1.mp hstale)
  obtain ⟨hsound, hstreamed⟩ :=
    continueLoop_streamed (p := 0) hfirst hlast hm hzero e.remaining 0 hring ht
    hdecoding hstale (h.entry he hrequest turn) (Nat.le_refl _)
  exact ⟨hsound.settled, streamed_settled hstreamed⟩

/-- A prompt that streams, where guesses are left over. -/
lemma Sound.stream_leftover (hleft : w.ring.Leftover ngramDraft f) :
    (w.serveStage ngramDraft f chunk c sent turn).worker.Sound m ∧
      (Streamed m f (s.nextAfter m f) (s.textAfter m f) e turn 0
          (w.serveStage ngramDraft f chunk c sent turn) ∧
        (Ends m f (s.nextAfter m f) (s.textAfter m f) e turn 0 ∨ ¬ (turn 0).Reaches ∨
          ∃ error, ((w.ring.stage.handle f chunk c.ok).1.handle
            (tokenFrame f (s.textAfter m f).length
            [tokenAt (s.nextAfter m f) (s.textAfter m f) 0]) 0 (turn 0).chance.ok).2.2 =
              .error error) ∨
        ¬ Ends m f (s.nextAfter m f) (s.textAfter m f) e turn 0 ∧ (turn 0).Reaches ∧
          (∃ out, ((w.ring.stage.handle f chunk c.ok).1.handle
            (tokenFrame f (s.textAfter m f).length
            [tokenAt (s.nextAfter m f) (s.textAfter m f) 0]) 0 (turn 0).chance.ok).2.2 = .ok out) ∧
          (w.serveStage ngramDraft f chunk c sent turn).streamed =
            chunks m f (s.nextAfter m f) (s.textAfter m f) 0 1 ++
              (if (turn 0).reported then [errorFrame f "decode produced no token"] else []) ∧
          ((turn 0).reported = true → (w.serveStage ngramDraft f chunk c sent turn).held = true ∧
            (w.serveStage ngramDraft f chunk c sent turn).worker.loop f.session = none ∧
            (w.serveStage ngramDraft f chunk c sent turn).worker.ring.Leftover ngramDraft f ∧
            (w.serveStage ngramDraft f chunk c sent turn).worker.ring.left f.session =
              w.ring.left f.session)) := by
  obtain ⟨hzero, rfl, -, t, ht, hdecoding⟩ := h.prompt_answered hfirst hlast hprompt hout hs
  have hring := h.serveControl hfirst hlast f chunk c h.loop
  obtain ⟨hstale, hsame⟩ := RingHead.serveControl_stale ngramDraft hprompt hout
  obtain ⟨fuel, hfuel⟩ := Nat.exists_eq_succ_of_ne_zero (h.loop _ e he).ne'
  have hserved : w.serveStage ngramDraft f chunk c sent turn = _ :=
    serveStage_streams hout rfl (LoopState.find_eq_some.mpr ⟨he, hrequest⟩) sent turn
  rw [hfuel] at hserved
  obtain ⟨hsound, hruns⟩ :=
    continueLoop_stale hfirst hlast hm hzero fuel hring ht hdecoding (hstale.mpr hleft)
    (h.entry he hrequest turn)
  rw [hsame hleft] at hserved hsound hruns
  rw [hserved]
  refine ⟨hsound.settled, ?_⟩
  rcases hruns with ⟨hstreamed, hwhy⟩ |
    ⟨hgoes, hreaches, hstep, hstreamed, hheld, hentry, hdraft, hsameLeft, hstale'⟩
  · exact .inl ⟨streamed_settled hstreamed, hwhy⟩
  · refine .inr ⟨hgoes, hreaches, hstep, (settled_streamed _).trans hstreamed, fun hreported => ?_⟩
    rw [hreported] at hheld
    refine ⟨(settled_held _).trans hheld, settled_loop hentry, ?_⟩
    rw [LoopWorker.settled, if_pos hheld]
    exact ⟨(RingHead.stale_iff (hdraft.trans hleft.1)).mp hstale', hsameLeft⟩

end streams

lemma Sound.serveStage (h : w.Sound m) (hfirst : m.first) (hlast : m.last) (hm : m.GreedyChats)
    (hother : f.type ≠ .token) (sent : Bool) (turn : Nat → LoopTurn H) :
    (w.serveStage ngramDraft f chunk c sent turn).worker.Sound m := by
  cases hreply : (w.ring.stage.handle f chunk c.ok).2.2 with
  | error error =>
    have hanswered :=
      (h.serveControl hfirst hlast f chunk c (h.loop.finish f)).answered f (errorFrame f error) sent
    rw [serveStage_error hreply]
    split_ifs
    · exact Sound.settled hanswered
    · exact hanswered
  | ok out =>
    by_cases hstreams : out.type = .result → w.loop.find out = none
    · rw [serveStage_answered hreply hstreams]
      exact (h.serveControl hfirst hlast f chunk c h.loop).answered f out sent
    · obtain ⟨hresult, hfind⟩ := Classical.not_imp.mp hstreams
      obtain ⟨e, he⟩ := Option.ne_none_iff_exists'.mp hfind
      have hprompt : f.type = .prompt :=
        Stage.prompt_of_result (h.model ▸ hfirst) (h.model ▸ hlast) hother hreply hresult
      obtain ⟨-, s, hs, -⟩ := Stage.handle_run_ok (by rw [hprompt]; rfl) hreply
      obtain ⟨-, hout, -⟩ := h.prompt_answered hfirst hlast hprompt hreply hs
      rw [hout] at he
      obtain ⟨hentry, hrequest⟩ := LoopState.find_eq_some.mp he
      by_cases hleft : w.ring.Leftover ngramDraft f
      · exact (h.stream_leftover hfirst hlast hm hprompt hreply hs hentry hrequest sent turn
          hleft).1
      · exact (h.stream_fresh hfirst hlast hm hprompt hreply hs hentry hrequest sent turn hleft).1

lemma Sound.serve (h : w.Sound m) (hfirst : m.first) (hlast : m.last) (hm : m.GreedyChats)
    (hother : f.type ≠ .token) (sent : Bool) (turn : Nat → LoopTurn H) :
    (w.serve ngramDraft f chunk c sent turn).worker.Sound m := by
  rw [LoopWorker.serve]
  split
  · exact Sound.replied (w := { w with loop := w.loop.cancel f }) ⟨h.model, h.sessions,
      h.loop.cancel f⟩ _ sent
  · have haccept := h.loop.accept f
    generalize w.loop.accept f = accepted at haccept ⊢
    obtain ⟨loop, _ | problem⟩ := accepted
    · exact Sound.replied (w := { w with loop }) ⟨h.model, h.sessions, haccept⟩ _ sent
    · exact h.replied _ sent
  · exact h.serveStage hfirst hlast hm hother sent turn

lemma Reached.sound (h : Reached m md ngramDraft w) (hfirst : m.first) (hlast : m.last)
    (hm : m.GreedyChats) :
    w.Sound m := by
  induction h with
  | load => exact ⟨rfl, nofun, LoopState.positive_clear⟩
  | serve hother chunk c sent turn h ih => exact ih.serve hfirst hlast hm hother sent turn
  | disconnected h ih => exact ih.disconnected

lemma serve_prompt (hprompt : f.type = .prompt) (sent : Bool) (turn : Nat → LoopTurn H) :
    w.serve ngramDraft f chunk c sent turn = w.serveStage ngramDraft f chunk c sent turn := by
  rw [LoopWorker.serve, hprompt]

lemma serve_refused (hprompt : f.type = .prompt) {error : String}
    (herror : (w.ring.stage.handle f chunk c.ok).2.2 = .error error) {e : LoopStream}
    (he : w.loop f.session = some e) (hrequest : e.request = f.request) (sent : Bool)
    (turn : Nat → LoopTurn H) :
    (w.serve ngramDraft f chunk c sent turn).streamed =
      (if sent then [errorFrame f error] else []) ∧
      (w.serve ngramDraft f chunk c sent turn).worker.loop f.session = none := by
  have hgone : w.loop.finish f f.session = none := LoopState.finish_self he hrequest
  have hanswered : (answered (⟨(w.ring.serveControl f chunk c).1, w.loop.finish f⟩ : LoopWorker H) f
      (errorFrame f error) sent).streamed = (if sent then [errorFrame f error] else []) ∧
      (answered (⟨(w.ring.serveControl f chunk c).1, w.loop.finish f⟩ : LoopWorker H) f
        (errorFrame f error) sent).worker.loop f.session = none := by
    rw [LoopWorker.answered, hprompt]
    cases sent with
    | false => exact ⟨rfl, rfl⟩
    | true => exact ⟨rfl, hgone⟩
  rw [serve_prompt hprompt, serveStage_error herror]
  by_cases hzero : f.session = 0
  · rw [if_pos hzero]
    exact ⟨(settled_streamed _).trans hanswered.1, settled_loop hanswered.2⟩
  · rw [if_neg hzero]
    exact hanswered

end LoopWorker

/-! ### The stream of a prompt -/

section prompts

open LoopWorker

variable {w : LoopWorker H} {md : Option (StageModel H)} {ngramDraft : Bool} {e : LoopStream}

/-- From every state that a worker comes to, a prompt that streams is refused, or the client gets
what plain decoding has after its text, whatever is guessed on the way. -/
theorem prompt_streamed (hfirst : m.first) (hlast : m.last) (hm : m.GreedyChats)
    (hw : Reached m md ngramDraft w) (hprompt : f.type = .prompt) (he : w.loop f.session = some e)
    (hrequest : e.request = f.request) (hfresh : ¬ w.ring.Leftover ngramDraft f) (chunk : Nat)
    (c : Chance) (sent : Bool) (turn : Nat → LoopTurn H) :
    (∃ error, (w.ring.stage.handle f chunk c.ok).2.2 = .error error ∧
        (w.serve ngramDraft f chunk c sent turn).streamed =
          (if sent then [errorFrame f error] else []) ∧
        (w.serve ngramDraft f chunk c sent turn).worker.loop f.session = none) ∨
      ∃ s, w.ring.stage.sessions.lookup f.session = some s ∧
        Streamed m f (s.nextAfter m f) (s.textAfter m f) e turn 0
          (w.serve ngramDraft f chunk c sent turn) := by
  have hsound := hw.sound hfirst hlast hm
  cases hreply : (w.ring.stage.handle f chunk c.ok).2.2 with
  | error error => exact .inl ⟨error, rfl, serve_refused hprompt hreply he hrequest sent turn⟩
  | ok out =>
    obtain ⟨-, s, hs, -⟩ := Stage.handle_run_ok (by rw [hprompt]; rfl) hreply
    rw [serve_prompt hprompt]
    exact .inr ⟨s, hs,
      (hsound.stream_fresh hfirst hlast hm hprompt hreply hs he hrequest sent turn hfresh).2⟩

/-- A whole model with room for sixteen tokens, whose tokens are numbers that go up. Its chats draw
at random. -/
def counting : StageModel Nat where
  first := true
  last := true
  contextSize := 16
  maxSessions := 1
  hidden := 1
  wire := .f32le
  tokenize text := text.toList.map Char.toNat
  embed _ := 0
  greedy kv := kv.length
  chat _ kv := kv.length
  template prompt := some (prompt, { temp := 1 })
  piece _ := ""
  isEog _ := false

/-- A turn in which nothing fails, with guesses of the n-gram table. -/
def guessingTurn (_ : Nat) : LoopTurn Nat where
  cancel := none
  acknowledged := true
  delivered := true
  reported := true
  chance :=
    { ok _ := true
      okCatchUp _ := true
      okFlush _ := true
      okMirror _ := true
      width := 4
      trims := true
      starts := true
      guesses := []
      ngrams := [3, 9, 9] }

/-- The run of a frame in which nothing fails, with n-gram drafting. -/
def servedWell (w : LoopWorker Nat) (f : Frame Nat) : LoopRun Nat :=
  w.serve true f 0 (guessingTurn 0).chance true guessingTurn

/-- The client is to get four tokens of a first request. -/
def askedOnce : LoopWorker Nat :=
  (servedWell (servedWell (.load counting none) { type := .createSession, session := 1 }).worker
    { type := .streamPrompt, session := 1, request := 1, rows := 4 }).worker

lemma askedOnce_reached : Reached counting none true askedOnce :=
  .serve (by decide) 0 _ true _ (.serve (by decide) 0 _ true _ .load)

def firstPrompt : Frame Nat :=
  { type := .prompt, session := 1, request := 1, payload := .text "hi" }

/-- The client gets the four numbers that come next, one of them guessed. -/
theorem prompt_streamed_counting :
    ((servedWell askedOnce firstPrompt).streamed.map
      fun f => (f.type, f.position, f.sampledToken)) =
        [(.clientChunk, 2, 2), (.clientChunk, 3, 3), (.clientChunk, 4, 4), (.result, 5, 5)] ∧
      ∃ s, askedOnce.ring.stage.sessions.lookup 1 = some s ∧
        Streamed counting firstPrompt (s.nextAfter counting firstPrompt)
          (s.textAfter counting firstPrompt)
          ⟨1, 4, false⟩ guessingTurn 0 (servedWell askedOnce firstPrompt) := by
  refine ⟨by decide +kernel, ?_⟩
  have hfresh : ¬ askedOnce.ring.Leftover true firstPrompt :=
    fun hleft => hleft.2.1 (by decide +kernel)
  rcases prompt_streamed rfl rfl (fun _ _ _ => rfl) askedOnce_reached (f := firstPrompt) rfl
    (e := ⟨1, 4, false⟩) (by decide +kernel) rfl hfresh 0
      (guessingTurn 0).chance true guessingTurn with
    ⟨error, herror, -⟩ | hstreamed
  · have hanswered : (askedOnce.ring.stage.handle firstPrompt 0
        (guessingTurn 0).chance.ok).2.2.toOption.isSome :=
      by decide +kernel
    rw [herror] at hanswered
    cases hanswered
  · exact hstreamed

/-- No token of plain decoding is an error, and no refusal is that of a step without tokens. -/
lemma Streamed.has_tokens {next : List Token → Token} {text : List Token} {turn : Nat → LoopTurn H}
    {n : Nat} {run : LoopRun H} (h : Streamed m f next text e turn n run) :
    errorFrame f "decode produced no token" ∉ run.streamed := by
  have hchunks : ∀ n k, errorFrame f "decode produced no token" ∉ chunks m f next text n k := by
    intro n k hmem
    obtain ⟨i, -, hi⟩ := List.mem_map.mp hmem
    have htype := congrArg Frame.type hi
    cases htype
  cases h with
  | ended hk hends hgoes hstreamed hheld hentry =>
    rw [hstreamed, List.mem_append, List.mem_singleton]
    rintro (hmem | heq)
    · exact hchunks _ _ hmem
    · have htype := congrArg Frame.type heq
      cases htype
  | failed hk herror hgoes hstreamed hheld hentry =>
    rw [hstreamed, List.mem_append]
    rintro (hmem | hmem)
    · exact hchunks _ _ hmem
    · split_ifs at hmem
      · have hpayload := congrArg Frame.payload (List.mem_singleton.mp hmem)
        cases hpayload
        exact absurd herror (by decide)
      · cases hmem
  | lost hk hlost hgoes hstreamed hheld =>
    rw [hstreamed]
    exact hchunks _ _

/-- The one way in which a stream breaks off although no step is refused: a second token is due, and
guesses of an earlier request are left over. The same guesses are left over for the next prompt of
the session. -/
theorem no_token_iff (hfirst : m.first) (hlast : m.last) (hm : m.GreedyChats)
    (hw : Reached m md ngramDraft w) (hprompt : f.type = .prompt) (he : w.loop f.session = some e)
    (hrequest : e.request = f.request) {chunk : Nat} {c : Chance} {out : Frame H}
    (hout : (w.ring.stage.handle f chunk c.ok).2.2 = .ok out) {s : Session H}
    (hs : w.ring.stage.sessions.lookup f.session = some s) (sent : Bool) (turn : Nat → LoopTurn H) :
    (errorFrame f "decode produced no token" ∈ (w.serve ngramDraft f chunk c sent turn).streamed ↔
      w.ring.Leftover ngramDraft f ∧ ¬ Ends m f (s.nextAfter m f) (s.textAfter m f) e turn 0 ∧
        (turn 0).Reaches ∧ (turn 0).reported = true ∧
        ∃ reply, ((w.ring.stage.handle f chunk c.ok).1.handle (tokenFrame f (s.textAfter m f).length
          [tokenAt (s.nextAfter m f) (s.textAfter m f) 0]) 0 (turn 0).chance.ok).2.2 = .ok reply) ∧
    (errorFrame f "decode produced no token" ∈ (w.serve ngramDraft f chunk c sent turn).streamed →
      (w.serve ngramDraft f chunk c sent turn).streamed =
        [{ frameAt m f (s.nextAfter m f) (s.textAfter m f) 0 with type := .clientChunk },
          errorFrame f "decode produced no token"] ∧
      (w.serve ngramDraft f chunk c sent turn).held = true ∧
      (w.serve ngramDraft f chunk c sent turn).worker.ring.Leftover ngramDraft f ∧
      (w.serve ngramDraft f chunk c sent turn).worker.ring.left f.session =
        w.ring.left f.session) := by
  have hsound := hw.sound hfirst hlast hm
  rw [serve_prompt hprompt]
  by_cases hleft : w.ring.Leftover ngramDraft f
  · obtain ⟨-, ⟨hstreamed, hwhy⟩ | ⟨hgoes, hreaches, hstep, hstreamed, hafter⟩⟩ :=
      hsound.stream_leftover hfirst hlast hm hprompt hout hs he hrequest sent turn hleft
    · refine ⟨iff_of_false hstreamed.has_tokens ?_, fun h => absurd h hstreamed.has_tokens⟩
      rintro ⟨-, hgoes, hreaches, -, reply, hreply⟩
      rcases hwhy with hends | hlost | ⟨error, herror⟩
      · exact hgoes hends
      · exact hlost hreaches
      · cases hreply.symm.trans herror
    · have hone : chunks m f (s.nextAfter m f) (s.textAfter m f) 0 1 =
          [{ frameAt m f (s.nextAfter m f) (s.textAfter m f) 0 with type := .clientChunk }] := by
        rw [chunks_cons Nat.zero_lt_one, chunks_self]
      rw [hstreamed, hone]
      cases hreported : (turn 0).reported with
      | true =>
        obtain ⟨hheld, -, hleft'⟩ := hafter hreported
        have hthere :=
          List.mem_append_right [{ frameAt m f (s.nextAfter m f) (s.textAfter m f) 0 with
          type := .clientChunk }]
            (List.mem_singleton_self (errorFrame f "decode produced no token"))
        exact ⟨iff_of_true hthere ⟨hleft, hgoes, hreaches, rfl, hstep⟩,
          fun _ => ⟨rfl, hheld, hleft'⟩⟩
      | false =>
        have hnot : errorFrame f "decode produced no token" ∉
            [{ frameAt m f (s.nextAfter m f) (s.textAfter m f) 0 with type := .clientChunk }] ++
              (if false = true then [errorFrame f "decode produced no token"] else []) := by
          rw [if_neg Bool.false_ne_true, List.append_nil, List.mem_singleton]
          intro heq
          have htype := congrArg Frame.type heq
          cases htype
        exact ⟨iff_of_false hnot fun h => (by cases h.2.2.2.1), fun h => absurd h hnot⟩
  · have hstreamed :=
      (hsound.stream_fresh hfirst hlast hm hprompt hout hs he hrequest sent turn hleft).2
    exact ⟨iff_of_false hstreamed.has_tokens fun h => hleft h.1,
      fun h => absurd h hstreamed.has_tokens⟩

/-- After that request the client asks for a chat in the same session. -/
def askedAgain : LoopWorker Nat :=
  (servedWell (servedWell (servedWell (servedWell askedOnce firstPrompt).worker
    { type := .endRequest, session := 1, request := 1 }).worker
    { type := .prepareChat, session := 1, payload := .text "chat" }).worker
    { type := .streamPrompt, session := 1, request := 2, rows := 4 }).worker

def secondPrompt : Frame Nat :=
  { type := .prompt, session := 1, request := 2, payload := .text "chat" }

/-- The chat breaks off after its first token. -/
theorem no_token_counting :
    ((servedWell askedAgain secondPrompt).streamed.map
      fun f => (f.type, f.position, f.sampledToken)) =
        [(.clientChunk, 4, 4), (.error, 0, 0)] ∧
      (servedWell askedAgain secondPrompt).held = true ∧
      (servedWell askedAgain secondPrompt).worker.ring.Leftover true secondPrompt ∧
      (servedWell askedAgain secondPrompt).worker.ring.left 1 = askedAgain.ring.left 1 := by
  refine ⟨by decide +kernel, ?_⟩
  have hreached : Reached counting none true askedAgain :=
    .serve (by decide) 0 _ true _ (.serve (by decide) 0 _ true _ (.serve (by decide) 0 _ true _
      (.serve (by decide) 0 _ true _ askedOnce_reached)))
  obtain ⟨s, hs⟩ : ∃ s, askedAgain.ring.stage.sessions.lookup 1 = some s :=
    Option.isSome_iff_exists.mp (by decide +kernel)
  cases hreply : (askedAgain.ring.stage.handle secondPrompt 0 (guessingTurn 0).chance.ok).2.2 with
  | error error =>
    have hanswered : (askedAgain.ring.stage.handle secondPrompt 0
      (guessingTurn 0).chance.ok).2.2.toOption.isSome := by decide +kernel
    rw [hreply] at hanswered
    cases hanswered
  | ok out =>
    exact ((no_token_iff rfl rfl
      (fun _ _ _ => rfl) hreached (f := secondPrompt) rfl (e := ⟨2, 4, false⟩)
      (by decide +kernel) rfl hreply hs true guessingTurn).2 (by decide +kernel)).2

end prompts

end ProviderOwned
