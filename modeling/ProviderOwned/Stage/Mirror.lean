import ProviderOwned.Stage.Answered

/-!
# How the draft stands to a session

A step of the head touches one session (`RingHead.Local`), so what holds between the draft and the
stage is a matter of one session at a time (`Mirrors`). A frame that the stage refuses does not
change it (`Mirrors.refused`).
-/

namespace ProviderOwned

variable {H : Type*}

/-! ### One session at a time -/

/-- `r'` differs from `r` at one session, or has given up its draft. -/
structure RingHead.Local (id : Nat) (r r' : RingHead H) : Prop where
  model : r'.stage.model = r.stage.model
  stage : ∀ i ≠ id, r'.stage.sessions.lookup i = r.stage.sessions.lookup i
  guessed : ∀ i ≠ id, r'.guessed i = r.guessed i
  draft : ∀ st', r'.draft = some st' → ∃ st, r.draft = some st ∧ st'.model = st.model ∧
    ∀ i ≠ id, st'.sessions.lookup i = st.sessions.lookup i

namespace RingHead.Local

variable {id : Nat} {r r₁ r₂ r₃ : RingHead H} {f : Frame H} {c : Chance}

lemma refl (id : Nat) (r : RingHead H) : r.Local id r :=
  ⟨rfl, fun _ _ => rfl, fun _ _ => rfl, fun st hst => ⟨st, hst, rfl, fun _ _ => rfl⟩⟩

lemma trans (h : r₁.Local id r₂) (h' : r₂.Local id r₃) : r₁.Local id r₃ where
  model := h'.model.trans h.model
  stage i hi := (h'.stage i hi).trans (h.stage i hi)
  guessed i hi := (h'.guessed i hi).trans (h.guessed i hi)
  draft st₃ hst₃ := by
    obtain ⟨st₂, hst₂, hmodel₂, hlookup₂⟩ := h'.draft st₃ hst₃
    obtain ⟨st₁, hst₁, hmodel₁, hlookup₁⟩ := h.draft st₂ hst₂
    exact ⟨st₁, hst₁, hmodel₂.trans hmodel₁, fun i hi => (hlookup₂ i hi).trans (hlookup₁ i hi)⟩

lemma draft_none (h : r₁.Local id r₂) (hnone : r₁.draft = none) : r₂.draft = none := by
  cases hst₂ : r₂.draft with
  | none => rfl
  | some st₂ =>
    obtain ⟨st₁, hst₁, -⟩ := h.draft st₂ hst₂
    rw [hnone] at hst₁
    cases hst₁

lemma setGuessed (id : Nat) (r : RingHead H) (g : Option Guesses) :
    r.Local id (r.setGuessed id g) where
  model := rfl
  stage _ _ := rfl
  guessed _ hi := Function.update_of_ne hi _ _
  draft st hst := ⟨st, hst, rfl, fun _ _ => rfl⟩

lemma withDraft (r : RingHead H) {st st' : Stage H} (hst : r.draft = some st)
    (hmodel : st'.model = st.model)
    (hlookup : ∀ i ≠ id, st'.sessions.lookup i = st.sessions.lookup i) :
    r.Local id { r with draft := some st' } where
  model := rfl
  stage _ _ := rfl
  guessed _ _ := rfl
  draft _ h := by
    cases h
    exact ⟨st, hst, hmodel, hlookup⟩

lemma withoutDraft (id : Nat) (r : RingHead H) : r.Local id { r with draft := none } where
  model := rfl
  stage _ _ := rfl
  guessed _ _ := rfl
  draft _ h := by cases h

lemma withStage (r : RingHead H) {st' : Stage H} (hmodel : st'.model = r.stage.model)
    (hlookup : ∀ i ≠ id, st'.sessions.lookup i = r.stage.sessions.lookup i) :
    r.Local id { r with stage := st' } where
  model := hmodel
  stage := hlookup
  guessed _ _ := rfl
  draft st hst := ⟨st, hst, rfl, fun _ _ => rfl⟩

/-- The draft handles a frame. -/
lemma draftHandles (r : RingHead H) {st : Stage H} (hst : r.draft = some st) (hf : f.session = id)
    (chunk : Nat) (ok : Nat → Bool) :
    r.Local id { r with draft := some (st.handle f chunk ok).1 } :=
  withDraft r hst (st.handle_model ..) fun _ hi =>
    st.lookup_handle_of_ne f chunk ok (hf.symm ▸ hi)

/-- The stage handles a frame. -/
lemma stageHandles (r : RingHead H) (hf : f.session = id) (chunk : Nat) (ok : Nat → Bool) :
    r.Local id { r with stage := (r.stage.handle f chunk ok).1 } :=
  withStage r (r.stage.handle_model ..) fun _ hi =>
    r.stage.lookup_handle_of_ne f chunk ok (hf.symm ▸ hi)

lemma stageChanges (id : Nat) (r : RingHead H) (g : Session H → Session H) :
    r.Local id { r with stage := r.stage.change id g } :=
  withStage r (r.stage.change_model ..) fun _ hi => Stage.lookup_change_of_ne g hi

lemma catchUpDraft (r : RingHead H) (f : Frame H) (c : Chance) :
    r.Local f.session (r.catchUpDraft f c).1 := by
  have hset := setGuessed f.session r none
  rw [RingHead.catchUpDraft]
  split
  · exact refl ..
  · dsimp only
    split_ifs
    · exact hset
    · split
      · rename_i hdraft _
        exact hset.trans (draftHandles (f := tokenFrame f _ _) _ hdraft rfl ..)
      · exact hset
    · split
      · exact hset
      · exact hset

lemma flushDraft (r : RingHead H) (f : Frame H) (c : Chance) :
    r.Local f.session (r.flushDraft f c).1 := by
  rw [RingHead.flushDraft]
  split
  · exact refl ..
  · rename_i s _
    split_ifs
    · exact refl ..
    · split
      · exact refl ..
      · rename_i st hst
        have hfed := draftHandles r hst (f := replayFrame f s.draft) rfl 0 c.okFlush
        split
        · rename_i heq
          rw [heq] at hfed
          exact hfed
        · rename_i heq
          rw [heq] at hfed
          exact hfed.trans (stageChanges ..)

lemma turnOff (id : Nat) (r : RingHead H) : r.Local id (r.turnOff id) :=
  (withoutDraft id r).trans (stageChanges id { r with draft := none } _)

lemma beforeProposals (r : RingHead H) (f : Frame H) (c : Chance) :
    r.Local f.session (r.beforeProposals f c).1 := by
  have hcaught := catchUpDraft r f c
  rw [RingHead.beforeProposals]
  split
  · rename_i heq
    rw [heq] at hcaught
    exact hcaught
  · rename_i heq
    rw [heq] at hcaught
    split_ifs
    · exact hcaught.trans (flushDraft ..)
    · exact hcaught

lemma modelProposals (r : RingHead H) {st : Stage H} (hst : r.draft = some st) (f : Frame H)
    (count : Nat) (c : Chance) :
    r.Local f.session { r with draft := some (st.modelProposals f count c).1 } := by
  refine withDraft r hst ?_ ?_
  · rw [Stage.modelProposals]
    split
    · rfl
    · dsimp only
      split_ifs
      · rfl
      · rfl
      · exact st.change_model ..
      · exact st.change_model ..
  · intro i hi
    rw [Stage.modelProposals]
    split
    · rfl
    · dsimp only
      split_ifs
      · rfl
      · rfl
      · exact Stage.lookup_change_of_ne _ hi
      · exact Stage.lookup_change_of_ne _ hi

lemma ngramProposals (r : RingHead H) (f : Frame H) (count : Nat) (c : Chance) :
    r.Local f.session { r with stage := (r.stage.ngramProposals f count c).1 } := by
  rw [Stage.ngramProposals]
  split
  · exact refl ..
  · dsimp only
    split_ifs
    · exact refl ..
    · exact refl ..
    · exact stageChanges ..

lemma proposals (ngramDraft : Bool) (r : RingHead H) (f : Frame H) (c : Chance) :
    r.Local f.session (r.proposals ngramDraft f c).1 := by
  have hbefore := beforeProposals r f c
  rw [RingHead.proposals]
  split
  · rename_i heq
    rw [heq] at hbefore
    exact hbefore
  · rename_i heq
    rw [heq] at hbefore
    split_ifs
    · split
      · rename_i hst _
        exact hbefore.trans (modelProposals _ hst f _ c)
      · exact hbefore.trans (ngramProposals ..)
    · split
      · rename_i hst _
        exact hbefore.trans (modelProposals _ hst f _ c)
      · exact hbefore
    · exact hbefore

lemma roundGuesses (ngramDraft : Bool) (r : RingHead H) (f : Frame H) (c : Chance) :
    r.Local f.session (r.roundGuesses ngramDraft f c).1 := by
  have hproposals := proposals ngramDraft r f c
  rw [RingHead.roundGuesses]
  split
  · rename_i heq
    rw [heq] at hproposals
    exact hproposals
  · rename_i heq
    rw [heq] at hproposals
    exact hproposals.trans (turnOff ..)

lemma defer (r : RingHead H) (f : Frame H) : r.Local f.session (r.defer f).1 := by
  rw [RingHead.defer]
  split
  · exact refl ..
  · rename_i s _
    generalize (if s.draft.pending = [] then _ else s.draft) = state
    dsimp only
    split_ifs
    · exact stageChanges ..
    · exact stageChanges ..

lemma recordRound (ngramDraft : Bool) (r : RingHead H) (f : Frame H) (guesses : List Token) :
    r.Local f.session (r.recordRound ngramDraft f guesses).1 := by
  have hdefer := defer r f
  rw [RingHead.recordRound]
  split_ifs
  · split
    · rename_i heq
      rw [heq] at hdefer
      exact hdefer
    · rename_i heq
      rw [heq] at hdefer
      exact hdefer.trans (setGuessed ..)
  · exact setGuessed ..
  · exact setGuessed ..

lemma draftRound (ngramDraft : Bool) (r : RingHead H) (f : Frame H) (c : Chance) :
    r.Local f.session (r.draftRound ngramDraft f c).1 := by
  rw [RingHead.draftRound]
  split
  · exact refl ..
  · have hguesses := roundGuesses ngramDraft r f c
    have hhandled := hguesses.trans (stageHandles (f := tokenFrame f f.position
      (frameToken f :: (r.roundGuesses ngramDraft f c).2)) _ rfl 0 c.ok)
    dsimp only
    split
    · rename_i heq
      rw [heq] at hhandled
      exact hhandled
    · rename_i heq
      rw [heq] at hhandled
      have hrecorded :=
        hhandled.trans (recordRound ngramDraft _ f (r.roundGuesses ngramDraft f c).2)
      split
      · rename_i heq
        rw [heq] at hrecorded
        exact hrecorded
      · rename_i heq
        rw [heq] at hrecorded
        exact hrecorded

lemma decodeRound (ngramDraft : Bool) (r : RingHead H) (f : Frame H) (c : Chance) :
    r.Local f.session (r.decodeRound ngramDraft f c).1 := by
  rw [RingHead.decodeRound]
  split_ifs
  · exact draftRound ..
  · exact stageHandles (f := tokenFrame f f.position [frameToken f]) r rfl 0 c.ok

lemma readyDraft (r : RingHead H) (f : Frame H) (c : Chance) :
    r.Local f.session (r.readyDraft f c).1 := by
  have hcaught : r.Local f.session
      (if settles f.type ∧ f.type ≠ .endRequest then r.catchUpDraft f c else (r, none)).1 := by
    split_ifs
    · exact catchUpDraft ..
    · exact refl ..
  rw [RingHead.readyDraft]
  split
  · rename_i heq
    rw [heq] at hcaught
    exact hcaught
  · rename_i r' heq
    rw [heq] at hcaught
    have hflushed : r.Local f.session
        (if settles f.type then r'.flushDraft f c else (r', none)).1 := by
      split_ifs
      · exact hcaught.trans (flushDraft ..)
      · exact hcaught
    split
    · rename_i heq
      rw [heq] at hflushed
      exact hflushed
    · rename_i heq
      rw [heq] at hflushed
      dsimp only
      split_ifs
      · exact hflushed.trans (setGuessed ..)
      · exact hflushed

lemma mirror (r : RingHead H) (f : Frame H) (c : Chance) : r.Local f.session (r.mirror f c).1 := by
  have hready := readyDraft r f c
  rw [RingHead.mirror]
  split
  · rename_i heq
    rw [heq] at hready
    exact hready
  · rename_i heq
    rw [heq] at hready
    split
    · exact hready
    · rename_i hst
      exact hready.trans (draftHandles (f := mirroredFrame f) _ hst rfl ..)

lemma followControl (r : RingHead H) (f : Frame H) (c : Chance) :
    r.Local f.session (r.followControl f c) := by
  have hmirrored := mirror r f c
  rw [RingHead.followControl]
  split_ifs
  · exact setGuessed ..
  · split
    · rename_i heq
      rw [heq] at hmirrored
      exact hmirrored
    · rename_i heq
      rw [heq] at hmirrored
      exact (hmirrored.trans (withoutDraft ..)).trans (setGuessed ..)
  · split
    · rename_i heq
      rw [heq] at hmirrored
      exact hmirrored
    · rename_i heq
      rw [heq] at hmirrored
      exact hmirrored
  · exact refl ..

lemma serveControl (r : RingHead H) (f : Frame H) (chunk : Nat) (c : Chance) :
    r.Local f.session (r.serveControl f chunk c).1 := by
  have hhandled := stageHandles r (f := f) rfl chunk c.ok
  rw [RingHead.serveControl]
  split
  · rename_i heq
    rw [heq] at hhandled
    exact hhandled
  · rename_i heq
    rw [heq] at hhandled
    refine Local.trans ?_ (followControl ..)
    split_ifs
    · exact hhandled.trans (setGuessed ..)
    · exact hhandled

end RingHead.Local

/-! ### The invariant of one session -/

/-- The draft holds its session with this id, if it has one, in no request. -/
def Resting (md : StageModel H) (r : RingHead H) (id : Nat) : Prop :=
  ∃ st, r.draft = some st ∧ st.model = md ∧
    ∀ d, st.sessions.lookup id = some d → d.Plain ∧ d.activeRequest = 0

/-- How the draft stands to the session `id` of the stage, of which `k` says in which request and
how far it is committed: no session, a chat, no prompt yet, a prompt that failed, or a request that
the draft follows. -/
inductive Mirrors (md : StageModel H) (r : RingHead H) (id : Nat) : Option (Nat × Nat) → Prop
  | closed (ht : r.stage.sessions.lookup id = none) (hg : r.guessed id = none)
      (hd : Resting md r id) : Mirrors md r id none
  | chat {t : Session H} (ht : r.stage.sessions.lookup id = some t) (hchat : t.chatRequest = true)
      (hd : Resting md r id) (k : Option (Nat × Nat)) : Mirrors md r id k
  | idle {t : Session H} (ht : r.stage.sessions.lookup id = some t) (hplain : t.Plain)
      (hprompt : t.hasPrompt = false) (hpending : t.draft.pending = []) (hg : r.guessed id = none)
      (hd : Resting md r id)
      (hread : ∀ st d, r.draft = some st → st.sessions.lookup id = some d →
        t.history <+: d.history ∨ d.history <+: t.history) : Mirrors md r id none
  | lost {t : Session H} (ht : r.stage.sessions.lookup id = some t) (hplain : t.Plain)
      (hprompt : t.hasPrompt = true) (hpending : t.draft.pending = []) (hg : r.guessed id = none)
      (hd : Resting md r id) : Mirrors md r id none
  | live {t d : Session H} {text : List Token} {k : Option (Nat × Nat)} (hplain : t.Plain)
      (hactive : t.activeRequest = d.activeRequest) (hprompt : t.hasPrompt = true)
      (hd : Following md r id t d text) (hread : t.history <+: text)
      (hk : ∀ request n, k = some (request, n) → request = d.activeRequest ∧ n ≤ t.history.length ∧
        (t.draft.pending ≠ [] → n = text.length)) : Mirrors md r id k

section Mirrors

variable {md : StageModel H} {r r' : RingHead H} {id : Nat} {k : Option (Nat × Nat)} {f : Frame H}
  {c : Chance}

/-- The same holds of any head that agrees on the session. -/
lemma Mirrors.congr (h : Mirrors md r id k)
    (ht : r'.stage.sessions.lookup id = r.stage.sessions.lookup id)
    (hg : r'.guessed id = r.guessed id)
    (hd : ∀ st, r.draft = some st → ∃ st', r'.draft = some st' ∧ st'.model = st.model ∧
      st'.sessions.lookup id = st.sessions.lookup id) : Mirrors md r' id k := by
  have hrest : Resting md r id → Resting md r' id := by
    rintro ⟨st, hst, hmodel, hidle⟩
    obtain ⟨st', hst', hmodel', hlookup⟩ := hd st hst
    exact ⟨st', hst', hmodel'.trans hmodel, fun d hd => hidle d (hlookup ▸ hd)⟩
  cases h with
  | closed hnone hguess hrests => exact .closed (ht.trans hnone) (hg.trans hguess) (hrest hrests)
  | chat hsome hchat hrests => exact .chat (ht.trans hsome) hchat (hrest hrests) k
  | idle hsome hplain hprompt hpending hguess hrests hread =>
    refine .idle (ht.trans hsome) hplain hprompt hpending (hg.trans hguess) (hrest hrests) ?_
    intro st₁ d hst₁ hlookup₁
    obtain ⟨st, hst, -⟩ := hrests
    obtain ⟨st', hst', -, hlookup⟩ := hd st hst
    rw [hst'] at hst₁
    cases hst₁
    exact hread st d hst (hlookup ▸ hlookup₁)
  | lost hsome hplain hprompt hpending hguess hrests =>
    exact .lost (ht.trans hsome) hplain hprompt hpending (hg.trans hguess) (hrest hrests)
  | live hplain hactive hprompt hfollows hread hk =>
    obtain ⟨st, hst, hmodel, hlookup⟩ := hfollows.draft
    obtain ⟨st', hst', hmodel', hlookup'⟩ := hd st hst
    refine .live hplain hactive hprompt ⟨hfollows.nonzero, ⟨st', hst', hmodel'.trans hmodel,
      hlookup'.trans hlookup⟩, ht.trans hfollows.stage, hfollows.greedy, hfollows.plain,
      hfollows.active, hfollows.prompted, ?_⟩ hread hk
    rw [hg]
    exact hfollows.followed

/-- A step at another session keeps how the draft stands to this one. -/
lemma Mirrors.of_local (h : Mirrors md r id k) {i : Nat} (hlocal : r.Local i r') (hi : id ≠ i)
    {st' : Stage H} (hst' : r'.draft = some st') : Mirrors md r' id k := by
  refine h.congr (hlocal.stage id hi) (hlocal.guessed id hi) fun st hst => ?_
  obtain ⟨st₁, hst₁, hmodel, hlookup⟩ := hlocal.draft st' hst'
  rw [hst] at hst₁
  cases hst₁
  exact ⟨st', hst', hmodel, hlookup id hi⟩

/-- Where a session no longer streams nothing is known of what is committed. -/
lemma Mirrors.ended (h : Mirrors md r id k) : Mirrors md r id none := by
  cases h with
  | closed ht hg hd => exact .closed ht hg hd
  | chat ht hchat hd => exact .chat ht hchat hd none
  | idle ht hplain hprompt hpending hg hd hread =>
      exact .idle ht hplain hprompt hpending hg hd hread
  | lost ht hplain hprompt hpending hg hd => exact .lost ht hplain hprompt hpending hg hd
  | live hplain hactive hprompt hd hread => exact .live hplain hactive hprompt hd hread (by simp)

/-- Of a session in no request the draft knows nothing either. -/
lemma Mirrors.resting (h : Mirrors md r id k)
    (hidle : ∀ t, r.stage.sessions.lookup id = some t → t.activeRequest = 0) : Resting md r id := by
  cases h with
  | closed _ _ hd => exact hd
  | chat _ _ hd => exact hd
  | idle _ _ _ _ _ hd => exact hd
  | lost _ _ _ _ _ hd => exact hd
  | live _ hactive _ hd => exact absurd (hactive.symm.trans (hidle _ hd.stage)) hd.active

/-! ### Frames that the stage refuses -/

/-- A frame that the stage refuses leaves how the draft stands to its session. -/
lemma Mirrors.refused (h : Mirrors md r f.session k) (hfirst : r.stage.model.first) {chunk : Nat}
    {ok : Nat → Bool} {e : String} (he : (r.stage.handle f chunk ok).2.2 = .error e) :
    Mirrors md { r with stage := (r.stage.handle f chunk ok).1 } f.session
      (if k.map Prod.fst = some f.request then none else k) := by
  have hsame : (r.stage.handle f chunk ok).1.sessions.lookup f.session =
      r.stage.sessions.lookup f.session →
      Mirrors md { r with stage := (r.stage.handle f chunk ok).1 } f.session
        (if k.map Prod.fst = some f.request then none else k) := by
    intro hlookup
    have hmirrors : Mirrors md { r with stage := (r.stage.handle f chunk ok).1 } f.session k :=
      h.congr hlookup rfl fun st hst => ⟨st, hst, rfl, rfl⟩
    split_ifs
    · exact hmirrors.ended
    · exact hmirrors
  by_cases hruns : f.type.runs
  · rcases Stage.handle_run_error hruns he with hlookup | ⟨s, hs, hreply, hlookup⟩
    · exact hsame hlookup
    have hset : ∀ t, r.stage.sessions.lookup f.session = some t → t = s := fun t ht =>
      Option.some.inj (ht.symm.trans hs)
    cases h with
    | closed ht =>
      rw [hs] at ht
      cases ht
    | chat ht hchat hd =>
      cases hset _ ht
      exact .chat (r := { r with stage := _ }) hlookup (Session.execute_chatRequest.trans hchat)
        hd _
    | idle ht hplain hprompt hpending hg hd hread =>
      cases hset _ ht
      rw [ite_self]
      rcases hplain.execute_error hfirst hreply with hsession | ⟨hplain', hrefused, hentered⟩
      · exact hsame (hlookup.trans (hsession.symm ▸ hs.symm))
      obtain ⟨l, hl, htake⟩ := hrefused.holds
      have hpending' := (congrArg DraftState.pending hentered.draft).trans hpending
      rcases hrefused.prompted with hsameprompt | ⟨-, -, hset⟩
      · refine .idle hlookup hplain' (hsameprompt.trans hprompt) hpending' hg hd
          fun st d hst hlookup => ?_
        have hbefore : l <+: s.history := htake hsameprompt ▸ List.take_prefix ..
        rw [hl.history]
        rcases hread st d hst hlookup with hbehind | hahead
        · exact .inl (hbefore.trans hbehind)
        · exact List.prefix_or_prefix_of_prefix hbefore hahead
      · exact .lost hlookup hplain' hset hpending' hg hd
    | lost ht hplain hprompt hpending hg hd =>
      cases hset _ ht
      rw [ite_self]
      rcases hplain.execute_error hfirst hreply with hsession | ⟨hplain', hrefused, hentered⟩
      · exact hsame (hlookup.trans (hsession.symm ▸ hs.symm))
      have hpending' := (congrArg DraftState.pending hentered.draft).trans hpending
      rcases hrefused.prompted with hsameprompt | ⟨-, -, hset⟩
      · exact .lost hlookup hplain' (hsameprompt.trans hprompt) hpending' hg hd
      · exact .lost hlookup hplain' hset hpending' hg hd
    | @live t d text _ hplain hactive hprompt hd hread hk =>
      cases hset _ hd.stage
      rcases hplain.execute_error hfirst hreply with hsession | ⟨hplain', hrefused, hentered⟩
      · exact hsame (hlookup.trans (hsession.symm ▸ hs.symm))
      obtain ⟨l, hl, htake⟩ := hrefused.holds
      have hsameprompt : (s.execute r.stage.model f chunk ok).session.hasPrompt = s.hasPrompt := by
        rcases hrefused.prompted with hsame | ⟨-, hnone, -⟩
        · exact hsame
        · rw [hprompt] at hnone
          cases hnone
      have hrequest : s.activeRequest = f.request := by
        rcases hentered.before with hidle | hsame
        · exact absurd (hactive.symm.trans hidle) hd.active
        · exact hsame
      have hended : (if k.map Prod.fst = some f.request then none else k) = none := by
        split_ifs with hstreams
        · rfl
        · cases hcommitted : k with
          | none => rfl
          | some at_ =>
            obtain ⟨request, n⟩ := at_
            have hsame := (hk request n hcommitted).1
            rw [hcommitted, Option.map_some, hsame, ← hactive, hrequest] at hstreams
            exact absurd rfl hstreams
      rw [hended]
      have hfollows : Following md { r with stage := (r.stage.handle f chunk ok).1 } f.session
          (s.execute r.stage.model f chunk ok).session d text :=
        ⟨hd.nonzero, hd.draft, hlookup, hplain'.greedy, hd.plain, hd.active, hd.prompted,
          hentered.draft.symm ▸ hd.followed⟩
      refine .live hplain' ?_ (hsameprompt.trans hprompt) hfollows ?_ (by simp)
      · exact hentered.active.trans (hrequest.symm.trans hactive)
      · rw [hl.history, htake hsameprompt]
        exact (List.take_prefix ..).trans hread
  · exact hsame (Stage.lookup_handle_of_refused hruns he)

end Mirrors

end ProviderOwned
