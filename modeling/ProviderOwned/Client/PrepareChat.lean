import ProviderOwned.Client.Agreement
import ProviderOwned.Owner.Recovery
import ProviderOwned.Stage.Answered

/-!
# Preparing a chat on a route

`InferenceClient::prepare_chat` asks the stages one by one and tells each how much of the prompt the
first one has cached. If a stage refuses, it resets the session on every stage, for those before
have already dropped what does not belong to the new prompt.

A stage with a request active refuses both, and `control_all` stops there
(`prepareChat_atomic_iff`).
-/

namespace ProviderOwned

variable {H : Type*}

/-- The frame of `prepare_chat`. -/
def prepareFrame (session position : Nat) (json : String) : Frame H :=
  { type := .prepareChat, session, position, payload := .text json }

/-- What `prepare_chat` checks of a reply, given the one before. -/
def preparedReply (session : Nat) (before : Option (Frame H)) (reply : Frame H) : Bool :=
  reply.type = .ack && reply.session = session && reply.request = 0 && reply.cols =
    0 && reply.dtype = .none &&
    reply.payload.isEmpty && reply.rows ≠ 0 && reply.position < reply.rows &&
    before.all fun prepared => reply.position = prepared.position && reply.rows = prepared.rows

/-- The loop of `prepare_chat` over the stages: the last reply, if there is a stage. -/
def prepareFrom (session : Nat) (json : String) :
    Option (Frame H) → Nat → List (Connection H) →
      List (Connection H) × Except String (Option (Frame H))
  | before, _, [] => ([], .ok before)
  | before, position, c :: rest =>
    match (c.exchange (prepareFrame session position json)).2 with
    | .error e => ((c.exchange (prepareFrame session position json)).1 :: rest, .error e)
    | .ok reply =>
      if !preparedReply session before reply then
        ((c.exchange (prepareFrame session position json)).1 :: rest,
          .error "invalid chat preparation reply")
      else
        ((c.exchange (prepareFrame session position json)).1 ::
           (prepareFrom session json (some reply) reply.position rest).1,
         (prepareFrom session json (some reply) reply.position rest).2)

namespace InferenceClient

/-- `InferenceClient::prepare_chat`. Where the reset fails as well, its exception replaces the first
one. -/
def prepareChat (cl : InferenceClient H) (session : Nat) (json : String) :
    InferenceClient H × Except String (Frame H) :=
  match cl.sessions.lookup session with
  | none => (cl, .error "unknown session ID")
  | some state =>
    match prepareFrom session json none 0 cl.stages with
    | (stages, .ok last) =>
      let prepared := last.getD {}
      ({ cl with
         stages, sessions :=
           cl.sessions.insert session { state with position := prepared.position } },
       .ok prepared)
    | (stages, .error e) =>
      match controlAll stages .resetSession session with
      | (stages, .error failure) => ({ cl with stages }, .error failure)
      | (stages, .ok ()) =>
        ({ cl with stages, sessions := cl.sessions.insert session { state with position := 0 } },
          .error e)

end InferenceClient

/-! ### Sessions that are in no request -/

namespace Connection

variable {c c' : Connection H} {session : Nat} {f : Frame H}

/-- The stage has the session, in no request. -/
def Idle (session : Nat) (c : Connection H) : Prop := c.Holds session (·.activeRequest = 0)

/-- What `prepare_chat` may have sent to a stage: the session is in a request if it was before, and
the link may have carried two messages. -/
def Asked (session : Nat) (c c' : Connection H) : Prop :=
  (c'.Idle session ↔ c.Idle session) ∧ (c.carries 4 → c'.carries 2)

lemma Asked.refl (session : Nat) (c : Connection H) : c.Asked session c :=
  ⟨Iff.rfl, fun h => carries_of_le h (by decide)⟩

end Connection

namespace Session

lemma prepareChat_activeRequest (m : StageModel H) (s : Session H) (f : Frame H) :
    (s.prepareChat m f).session.activeRequest = s.activeRequest := by
  cases hreply : (s.prepareChat m f).reply with
  | error e => rw [s.prepareChat_checksFirst m f e hreply]
  | ok out =>
    obtain ⟨-, prompt, sampling, -, -, -, -, hsession, -⟩ := prepareChat_prepared hreply
    rw [hsession]
    rfl

lemma reset_idle_iff (s : Session H) (f : Frame H) :
    (s.reset f).session.activeRequest = 0 ↔ s.activeRequest = 0 := by
  rw [reset]
  split_ifs with hcontrol hactive
  · exact Iff.rfl
  · exact Iff.rfl
  · exact ⟨fun _ => not_not.mp hactive, fun _ => rfl⟩

end Session

namespace Stage

variable {st : Stage H} {session : Nat} {f : Frame H}

/-- An operation on the session of a frame that does not change whether it is in a request. -/
lemma onSession_idle_iff {op : Session H → Handled H}
    (hop : ∀ s : Session H, (op s).session.activeRequest = 0 ↔ s.activeRequest = 0)
    (session : Nat) :
    (∃ s, (st.onSession f op).1.sessions.lookup session = some s ∧ s.activeRequest = 0) ↔
      ∃ s, st.sessions.lookup session = some s ∧ s.activeRequest = 0 := by
  rcases st.onSession_cases f op with ⟨e, heq⟩ | ⟨s, -, hs, heq⟩
  · rw [heq]
  · rw [heq]
    by_cases hid : session = f.session
    · subst hid
      rw [AList.lookup_insert, hs]
      simp [hop]
    · rw [AList.lookup_insert_ne hid]

end Stage

namespace Connection

variable {c c' : Connection H} {session : Nat} {f : Frame H}

/-- An exchange that prepares a chat or resets a session does not change whether a session is in a
request. -/
lemma exchange_idle_iff (hf : f.type = .prepareChat ∨ f.type = .resetSession) (c : Connection H)
    (session : Nat) :
    (c.exchange f).1.Idle session ↔ c.Idle session := by
  have hhandle : (∃ s, (c.stage.handle f 0 fun _ => true).1.sessions.lookup session = some s ∧
      s.activeRequest = 0) ↔
      c.Idle session := by
    rcases hf with hf | hf
    · rw [Stage.handle, hf]
      exact Stage.onSession_idle_iff (fun s => by rw [Session.prepareChat_activeRequest]) session
    · rw [Stage.handle, hf]
      dsimp only
      split_ifs
      · exact Iff.rfl
      · exact Stage.onSession_idle_iff (fun s => Session.reset_idle_iff s f) session
  by_cases hlink : c.carries 1
  · rw [Idle, Holds, exchange_stage hlink]
    exact hhandle
  · rw [exchange, if_pos (by simpa using hlink)]

lemma asked_exchange (hf : f.type = .prepareChat ∨ f.type = .resetSession) (c : Connection H)
    (session : Nat) :
    c.Asked session (c.exchange f).1 := by
  refine ⟨exchange_idle_iff hf c session, fun hlink => ?_⟩
  rw [exchange_carries]
  exact hlink

end Connection

/-! ### All stages -/

variable {session position : Nat} {json : String} {before last : Option (Frame H)}
  {stages stages' : List (Connection H)}

lemma forall_idle_iff (h : List.Forall₂ (Connection.Asked session) stages stages') :
    (∀ c ∈ stages', c.Idle session) ↔ ∀ c ∈ stages, c.Idle session := by
  induction h with
  | nil => exact Iff.rfl
  | cons hhead _ ih => rw [List.forall_mem_cons, List.forall_mem_cons, hhead.1, ih]

lemma forall_carries (h : List.Forall₂ (Connection.Asked session) stages stages')
    (hlinks : ∀ c ∈ stages, c.carries 4) : ∀ c ∈ stages', c.carries 2 := by
  induction h with
  | nil =>
    intro c hc
    cases hc
  | cons hhead _ ih =>
    rw [List.forall_mem_cons] at hlinks ⊢
    exact ⟨hhead.2 hlinks.1, ih hlinks.2⟩

lemma prepareFrom_asked (session : Nat) (json : String) (before : Option (Frame H)) (position : Nat)
    (stages : List (Connection H)) :
    List.Forall₂ (Connection.Asked session) stages
      (prepareFrom session json before position stages).1 := by
  induction stages generalizing before position with
  | nil => exact .nil
  | cons c rest ih =>
    have hhead :=
      Connection.asked_exchange (f := prepareFrame session position json) (.inl rfl) c session
    have hrest : List.Forall₂ (Connection.Asked session) rest rest :=
      List.forall₂_same.mpr fun c _ => Connection.Asked.refl session c
    rw [prepareFrom]
    cases hreply : (c.exchange (prepareFrame session position json)).2 with
    | error e => exact .cons hhead hrest
    | ok reply =>
      dsimp only
      split_ifs
      · exact .cons hhead hrest
      · exact .cons hhead (ih _ _)

lemma controlFrom_idle_iff (session : Nat) (before : Option Nat) (stages : List (Connection H)) :
    (∀ c ∈ (controlFrom (controlFrame .resetSession session) before stages).1, c.Idle session) ↔
      ∀ c ∈ stages, c.Idle session := by
  induction stages generalizing before with
  | nil => exact Iff.rfl
  | cons c rest ih =>
    have hhead :=
      Connection.exchange_idle_iff (f := controlFrame .resetSession session) (.inr rfl) c session
    rw [controlFrom]
    cases hreply : (c.exchange (controlFrame .resetSession session)).2 with
    | error e => rw [List.forall_mem_cons, List.forall_mem_cons, hhead]
    | ok output =>
      dsimp only
      split_ifs
      · rw [List.forall_mem_cons, List.forall_mem_cons, hhead]
      · rw [List.forall_mem_cons, List.forall_mem_cons, hhead]
      · rw [List.forall_mem_cons, List.forall_mem_cons, hhead, ih]

/-- The reset of a session that is in no request at any stage, over links that carry it. -/
lemma controlFrom_reset (hsession : session ≠ 0) (before : Option Nat)
    (hlinks : ∀ c ∈ stages, c.carries 2) (hidle : ∀ c ∈ stages, c.Idle session) :
    (controlFrom (controlFrame .resetSession session) before stages).2 = .ok () ∧
      ∀ c ∈ (controlFrom (controlFrame .resetSession session) before stages).1,
        c.Holds session fun s => s.cleared = s := by
  induction stages generalizing before with
  | nil =>
    refine ⟨rfl, fun c hc => ?_⟩
    cases hc
  | cons c rest ih =>
    rw [List.forall_mem_cons] at hlinks hidle
    obtain ⟨s, hs, hactive⟩ := hidle.1
    have hacks : c.acks (controlFrame .resetSession session) :=
      (Connection.acks_reset hsession hs).mpr ⟨hlinks.1, hactive⟩
    have hlookup :=
      Connection.lookup_reset hsession hs (Connection.carries_of_le hlinks.1 (by decide))
    have hcleared := (Session.reset_ok (Session.reset_of_idle hsession hactive).1).2
    rw [hcleared] at hlookup
    rw [controlFrom]
    rw [Connection.acks] at hacks
    cases hreply : (c.exchange (controlFrame .resetSession session)).2 with
    | error e =>
      rw [hreply] at hacks
      cases hacks
    | ok output =>
      rw [hreply] at hacks
      obtain ⟨hok, hall⟩ := ih (some output.position) hlinks.2 hidle.2
      dsimp only at hacks ⊢
      rw [hacks, if_neg (by decide), if_neg fun h => by cases h.1]
      exact ⟨hok, List.forall_mem_cons.mpr ⟨⟨_, hlookup, rfl⟩, hall⟩⟩

/-- A session with a prepared chat: `kept` of the prompt's `rows` tokens stay, the first stage has
the others and the last one samples after all of them. -/
structure Session.Prepared (m : StageModel H) (json : String) (kept rows : Nat) (s : Session H) :
    Prop where
  idle : s.activeRequest = 0
  position : s.position = kept
  chat : s.chatRequest = true
  prompt : ∃ prompt sampling, m.template json = some (prompt, sampling) ∧
    (m.tokenize prompt).length = rows ∧
    (m.first → s.chatPending = true ∧ s.chatTokens = (m.tokenize prompt).drop kept) ∧
    (m.last → s.chatSampler = some ⟨sampling, m.tokenize prompt⟩)

lemma exchange_prepared {c : Connection H} {reply : Frame H}
    (h : (c.exchange (prepareFrame session position json)).2 = .ok reply) :
    (c.exchange (prepareFrame session position json)).1.Holds session
      (Session.Prepared (c.exchange (prepareFrame session position json)).1.stage.model json
        reply.position
        reply.rows) := by
  obtain ⟨hstage, hhandle⟩ := Connection.exchange_ok h
  rw [Stage.handle] at hhandle
  obtain ⟨-, s, -, hreply, hlookup⟩ := Stage.onSession_answered hhandle
  obtain ⟨hidle, prompt, sampling, htemplate, -, -, -, hsession, hout⟩ :=
    Session.prepareChat_prepared hreply
  rw [Connection.Holds, hstage, Stage.handle_model]
  refine ⟨_, hlookup, ?_⟩
  rw [hsession, hout]
  refine ⟨hidle, rfl, rfl, prompt, sampling, htemplate, rfl, fun hfirst => ⟨?_, if_pos hfirst⟩,
    fun hlast => if_pos hlast⟩
  exact Bool.or_eq_true_iff.mpr (.inl hfirst)

/-- Where every stage replied as expected they agree with the last reply. -/
lemma prepareFrom_prepared (h : (prepareFrom session json before position stages).2 = .ok last) :
    (stages = [] ∧ last = before) ∨
      ∃ prepared, last = some prepared ∧
        (∀ reply, before = some reply → reply.position = prepared.position ∧
          reply.rows = prepared.rows) ∧
        ∀ c ∈ (prepareFrom session json before position stages).1,
          c.Holds session
            (Session.Prepared c.stage.model json prepared.position prepared.rows) := by
  induction stages generalizing before position with
  | nil => exact .inl ⟨rfl, (Except.ok.inj h).symm⟩
  | cons c rest ih =>
    right
    rw [prepareFrom] at h ⊢
    cases hreply : (c.exchange (prepareFrame session position json)).2 with
    | error e =>
      rw [hreply] at h
      cases h
    | ok reply =>
      have hhead := exchange_prepared hreply
      rw [hreply] at h
      dsimp only at h ⊢
      split_ifs at h ⊢ with hchecked
      · rw [Bool.not_eq_true', Bool.not_eq_false, preparedReply, Bool.and_eq_true] at hchecked
        have hbefore : ∀ earlier, before = some earlier → earlier.position = reply.position ∧
            earlier.rows = reply.rows := by
          rintro earlier rfl
          have hsame := hchecked.2
          rw [Option.all_some, Bool.and_eq_true, decide_eq_true_eq, decide_eq_true_eq] at hsame
          exact ⟨hsame.1.symm, hsame.2.symm⟩
        rcases ih h with ⟨rfl, rfl⟩ | ⟨prepared, hlast, hsame, hrest⟩
        · refine ⟨reply, rfl, hbefore, fun c' hc' => ?_⟩
          obtain rfl := List.mem_singleton.mp hc'
          exact hhead
        · obtain ⟨hposition, hrows⟩ := hsame reply rfl
          refine ⟨prepared, hlast, fun earlier hearlier => ?_, List.forall_mem_cons.mpr ⟨?_, hrest⟩⟩
          · obtain ⟨hearlier, hearlierRows⟩ := hbefore earlier hearlier
            exact ⟨hearlier.trans hposition, hearlierRows.trans hrows⟩
          · rw [← hposition, ← hrows]
            exact hhead

namespace InferenceClient

variable {cl : InferenceClient H} {state : SessionState}

/-- What `prepare_chat` promises of the client before and after it and of what it returned or threw,
as long as the links hold. -/
structure Atomic (session : Nat) (json : String) (cl : InferenceClient H)
    (after : InferenceClient H × Except String (Frame H)) : Prop where
  returned : ∀ prepared, after.2 = .ok prepared →
    (∀ c ∈ after.1.stages,
      c.Holds session (Session.Prepared c.stage.model json prepared.position prepared.rows)) ∧
    (after.1.sessions.lookup session).map (·.position) = some prepared.position
  thrown : ∀ e, after.2 = .error e → (∀ c ∈ cl.stages, c.carries 4) →
    (∀ c ∈ after.1.stages, c.Holds session fun s => s.cleared = s) ∧
    (after.1.sessions.lookup session).map (·.position) = some 0

/-- No stage's session enters or leaves a request. -/
lemma prepareChat_idle_iff (cl : InferenceClient H) (session : Nat) (json : String) :
    (∀ c ∈ (cl.prepareChat session json).1.stages, c.Idle session) ↔
      ∀ c ∈ cl.stages, c.Idle session := by
  have hasked := prepareFrom_asked session json none 0 cl.stages
  rw [prepareChat]
  cases cl.sessions.lookup session with
  | none => exact Iff.rfl
  | some state =>
    rw [← forall_idle_iff hasked]
    dsimp only
    rcases prepareFrom session json none 0 cl.stages with ⟨stages, e | last⟩
    · rw [← controlFrom_idle_iff session none stages]
      dsimp only [controlAll]
      rcases controlFrom (controlFrame .resetSession session) none stages with
        ⟨stages, failure | ⟨⟩⟩
      · exact Iff.rfl
      · exact Iff.rfl
    · exact Iff.rfl

lemma prepareChat_returned (hopen : cl.sessions.lookup session = some state) {prepared : Frame H}
    (h : (cl.prepareChat session json).2 = .ok prepared) :
    (∀ c ∈ (cl.prepareChat session json).1.stages,
      c.Holds session (Session.Prepared c.stage.model json prepared.position prepared.rows)) ∧
    ((cl.prepareChat session json).1.sessions.lookup session).map (·.position) =
      some prepared.position := by
  rw [prepareChat, hopen] at h ⊢
  dsimp only at h ⊢
  cases hall : prepareFrom session json none 0 cl.stages with
  | mk stages result =>
    rw [hall] at h
    cases result with
    | error e =>
      dsimp only at h
      rcases hreset : controlAll stages .resetSession session with ⟨done, failure | ⟨⟩⟩
      · rw [hreset] at h
        cases h
      · rw [hreset] at h
        cases h
    | ok last =>
      have hprepared := prepareFrom_prepared (congrArg Prod.snd hall)
      rw [hall] at hprepared
      cases h
      dsimp only at hprepared ⊢
      rw [AList.lookup_insert]
      refine ⟨?_, rfl⟩
      rcases hprepared with ⟨hnone, -⟩ | ⟨prepared, rfl, -, hstages⟩
      · rw [hnone] at hall
        cases hall
        intro c hc
        cases hc
      · exact hstages

lemma prepareChat_thrown (hsession : session ≠ 0) (hopen : cl.sessions.lookup session = some state)
    {e : String}
    (h : (cl.prepareChat session json).2 = .error e) (hlinks : ∀ c ∈ cl.stages, c.carries 4)
    (hidle : ∀ c ∈ cl.stages, c.Idle session) :
    (∀ c ∈ (cl.prepareChat session json).1.stages, c.Holds session fun s => s.cleared = s) ∧
    ((cl.prepareChat session json).1.sessions.lookup session).map (·.position) = some 0 := by
  have hasked := prepareFrom_asked session json none 0 cl.stages
  rw [prepareChat, hopen] at h ⊢
  dsimp only at h ⊢
  cases hall : prepareFrom session json none 0 cl.stages with
  | mk stages result =>
    rw [hall] at h hasked
    cases result with
    | ok last => cases h
    | error first =>
      have hreset := controlFrom_reset hsession none (forall_carries hasked hlinks)
        ((forall_idle_iff hasked).mpr hidle)
      rw [← controlAll] at hreset
      obtain ⟨hreset, hcleared⟩ := hreset
      dsimp only at h ⊢
      cases hdone : controlAll stages .resetSession session with
      | mk done outcome =>
        rw [hdone] at hreset hcleared
        cases hreset
        dsimp only at hcleared ⊢
        rw [AList.lookup_insert]
        exact ⟨hcleared, rfl⟩

/-- `prepare_chat` is atomic exactly if no stage has a request of the session active. -/
theorem prepareChat_atomic_iff (json : String) (hsession : session ≠ 0)
    (hopen : cl.sessions.lookup session = some state) :
    Atomic session json cl (cl.prepareChat session json) ↔
      ((∀ c ∈ cl.stages, c.carries 4) →
        ∀ c ∈ cl.stages, c.Holds session (·.activeRequest = 0)) := by
  constructor
  · intro hatomic hlinks
    refine (prepareChat_idle_iff cl session json).mp fun c hc => ?_
    cases hreply : (cl.prepareChat session json).2 with
    | ok prepared =>
      obtain ⟨s, hs, hprepared⟩ := (hatomic.returned prepared hreply).1 c hc
      exact ⟨s, hs, hprepared.idle⟩
    | error e =>
      obtain ⟨s, hs, hcleared⟩ := (hatomic.thrown e hreply hlinks).1 c hc
      exact ⟨s, hs, hcleared ▸ rfl⟩
  · intro hidle
    exact ⟨fun prepared h => prepareChat_returned hopen h,
      fun e h hlinks => prepareChat_thrown hsession hopen h hlinks (hidle hlinks)⟩

/-- A client with session 1 open on a route. -/
def withSession (stages : List (Connection Unit)) : InferenceClient Unit :=
  { stages, hidden := 1, sessions := (∅ : AList fun _ : Nat => SessionState).insert 1 {} }

/-- A route whose stages know a chat template. -/
def chatRoute : List (Connection Unit) :=
  [true, false].map fun first =>
    { stage := openStage { twoStageModel first with template := fun _ => some ("hi", {}) } }

theorem prepareChat_atomic_chatRoute :
    ((withSession chatRoute).prepareChat 1 "hello").2 =
      .ok { type := .ack, session := 1, rows := 2 } ∧
    Atomic 1 "hello" (withSession chatRoute) ((withSession chatRoute).prepareChat 1 "hello") := by
  refine ⟨by decide, (prepareChat_atomic_iff "hello" (by decide) rfl).mpr fun _ c hc => ?_⟩
  rcases List.mem_pair.mp hc with rfl | rfl
  · exact ⟨_, rfl, rfl⟩
  · exact ⟨_, rfl, rfl⟩

/-- The last stage kept part of a prompt whose request failed. The first stage has no template for
the chat, and the reset after that stops at the last one, whose session is left as it was. -/
theorem prepareChat_not_atomic :
    ¬ ∀ (cl : InferenceClient Unit) (session : Nat) (json : String), session ≠ 0 →
      session ∈ cl.sessions →
      (∀ c ∈ cl.stages, c.stage.Reachable) →
        Atomic session json cl (cl.prepareChat session json) := by
  intro h
  have hreach : ∀ c ∈ (withSession (recover 1 1 partialPrompt).1).stages, c.stage.Reachable := by
    intro c hc
    rcases List.mem_pair.mp hc with rfl | rfl
    · exact .handle _ _ _ (.handle _ _ _ (partialPrompt_reachable _ List.mem_cons_self))
    · exact .handle _ _ _
        (.handle _ _ _ (partialPrompt_reachable _ (List.mem_cons_of_mem _ List.mem_cons_self)))
  have hatomic :=
    h (withSession (recover 1 1 partialPrompt).1) 1 "hi" (by decide) (by decide) hreach
  have hlinks : ∀ c ∈ (withSession (recover 1 1 partialPrompt).1).stages, c.carries 4 := by
    intro c hc
    rcases List.mem_pair.mp hc with rfl | rfl
    · rfl
    · rfl
  obtain ⟨s, hs, hcleared⟩ := (hatomic.thrown "cannot reset active session" (by decide) hlinks).1 _
    (List.mem_cons_of_mem _ List.mem_cons_self)
  have hactive := congrArg (Option.map Session.activeRequest) hs
  have hzero : s.activeRequest = 0 := by
    rw [← hcleared]
    rfl
  rw [Option.map_some, hzero] at hactive
  exact absurd hactive (by decide)

end InferenceClient

end ProviderOwned
