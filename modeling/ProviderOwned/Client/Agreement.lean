import ProviderOwned.Client.Generate
import ProviderOwned.Lib.Transition

/-!
# The client's idea of a session's position

`InferenceClient` keeps a position for every session and sends the next prompt there. The stages
keep their own. Both are moved by every call; this file follows the calls of a client, stage by
stage and in loop mode, and compares the two after each of them.

In loop mode the stages work among themselves while the client listens. Which frames they exchange
and what the client receives is left open: the stages may handle any frames of the running session,
and the client may receive anything. What makes the positions agree is the end of the request: a
commit is acknowledged by every stage at the client's position or the call throws.
-/

namespace ProviderOwned

variable {H : Type*}

/-- A frame of the ring at the stage with this index, and how its decode calls turn out. -/
structure RingMove (H : Type*) where
  index : Nat
  input : Frame H
  chunk : Nat
  ok : Nat → Bool

/-- What the workers do during one streamed request: their answers to the budget and to a cancel,
how the first stage takes the prompt, the frames the ring makes the stages handle, and the frames
that reach the client. -/
structure Stream (H : Type*) where
  accepted : Except String (Frame H)
  chunk : Nat
  ok : Nat → Bool
  moves : List (RingMove H)
  frames : List (Frame H)
  stopped : Except String (Frame H)

/-- The stage at `index` handles a frame. -/
def handleAt (stages : List (Connection H)) (move : RingMove H) : List (Connection H) :=
  stages.modify move.index fun c =>
    { c with stage := (c.stage.handle move.input move.chunk move.ok).1 }

/-- The ring at work: frames of the running session only. -/
def ringWork (session : Nat) (stages : List (Connection H)) (moves : List (RingMove H)) :
    List (Connection H) :=
  (moves.filter (·.input.session = session)).foldl handleAt stages

/-- The frame that tells the last stage's worker how many tokens it may stream. -/
def budgetFrame (c : Call) : Frame H :=
  { type := .streamPrompt, session := c.session, request := c.request, rows := c.limit }

def cancelFrame (c : Call) : Frame H :=
  { type := .cancelRequest, session := c.session, request := c.request }

/-- The loop of `generate_loop` over the frames that arrive. -/
def readStream (c : Call) (stopped : Except String (Frame H)) :
    List (Frame H) → Bool → RequestResult → Except String RequestResult
  | [], _, _ => .error "peer disconnected while receiving frame"
  | frame :: frames, cancelling, out =>
    match requireStreamed frame c.session c.request with
    | .error e => .error e
    | .ok token =>
      let out := { out.record c.sink token.token token.text token.eog with
        position := token.position }
      if frame.type = .result then .ok out
      else if out.cancelled ∧ !cancelling then
        match stopped with
        | .error e => .error e
        | .ok reply =>
          if requireAck reply (cancelFrame c) then readStream c stopped frames true out
          else .error "invalid provider acknowledgement"
      else readStream c stopped frames cancelling out

/-- `generate_loop` up to the end of its stream. -/
def streamAnswer (c : Call) (stages : List (Connection H)) (position : Nat) (prompt : String)
    (stream : Stream H) : List (Connection H) × Except String RequestResult :=
  match stream.accepted with
  | .error e => (stages, .error e)
  | .ok reply =>
    if !requireAck reply (budgetFrame c) then (stages, .error "invalid provider acknowledgement")
    else
      (ringWork c.session
        (handleAt stages ⟨0, promptFrame c.session c.request position prompt, stream.chunk,
          stream.ok⟩) stream.moves,
       readStream c stream.stopped stream.frames false {})

def generateLoop (c : Call) (stages : List (Connection H)) (position : Nat) (prompt : String)
    (preserve : Bool) (stream : Stream H) : List (Connection H) × Except String RequestResult :=
  match streamAnswer c stages position prompt stream with
  | (stages, .error e) => (stages, .error e)
  | (stages, .ok out) => closeRequest c position preserve stages out

structure SessionState where
  position : Nat := 0
  nextRequest : Nat := 1
  deriving DecidableEq, Repr

/-- `class InferenceClient`: its route and the sessions it has on it. -/
structure InferenceClient (H : Type*) where
  stages : List (Connection H)
  hidden : Nat
  sessions : AList fun _ : Nat => SessionState := ∅

inductive ClientCall (H : Type*)
  | createSession (session : Nat)
  | resetSession (session : Nat)
  | generate (session : Nat) (prompt : String) (limit : Nat) (sink : TokenSink)
  | generateLoop (session : Nat) (prompt : String) (limit : Nat) (sink : TokenSink)
      (stream : Stream H)

namespace InferenceClient

/-- `InferenceClient::create_session`; `session` is the id `new_session_id` drew. -/
def createSession (cl : InferenceClient H) (session : Nat) : Option (InferenceClient H) :=
  if cl.stages = [] ∨ session = 0 ∨ session ∈ cl.sessions then none
  else match controlAll cl.stages .createSession session with
    | (_, .error _) => none
    | (stages, .ok ()) => some { cl with stages, sessions := cl.sessions.insert session {} }

def resetSession (cl : InferenceClient H) (session : Nat) : Option (InferenceClient H) :=
  match cl.sessions.lookup session with
  | none => none
  | some state =>
    match controlAll cl.stages .resetSession session with
    | (_, .error _) => none
    | (stages, .ok ()) =>
      some { cl with stages, sessions := cl.sessions.insert session { state with position := 0 } }

/-- The arguments of a request of `session`. -/
def call (cl : InferenceClient H) (session : Nat) (state : SessionState) (limit : Nat)
    (sink : TokenSink) : Call :=
  { hidden := cl.hidden, session, request := state.nextRequest, limit, sink }

/-- The client after a request that returned `out`. -/
def settle (cl : InferenceClient H) (session : Nat) (state : SessionState)
    (stages : List (Connection H)) (out : RequestResult) : InferenceClient H :=
  { cl with
    stages
    sessions := cl.sessions.insert session
      { position := out.position, nextRequest := state.nextRequest + 1 } }

/-- `InferenceClient::generate` on a route without a ring. -/
def generate (cl : InferenceClient H) (session : Nat) (prompt : String) (limit : Nat)
    (sink : TokenSink) : Option (InferenceClient H) :=
  match cl.sessions.lookup session with
  | none => none
  | some state =>
    match ProviderOwned.generate (cl.call session state limit sink) cl.stages state.position prompt
        true (none : Option (Speculation Unit)) with
    | (_, .error _) => none
    | (stages, .ok out) => some (cl.settle session state stages out)

/-- `InferenceClient::generate` in loop mode. -/
def generateLoop (cl : InferenceClient H) (session : Nat) (prompt : String) (limit : Nat)
    (sink : TokenSink) (stream : Stream H) : Option (InferenceClient H) :=
  match cl.sessions.lookup session with
  | none => none
  | some state =>
    match ProviderOwned.generateLoop (cl.call session state limit sink) cl.stages state.position
        prompt true stream with
    | (_, .error _) => none
    | (stages, .ok out) => some (cl.settle session state stages out)

/-- A call that returns; one that throws is no step. -/
def step (cl : InferenceClient H) : ClientCall H → Option (InferenceClient H)
  | .createSession session => cl.createSession session
  | .resetSession session => cl.resetSession session
  | .generate session prompt limit sink => cl.generate session prompt limit sink
  | .generateLoop session prompt limit sink stream =>
    cl.generateLoop session prompt limit sink stream

/-- A client on a route it has no session on. -/
def system (stages : List (Connection H)) (hidden : Nat) :
    Transition.System (InferenceClient H) (ClientCall H) where
  init := { stages, hidden }
  step := step

end InferenceClient

/-- A reply that passes for an activation is of the frame's session and request, at its position. -/
lemma requireActivation_ok {f reply next : Frame H} {hidden : Nat} {expected : FrameType}
    (h : requireActivation reply f hidden expected = .ok next) :
    next = reply ∧ reply.type = expected ∧ reply.session = f.session ∧
      reply.request = f.request ∧ reply.position = f.position := by
  rw [requireActivation] at h
  split_ifs at h with hmeta
  simp only [not_or, not_not] at hmeta
  obtain ⟨htype, hsession, hrequest, hposition, -⟩ := hmeta
  refine ⟨?_, htype, hsession, hrequest, hposition⟩
  split at h
  · split_ifs at h
    cases h
    rfl
  · cases h

/-! ### Other sessions -/

/-- The two routes differ in one session at most. -/
def SameBut (session : Nat) : List (Connection H) → List (Connection H) → Prop :=
  List.Forall₂ fun c c' =>
    ∀ id, id ≠ session → c'.stage.sessions.lookup id = c.stage.sessions.lookup id

namespace SameBut

variable {session : Nat} {stages stages' done : List (Connection H)}

lemma refl (session : Nat) (stages : List (Connection H)) : SameBut session stages stages :=
  List.forall₂_same.mpr fun _ _ _ _ => rfl

lemma trans (h : SameBut session stages stages') (h' : SameBut session stages' done) :
    SameBut session stages done := by
  induction h generalizing done with
  | nil => exact h'
  | cons hhead _ ih =>
    cases h' with
    | cons hhead' hrest' =>
      exact .cons (fun id hid => (hhead' id hid).trans (hhead id hid)) (ih hrest')

lemma of_mem (h : SameBut session stages done) {c' : Connection H} (hc' : c' ∈ done) :
    ∃ c ∈ stages, ∀ id, id ≠ session →
      c'.stage.sessions.lookup id = c.stage.sessions.lookup id := by
  induction h with
  | nil => cases hc'
  | cons hhead _ ih =>
    rcases List.mem_cons.mp hc' with rfl | hrest
    · exact ⟨_, List.mem_cons_self, hhead⟩
    · obtain ⟨c, hc, hrel⟩ := ih hrest
      exact ⟨c, List.mem_cons_of_mem _ hc, hrel⟩

lemma exchange (c : Connection H) (f : Frame H) {id : Nat} (hid : id ≠ f.session) :
    (c.exchange f).1.stage.sessions.lookup id = c.stage.sessions.lookup id := by
  rw [Connection.exchange]
  split_ifs
  · rfl
  · exact c.stage.lookup_handle_of_ne f 0 _ hid
  · exact c.stage.lookup_handle_of_ne f 0 _ hid

lemma relay {α : Type*} {hidden : Nat} {expected : FrameType} {none : String}
    {finish : Frame H → Frame H → Except String α} {f : Frame H} (hf : f.session = session) :
    SameBut session stages (relay hidden expected none finish stages f).1 := by
  induction stages generalizing f with
  | nil => exact .nil
  | cons c rest ih =>
    have hhead : ∀ id, id ≠ session →
        (c.exchange f).1.stage.sessions.lookup id = c.stage.sessions.lookup id := by
      intro id hid
      exact exchange c f (by rwa [hf])
    cases rest with
    | nil =>
      rw [ProviderOwned.relay]
      cases (c.exchange f).2 <;> exact .cons hhead .nil
    | cons c' rest =>
      rw [ProviderOwned.relay]
      · cases (c.exchange f).2 with
        | error e => exact .cons hhead (refl ..)
        | ok reply =>
          cases hnext : requireActivation reply f hidden expected with
          | error e =>
            simp only [hnext]
            exact .cons hhead (refl ..)
          | ok next =>
            simp only [hnext]
            refine .cons hhead (ih ?_)
            obtain ⟨rfl, -, hsame, -⟩ := requireActivation_ok hnext
            rw [hsame, hf]
      · exact List.cons_ne_nil _ _

lemma controlFrom {f : Frame H} (hf : f.session = session) (position : Option Nat) :
    SameBut session stages (controlFrom f position stages).1 := by
  induction stages generalizing position with
  | nil => exact .nil
  | cons c rest ih =>
    have hhead : ∀ id, id ≠ session →
        (c.exchange f).1.stage.sessions.lookup id = c.stage.sessions.lookup id := by
      intro id hid
      exact exchange c f (by rwa [hf])
    rw [ProviderOwned.controlFrom]
    cases (c.exchange f).2 with
    | error e => exact .cons hhead (refl ..)
    | ok output =>
      simp only
      split_ifs
      · exact .cons hhead (refl ..)
      · exact .cons hhead (refl ..)
      · exact .cons hhead (ih _)

lemma rollbackAll (session request position : Nat) (stages : List (Connection H)) :
    SameBut session stages (rollbackAll session request position stages).1 := by
  induction stages with
  | nil => exact .nil
  | cons c rest ih =>
    have hhead : ∀ id, id ≠ session →
        (c.exchange (rollbackFrame session request position)).1.stage.sessions.lookup id =
          c.stage.sessions.lookup id := fun id hid => exchange c _ hid
    rw [ProviderOwned.rollbackAll]
    cases (c.exchange (rollbackFrame session request position)).2 with
    | error e => exact .cons hhead (refl ..)
    | ok output =>
      simp only
      split_ifs
      · exact .cons hhead (refl ..)
      · exact .cons hhead (refl ..)
      · exact .cons hhead ih

lemma decodeLoop {σ : Type*} (c : Call) (fuel : Nat) (out : RequestResult)
    (stages : List (Connection H)) :
    SameBut c.session stages
      (decodeLoop c fuel (none : Option (Speculation σ)) stages out).1 := by
  induction fuel generalizing stages out with
  | zero => exact refl ..
  | succ fuel ih =>
    rw [ProviderOwned.decodeLoop]
    split_ifs
    · have hround : SameBut c.session stages (plainRound c stages out).1 := by
        have hstep : SameBut c.session stages (routeStep stages
            (tokensFrame .token c.session c.request out.position 0 [out.finalToken]) c.hidden).1 :=
          relay rfl
        rw [plainRound]
        split <;> simpa only [*] using hstep
      rcases hplain : plainRound c stages out with ⟨stages', e | out'⟩
      · rwa [hplain] at hround
      · rw [hplain] at hround
        exact hround.trans (ih out' stages')
    · exact refl ..

lemma decodeAnswer {σ : Type*} (c : Call) (stages : List (Connection H)) (position : Nat)
    (prompt : String) :
    SameBut c.session stages
      (decodeAnswer c stages position prompt (none : Option (Speculation σ))).1 := by
  have hstep : SameBut c.session stages (routeStep stages
      (promptFrame c.session c.request position prompt) c.hidden).1 := relay rfl
  rw [ProviderOwned.decodeAnswer]
  rcases hroute : routeStep stages (promptFrame c.session c.request position prompt) c.hidden with
    ⟨stages', e | result⟩
  · rwa [hroute] at hstep
  · rw [hroute] at hstep
    exact hstep.trans (decodeLoop ..)

lemma handleAt {move : RingMove H} (hmove : move.input.session = session) :
    SameBut session stages (handleAt stages move) := by
  have hchange : ∀ (c : Connection H) id, id ≠ session →
      (c.stage.handle move.input move.chunk move.ok).1.sessions.lookup id =
        c.stage.sessions.lookup id := by
    intro c id hid
    exact c.stage.lookup_handle_of_ne _ _ _ (by rwa [hmove])
  rw [ProviderOwned.handleAt]
  generalize move.index = index
  induction stages generalizing index with
  | nil => cases index <;> exact .nil
  | cons c rest ih =>
    cases index with
    | zero => exact .cons (hchange c) (refl ..)
    | succ index => exact .cons (fun _ _ => rfl) (ih index)

lemma ringWork (session : Nat) (stages : List (Connection H)) (moves : List (RingMove H)) :
    SameBut session stages (ringWork session stages moves) := by
  rw [ProviderOwned.ringWork]
  induction moves generalizing stages with
  | nil => exact refl ..
  | cons move moves ih =>
    rw [List.filter_cons]
    split_ifs with hmove
    · exact (handleAt (by simpa using hmove)).trans (ih _)
    · exact ih stages

lemma streamAnswer (c : Call) (stages : List (Connection H)) (position : Nat) (prompt : String)
    (stream : Stream H) :
    SameBut c.session stages (streamAnswer c stages position prompt stream).1 := by
  rw [ProviderOwned.streamAnswer]
  split
  · exact refl ..
  · split_ifs
    · exact refl ..
    · refine trans (handleAt ?_) (ringWork ..)
      rfl

lemma closeRequest (c : Call) (position : Nat) (preserve : Bool) (stages : List (Connection H))
    (out : RequestResult) :
    SameBut c.session stages (closeRequest c position preserve stages out).1 := by
  have hcommit : SameBut c.session stages
      (commitFinalToken stages c.session c.request out.position out.finalToken c.hidden).1 := by
    rw [commitFinalToken]
    split_ifs with hnil
    · rw [hnil]
      exact .nil
    · exact relay rfl
  have hsettle : SameBut c.session stages
      (settleRequest c position preserve stages out).1 := by
    rw [settleRequest]
    split_ifs
    · have hroll := rollbackAll c.session c.request position stages
      split <;> simpa only [*] using hroll
    · split <;> simpa only [*] using hcommit
    · exact refl ..
  rw [ProviderOwned.closeRequest]
  rcases hsettled : settleRequest c position preserve stages out with ⟨stages', e | out'⟩
  · rwa [hsettled] at hsettle
  · rw [hsettled] at hsettle
    have hend : SameBut c.session stages'
        (controlAll stages' .endRequest c.session c.request).1 := by
      apply controlFrom
      rfl
    dsimp only
    split <;> simpa only [*] using hsettle.trans hend

end SameBut

/-! ### Where a commit leaves a stage -/

namespace Session

variable {m : StageModel H} {s : Session H} {f r : Frame H}

/-- The frames a commit travels in: one token, or its one row. -/
def IsCommit (f : Frame H) : Prop :=
  f.type = .commitToken ∨ f.type = .commitActivation ∧ f.rows = 1

lemma payloadRows_length {rows : List H} (h : payloadRows f = some rows) :
    rows.length = f.rows := by
  rw [payloadRows] at h
  split at h
  · split_ifs at h with hlength
    cases h
    exact hlength.1
  · cases h

lemma takeRows_ok {rows : List H} {bad : String} (h : s.takeRows m f bad = .ok rows) :
    f.type.isActivation = true ∧ f.position = s.position ∧ rows.length = f.rows := by
  cases hrows : payloadRows f with
  | none =>
    simp only [takeRows, hrows] at h
    split_ifs at h
  | some rows' =>
    simp only [takeRows, hrows] at h
    split_ifs at h with hmeta hcommit hsize
    simp only [not_or, Bool.not_eq_true', Bool.not_eq_false, not_not] at hmeta
    obtain ⟨htype, -, -, -, hposition⟩ := hmeta
    cases h
    exact ⟨htype, hposition, payloadRows_length hrows⟩

lemma tokenIds_length {payload : Payload H} {n : Nat} {ids : List Token}
    (h : payload.tokenIds n = some ids) : ids.length = n := by
  cases payload with
  | tokens ids' =>
    simp only [Payload.tokenIds] at h
    split_ifs at h with hlength
    cases h
    exact hlength
  | _ => cases h

/-- A commit of the first stage takes one token at the position of its frame. -/
lemma runFirst_commit (hf : IsCommit f) {ok : Nat → Bool}
    (h : (s.runFirst m f 0 ok).reply = .ok r) :
    (s.runFirst m f 0 ok).session.position = f.position + 1 ∧
      (r.type = .commitActivation → IsCommit r) := by
  rcases hf with htype | ⟨htype, -⟩
  · have hspec : isSpeculative f = false := by simp [isSpeculative, htype]
    have hrun : s.runFirst m f 0 ok = s.runToken m f 0 ok := by
      simp [runFirst, hspec, htype]
    rw [hrun] at h ⊢
    rw [runToken] at h ⊢
    simp only [hspec, Bool.false_eq_true, if_false] at h ⊢
    cases hids : f.payload.tokenIds 1 with
    | none => simp [hids] at h
    | some ids =>
      have hone : ids.length = 1 := tokenIds_length hids
      simp only [hids] at h ⊢
      split_ifs at h ⊢ with hbad hprompt
      · cases h
      · cases h
      · simp only [not_or, not_not] at hbad
        have hprefill : s.prefill m f ids 0 ok = (s, [], .ok (ids, 0)) := if_neg (by simp)
        rw [runTokens, hprefill] at h ⊢
        split_ifs at h ⊢ with hroom
        · cases h
        · simp only [finalBatch, htype, hspec, Bool.false_eq_true, if_true, if_false] at h ⊢
          split_ifs at h ⊢ with hdecoded hlast
          · cases h
          · cases h
            refine ⟨?_, fun hack => by cases hack⟩
            simp [appendTokens, append, hone, hbad.1]
          · cases h
            refine ⟨?_, fun _ => .inr ⟨rfl, hone⟩⟩
            simp [appendTokens, append, hone, hbad.1]
  · have hrun : s.runFirst m f 0 ok = s.throw "stage A expected prompt or token" := by
      simp [runFirst, isSpeculative, htype]
    rw [hrun] at h
    cases h

/-- A commit reaches a later stage as the one row of its frame. -/
lemma takeRows_commit (hf : IsCommit f) {rows : List H} {bad : String}
    (h : s.takeRows m f bad = .ok rows) :
    f.type = .commitActivation ∧ f.position = s.position ∧ rows.length = 1 ∧ f.rows = 1 := by
  obtain ⟨hactivation, hposition, hlength⟩ := takeRows_ok h
  rcases hf with htype | ⟨htype, hone⟩
  · rw [htype] at hactivation
    cases hactivation
  · exact ⟨htype, hposition, hlength.trans hone, hone⟩

lemma runLast_commit (hf : IsCommit f) {ok : Nat → Bool} (h : (s.runLast m f ok).reply = .ok r) :
    (s.runLast m f ok).session.position = f.position + 1 ∧
      (r.type = .commitActivation → IsCommit r) := by
  rw [runLast] at h ⊢
  by_cases hwidth : f.type = .speculativeActivation ∧ maxSpeculativeWidth < f.rows
  · rw [if_pos hwidth] at h
    cases h
  rw [if_neg hwidth] at h ⊢
  cases htake : s.takeRows m f "bad activation metadata" with
  | error e =>
    rw [htake] at h
    cases h
  | ok rows =>
    obtain ⟨htype, hposition, hlength, -⟩ := takeRows_commit hf htake
    simp only [htake] at h ⊢
    by_cases hdecoded : (!ok 0) = true
    · rw [if_pos hdecoded] at h
      cases h
    · rw [if_neg hdecoded, lastReply, if_pos (.inl htype)] at h ⊢
      cases h
      refine ⟨?_, fun hack => by cases hack⟩
      simp [append, notePrompt, hposition, hlength]

lemma runMiddle_commit (hf : IsCommit f) {ok : Nat → Bool}
    (h : (s.runMiddle m f ok).reply = .ok r) :
    (s.runMiddle m f ok).session.position = f.position + 1 ∧
      (r.type = .commitActivation → IsCommit r) := by
  rw [runMiddle] at h ⊢
  cases htake : s.takeRows m f "bad middle-stage activation metadata" with
  | error e =>
    rw [htake] at h
    cases h
  | ok rows =>
    obtain ⟨htype, hposition, hlength, hone⟩ := takeRows_commit hf htake
    simp only [htake] at h ⊢
    by_cases hdecoded : (!ok 0) = true
    · rw [if_pos hdecoded] at h
      cases h
    · rw [if_neg hdecoded] at h ⊢
      cases h
      refine ⟨?_, fun _ => .inr ⟨htype, hone⟩⟩
      simp [append, notePrompt, hposition, hlength]

/-- A stage that answers a commit has moved one past its position. -/
lemma execute_commit (hf : IsCommit f) {ok : Nat → Bool}
    (h : (s.execute m f 0 ok).reply = .ok r) :
    (s.execute m f 0 ok).session.position = f.position + 1 ∧
      (r.type = .commitActivation → IsCommit r) := by
  rw [execute] at h ⊢
  cases henter : s.enter m f with
  | error e =>
    rw [henter] at h
    cases h
  | ok t =>
    simp only [henter] at h ⊢
    by_cases hfirst : m.first = true
    · rw [if_pos hfirst] at h ⊢
      exact runFirst_commit hf h
    · rw [if_neg hfirst] at h ⊢
      by_cases hlast : m.last = true
      · rw [if_pos hlast] at h ⊢
        exact runLast_commit hf h
      · rw [if_neg hlast] at h ⊢
        exact runMiddle_commit hf h

end Session

/-! ### Where a call leaves the stages -/

/-- Every stage has the session, at position `p`. -/
def Stands (session p : Nat) (stages : List (Connection H)) : Prop :=
  ∀ c ∈ stages, c.Holds session (·.position = p)

section Stands

variable {session p : Nat} {c : Connection H} {stages : List (Connection H)} {f r : Frame H}

lemma Stands.cons (hc : c.Holds session (·.position = p)) (h : Stands session p stages) :
    Stands session p (c :: stages) :=
  List.forall_mem_cons.mpr ⟨hc, h⟩

/-- An exchange that returns a reply is one the far stage has handled. -/
lemma Connection.exchange_ok (h : (c.exchange f).2 = .ok r) :
    (c.exchange f).1.stage = (c.stage.handle f 0 fun _ => true).1 ∧
      (c.stage.handle f 0 fun _ => true).2.2 = .ok r := by
  rw [Connection.exchange] at h ⊢
  split_ifs at h ⊢
  exact ⟨rfl, h⟩

/-- An operation on a session the stage has answered for. -/
lemma Stage.onSession_ok {st : Stage H} {op : Session H → Handled H}
    (h : (st.onSession f op).2.2 = .ok r) :
    ∃ s, st.sessions.lookup f.session = some s ∧ (op s).reply = .ok r ∧
      (st.onSession f op).1.sessions.lookup f.session = some (op s).session := by
  rcases st.onSession_cases f op with ⟨e, heq⟩ | ⟨s, -, hs, heq⟩
  · rw [heq] at h
    cases h
  · rw [heq] at h ⊢
    exact ⟨s, hs, h, AList.lookup_insert _⟩

lemma exchange_commit (hf : Session.IsCommit f) (h : (c.exchange f).2 = .ok r) :
    (c.exchange f).1.Holds f.session (·.position = f.position + 1) ∧
      (r.type = .commitActivation → Session.IsCommit r) := by
  obtain ⟨hstage, hreply⟩ := Connection.exchange_ok h
  have hhandle : c.stage.handle f 0 (fun _ => true) =
      if f.request = 0 then (c.stage, [], .error "request ID must be nonzero")
      else c.stage.onSession f (·.execute c.stage.model f 0 fun _ => true) := by
    rw [Stage.handle]
    rcases hf with htype | ⟨htype, -⟩ <;> rw [htype]
  rw [hhandle] at hreply
  split_ifs at hreply with hrequest
  obtain ⟨s, -, hexecute, hlookup⟩ := Stage.onSession_ok hreply
  obtain ⟨hposition, hnext⟩ := Session.execute_commit hf hexecute
  refine ⟨⟨_, ?_, hposition⟩, hnext⟩
  rw [hstage, hhandle, if_neg hrequest]
  exact hlookup

/-- A commit that is acknowledged has moved every stage. -/
lemma relay_commit {hidden : Nat} {none : String} (hf : Session.IsCommit f)
    (hsession : f.session = session) (hposition : f.position = p)
    (h : (relay hidden .commitActivation none (requireCommitted p) stages f).2 = .ok ()) :
    Stands session (p + 1)
      (relay hidden .commitActivation none (requireCommitted p) stages f).1 := by
  induction stages generalizing f with
  | nil => cases h
  | cons c rest ih =>
    cases rest with
    | nil =>
      rw [relay] at h ⊢
      cases hreply : (c.exchange f).2 with
      | error e =>
        rw [hreply] at h
        cases h
      | ok reply =>
        simp only
        have hcommit := (exchange_commit hf hreply).1
        rw [hsession, hposition] at hcommit
        exact Stands.cons hcommit fun _ hnone => by cases hnone
    | cons c' rest =>
      have hne : c' :: rest = [] → False := List.cons_ne_nil _ _
      rw [relay.eq_3 _ _ _ _ _ _ _ hne] at h ⊢
      cases hreply : (c.exchange f).2 with
      | error e =>
        rw [hreply] at h
        cases h
      | ok reply =>
        simp only [hreply] at h ⊢
        obtain ⟨hcommit, hcarried⟩ := exchange_commit hf hreply
        rw [hsession, hposition] at hcommit
        cases hnext : requireActivation reply f hidden .commitActivation with
        | error e =>
          rw [hnext] at h
          cases h
        | ok next =>
          simp only [hnext] at h ⊢
          obtain ⟨rfl, htype, hsame, -, hat⟩ := requireActivation_ok hnext
          exact Stands.cons hcommit
            (ih (hcarried htype) (hsame.trans hsession) (hat.trans hposition) h)

/-- A control call that returns was answered by every stage. -/
lemma controlFrom_stands {q : Nat} (stages : List (Connection H)) (f : Frame H)
    (position : Option Nat)
    (hop : ∀ c ∈ stages, ∀ reply, (c.exchange f).2 = .ok reply →
      (c.exchange f).1.Holds session (·.position = q))
    (h : (controlFrom f position stages).2 = .ok ()) :
    Stands session q (controlFrom f position stages).1 := by
  induction stages generalizing position with
  | nil => exact fun _ hnone => by cases hnone
  | cons c rest ih =>
    rw [controlFrom] at h ⊢
    cases hreply : (c.exchange f).2 with
    | error e =>
      rw [hreply] at h
      cases h
    | ok output =>
      simp only [hreply] at h ⊢
      split_ifs at h ⊢
      have hhead := hop c List.mem_cons_self output hreply
      have hrest := ih _ (fun c' hc' => hop c' (List.mem_cons_of_mem _ hc')) h
      exact hrest.cons hhead

lemma exchange_create (h : (c.exchange (controlFrame .createSession session)).2 = .ok r) :
    (c.exchange (controlFrame .createSession session)).1.Holds session (·.position = 0) := by
  obtain ⟨hstage, hreply⟩ := Connection.exchange_ok h
  have hcreated : ((c.stage.create (controlFrame .createSession session)).1.sessions.lookup
      session) = some { sequence := c.stage.sequenceUsed.idxOf false } := by
    have hok : (c.stage.create (controlFrame .createSession session)).2 = .ok r := hreply
    rw [Stage.create] at hok ⊢
    split_ifs at hok ⊢
    exact AList.lookup_insert _
  refine ⟨{ sequence := c.stage.sequenceUsed.idxOf false }, ?_, rfl⟩
  rw [hstage]
  exact hcreated

/-- A control frame that is answered was run on the session it names. -/
lemma exchange_control {type : FrameType} {request : Nat} (required : Bool)
    (op : Session H → Handled H)
    (hhandle : c.stage.handle (controlFrame type session request) 0 (fun _ => true) =
      if !requireControl (controlFrame (H := H) type session request) required then
        (c.stage, [], .error "invalid control frame")
      else c.stage.onSession (controlFrame type session request) op)
    (h : (c.exchange (controlFrame type session request)).2 = .ok r) :
    ∃ s, c.stage.sessions.lookup session = some s ∧ (op s).reply = .ok r ∧
      (c.exchange (controlFrame type session request)).1.stage.sessions.lookup session =
        some (op s).session := by
  obtain ⟨hstage, hreply⟩ := Connection.exchange_ok h
  rw [hhandle] at hstage hreply
  by_cases hcontrol : (!requireControl (controlFrame (H := H) type session request) required) = true
  · rw [if_pos hcontrol] at hreply
    cases hreply
  · rw [if_neg hcontrol] at hstage hreply
    obtain ⟨s, hs, hop, hlookup⟩ := Stage.onSession_ok hreply
    exact ⟨s, hs, hop, by rw [hstage]; exact hlookup⟩

lemma exchange_reset (h : (c.exchange (controlFrame .resetSession session)).2 = .ok r) :
    (c.exchange (controlFrame .resetSession session)).1.Holds session (·.position = 0) := by
  obtain ⟨s, -, hop, hlookup⟩ := exchange_control false
    (·.reset (controlFrame .resetSession session)) rfl h
  refine ⟨_, hlookup, ?_⟩
  dsimp only at hop ⊢
  rw [Session.reset] at hop ⊢
  split_ifs at hop ⊢
  · cases hop
  · cases hop
  · rfl

lemma exchange_end {request : Nat} (hc : c.Holds session (·.position = p))
    (h : (c.exchange (controlFrame .endRequest session request)).2 = .ok r) :
    (c.exchange (controlFrame .endRequest session request)).1.Holds session (·.position = p) := by
  obtain ⟨s, hs, hposition⟩ := hc
  obtain ⟨s', hs', -, hlookup⟩ := exchange_control true
    (·.endRequest (controlFrame .endRequest session request)) rfl h
  have hsame : s' = s := Option.some.inj (hs'.symm.trans hs)
  refine ⟨_, hlookup, ?_⟩
  dsimp only
  rw [Session.endRequest_position, hsame, hposition]

lemma commitFinalToken_stands (stages : List (Connection H)) (session request p : Nat)
    (token : Token) (hidden : Nat)
    (h : (commitFinalToken stages session request p token hidden).2 = .ok ()) :
    Stands session (p + 1) (commitFinalToken stages session request p token hidden).1 := by
  rw [commitFinalToken] at h ⊢
  split_ifs at h ⊢
  · exact fun _ hnone => by cases hnone
  · have hcommit : Session.IsCommit (commitFrame (H := H) session request p token) := .inl rfl
    exact relay_commit hcommit rfl rfl h

lemma endRequest_stands (request : Nat) (hstands : Stands session p stages)
    (h : (controlAll stages .endRequest session request).2 = .ok ()) :
    Stands session p (controlAll stages .endRequest session request).1 := by
  rw [controlAll] at h ⊢
  exact controlFrom_stands _ _ none (fun c hc _ hreply => exchange_end (hstands c hc) hreply) h

/-- A request that returns without a cancel leaves every stage where it says it is. -/
lemma closeRequest_stands {call : Call} {position : Nat} {out out' : RequestResult}
    {done : List (Connection H)} (hkept : out.cancelled = false)
    (h : closeRequest call position true stages out = (done, .ok out')) :
    Stands call.session out'.position done := by
  rw [closeRequest, settleRequest, if_neg (by simp [hkept]), if_pos rfl] at h
  have hcommitted := commitFinalToken_stands stages call.session call.request out.position
    out.finalToken call.hidden
  rcases hcommit : commitFinalToken stages call.session call.request out.position out.finalToken
    call.hidden with ⟨stages', e | ⟨⟩⟩
  · simp [hcommit] at h
  · rw [hcommit] at hcommitted
    have hended := endRequest_stands call.request (hcommitted rfl)
    simp only [hcommit] at h
    rcases hend : controlAll stages' .endRequest call.session call.request with ⟨ended, e | ⟨⟩⟩
    · simp [hend] at h
    · rw [hend] at hended
      simp only [hend] at h
      cases h
      exact hended rfl

end Stands

/-! ### What the sink said last -/

/-- The cancelled flag is the sink's answer to the last piece. -/
lemma decodeLoop_cancelled {σ : Type*} {c : Call} {fuel : Nat} {stages done : List (Connection H)}
    {out out' : RequestResult} (hout : out.cancelled = !c.sink out.offered)
    (h : decodeLoop c fuel (none : Option (Speculation σ)) stages out = (done, .ok out')) :
    out'.cancelled = !c.sink out'.offered := by
  induction fuel generalizing stages out with
  | zero => cases h
  | succ fuel ih =>
    rw [decodeLoop] at h
    by_cases hgo : c.goesOn out = true
    · rw [if_pos hgo] at h
      rcases hround : plainRound c stages out with ⟨stages', e | next⟩
      · simp [hround] at h
      · simp only [hround] at h
        refine ih ?_ h
        rw [plainRound] at hround
        split at hround
        · cases hround
        · cases hround
          rfl
    · rw [if_neg hgo] at h
      cases h
      exact hout

lemma decodeAnswer_cancelled {σ : Type*} {c : Call} {stages done : List (Connection H)}
    {position : Nat} {prompt : String} {out : RequestResult}
    (h : decodeAnswer c stages position prompt (none : Option (Speculation σ)) = (done, .ok out)) :
    out.cancelled = !c.sink out.offered := by
  rw [decodeAnswer] at h
  split at h
  · cases h
  · exact decodeLoop_cancelled rfl h

lemma readStream_cancelled {c : Call} {stopped : Except String (Frame H)} {frames : List (Frame H)}
    {cancelling : Bool} {out out' : RequestResult}
    (h : readStream c stopped frames cancelling out = .ok out') :
    out'.cancelled = !c.sink out'.offered := by
  induction frames generalizing cancelling out with
  | nil => cases h
  | cons frame frames ih =>
    rw [readStream] at h
    split at h
    · cases h
    · by_cases hresult : frame.type = .result
      · rw [if_pos hresult] at h
        cases h
        rfl
      · rw [if_neg hresult] at h
        split_ifs at h with hcancel
        · split at h
          · cases h
          · split_ifs at h
            exact ih h
        · exact ih h

namespace InferenceClient

variable {cl : InferenceClient H}

/-- The sink of a request accepts the last piece it is offered: the request does not end as
cancelled. -/
def SinkAccepts (cl : InferenceClient H) : ClientCall H → Prop
  | .generate session prompt limit sink =>
    ∀ state stages out, cl.sessions.lookup session = some state →
      decodeAnswer (cl.call session state limit sink) cl.stages state.position prompt
        (none : Option (Speculation Unit)) = (stages, .ok out) → sink out.offered = true
  | .generateLoop session prompt limit sink stream =>
    ∀ state stages out, cl.sessions.lookup session = some state →
      streamAnswer (cl.call session state limit sink) cl.stages state.position prompt stream =
        (stages, .ok out) → sink out.offered = true
  | .createSession _ | .resetSession _ => True

/-- Every session the client knows is at the client's position on every stage. -/
def Agrees (cl : InferenceClient H) : Prop :=
  ∀ session state, cl.sessions.lookup session = some state →
    Stands session state.position cl.stages

namespace Agrees

/-- A call that changes one session and brings the stages to the position it records. -/
lemma update (h : cl.Agrees) {session : Nat} {stages : List (Connection H)} {state : SessionState}
    (hsame : SameBut session cl.stages stages) (hstands : Stands session state.position stages) :
    Agrees { cl with stages, sessions := cl.sessions.insert session state } := by
  intro id state' hlookup
  by_cases hid : id = session
  · subst hid
    rw [AList.lookup_insert] at hlookup
    cases hlookup
    exact hstands
  · rw [AList.lookup_insert_ne hid] at hlookup
    intro c' hc'
    obtain ⟨c, hc, hsession⟩ := hsame.of_mem hc'
    obtain ⟨s, hs, hposition⟩ := h id state' hlookup c hc
    exact ⟨s, (hsession id hid).trans hs, hposition⟩

lemma createSession (h : cl.Agrees) {session : Nat} {cl' : InferenceClient H}
    (hstep : cl.createSession session = some cl') : cl'.Agrees := by
  rw [InferenceClient.createSession] at hstep
  split_ifs at hstep with hnew
  have hstands := controlFrom_stands cl.stages (controlFrame .createSession session) none
    (fun _ _ _ hreply => exchange_create hreply)
  have hsame : SameBut session cl.stages (controlAll cl.stages .createSession session).1 := by
    apply SameBut.controlFrom
    rfl
  rcases hcontrol : controlAll cl.stages .createSession session with ⟨stages, e | ⟨⟩⟩
  · simp [hcontrol] at hstep
  · rw [hcontrol] at hsame
    rw [← controlAll, hcontrol] at hstands
    simp only [hcontrol, Option.some.injEq] at hstep
    rw [← hstep]
    exact h.update hsame (hstands rfl)

lemma resetSession (h : cl.Agrees) {session : Nat} {cl' : InferenceClient H}
    (hstep : cl.resetSession session = some cl') : cl'.Agrees := by
  rw [InferenceClient.resetSession] at hstep
  have hstands := controlFrom_stands cl.stages (controlFrame .resetSession session) none
    (fun _ _ _ hreply => exchange_reset hreply)
  have hsame : SameBut session cl.stages (controlAll cl.stages .resetSession session).1 := by
    apply SameBut.controlFrom
    rfl
  split at hstep
  · cases hstep
  · rcases hcontrol : controlAll cl.stages .resetSession session with ⟨stages, e | ⟨⟩⟩
    · simp [hcontrol] at hstep
    · rw [hcontrol] at hsame
      rw [← controlAll, hcontrol] at hstands
      simp only [hcontrol, Option.some.injEq] at hstep
      rw [← hstep]
      exact h.update hsame (hstands rfl)

/-- The end of a request, whichever way its tokens came. -/
lemma settle (h : cl.Agrees) {session : Nat} {state : SessionState} {limit : Nat} {sink : TokenSink}
    {stages done : List (Connection H)} {out out' : RequestResult}
    (hsame : SameBut session cl.stages stages)
    (hcancelled : out.cancelled = !sink out.offered) (haccepts : sink out.offered = true)
    (hclose : closeRequest (cl.call session state limit sink) state.position true stages out =
      (done, .ok out')) : (cl.settle session state done out').Agrees := by
  have hkept : out.cancelled = false := by rw [hcancelled, haccepts, Bool.not_true]
  have hclosed := SameBut.closeRequest (cl.call session state limit sink) state.position true stages
    out
  rw [hclose] at hclosed
  exact h.update (hsame.trans hclosed) (closeRequest_stands hkept hclose)

lemma generate (h : cl.Agrees) {session limit : Nat} {prompt : String} {sink : TokenSink}
    {cl' : InferenceClient H} (hok : cl.SinkAccepts (.generate session prompt limit sink))
    (hstep : cl.generate session prompt limit sink = some cl') : cl'.Agrees := by
  rw [InferenceClient.generate] at hstep
  cases hstate : cl.sessions.lookup session with
  | none => simp [hstate] at hstep
  | some state =>
    simp only [hstate] at hstep
    rw [ProviderOwned.generate] at hstep
    have hsame := SameBut.decodeAnswer (σ := Unit) (cl.call session state limit sink) cl.stages
      state.position prompt
    rcases hanswer : decodeAnswer (cl.call session state limit sink) cl.stages state.position prompt
      (none : Option (Speculation Unit)) with ⟨stages, e | out⟩
    · simp [hanswer] at hstep
    · rw [hanswer] at hsame
      simp only [hanswer] at hstep
      rcases hclose : closeRequest (cl.call session state limit sink) state.position true stages out
        with ⟨done, e | out'⟩
      · simp [hclose] at hstep
      · simp only [hclose, Option.some.injEq] at hstep
        rw [← hstep]
        exact h.settle hsame (decodeAnswer_cancelled hanswer)
          (hok state stages out hstate hanswer) hclose

lemma generateLoop (h : cl.Agrees) {session limit : Nat} {prompt : String} {sink : TokenSink}
    {stream : Stream H} {cl' : InferenceClient H}
    (hok : cl.SinkAccepts (.generateLoop session prompt limit sink stream))
    (hstep : cl.generateLoop session prompt limit sink stream = some cl') : cl'.Agrees := by
  rw [InferenceClient.generateLoop] at hstep
  cases hstate : cl.sessions.lookup session with
  | none => simp [hstate] at hstep
  | some state =>
    simp only [hstate] at hstep
    rw [ProviderOwned.generateLoop] at hstep
    have hsame := SameBut.streamAnswer (cl.call session state limit sink) cl.stages state.position
      prompt stream
    rcases hanswer : streamAnswer (cl.call session state limit sink) cl.stages state.position prompt
      stream with ⟨stages, e | out⟩
    · simp [hanswer] at hstep
    · rw [hanswer] at hsame
      have hcancelled : out.cancelled = !sink out.offered := by
        rw [streamAnswer] at hanswer
        split at hanswer
        · cases hanswer
        · split_ifs at hanswer
          · cases hanswer
          · exact readStream_cancelled (congrArg Prod.snd hanswer)
      simp only [hanswer] at hstep
      rcases hclose : closeRequest (cl.call session state limit sink) state.position true stages out
        with ⟨done, e | out'⟩
      · simp [hclose] at hstep
      · simp only [hclose, Option.some.injEq] at hstep
        rw [← hstep]
        exact h.settle hsame hcancelled (hok state stages out hstate hanswer) hclose

end Agrees

/-- In every run of calls that return and whose requests do not end as cancelled, the client's
position of a session is that of every stage, so a prompt sent there is not refused for it. -/
theorem client_position_agrees {stages : List (Connection H)} {hidden : Nat}
    (h : (system stages hidden).Reachable SinkAccepts cl) (session : Nat) (state : SessionState)
    (hstate : cl.sessions.lookup session = some state) :
    ∀ c ∈ cl.stages, ∃ s, c.stage.sessions.lookup session = some s ∧
      s.position = state.position ∧
      ∀ request prompt t,
        s.enter c.stage.model (promptFrame session request state.position prompt) = .ok t →
        t.position = state.position := by
  have hagrees : cl.Agrees := by
    refine h.invariant (I := Agrees) ?_ ?_
    · intro session state hnone
      simp [system, AList.lookup_empty] at hnone
    · intro cl e cl' _ hagrees hok hstep
      cases e with
      | createSession session => exact hagrees.createSession hstep
      | resetSession session => exact hagrees.resetSession hstep
      | generate session prompt limit sink => exact hagrees.generate hok hstep
      | generateLoop session prompt limit sink stream => exact hagrees.generateLoop hok hstep
  intro c hc
  obtain ⟨s, hs, hposition⟩ := hagrees session state hstate c hc
  refine ⟨s, hs, hposition, ?_⟩
  intro request prompt t henter
  rw [Session.enter] at henter
  split_ifs at henter
  cases henter
  rw [Session.rewind, if_neg (by simp [promptFrame, hposition])]
  exact hposition

/-- A whole model in one stage; every prompt has four tokens. -/
def wholeModel : StageModel Unit where
  first := true
  last := true
  contextSize := 16
  maxSessions := 1
  hidden := 1
  wire := .f32le
  tokenize _ := [1, 1, 1, 1]
  embed _ := ()
  greedy _ := 0
  chat _ _ := 0
  template _ := none
  piece _ := "a"
  isEog _ := false

/-- A client on a route of that one stage. -/
def wholeClient : Transition.System (InferenceClient Unit) (ClientCall Unit) :=
  system [{ stage := Stage.load wholeModel }] 1

/-- One request of three tokens, all accepted. -/
theorem wholeClient_agrees :
    ∃ cl, wholeClient.Reachable SinkAccepts cl ∧
      cl.sessions.lookup 1 = some { position := 7, nextRequest := 2 } ∧
      ∀ c ∈ cl.stages, ∃ s, c.stage.sessions.lookup 1 = some s ∧ s.position = 7 := by
  have hinit : wholeClient.Reachable SinkAccepts wholeClient.init := .init
  have hcreated := hinit.step (ClientCall.createSession 1) trivial rfl
  have hrun := hcreated.step (ClientCall.generate 1 "hi" 3 fun _ => true)
    (fun _ _ _ _ _ => rfl) rfl
  refine ⟨_, hrun, rfl, ?_⟩
  intro c hc
  obtain ⟨s, hs, hposition, -⟩ := client_position_agrees hrun 1 ⟨7, 2⟩ rfl c hc
  exact ⟨s, hs, hposition⟩

/-- A sink that refuses the first token: the stage is rolled back to 0 and the client records 4, so
the next prompt of the session is refused. -/
theorem wholeClient_cancel_disagrees :
    ∃ cl, wholeClient.Reachable (fun _ _ => True) cl ∧
      cl.sessions.lookup 1 = some { position := 4, nextRequest := 2 } ∧
      ∃ c ∈ cl.stages, (∃ s, c.stage.sessions.lookup 1 = some s ∧ s.position = 0) ∧
        (c.exchange (promptFrame 1 2 4 "hi")).2 = .error "bad prompt frame" := by
  have hinit : wholeClient.Reachable (fun _ _ => True) wholeClient.init := .init
  have hcreated := hinit.step (ClientCall.createSession 1) trivial rfl
  have hrun := hcreated.step (ClientCall.generate 1 "hi" 3 fun _ => false) trivial rfl
  exact ⟨_, hrun, rfl, _, List.mem_cons_self, ⟨_, rfl, rfl⟩, rfl⟩

end InferenceClient

end ProviderOwned
