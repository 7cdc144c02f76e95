import ProviderOwned.Client.Basic
import ProviderOwned.Stage.Properties

/-!
# Recovery from a failed request

The failure path of the owner's `run_request`: `end_request` to every member with its errors
ignored, then `reset_session` to every member through `control_all`.

A member refuses `end_request` before it has seen the final prompt frame, and refuses
`reset_session` while a request is active. So a member that took only part of a prompt keeps its
request, and `control_all` stops there: `recover_idle_iff` says exactly which members come back.
-/

namespace ProviderOwned

variable {H : Type*}

/-- The failure path of `run_request`. -/
def recover (session request : Nat) (members : List (Connection H)) :
    List (Connection H) × Except String Unit :=
  controlAll
    (members.map fun c => (c.exchange (controlFrame .endRequest session request)).1)
    .resetSession session

/-! ### One member -/

namespace Session

/-- A session the two control frames bring back: it is idle, or in this request with its prompt. -/
def Settles (request : Nat) (s : Session H) : Prop :=
  s.activeRequest = 0 ∨ (s.activeRequest = request ∧ s.hasPrompt)

instance (request : Nat) (s : Session H) : Decidable (s.Settles request) :=
  inferInstanceAs (Decidable (_ ∨ _))

variable {s : Session H} {session request : Nat}

lemma requireControl_controlFrame (type : FrameType) (hsession : session ≠ 0) :
    requireControl (controlFrame type session : Frame H) = true := by
  simp [requireControl, controlFrame, emptyControl, Payload.isEmpty, hsession]

lemma requireControl_request (type : FrameType) (hsession : session ≠ 0) (hrequest : request ≠ 0) :
    requireControl (controlFrame type session request : Frame H) true = true := by
  simp [requireControl, controlFrame, emptyControl, Payload.isEmpty, hsession, hrequest]

/-- After `end_request` a session is in no request exactly if it settles. -/
lemma endRequest_idle_iff (hsession : session ≠ 0) (hrequest : request ≠ 0) :
    (s.endRequest (controlFrame .endRequest session request)).session.activeRequest = 0 ↔
      s.Settles request := by
  unfold endRequest Settles
  rw [requireControl_request _ hsession hrequest]
  by_cases hactive : s.activeRequest = request
  · cases s.hasPrompt <;> simp [controlFrame, hrequest, hactive]
  · simp [controlFrame, hactive]

lemma endRequest_lastRequest_le (f : Frame H) (h : s.lastRequest ≤ f.request) :
    (s.endRequest f).session.lastRequest ≤ f.request := by
  unfold endRequest
  split_ifs <;> simp [h]

lemma reset_of_active (hsession : session ≠ 0) (h : s.activeRequest ≠ 0) :
    s.reset (controlFrame .resetSession session) = s.throw "cannot reset active session" := by
  simp [reset, requireControl_controlFrame _ hsession, h]

lemma reset_of_idle (hsession : session ≠ 0) (h : s.activeRequest = 0) :
    (s.reset (controlFrame .resetSession session)).reply =
        .ok (ack (controlFrame .resetSession session)) ∧
      (s.reset (controlFrame .resetSession session)).session.activeRequest = 0 ∧
      (s.reset (controlFrame .resetSession session)).session.position = 0 ∧
      (s.reset (controlFrame .resetSession session)).session.lastRequest = 0 := by
  simp [reset, requireControl_controlFrame _ hsession, h]

/-- A frame that opens a request on a stage: the prompt at the first, rows of it at the others. -/
def opens (f : Frame H) : Prop :=
  f.type = .prompt ∨ f.type = .promptChunk ∨ f.type = .activation

/-- A session that is idle at position 0 and takes whatever comes next: a reset, a destroy, or a
request after `request`. -/
structure Accepts (m : StageModel H) (session request : Nat) (s : Session H) : Prop where
  idle : s.activeRequest = 0
  position : s.position = 0
  reset : (s.reset (controlFrame .resetSession session)).reply =
    .ok (ack (controlFrame .resetSession session))
  destroy : (s.destroy (controlFrame .destroySession session)).reply =
    .ok (ack (controlFrame .destroySession session))
  later : ∀ f : Frame H, opens f → request < f.request → f.position = 0 →
    ∃ t, s.enter m f = .ok t ∧ t.position = f.position ∧ t.hasPrompt = false

/-- An idle session at position 0 accepts everything, as its prompt flag is clear. -/
lemma accepts_of_idle {m : StageModel H} (hsession : session ≠ 0) (hclear : s.IdleClear)
    (hidle : s.activeRequest = 0) (hposition : s.position = 0) (hlast : s.lastRequest ≤ request) :
    s.Accepts m session request where
  idle := hidle
  position := hposition
  reset := (reset_of_idle hsession hidle).1
  destroy := by simp [destroy, requireControl_controlFrame _ hsession, hidle]
  later := by
    intro f hopens hlater hzero
    have hspec : f.type ≠ .speculativeActivation ∧ f.type ≠ .token := by
      rcases hopens with h | h | h <;> simp [h]
    refine ⟨{ s with activeRequest := f.request }, ?_, by simp [hposition, hzero], hclear hidle⟩
    have hnonzero : f.request ≠ 0 := by omega
    have hincreasing : ¬ f.request ≤ s.lastRequest := by omega
    simp [enter, rewind, hspec, hnonzero, hincreasing, hidle, hposition]

end Session

namespace Stage

variable {st : Stage H} {s : Session H} {session request : Nat}

lemma handle_endRequest (hsession : session ≠ 0) (hrequest : request ≠ 0)
    (hs : st.sessions.lookup session = some s) (chunk : Nat) (ok : Nat → Bool) :
    st.handle (controlFrame .endRequest session request) chunk ok =
      ({ st with
         sessions := st.sessions.insert session
           (s.endRequest (controlFrame .endRequest session request)).session },
       (s.endRequest (controlFrame .endRequest session request)).emitted,
       (s.endRequest (controlFrame .endRequest session request)).reply) := by
  refine Eq.trans (if_neg ?_) (onSession_of_lookup hsession hs _)
  simp [Session.requireControl_request _ hsession hrequest]

lemma handle_resetSession (hsession : session ≠ 0) (hs : st.sessions.lookup session = some s)
    (chunk : Nat) (ok : Nat → Bool) :
    st.handle (controlFrame .resetSession session) chunk ok =
      ({ st with
         sessions := st.sessions.insert session
           (s.reset (controlFrame .resetSession session)).session },
       (s.reset (controlFrame .resetSession session)).emitted,
       (s.reset (controlFrame .resetSession session)).reply) := by
  refine Eq.trans (if_neg ?_) (onSession_of_lookup hsession hs _)
  simp [Session.requireControl_controlFrame _ hsession]

end Stage

namespace Connection

variable {c : Connection H} {s : Session H} {session request : Nat}

/-- A member that answers both control frames: its link carries them and its session settles. -/
def Answers (session request : Nat) (c : Connection H) : Prop :=
  c.carries 4 ∧ c.Holds session (·.Settles request)

/-- The member's session takes whatever comes next. -/
def Accepts (session request : Nat) (c : Connection H) : Prop :=
  c.Holds session (·.Accepts c.stage.model session request)

lemma holds_iff (hs : c.stage.sessions.lookup session = some s) (P : Session H → Prop) :
    c.Holds session P ↔ P s := by
  simp [Holds, hs]

/-- Whether the member acknowledges `f`. -/
def acks (f : Frame H) (c : Connection H) : Bool :=
  match (c.exchange f).2 with
  | .error _ => false
  | .ok reply => requireAck reply f

lemma carries_of_le {n k : Nat} (h : c.carries k) (hn : n ≤ k) : c.carries n := by
  unfold carries at *
  cases hlink : c.link with
  | none => rfl
  | some l =>
    simp only [hlink, Option.all_some, decide_eq_true_eq] at h ⊢
    exact hn.trans h

/-- An exchange uses up two messages of the link. -/
lemma exchange_carries (f : Frame H) (n : Nat) :
    (c.exchange f).1.carries (n + 1) = c.carries (n + 3) := by
  unfold exchange after carries
  cases hlink : c.link with
  | none => simp
  | some l =>
    rcases l with - | - | l
    · simp [hlink]
    · simp
    · simp

lemma exchange_stage (h : c.carries 1) (f : Frame H) :
    (c.exchange f).1.stage = (c.stage.handle f 0 fun _ => true).1 := by
  unfold exchange
  split_ifs
  · simp_all
  · rfl
  · rfl

/-- The session of a member after its `end_request`. -/
lemma lookup_ended (hsession : session ≠ 0) (hrequest : request ≠ 0)
    (hs : c.stage.sessions.lookup session = some s) (hlink : c.carries 1) :
    (c.exchange (controlFrame .endRequest session request)).1.stage.sessions.lookup session =
      some (s.endRequest (controlFrame .endRequest session request)).session := by
  rw [exchange_stage hlink, Stage.handle_endRequest hsession hrequest hs]
  exact AList.lookup_insert _

/-- The session of a member after a `reset_session`. -/
lemma lookup_reset (hsession : session ≠ 0) (hs : c.stage.sessions.lookup session = some s)
    (hlink : c.carries 1) :
    (c.exchange (controlFrame .resetSession session)).1.stage.sessions.lookup session =
      some (s.reset (controlFrame .resetSession session)).session := by
  rw [exchange_stage hlink, Stage.handle_resetSession hsession hs]
  exact AList.lookup_insert _

lemma acks_reset (hsession : session ≠ 0) (hs : c.stage.sessions.lookup session = some s) :
    c.acks (controlFrame .resetSession session) ↔ c.carries 2 ∧ s.activeRequest = 0 := by
  by_cases hlink : c.carries 2
  · have hone := carries_of_le hlink (show 1 ≤ 2 by decide)
    simp only [acks, exchange, hlink, hone, Stage.handle_resetSession hsession hs, Bool.not_true,
      Bool.false_eq_true, if_false, true_and]
    by_cases hidle : s.activeRequest = 0
    · simp [(Session.reset_of_idle hsession hidle).1, hidle, requireAck, ack, Payload.isEmpty]
    · simp [Session.reset_of_active hsession hidle, hidle]
  · simp only [acks, exchange, hlink, Bool.not_false, if_true]
    split_ifs <;> simp

/-- A member acknowledges the reset after its `end_request` exactly if it answers both. -/
lemma ended_acks_iff (hsession : session ≠ 0) (hrequest : request ≠ 0)
    (hs : c.stage.sessions.lookup session = some s) :
    (c.exchange (controlFrame .endRequest session request)).1.acks
      (controlFrame .resetSession session) ↔ c.Answers session request := by
  unfold Answers
  rw [holds_iff hs]
  by_cases hlink : c.carries 1
  · rw [acks_reset hsession (lookup_ended hsession hrequest hs hlink), exchange_carries,
      Session.endRequest_idle_iff hsession hrequest]
  · have hfour : ¬ c.carries 4 := fun h => hlink (carries_of_le h (by decide))
    simp [exchange, hlink, acks, hfour]

end Connection

/-! ### The whole route -/

/-- `control_all` reaches a member only when every member before it acknowledged. -/
lemma controlFrom_getElem? {f : Frame H} (hf : f.type ≠ .endRequest) (position : Option Nat)
    (members : List (Connection H)) (i : Nat) :
    (controlFrom f position members).1[i]? =
      members[i]?.map fun c =>
        if (members.take i).all (·.acks f) then (c.exchange f).1 else c := by
  induction members generalizing position i with
  | nil => rfl
  | cons c rest ih =>
    unfold controlFrom
    cases i with
    | zero =>
      cases (c.exchange f).2 with
      | error e => simp
      | ok reply =>
        simp only [List.take_zero, List.all_nil, if_true]
        split_ifs <;> simp
    | succ i =>
      cases hreply : (c.exchange f).2 with
      | error e => simp [Connection.acks, hreply]
      | ok reply =>
        cases hack : requireAck reply f <;> simp [Connection.acks, hreply, hack, hf, ih]

/-- What the recovery does to each member. -/
lemma recover_getElem? (session request : Nat) (members : List (Connection H)) (i : Nat) :
    (recover session request members).1[i]? =
      members[i]?.map fun c =>
        if (members.take i).all fun d =>
            (d.exchange (controlFrame .endRequest session request)).1.acks
              (controlFrame .resetSession session)
        then ((c.exchange (controlFrame .endRequest session request)).1.exchange
          (controlFrame .resetSession session)).1
        else (c.exchange (controlFrame .endRequest session request)).1 := by
  unfold recover controlAll
  rw [controlFrom_getElem? (by simp [controlFrame])]
  simp [List.getElem?_map, ← List.map_take, List.all_map, Function.comp_def]

/-- What a recovered member needed when the recovery began: members that answered before it and a
session that settles, or a session that settles at position 0 and needs no reset. -/
def Recoverable (session request : Nat) (members : List (Connection H)) : Prop :=
  ∀ (i : Nat) (c : Connection H), members[i]? = some c →
    ((∀ d ∈ members.take i, d.Answers session request) →
      c.carries 5 → c.Holds session (·.Settles request)) ∧
    ((∃ d ∈ members.take i, ¬ d.Answers session request) →
      c.carries 3 → c.Holds session fun s => s.Settles request ∧ s.position = 0)

section

variable {session request : Nat} (hsession : session ≠ 0) (hrequest : request ≠ 0)
  {c : Connection H} {s : Session H} (hs : c.stage.sessions.lookup session = some s)
  (hclear : s.IdleClear)
include hsession hrequest hs hclear

/-- A member that got both control frames is idle again exactly if its session settles. -/
lemma reset_accepts_iff (hlink : c.carries 3) :
    ((c.exchange (controlFrame .endRequest session request)).1.exchange
        (controlFrame .resetSession session)).1.Accepts session request ↔ s.Settles request := by
  have hended := Connection.lookup_ended hsession hrequest hs
    (Connection.carries_of_le hlink (by decide))
  have hone : (c.exchange (controlFrame .endRequest session request)).1.carries 1 := by
    rwa [Connection.exchange_carries]
  rw [Connection.Accepts, Connection.holds_iff (Connection.lookup_reset hsession hended hone),
    ← Session.endRequest_idle_iff hsession hrequest]
  constructor
  · intro h
    by_contra hactive
    rw [Session.reset_of_active hsession hactive] at h
    exact hactive h.idle
  · intro hidle
    obtain ⟨-, hidle', hposition, hlast'⟩ := Session.reset_of_idle hsession hidle
    exact Session.accepts_of_idle hsession (hclear.endRequest _ |>.reset _) hidle' hposition
      (hlast'.le.trans (Nat.zero_le _))

/-- A member that got no reset is idle at position 0 exactly if it settles there. -/
lemma ended_accepts_iff (hlast : s.lastRequest ≤ request) (hlink : c.carries 1) :
    (c.exchange (controlFrame .endRequest session request)).1.Accepts session request ↔
      s.Settles request ∧ s.position = 0 := by
  rw [Connection.Accepts, Connection.holds_iff (Connection.lookup_ended hsession hrequest hs hlink),
    ← Session.endRequest_idle_iff hsession hrequest,
    ← Session.endRequest_position _ (controlFrame .endRequest session request)]
  constructor
  · exact fun h => ⟨h.idle, h.position⟩
  · intro ⟨hidle, hposition⟩
    exact Session.accepts_of_idle hsession (hclear.endRequest _) hidle hposition
      (Session.endRequest_lastRequest_le _ hlast)

end

/-- The recovery after a failed request leaves the session idle at position 0, ready for anything,
on every member whose link is still up, exactly when it was recoverable. The session exists on
every member, and its request ids increase. -/
theorem recover_idle_iff {members : List (Connection H)} {session request : Nat}
    (hsession : session ≠ 0) (hrequest : request ≠ 0)
    (hreach : ∀ c ∈ members, c.stage.Reachable)
    (hopen : ∀ c ∈ members, c.Holds session fun s => s.lastRequest ≤ request) :
    (∀ (i : Nat) (c : Connection H), (recover session request members).1[i]? = some c →
      c.carries 1 → c.Accepts session request) ↔ Recoverable session request members := by
  unfold Recoverable
  refine forall_congr' fun i => ?_
  rw [recover_getElem?]
  cases hi : members[i]? with
  | none => simp
  | some c =>
    have hmem : c ∈ members := List.mem_of_getElem? hi
    obtain ⟨s, hs, hlast⟩ := hopen c hmem
    have hclear := (hreach c hmem).idleClear _ s hs
    have hprev : (members.take i).all (fun d =>
        (d.exchange (controlFrame .endRequest session request)).1.acks
          (controlFrame .resetSession session)) ↔
        ∀ d ∈ members.take i, d.Answers session request := by
      rw [List.all_eq_true]
      refine forall₂_congr fun d hd => ?_
      obtain ⟨t, ht, -⟩ := hopen d (List.mem_of_mem_take hd)
      exact Connection.ended_acks_iff hsession hrequest ht
    simp only [Option.map_some, Option.some.injEq, forall_eq']
    by_cases hall : ∀ d ∈ members.take i, d.Answers session request
    · have hnone : ¬ ∃ d ∈ members.take i, ¬ d.Answers session request := by simpa using hall
      rw [if_pos (hprev.mpr hall), Connection.exchange_carries, Connection.exchange_carries]
      rw [imp_iff_right hall, Connection.holds_iff hs, and_iff_left fun h => absurd h hnone]
      refine forall_congr' fun hlink => ?_
      exact reset_accepts_iff hsession hrequest hs hclear
        (Connection.carries_of_le hlink (by decide))
    · have hsome : ∃ d ∈ members.take i, ¬ d.Answers session request := by simpa using hall
      rw [if_neg (mt hprev.mp hall), Connection.exchange_carries]
      rw [and_iff_right fun h => absurd h hall, imp_iff_right hsome, Connection.holds_iff hs]
      refine forall_congr' fun hlink => ?_
      exact ended_accepts_iff hsession hrequest hs hclear hlast
        (Connection.carries_of_le hlink (by decide))

/-! ### A prompt that was delivered in part -/

/-- A two-stage route whose activations carry no information. -/
def twoStageModel (first : Bool) : StageModel Unit where
  first := first
  last := !first
  contextSize := 8
  maxSessions := 1
  hidden := 1
  wire := .f32le
  tokenize := fun _ => [1, 2]
  embed := fun _ => ()
  greedy := fun _ => 0
  chat := fun _ _ => 0
  template := fun _ => none
  piece := fun _ => "a"
  isEog := fun _ => false

/-- A freshly loaded stage with session 1 open. -/
def openStage (m : StageModel H) : Stage H :=
  ((Stage.load m).handle (controlFrame .createSession 1) 0 fun _ => true).1

def twoTokenPrompt : Frame Unit :=
  { type := .prompt, session := 1, request := 1, payload := .text "ab" }

/-- The first stage sends its prompt ahead one token at a time and fails on the second one. -/
def failedHead : Stage Unit × List (Frame Unit) × Except String (Frame Unit) :=
  (openStage (twoStageModel true)).handle twoTokenPrompt 1 fun n => n = 0

/-- The route at that point: the last stage has taken the one chunk that was sent. -/
def partialPrompt : List (Connection Unit) :=
  [{ stage := failedHead.1 },
   { stage := failedHead.2.1.foldl (fun st f => (st.handle f 0 fun _ => true).1)
      (openStage (twoStageModel false)) }]

lemma openStage_reachable (m : StageModel H) : (openStage m).Reachable :=
  (Stage.Reachable.load m).handle _ _ _

lemma partialPrompt_reachable : ∀ c ∈ partialPrompt, c.stage.Reachable := by
  have hchunks : ∀ (fs : List (Frame Unit)) (st : Stage Unit), st.Reachable →
      (fs.foldl (fun st f => (st.handle f 0 fun _ => true).1) st).Reachable := by
    intro fs
    induction fs with
    | nil => exact fun st h => h
    | cons f fs ih => exact fun st h => ih _ (h.handle f 0 _)
  intro c hc
  rcases List.mem_pair.mp hc with rfl | rfl
  · exact (openStage_reachable _).handle _ _ _
  · exact hchunks _ _ (openStage_reachable _)

/-- The last stage is left in the failed request: the recovery of a reachable route, with every
link up, does not bring its session back. -/
theorem partialPrompt_not_recovered :
    ¬ ∀ (members : List (Connection Unit)) (session request : Nat), session ≠ 0 → request ≠ 0 →
      (∀ c ∈ members, c.stage.Reachable) →
      (∀ c ∈ members, c.Holds session fun s => s.lastRequest ≤ request) →
      ∀ (i : Nat) (c : Connection Unit), (recover session request members).1[i]? = some c →
        c.carries 1 → c.Accepts session request := by
  intro h
  have hopen : ∀ c ∈ partialPrompt, c.Holds 1 fun s => s.lastRequest ≤ 1 := by
    intro c hc
    rcases List.mem_pair.mp hc with rfl | rfl
    · exact ⟨_, rfl, by decide⟩
    · exact ⟨_, rfl, by decide⟩
  obtain ⟨s, hs, haccepts⟩ :=
    h partialPrompt 1 1 (by decide) (by decide) partialPrompt_reachable hopen 1 _ rfl rfl
  have hactive := congrArg (Option.map Session.activeRequest) hs
  rw [Option.map_some, haccepts.idle] at hactive
  exact absurd hactive (by decide)

/-- The same route before any stage took the prompt. -/
def untouchedRoute : List (Connection Unit) :=
  [{ stage := openStage (twoStageModel true) }, { stage := openStage (twoStageModel false) }]

/-- A request that failed before any stage took its prompt is recovered from. -/
theorem untouchedRoute_recovered :
    Recoverable 1 1 untouchedRoute ∧
      ∀ (i : Nat) (c : Connection Unit), (recover 1 1 untouchedRoute).1[i]? = some c →
        c.carries 1 → c.Accepts 1 1 := by
  have hsettles : ∀ first, (⟨openStage (twoStageModel first), none⟩ : Connection Unit).Holds 1
      fun s => s.Settles 1 ∧ s.position = 0 := by
    intro first
    cases first <;> exact ⟨_, rfl, by decide⟩
  have hrecoverable : Recoverable 1 1 untouchedRoute := by
    intro i c hc
    rcases List.mem_pair.mp (List.mem_of_getElem? hc) with rfl | rfl
    · exact ⟨fun _ _ => (hsettles true).imp fun _ h => ⟨h.1, h.2.1⟩, fun _ _ => hsettles true⟩
    · exact ⟨fun _ _ => (hsettles false).imp fun _ h => ⟨h.1, h.2.1⟩, fun _ _ => hsettles false⟩
  refine ⟨hrecoverable, (recover_idle_iff (by decide) (by decide) ?_ ?_).mpr hrecoverable⟩
  · intro c hc
    rcases List.mem_pair.mp hc with rfl | rfl <;> exact openStage_reachable _
  · intro c hc
    rcases List.mem_pair.mp hc with rfl | rfl <;> exact ⟨_, rfl, by decide⟩

end ProviderOwned
