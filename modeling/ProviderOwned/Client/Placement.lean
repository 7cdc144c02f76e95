import ProviderOwned.Protocol

/-!
# Placing a route

The attempts of `place_route`: choose a plan over the workers that greeted the client, reserve every
planned worker in parallel, and load them all or give every reservation back. The planner, the
check of the links and what each worker answers are choices of the environment (`Placer`).

`run_all` reports the text of an exception, as `what()` gives it, and takes the empty text for
success. An error frame whose text is empty or begins with a zero byte is therefore taken for an
acknowledgement: `placeRoute_allOrNone_iff` says that this is the only way in which a placed route
can lack a reservation.
-/

namespace ProviderOwned

/-- What passed between the client and a worker on its control connection. -/
inductive WorkerEvent
  | reserveSent (route : String) | reserveAcked (route : String) | releaseAcked (route : String)
  | ready (route : String) | closed
  deriving DecidableEq, Repr

/-- The route a worker may hold once `e` has passed, if it may have held `held` before. -/
def WorkerEvent.holds (held : Option String) : WorkerEvent → Option String
  | .reserveSent route => some route
  | .releaseAcked route => if held = some route then none else held
  | .closed => none
  | .reserveAcked _ | .ready _ => held

/-- The route a worker may hold a reservation for: from the moment it was asked until it
acknowledged the release or its connection was closed. -/
def mayHold (history : List WorkerEvent) : Option String :=
  history.foldl WorkerEvent.holds none

/-- `struct Worker`: its connection, whether to look at it again, and what passed so far. -/
structure PlacementWorker where
  connected : Bool := true
  recheck : Bool := false
  history : List WorkerEvent := []
  deriving DecidableEq, Repr

abbrev Workers := Nat → PlacementWorker

/-- How an exchange with a worker ends: with a frame, or with the connection. -/
inductive Answer
  | frame (f : Frame Unit)
  | lost
  deriving DecidableEq, Repr

namespace Answer

/-- `Connection::read_reply`. -/
def reply : Answer → Except String (Frame Unit)
  | .frame f => if f.type = .error then .error f.payload.message else .ok f
  | .lost => .error "peer disconnected while receiving frame"

/-- The task of the reservation round; the text `run_all` keeps of it. -/
def reserveError (a : Answer) : String :=
  match a.reply with
  | .error e => what e
  | .ok f => if f.type ≠ .ack then "unexpected reservation reply" else ""

/-- Whether the worker acknowledged a `reserve` or a `release_route`. -/
def acked : Answer → Bool
  | .frame f => f.type = .ack
  | .lost => false

/-- The task of the load, after `assign_stage` was sent. -/
def loadError (route : String) (a : Answer) : String :=
  match a.reply with
  | .error e => what e
  | .ok f =>
    if f.type ≠ .stageReady ∨ f.payload.message ≠ route then "unexpected assignment reply" else ""

/-- Whether the worker answered `stage_ready` with this route's id. -/
def isReady (route : String) : Answer → Bool
  | .frame f => f.type = .stageReady && f.payload.message = route
  | .lost => false

/-- An error frame that says nothing. -/
def nameless : Answer → Bool
  | .frame f => f.type = .error && what f.payload.message = ""
  | .lost => false

lemma what_disconnected : what "peer disconnected while receiving frame" ≠ "" := by decide

/-- An empty text means an acknowledgement or an error frame that says nothing. -/
lemma reserveError_eq_empty_iff (a : Answer) : a.reserveError = "" ↔ a.acked ∨ a.nameless := by
  cases a with
  | lost => simp [reserveError, reply, acked, nameless, what_disconnected]
  | frame f =>
    by_cases herror : f.type = .error
    · simp [reserveError, reply, acked, nameless, herror]
    · by_cases hack : f.type = .ack <;> simp [reserveError, reply, acked, nameless, herror, hack]

lemma loadError_eq_empty_iff (route : String) (a : Answer) :
    a.loadError route = "" ↔ a.isReady route ∨ a.nameless := by
  cases a with
  | lost => simp [loadError, reply, isReady, nameless, what_disconnected]
  | frame f =>
    by_cases herror : f.type = .error
    · simp [loadError, reply, isReady, nameless, herror]
    · by_cases hready : f.type = .stageReady <;>
        simp [loadError, reply, isReady, nameless, herror, hready]

lemma not_nameless_of_acked {a : Answer} (h : a.acked) : ¬ a.nameless := by
  cases a with
  | lost => simp [nameless]
  | frame f => simp [acked] at h; simp [nameless, h]

lemma not_nameless_of_isReady {route : String} {a : Answer} (h : a.isReady route) :
    ¬ a.nameless := by
  cases a with
  | lost => simp [nameless]
  | frame f => simp [isReady] at h; simp [nameless, h]

end Answer

/-- What one attempt decides before it reserves anyone. The planner uses a worker at most once. -/
inductive Decision
  | fails (problem : String)
  | leaveOut (worker : Nat)
  | plan (stages : List Nat) (nodup : stages.Nodup)

/-- What `place_route` meets, attempt by attempt: whether a worker that was busy greets again, what
is decided, the route's random id, and the workers' answers. -/
structure Placer where
  preview : Bool
  name : Nat → String
  attempts : Nat
  reopens : Nat → Nat → Bool
  decide : Nat → Workers → Decision
  routeId : Nat → String
  reserve : Nat → Nat → Answer
  release : Nat → Nat → Answer
  assign : Nat → Nat → Answer

/-- How `place_route` ends. -/
inductive Outcome
  | previewed
  | threw (problem : String)
  | placed (attempt : Nat) (stages : List Nat)
  deriving DecidableEq, Repr

/-- How an attempt ends: with another one to come, or with the call. -/
inductive Attempt
  | again (workers : Workers)
  | ends (outcome : Outcome) (workers : Workers)

/-- A call of `place_route`: how it ended, the workers at that point, and the workers as each
attempt found them. -/
structure Placement where
  outcome : Outcome
  workers : Workers
  starts : List (Nat × Workers)

namespace PlacementWorker

/-- An event on the worker's connection. -/
def note (w : PlacementWorker) (e : WorkerEvent) : PlacementWorker :=
  { w with history := w.history ++ [e] }

/-- `connection.reset()`. -/
def close (w : PlacementWorker) : PlacementWorker :=
  { w.note .closed with connected := false }

end PlacementWorker

/-- The workers with `f` done to those in `stages`. -/
def Workers.onStages (ws : Workers) (stages : List Nat) (f : Nat → PlacementWorker) : Workers :=
  fun i => if i ∈ stages then f i else ws i

namespace Placer

variable (p : Placer)

/-- The start of an attempt: workers that were busy are greeted again. -/
def greet (n : Nat) (ws : Workers) : Workers := fun i =>
  if (ws i).recheck then { ws i with recheck := false, connected := p.reopens n i } else ws i

/-- A worker after it was asked to reserve. -/
def reserveOne (n i : Nat) (w : PlacementWorker) : PlacementWorker :=
  if (p.reserve n i).acked then
    (w.note (.reserveSent (p.routeId n))).note (.reserveAcked (p.routeId n))
  else w.note (.reserveSent (p.routeId n))

/-- A worker after a failed round: a refusal closes it, and anyone else is told to release. -/
def giveBack (n i : Nat) (w : PlacementWorker) : PlacementWorker :=
  if (p.reserve n i).reserveError ≠ "" then
    { w.close with recheck := (p.reserve n i).reserveError = "busy" }
  else if (p.release n i).acked then w.note (.releaseAcked (p.routeId n))
  else w.close

/-- A worker after it was told to load. -/
def loadOne (n i : Nat) (w : PlacementWorker) : PlacementWorker :=
  if (p.assign n i).isReady (p.routeId n) then w.note (.ready (p.routeId n)) else w

/-- The reservations and the load of one attempt, once there is a plan. -/
def carryOut (n : Nat) (stages : List Nat) (ws : Workers) : Attempt :=
  if stages.any fun i => (p.reserve n i).reserveError ≠ "" then
    .again (ws.onStages stages fun i => p.giveBack n i (p.reserveOne n i (ws i)))
  else match stages.find? fun i => (p.assign n i).loadError (p.routeId n) ≠ "" with
    | some i =>
      .ends (.threw ("worker " ++ p.name i ++ " could not load its stage: " ++
          (p.assign n i).loadError (p.routeId n)))
        fun i => (ws.onStages stages (fun i => p.loadOne n i (p.reserveOne n i (ws i))) i).close
    | none =>
      .ends (.placed n stages)
        (Workers.onStages (fun i => (ws i).close) stages fun i =>
          p.loadOne n i (p.reserveOne n i (ws i)))

/-- One attempt of `place_route`. Where the call ends without a route every connection is closed. -/
def attempt (n : Nat) (ws : Workers) : Attempt :=
  if p.preview then .ends .previewed fun i => (ws i).close
  else match p.decide n ws with
    | .fails problem => .ends (.threw problem) fun i => (ws i).close
    | .leaveOut worker =>
      .again (ws.onStages [worker] fun i => { (ws i).close with recheck := false })
    | .plan stages _ => p.carryOut n stages ws

/-- The loop of `place_route`, with `left` attempts to come. -/
def placeFrom : (left n : Nat) → Workers → Placement
  | 0, _, ws =>
    { outcome := .threw ("could not reserve a placement after " ++ toString p.attempts ++
        " attempts"),
      workers := fun i => (ws i).close, starts := [] }
  | left + 1, n, ws =>
    match p.attempt n (p.greet n ws) with
    | .again ws' =>
      { placeFrom left (n + 1) ws' with starts := (n, ws) :: (placeFrom left (n + 1) ws').starts }
    | .ends outcome ws' => { outcome, workers := ws', starts := [(n, ws)] }

def placeRoute (ws : Workers) : Placement :=
  p.placeFrom p.attempts 0 ws

end Placer

/-! ### All or none -/

/-- No worker may still hold a reservation. -/
def Workers.Clean (ws : Workers) : Prop :=
  ∀ i, mayHold (ws i).history = none

/-- All workers of the plan are reserved, or none. When an attempt starts and when the call throws,
whoever was asked to reserve has acknowledged the release or was closed; a placed route has the
acknowledgement and the `stage_ready` of each of its workers and holds no one else; and a preview
asks nobody. -/
structure Placement.AllOrNone (p : Placer) (c : Placement) : Prop where
  starts : ∀ s ∈ c.starts, Workers.Clean s.2
  threw : ∀ problem, c.outcome = .threw problem → Workers.Clean c.workers
  placed : ∀ n stages, c.outcome = .placed n stages →
    (∀ i ∈ stages, [.reserveSent (p.routeId n), .reserveAcked (p.routeId n),
      .ready (p.routeId n)] <:+ (c.workers i).history) ∧
    ∀ i, i ∉ stages → mayHold (c.workers i).history = none
  preview : p.preview → ∀ i route, .reserveSent route ∉ (c.workers i).history

/-- Attempt `n` of a call that starts from `ws` starts, from the workers the attempt before it
left. -/
inductive Placer.Starts (p : Placer) (ws : Workers) : Nat → Workers → Prop
  | first (hleft : 0 < p.attempts) : Starts p ws 0 ws
  | again {n : Nat} {ws' ws'' : Workers} (h : Starts p ws n ws')
      (hagain : p.attempt n (p.greet n ws') = .again ws'') (hleft : n + 1 < p.attempts) :
      Starts p ws (n + 1) ws''

/-- If nobody in the plan of attempt `n` refuses, nobody answers with an error that says nothing. -/
def Placer.WordedAt (p : Placer) (n : Nat) (ws : Workers) : Prop :=
  ∀ stages h, p.decide n (p.greet n ws) = .plan stages h →
    (∀ i ∈ stages, (p.reserve n i).reserveError = "") →
    (∀ i ∈ stages, (p.assign n i).loadError (p.routeId n) = "") →
    ∀ i ∈ stages, ¬ (p.reserve n i).nameless ∧ ¬ (p.assign n i).nameless

/-- In an attempt in which nobody refuses, nobody answers with an error that says nothing. -/
def Placer.Worded (p : Placer) (ws : Workers) : Prop :=
  p.preview = false → ∀ n ws', p.Starts ws n ws' → p.WordedAt n ws'

@[simp] lemma mayHold_append (l : List WorkerEvent) (e : WorkerEvent) :
    mayHold (l ++ [e]) = e.holds (mayHold l) := by
  simp [mayHold, List.foldl_append]

@[simp] lemma mayHold_close (w : PlacementWorker) : mayHold w.close.history = none := by
  simp [PlacementWorker.close, PlacementWorker.note, WorkerEvent.holds]

namespace Placer

variable {p : Placer} {n : Nat} {ws ws' : Workers} {stages : List Nat}

lemma greet_clean (h : ws.Clean) : (p.greet n ws).Clean := by
  intro i
  unfold greet
  split_ifs
  · exact h i
  · exact h i

/-- A worker that was asked may hold this route. -/
lemma mayHold_reserveOne (i : Nat) (w : PlacementWorker) :
    mayHold (p.reserveOne n i w).history = some (p.routeId n) := by
  unfold reserveOne
  split_ifs <;> simp only [PlacementWorker.note, mayHold_append, WorkerEvent.holds]

/-- After a failed round nobody who was asked holds anything. -/
lemma mayHold_giveBack (i : Nat) (w : PlacementWorker) :
    mayHold (p.giveBack n i (p.reserveOne n i w)).history = none := by
  unfold giveBack
  split_ifs
  · exact mayHold_close _
  · simp [PlacementWorker.note, WorkerEvent.holds, mayHold_reserveOne]
  · exact mayHold_close _

/-- A worker asked to reserve and told to load did both exactly if it said so twice. -/
lemma suffix_loadOne_iff (i : Nat) (w : PlacementWorker) :
    [.reserveSent (p.routeId n), .reserveAcked (p.routeId n), .ready (p.routeId n)] <:+
        (p.loadOne n i (p.reserveOne n i w)).history ↔
      (p.reserve n i).acked ∧ (p.assign n i).isReady (p.routeId n) := by
  unfold loadOne reserveOne PlacementWorker.note
  cases hacked : (p.reserve n i).acked <;> cases hready : (p.assign n i).isReady (p.routeId n) <;>
    simp [← List.reverse_prefix]

/-- The three ends of an attempt with a plan. -/
lemma carryOut_cases (n : Nat) (stages : List Nat) (ws : Workers) :
    ((∃ i ∈ stages, (p.reserve n i).reserveError ≠ "") ∧ ∃ ws', p.carryOut n stages ws =
      .again ws' ∧
      ws' = ws.onStages stages fun i => p.giveBack n i (p.reserveOne n i (ws i))) ∨
    ((∀ i ∈ stages, (p.reserve n i).reserveError = "") ∧
      (∃ i ∈ stages, (p.assign n i).loadError (p.routeId n) ≠ "") ∧
      ∃ (problem : String) (ws' : Workers),
        p.carryOut n stages ws = .ends (.threw problem) fun i => (ws' i).close) ∨
    ((∀ i ∈ stages, (p.reserve n i).reserveError = "") ∧
      (∀ i ∈ stages, (p.assign n i).loadError (p.routeId n) = "") ∧
      p.carryOut n stages ws = .ends (.placed n stages)
        (Workers.onStages (fun i => (ws i).close) stages fun i =>
          p.loadOne n i (p.reserveOne n i (ws i)))) := by
  unfold carryOut
  split_ifs with hrefused
  · left
    simpa using hrefused
  · have hagreed : ∀ i ∈ stages, (p.reserve n i).reserveError = "" := by simpa using hrefused
    cases hfind : stages.find? fun i => (p.assign n i).loadError (p.routeId n) ≠ "" with
    | some i =>
      have hfailed := List.find?_some hfind
      exact .inr (.inl ⟨hagreed, ⟨i, List.mem_of_find?_eq_some hfind, by simpa using hfailed⟩, _, _,
        rfl⟩)
    | none =>
      refine .inr (.inr ⟨hagreed, fun i hi => ?_, rfl⟩)
      simpa using List.find?_eq_none.mp hfind i hi

/-- An attempt that is followed by another counts by the workers it started from. -/
lemma allOrNone_cons_iff {c : Placement} :
    Placement.AllOrNone p { c with starts := (n, ws) :: c.starts } ↔
      ws.Clean ∧ c.AllOrNone p := by
  constructor
  · intro h
    exact ⟨h.starts _ (List.mem_cons_self ..), fun s hs => h.starts s (List.mem_cons_of_mem _ hs),
      h.threw, h.placed, h.preview⟩
  · rintro ⟨hclean, h⟩
    refine ⟨fun s hs => ?_, h.threw, h.placed, h.preview⟩
    rcases List.mem_cons.mp hs with rfl | hs
    · exact hclean
    · exact h.starts s hs

/-- An attempt in which somebody refused says nothing about the others. -/
lemma wordedAt_of_refused (h : ∀ stages hn, p.decide n (p.greet n ws) = .plan stages hn →
    ∃ i ∈ stages, (p.reserve n i).reserveError ≠ "") : p.WordedAt n ws := by
  intro stages hn hplan hagreed
  obtain ⟨i, hi, hrefused⟩ := h stages hn hplan
  exact absurd (hagreed i hi) hrefused

/-- A placed route is as it should be exactly if each of its workers said so twice. -/
lemma allOrNone_placed_iff (hclean : ws.Clean) (hpreview : ¬ p.preview) :
    Placement.AllOrNone p
      { outcome := .placed n stages
        workers := Workers.onStages (fun i => (p.greet n ws i).close) stages fun i =>
          p.loadOne n i (p.reserveOne n i (p.greet n ws i))
        starts := [(n, ws)] } ↔
      ∀ i ∈ stages, (p.reserve n i).acked ∧ (p.assign n i).isReady (p.routeId n) := by
  constructor
  · intro h i hi
    have hsuffix := (h.placed n stages rfl).1 i hi
    simp only [Workers.onStages, hi, if_true] at hsuffix
    exact (suffix_loadOne_iff i _).mp hsuffix
  · intro h
    refine ⟨by simpa using hclean, by simp, ?_, fun hp => absurd hp hpreview⟩
    rintro _ _ ⟨⟩
    refine ⟨fun i hi => ?_, fun i hi => ?_⟩
    · simp only [Workers.onStages, hi, if_true]
      exact (suffix_loadOne_iff i _).mpr (h i hi)
    · simp only [Workers.onStages, hi, if_false]
      exact mayHold_close _

/-- `placeFrom` does what it should exactly if each attempt it makes is worded. -/
lemma placeFrom_allOrNone_iff (left : Nat) (hclean : ws.Clean)
    (hunasked : p.preview → ∀ i route, .reserveSent route ∉ (ws i).history) :
    (p.placeFrom left n ws).AllOrNone p ↔
      (p.preview = false → ∀ s ∈ (p.placeFrom left n ws).starts, p.WordedAt s.1 s.2) := by
  induction left generalizing n ws with
  | zero =>
    refine iff_of_true ⟨by simp [placeFrom], fun _ _ i => mayHold_close _, by simp [placeFrom], ?_⟩
      (by simp [placeFrom])
    intro hpreview i route
    simpa [placeFrom, PlacementWorker.close, PlacementWorker.note] using hunasked hpreview i route
  | succ left ih =>
    have hstart : ∀ s ∈ [(n, ws)], Workers.Clean s.2 := by simpa using hclean
    have hgreeted := greet_clean (p := p) (n := n) hclean
    unfold placeFrom attempt
    by_cases hpreview : p.preview
    · -- a preview ends here, whatever the planner found
      rw [if_pos hpreview]
      refine iff_of_true ⟨hstart, by simp, by simp, fun _ i route => ?_⟩ (by simp [hpreview])
      have hold : (p.greet n ws i).history = (ws i).history := by
        unfold greet
        split_ifs <;> rfl
      simpa [PlacementWorker.close, PlacementWorker.note, hold] using hunasked hpreview i route
    rw [if_neg hpreview]
    cases hdecide : p.decide n (p.greet n ws) with
    | fails problem =>
      exact iff_of_true ⟨hstart, fun _ _ i => mayHold_close _, by simp, fun h => absurd h hpreview⟩
        (by simp [WordedAt, hdecide])
    | leaveOut worker =>
      dsimp only
      rw [allOrNone_cons_iff, List.forall_mem_cons,
        and_iff_right (wordedAt_of_refused (by simp [hdecide])), and_iff_right hclean]
      refine ih (fun i => ?_) fun h => absurd h hpreview
      unfold Workers.onStages
      split_ifs
      · exact mayHold_close _
      · exact hgreeted i
    | plan stages hnodup =>
      rcases p.carryOut_cases n stages (p.greet n ws) with
        ⟨hrefused, ws', hagain, rfl⟩ | ⟨-, ⟨i, hi, hfailed⟩, problem, ws', hthrew⟩ |
        ⟨hagreed, hloaded, hplaced⟩
      · simp only [hagain]
        rw [allOrNone_cons_iff, List.forall_mem_cons, and_iff_right (wordedAt_of_refused ?_),
          and_iff_right hclean]
        · refine ih (fun i => ?_) fun h => absurd h hpreview
          unfold Workers.onStages
          split_ifs
          · exact mayHold_giveBack ..
          · exact hgreeted i
        · rintro stages' hn hplan
          rw [hdecide] at hplan
          cases hplan
          exact hrefused
      · simp only [hthrew]
        refine iff_of_true ⟨hstart, fun _ _ i => mayHold_close _, by simp,
          fun h => absurd h hpreview⟩ ?_
        intro _ s hs stages' hn hplan _ hloaded
        obtain rfl := List.mem_singleton.mp hs
        rw [hdecide] at hplan
        cases hplan
        exact absurd (hloaded i hi) hfailed
      · simp only [hplaced]
        rw [allOrNone_placed_iff hclean hpreview]
        have hanswers : ∀ i ∈ stages, (p.reserve n i).acked ∧
            (p.assign n i).isReady (p.routeId n) ↔
            ¬ (p.reserve n i).nameless ∧ ¬ (p.assign n i).nameless := by
          intro i hi
          have hreserve := (Answer.reserveError_eq_empty_iff _).mp (hagreed i hi)
          have hload := (Answer.loadError_eq_empty_iff _ _).mp (hloaded i hi)
          constructor
          · rintro ⟨hacked, hready⟩
            exact ⟨Answer.not_nameless_of_acked hacked, Answer.not_nameless_of_isReady hready⟩
          · rintro ⟨hnamed, hnamed'⟩
            exact ⟨hreserve.resolve_right hnamed, hload.resolve_right hnamed'⟩
        constructor
        · intro h _ s hs stages' hn hplan _ _ i hi
          obtain rfl := List.mem_singleton.mp hs
          rw [hdecide] at hplan
          cases hplan
          exact (hanswers i hi).mp (h i hi)
        · intro h i hi
          exact (hanswers i hi).mpr (h (by simpa using hpreview) (n, ws) (List.mem_singleton_self _)
            stages hnodup hdecide hagreed hloaded i hi)

/-- Every attempt that `placeFrom` lists starts as `Starts` says. -/
lemma starts_of_mem {ws₀ : Workers} (left : Nat) (hleft : n + left = p.attempts)
    (hstart : 0 < left → p.Starts ws₀ n ws) :
    ∀ s ∈ (p.placeFrom left n ws).starts, p.Starts ws₀ s.1 s.2 := by
  induction left generalizing n ws with
  | zero => simp [placeFrom]
  | succ left ih =>
    have hfirst := hstart (Nat.succ_pos left)
    unfold placeFrom
    cases hattempt : p.attempt n (p.greet n ws) with
    | ends outcome ws' => simpa using hfirst
    | again ws' =>
      refine List.forall_mem_cons.mpr ⟨hfirst, ih (by omega) fun hpos => ?_⟩
      exact .again hfirst hattempt (by omega)

lemma mem_starts_self {left : Nat} (hleft : 0 < left) :
    (n, ws) ∈ (p.placeFrom left n ws).starts := by
  obtain ⟨left, rfl⟩ := Nat.exists_eq_succ_of_ne_zero (Nat.ne_of_gt hleft)
  unfold placeFrom
  cases p.attempt n (p.greet n ws) <;> exact List.mem_cons_self

/-- An attempt that is followed by another lists the next one. -/
lemma mem_starts_again {left m : Nat} {ws' ws'' : Workers}
    (h : (m, ws') ∈ (p.placeFrom left n ws).starts)
    (hagain : p.attempt m (p.greet m ws') = .again ws'') (hleft : m + 1 < n + left) :
    (m + 1, ws'') ∈ (p.placeFrom left n ws).starts := by
  induction left generalizing n ws with
  | zero => simp [placeFrom] at h
  | succ left ih =>
    unfold placeFrom at h ⊢
    cases hattempt : p.attempt n (p.greet n ws) with
    | ends outcome ws₁ =>
      simp only [hattempt, List.mem_singleton, Prod.mk.injEq] at h
      obtain ⟨rfl, rfl⟩ := h
      rw [hattempt] at hagain
      cases hagain
    | again ws₁ =>
      simp only [hattempt, List.mem_cons, Prod.mk.injEq] at h ⊢
      right
      rcases h with ⟨rfl, rfl⟩ | h
      · rw [hattempt] at hagain
        cases hagain
        exact mem_starts_self (by omega)
      · exact ih h (by omega)

/-- The attempts of a call are those that start. -/
lemma mem_starts_iff {m : Nat} :
    (m, ws') ∈ (p.placeRoute ws).starts ↔ p.Starts ws m ws' := by
  constructor
  · exact starts_of_mem p.attempts (Nat.zero_add _) .first (m, ws')
  · intro h
    induction h with
    | first hleft => exact mem_starts_self hleft
    | again _ hagain hleft ih => exact mem_starts_again ih hagain (by omega)

/-- `place_route` reserves all workers of a plan or none, whatever the workers answer, exactly when
in an attempt that nobody refuses nobody answers `reserve` or `assign_stage` with an error frame
that says nothing. -/
theorem placeRoute_allOrNone_iff (p : Placer) (ws : Workers) (hnew : ∀ i, (ws i).history = []) :
    (p.placeRoute ws).AllOrNone p ↔ p.Worded ws := by
  have hclean : ws.Clean := fun i => by rw [hnew i]; rfl
  have hunasked : p.preview → ∀ i route, .reserveSent route ∉ (ws i).history := by simp [hnew]
  rw [placeRoute, placeFrom_allOrNone_iff p.attempts hclean hunasked, Worded]
  refine forall_congr' fun _ => ?_
  constructor
  · exact fun h m ws' hstart => h (m, ws') (mem_starts_iff.mpr hstart)
  · exact fun h s hs => h s.1 s.2 (mem_starts_iff.mp hs)

/-- Two workers, one attempt, and a plan that uses both; `answer` is what worker 1 answers to
`reserve`. -/
def twoWorkers (answer : Frame Unit) : Placer where
  preview := false
  name := fun i => toString i
  attempts := 1
  reopens := fun _ _ => true
  decide := fun _ _ => .plan [0, 1] (by decide)
  routeId := fun _ => "r"
  reserve := fun _ i => .frame (if i = 1 then answer else { type := .ack })
  release := fun _ _ => .frame { type := .ack }
  assign := fun _ _ => .frame { type := .stageReady, payload := .text "r" }

/-- A worker whose refusal has no text, or one that begins with a zero byte, is taken for one that
agreed. -/
theorem nameless_refusal_placed :
    (∃ p : Placer, p = twoWorkers { type := .error, payload := .text "" } ∧
      ¬ (p.placeRoute fun _ => {}).AllOrNone p) ∧
    ∃ p : Placer, p = twoWorkers { type := .error, payload := .text "\x00busy" } ∧
      ¬ (p.placeRoute fun _ => {}).AllOrNone p := by
  refine ⟨⟨_, rfl, fun h => ?_⟩, _, rfl, fun h => ?_⟩
  · have hsuffix := (h.placed 0 [0, 1] rfl).1 1 (by decide)
    exact absurd hsuffix (by decide)
  · have hsuffix := (h.placed 0 [0, 1] rfl).1 1 (by decide)
    exact absurd hsuffix (by decide)

/-- When both workers agree the route holds both. -/
theorem twoWorkers_placed :
    ((twoWorkers { type := .ack }).placeRoute fun _ => {}).AllOrNone
      (twoWorkers { type := .ack }) := by
  refine (placeRoute_allOrNone_iff _ _ fun _ => rfl).mpr
    fun _ n ws hs stages hn hplan _ _ i hi => ?_
  cases hplan
  simp [twoWorkers, Answer.nameless]

end Placer

end ProviderOwned
