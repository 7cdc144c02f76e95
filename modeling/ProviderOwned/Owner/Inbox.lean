import Mathlib.Logic.Function.Basic
import ProviderOwned.Lib.Transition
import ProviderOwned.Lib.UpTo
import ProviderOwned.Client.Basic

/-!
# Relaying the ring to clients

One reader thread of the owner takes every frame the ring returns and hands it to the inbox of its
internal session (`start_reader`); each running request has its own thread, which registers a new
inbox, sends the prompt and relays what comes to its client (`run_request`). The reader finds an
inbox under a lock and pushes to it after the lock, so requests may start and end in between.

The history variables are `ring`, everything the ring returned, and `prompted`, the requests whose
prompt was sent. The ring answers only those.
-/

namespace ProviderOwned

open Transition

variable {H : Type*}

/-- What the reader thread holds: nothing, a frame, or a frame and the inbox it found for it. -/
inductive Reader (H : Type*)
  | idle
  | received (frame : Frame H)
  | found (frame : Frame H) (box : Nat)

/-- Where a request's thread is in `run_request`. -/
inductive RelayPhase
  | starting | relaying | failed (problem : String) | finished
  deriving DecidableEq, Repr

/-- The thread of a request. `taken` is the history of the frames it took for itself and `posted`
the frames it relayed to its client. -/
structure RelayRun (H : Type*) where
  request : Nat
  box : Nat
  clientSession : Nat
  clientRequest : Nat
  phase : RelayPhase := .starting
  taken : List (Frame H) := []
  posted : List (Frame H) := []

/-- A request that ended: what it relayed, and the owner's own last frame if that is another. -/
structure Delivery (H : Type*) where
  internal : Nat
  request : Nat
  clientSession : Nat
  clientRequest : Nat
  relayed : List (Frame H)
  closing : Option (Frame H)

/-- The owner as far as relaying goes. -/
structure Relay (H : Type*) where
  nextRequest : Nat → Nat := fun _ => 1
  inboxes : Nat → Option Nat := fun _ => none
  boxes : Nat → List (Frame H) := fun _ => []
  nextBox : Nat := 0
  reader : Reader H := .idle
  running : Nat → Option (RelayRun H) := fun _ => none
  ended : List (Delivery H) := []
  dissolved : Bool := false
  ring : List (Frame H) := []
  prompted : List (Nat × Nat) := []

/-- What can happen. `internal` is an internal session id. -/
inductive RelayEvent (H : Type*)
  | register (internal clientSession clientRequest : Nat)
  | send (internal : Nat)
  | refuse (internal : Nat) (problem : String)
  | receive (frame : Frame H)
  | find
  | push
  | take (internal : Nat)
  | finish (internal : Nat) (commit : Except String Nat)
  | fail

def Frame.terminal (f : Frame H) : Bool :=
  f.type = .result || f.type = .error

/-- A ring frame as the client of `run` gets it: an error as the owner words it, anything else with
the client's own ids. -/
def RelayRun.toClient (clientSession clientRequest : Nat) (f : Frame H) : Frame H :=
  if f.type = .error then
    errorFrame { session := clientSession, request := clientRequest } f.payload.message
  else { f with session := clientSession, request := clientRequest }

namespace Relay

def ringFrames (w : Relay H) (internal request : Nat) : List (Frame H) :=
  w.ring.filter fun f => f.session = internal && f.request = request

/-- The thread of `internal` goes on as `run`. -/
def put (w : Relay H) (internal : Nat) (run : RelayRun H) : Relay H :=
  { w with running := Function.update w.running internal (some run) }

/-- The start of `run_request`: a new inbox takes the place of any earlier one. -/
def register (w : Relay H) (internal clientSession clientRequest : Nat) : Relay H :=
  { w.put internal
      { request := w.nextRequest internal, box := w.nextBox, clientSession, clientRequest } with
    nextRequest := Function.update w.nextRequest internal (w.nextRequest internal + 1)
    inboxes := Function.update w.inboxes internal (some w.nextBox)
    boxes := Function.update w.boxes w.nextBox []
    nextBox := w.nextBox + 1 }

/-- The end of `run_request` and `run_client_request`: the inbox is unregistered and the client
gets the owner's last word. -/
def close (w : Relay H) (internal : Nat) (run : RelayRun H) (relayed : List (Frame H))
    (closing : Option (Frame H)) : Relay H :=
  { w with
    running := Function.update w.running internal none
    inboxes := Function.update w.inboxes internal none
    ended := w.ended ++
      [⟨internal, run.request, run.clientSession, run.clientRequest, relayed, closing⟩] }

/-- The inbox `box` with its first frame taken. -/
def pop (w : Relay H) (box : Nat) (rest : List (Frame H)) : Relay H :=
  { w with boxes := Function.update w.boxes box rest }

def RelayRun.origin (run : RelayRun H) : Frame H :=
  { session := run.clientSession, request := run.clientRequest }

/-- One turn of the loop of `run_request` with the frame `f` from its inbox. -/
def onFrame (w : Relay H) (internal : Nat) (run : RelayRun H) (f : Frame H) : Relay H :=
  if f.request ≠ run.request then w
  else if f.type = .error then
    w.put internal { run with
      taken := run.taken ++ [f]
      phase := if f.payload.message = "" then .finished else .failed f.payload.message }
  else match requireStreamed f internal run.request with
    | .error _ => { w with dissolved := true }
    | .ok _ =>
      w.put internal { run with
        taken := run.taken ++ [f]
        posted := run.posted ++ [{ f with session := run.clientSession,
                                          request := run.clientRequest }]
        phase := if f.type = .result then .finished else .relaying }

/-- The last frame of a request that was not failed by the ring: the answer is committed on every
member, or the commit failed. -/
def closingFrame (run : RelayRun H) : Except String Nat → Frame H
  | .ok position => { ack (RelayRun.origin run) with position }
  | .error problem => errorFrame (RelayRun.origin run) problem

/-- One step of the owner. A refused `stream_prompt` without a text passes for an accepted one. -/
def step (w : Relay H) (e : RelayEvent H) : Option (Relay H) :=
  if w.dissolved then none
  else match e with
  | .register internal clientSession clientRequest =>
    if w.running internal = none then some (w.register internal clientSession clientRequest)
    else none
  | .send internal =>
    (w.running internal).bind fun run =>
      if run.phase = .starting then
        some { w.put internal { run with phase := .relaying } with
          prompted := w.prompted ++ [(internal, run.request)] }
      else none
  | .refuse internal problem =>
    (w.running internal).bind fun run =>
      if run.phase = .starting then
        if problem = "" then some (w.put internal { run with phase := .relaying })
        else some (w.close internal run [] (some (errorFrame (RelayRun.origin run) problem)))
      else none
  | .receive frame =>
    match w.reader with
    | .idle => some { w with reader := .received frame, ring := w.ring ++ [frame] }
    | _ => none
  | .find =>
    match w.reader with
    | .received frame =>
      match w.inboxes frame.session with
      | none => some { w with reader := .idle }
      | some box => some { w with reader := .found frame box }
    | _ => none
  | .push =>
    match w.reader with
    | .found frame box =>
      some { w with
        reader := .idle, boxes := Function.update w.boxes box (w.boxes box ++ [frame]) }
    | _ => none
  | .take internal =>
    (w.running internal).bind fun run =>
      if run.phase = .relaying then
        match w.boxes run.box with
        | [] => none
        | f :: rest => some ((w.pop run.box rest).onFrame internal run f)
      else none
  | .finish internal commit =>
    (w.running internal).bind fun run =>
      match run.phase with
      | .failed problem =>
        some (w.close internal run
          (run.posted ++ [errorFrame (RelayRun.origin run) problem]) none)
      | .finished => some (w.close internal run run.posted (some (closingFrame run commit)))
      | _ => none
  | .fail => some { w with dissolved := true }

def system (H : Type*) : System (Relay H) (RelayEvent H) where
  init := {}
  step := step

/-- The ring answers only requests whose prompt was sent. -/
def Causal (w : Relay H) : RelayEvent H → Prop
  | .receive frame => (frame.session, frame.request) ∈ w.prompted
  | _ => True

/-- No running request gets an error frame without a text. -/
def Worded (w : Relay H) : RelayEvent H → Prop
  | .receive frame => frame.type = .error → frame.payload.message = "" →
      ∀ run, w.running frame.session = some run → run.request ≠ frame.request
  | _ => True

/-- Every client gets exactly the ring's frames for its request, in order, up to and including the
first result or error: all of them when the request has ended, the first ones while it runs, and
all that came so far when nothing is on its way. -/
structure Faithful (w : Relay H) : Prop where
  ended : ∀ d ∈ w.ended, d.relayed =
    ((w.ringFrames d.internal d.request).upTo Frame.terminal).map
      (RelayRun.toClient d.clientSession d.clientRequest)
  running : ∀ i run, w.running i = some run → run.posted <+:
    ((w.ringFrames i run.request).upTo Frame.terminal).map
      (RelayRun.toClient run.clientSession run.clientRequest)
  drained : ∀ i run, w.running i = some run → run.phase = .relaying → w.reader = .idle →
    w.boxes run.box = [] → run.posted =
      ((w.ringFrames i run.request).upTo Frame.terminal).map
        (RelayRun.toClient run.clientSession run.clientRequest)

/-! ### The invariant -/

/-- The frame the reader holds for the inbox of `run`. -/
def heading (w : Relay H) (i : Nat) (run : RelayRun H) : List (Frame H) :=
  match w.reader with
  | .idle => []
  | .received f => if f.session = i then [f] else []
  | .found f b => if b = run.box then [f] else []

lemma mem_heading {w : Relay H} {i : Nat} {run : RelayRun H} {f : Frame H}
    (h : f ∈ w.heading i run) :
    (w.reader = .received f ∧ f.session = i) ∨ w.reader = .found f run.box := by
  unfold heading at h
  cases hreader : w.reader with
  | idle => simp [hreader] at h
  | received g =>
    simp only [hreader, List.mem_ite_nil_right, List.mem_singleton] at h
    obtain ⟨hs, rfl⟩ := h
    exact .inl ⟨rfl, hs⟩
  | found g b =>
    simp only [hreader, List.mem_ite_nil_right, List.mem_singleton] at h
    obtain ⟨rfl, rfl⟩ := h
    exact .inr rfl

/-- The frames of the request that are on their way to its thread. -/
def waiting (w : Relay H) (i : Nat) (run : RelayRun H) : List (Frame H) :=
  (w.boxes run.box ++ w.heading i run).filter (·.request = run.request)

/-- The thread has taken everything up to the frame that ends its request. -/
def Complete (w : Relay H) (i : Nat) (run : RelayRun H) : Prop :=
  run.taken.any Frame.terminal ∧ (w.ringFrames i run.request).upTo Frame.terminal = run.taken

/-- What holds of the thread of a running request. -/
structure RunInv (w : Relay H) (i : Nat) (run : RelayRun H) : Prop where
  box : run.box < w.nextBox
  inbox : w.inboxes i = some run.box
  request : run.request < w.nextRequest i
  mine : ∀ f ∈ w.boxes run.box, f.session = i
  found : ∀ f b, w.reader = .found f b → (b = run.box → f.session = i) ∧
    (f.session = i → f.request = run.request → b = run.box)
  worded : ∀ f ∈ w.ringFrames i run.request, f.type = .error → f.payload.message ≠ ""
  unsent : run.phase = .starting → (i, run.request) ∉ w.prompted
  partly : run.phase = .starting ∨ run.phase = .relaying → ¬ run.taken.any Frame.terminal ∧
    run.posted = run.taken.map (RelayRun.toClient run.clientSession run.clientRequest) ∧
    w.ringFrames i run.request = run.taken ++ w.waiting i run
  failed : ∀ problem, run.phase = .failed problem → w.Complete i run ∧
    run.posted ++ [errorFrame (RelayRun.origin run) problem] =
      run.taken.map (RelayRun.toClient run.clientSession run.clientRequest)
  finished : run.phase = .finished → w.Complete i run ∧
    run.posted = run.taken.map (RelayRun.toClient run.clientSession run.clientRequest)

/-- What holds of a request that ended: nothing the ring can still send changes what it got. -/
structure EndInv (w : Relay H) (d : Delivery H) : Prop where
  exact : d.relayed = ((w.ringFrames d.internal d.request).upTo Frame.terminal).map
    (RelayRun.toClient d.clientSession d.clientRequest)
  old : d.request < w.nextRequest d.internal
  older : ∀ run, w.running d.internal = some run → d.request < run.request
  settled : (w.ringFrames d.internal d.request).any Frame.terminal ∨
    (d.internal, d.request) ∉ w.prompted

/-- What every run of the owner keeps. -/
structure Inv (w : Relay H) : Prop where
  prompted : ∀ p ∈ w.prompted, p.2 < w.nextRequest p.1
  causal : ∀ f ∈ w.ring, (f.session, f.request) ∈ w.prompted
  held : ∀ f, (w.reader = .received f ∨ ∃ b, w.reader = .found f b) → f ∈ w.ring
  heldBox : ∀ f b, w.reader = .found f b → b < w.nextBox
  inboxes : ∀ i j b, w.inboxes i = some b → w.inboxes j = some b → i = j
  bounded : ∀ i b, w.inboxes i = some b → b < w.nextBox
  runs : ∀ i run, w.running i = some run → w.RunInv i run
  ends : ∀ d ∈ w.ended, w.EndInv d

/-- The invariant of a thread looks only at its own inbox, at the reader and at the ring. -/
lemma RunInv.congr {w w' : Relay H} {i : Nat} {run : RelayRun H} (h : w.RunInv i run)
    (hbox : w.nextBox ≤ w'.nextBox) (hinbox : w'.inboxes i = w.inboxes i)
    (hrequest : w.nextRequest i ≤ w'.nextRequest i)
    (hboxes : w'.boxes run.box = w.boxes run.box) (hreader : w'.reader = w.reader)
    (hring : w'.ring = w.ring) (hprompted : (i, run.request) ∈ w'.prompted →
      (i, run.request) ∈ w.prompted) : w'.RunInv i run where
  box := h.box.trans_le hbox
  inbox := hinbox.trans h.inbox
  request := h.request.trans_le hrequest
  mine := by rw [hboxes]; exact h.mine
  found := by rw [hreader]; exact h.found
  worded := by unfold ringFrames; rw [hring]; exact h.worded
  unsent := fun hp => mt hprompted (h.unsent hp)
  partly := by
    unfold ringFrames waiting heading
    rw [hring, hboxes, hreader]
    exact h.partly
  failed := by unfold Complete ringFrames; rw [hring]; exact h.failed
  finished := by unfold Complete ringFrames; rw [hring]; exact h.finished

/-- A request without a prompt has no frames. -/
lemma Inv.ringFrames_of_unprompted {w : Relay H} (h : w.Inv) {i r : Nat}
    (hr : (i, r) ∉ w.prompted) : w.ringFrames i r = [] := by
  unfold ringFrames
  rw [List.filter_eq_nil_iff]
  intro f hf hmatch
  simp only [Bool.and_eq_true, decide_eq_true_eq] at hmatch
  exact hr (hmatch.1 ▸ hmatch.2 ▸ h.causal f hf)

@[simp] lemma put_running_self (w : Relay H) (i : Nat) (run : RelayRun H) :
    (w.put i run).running i = some run :=
  Function.update_self ..

lemma put_running_of_ne (w : Relay H) {i j : Nat} (h : j ≠ i) (run : RelayRun H) :
    (w.put i run).running j = w.running j :=
  Function.update_of_ne h ..

namespace Inv

variable {w : Relay H} (h : w.Inv) {i : Nat} {run : RelayRun H}
include h

/-- Two running requests have two inboxes. -/
lemma box_ne {j : Nat} {other : RelayRun H} (hrun : w.running i = some run)
    (hother : w.running j = some other) (hne : j ≠ i) : other.box ≠ run.box := by
  intro heq
  refine hne (h.inboxes j i run.box ?_ (h.runs i run hrun).inbox)
  rw [← heq]
  exact (h.runs j other hother).inbox

/-- Requests that ended do not notice how a running one goes on. -/
lemma ends_put {run' : RelayRun H} (hrun : w.running i = some run)
    (hreq : run'.request = run.request) : ∀ d ∈ w.ended, (w.put i run').EndInv d := by
  intro d hd
  have hend := h.ends d hd
  refine ⟨hend.exact, hend.old, fun other ho => ?_, hend.settled⟩
  by_cases hdi : d.internal = i
  · rw [hdi, put_running_self] at ho
    cases ho
    rw [hreq]
    exact hend.older run (hdi ▸ hrun)
  · rw [put_running_of_ne _ hdi] at ho
    exact hend.older other ho

/-- One thread goes on in the same request, with everything else as it was. -/
lemma put {run' : RelayRun H} (hrun : w.running i = some run) (hreq : run'.request = run.request)
    (hinv : w.RunInv i run') : (w.put i run').Inv where
  prompted := h.prompted
  causal := h.causal
  held := h.held
  heldBox := h.heldBox
  inboxes := h.inboxes
  bounded := h.bounded
  runs := by
    intro j other hj
    by_cases hji : j = i
    · subst hji
      rw [put_running_self] at hj
      cases hj
      exact hinv.congr le_rfl rfl le_rfl rfl rfl rfl id
    · rw [put_running_of_ne _ hji] at hj
      exact (h.runs j other hj).congr le_rfl rfl le_rfl rfl rfl rfl id
  ends := h.ends_put hrun hreq

lemma register (hidle : w.running i = none) (cs cr : Nat) : (w.register i cs cr).Inv := by
  have hfresh : (i, w.nextRequest i) ∉ w.prompted := fun hp => lt_irrefl _ (h.prompted _ hp)
  have hnext : ∀ j, w.nextRequest j ≤
      Function.update w.nextRequest i (w.nextRequest i + 1) j := by
    intro j
    by_cases hji : j = i
    · subst hji
      simp
    · rw [Function.update_of_ne hji]
  have hinboxes : ∀ j b, (w.register i cs cr).inboxes j = some b →
      (j = i ∧ b = w.nextBox) ∨ w.inboxes j = some b := by
    intro j b hj
    by_cases hji : j = i
    · subst hji
      exact .inl ⟨rfl, by simpa [Relay.register] using hj.symm⟩
    · exact .inr (by simpa [Relay.register, Function.update_of_ne hji] using hj)
  -- a frame the reader still holds belongs to an earlier request
  have hstale : ∀ f ∈ w.ring, f.session = i → f.request ≠ w.nextRequest i := by
    rintro f hf rfl heq
    exact hfresh (heq ▸ h.causal f hf)
  refine ⟨?_, h.causal, h.held, ?_, ?_, ?_, ?_, ?_⟩
  · exact fun p hp => (h.prompted p hp).trans_le (hnext p.1)
  · exact fun f b hf => Nat.lt_succ_of_lt (h.heldBox f b hf)
  · intro j k b hj hk
    rcases hinboxes j b hj with ⟨hji, hb⟩ | hold <;> rcases hinboxes k b hk with ⟨hki, hb'⟩ | hold'
    · rw [hji, hki]
    · exact absurd (h.bounded k b hold') (by omega)
    · exact absurd (h.bounded j b hold) (by omega)
    · exact h.inboxes j k b hold hold'
  · intro j b hj
    rcases hinboxes j b hj with ⟨-, rfl⟩ | hj
    · exact Nat.lt_succ_self _
    · exact Nat.lt_succ_of_lt (h.bounded j b hj)
  · intro j other hj
    by_cases hji : j = i
    · subst hji
      obtain rfl : _ = other := by simpa [Relay.register, Relay.put] using hj
      have hempty : ringFrames (w.register j cs cr) j (w.nextRequest j) = [] :=
        h.ringFrames_of_unprompted hfresh
      refine ⟨Nat.lt_succ_self _, by simp [Relay.register], by simp [Relay.register],
        by simp [Relay.register], ?_, ?_, fun _ => hfresh, fun _ => ⟨by simp, rfl, ?_⟩, by simp,
        by simp⟩
      · intro f b hf
        refine ⟨fun hb => absurd (h.heldBox f b hf) (hb ▸ lt_irrefl _), fun hs hr => ?_⟩
        exact absurd hr (hstale f (h.held f (.inr ⟨b, hf⟩)) hs)
      · simp [hempty]
      · rw [hempty, List.nil_append, eq_comm, waiting, List.filter_eq_nil_iff]
        intro f hf
        rw [List.mem_append, or_iff_right (by simp [Relay.register])] at hf
        rcases mem_heading hf with ⟨hreader, hs⟩ | hreader
        · simpa using hstale f (h.held f (.inl hreader)) hs
        · exact absurd (h.heldBox f _ hreader) (lt_irrefl _)
    · have hold : w.running j = some other := by
        simpa [Relay.register, put_running_of_ne _ hji] using hj
      have hrun := h.runs j other hold
      exact hrun.congr (Nat.le_succ _) (by simp [Relay.register, Function.update_of_ne hji])
        (hnext j) (by simp [Relay.register, Function.update_of_ne hrun.box.ne]) rfl rfl id
  · intro d hd
    have hend := h.ends d hd
    refine ⟨hend.exact, hend.old.trans_le (hnext _), fun other ho => ?_, hend.settled⟩
    by_cases hdi : d.internal = i
    · obtain rfl : _ = other := by simpa [Relay.register, Relay.put, hdi] using ho
      exact hdi ▸ hend.old
    · exact hend.older other (by simpa [Relay.register, put_running_of_ne _ hdi] using ho)

/-- The prompt is sent: from now on the ring may answer. -/
lemma send (hrun : w.running i = some run) (hstart : run.phase = .starting) :
    Inv { w.put i { run with phase := .relaying } with
      prompted := w.prompted ++ [(i, run.request)] } := by
  have hi := h.runs i run hrun
  have hmem : ∀ p ∈ w.prompted, p ∈ w.prompted ++ [(i, run.request)] :=
    fun p hp => List.mem_append_left _ hp
  have hother : ∀ j r, (j, r) ∈ w.prompted ++ [(i, run.request)] → (j ≠ i ∨ r ≠ run.request) →
      (j, r) ∈ w.prompted := by
    intro j r hp hne
    rcases List.mem_append.mp hp with hp | hp
    · exact hp
    · simp only [List.mem_singleton, Prod.mk.injEq] at hp
      exact absurd hp (by tauto)
  have hput : (w.put i { run with phase := .relaying }).Inv := by
    refine h.put hrun rfl ⟨hi.box, hi.inbox, hi.request, hi.mine, hi.found, hi.worded, by simp,
      fun _ => hi.partly (.inl hstart), by simp, by simp⟩
  refine ⟨?_, fun f hf => hmem _ (h.causal f hf), h.held, h.heldBox, h.inboxes, h.bounded, ?_, ?_⟩
  · intro p hp
    rcases List.mem_append.mp hp with hp | hp
    · exact h.prompted p hp
    · rw [List.mem_singleton.mp hp]
      exact hi.request
  · intro j other hj
    have hold := hput.runs j other hj
    by_cases hji : j = i
    · subst hji
      obtain rfl : _ = other := by simpa using hj
      exact ⟨hold.box, hold.inbox, hold.request, hold.mine, hold.found, hold.worded, by simp,
        hold.partly, by simp, by simp⟩
    · exact hold.congr le_rfl rfl le_rfl rfl rfl rfl fun hp => hother _ _ hp (.inl hji)
  · intro d hd
    have hend := hput.ends d hd
    refine ⟨hend.exact, hend.old, hend.older, hend.settled.imp_right fun hno hp => hno ?_⟩
    refine hother _ _ hp ?_
    by_cases hdi : d.internal = i
    · exact .inr ((h.ends d hd).older run (hdi ▸ hrun)).ne
    · exact .inl hdi

/-- A request ends, having relayed what it should. -/
lemma close (hrun : w.running i = some run) {relayed : List (Frame H)}
    (closing : Option (Frame H))
    (hexact : relayed = ((w.ringFrames i run.request).upTo Frame.terminal).map
      (RelayRun.toClient run.clientSession run.clientRequest))
    (hsettled : (w.ringFrames i run.request).any Frame.terminal ∨
      (i, run.request) ∉ w.prompted) : (w.close i run relayed closing).Inv := by
  have hrunning : ∀ j other, (w.close i run relayed closing).running j = some other →
      j ≠ i ∧ w.running j = some other := by
    intro j other hj
    by_cases hji : j = i
    · subst hji
      simp [Relay.close] at hj
    · exact ⟨hji, by simpa [Relay.close, Function.update_of_ne hji] using hj⟩
  have hinboxes : ∀ j b, (w.close i run relayed closing).inboxes j = some b →
      w.inboxes j = some b := by
    intro j b hj
    by_cases hji : j = i
    · subst hji
      simp [Relay.close] at hj
    · simpa [Relay.close, Function.update_of_ne hji] using hj
  refine ⟨h.prompted, h.causal, h.held, h.heldBox, ?_, ?_, ?_, ?_⟩
  · exact fun j k b hj hk => h.inboxes j k b (hinboxes j b hj) (hinboxes k b hk)
  · exact fun j b hj => h.bounded j b (hinboxes j b hj)
  · intro j other hj
    obtain ⟨hji, hold⟩ := hrunning j other hj
    exact (h.runs j other hold).congr le_rfl
      (by simp [Relay.close, Function.update_of_ne hji]) le_rfl rfl rfl rfl id
  · intro d hd
    rcases List.mem_append.mp hd with hd | hd
    · have hend := h.ends d hd
      exact ⟨hend.exact, hend.old, fun other ho => hend.older other (hrunning _ _ ho).2,
        hend.settled⟩
    · rw [List.mem_singleton.mp hd]
      exact ⟨hexact, (h.runs i run hrun).request, fun other ho => absurd rfl (hrunning _ _ ho).1,
        hsettled⟩

/-- A frame comes from the ring. -/
lemma receive {f : Frame H} (hidle : w.reader = .idle) (hcausal : w.Causal (.receive f))
    (hworded : w.Worded (.receive f)) :
    Inv { w with reader := .received f, ring := w.ring ++ [f] } := by
  have hframes : ∀ j r, ringFrames { w with reader := .received f, ring := w.ring ++ [f] } j r =
      w.ringFrames j r ++ if f.session = j ∧ f.request = r then [f] else [] := by
    intro j r
    simp only [ringFrames, List.filter_append]
    congr 1
    by_cases hmatch : f.session = j ∧ f.request = r <;> simp [hmatch]
  have hstable : ∀ j r, (w.ringFrames j r).any Frame.terminal →
      (ringFrames { w with reader := .received f, ring := w.ring ++ [f] } j r).upTo Frame.terminal =
        (w.ringFrames j r).upTo Frame.terminal := by
    intro j r hany
    rw [hframes, List.upTo_append_of_any hany]
  refine ⟨h.prompted, ?_, ?_, by simp, h.inboxes, h.bounded, ?_, ?_⟩
  · intro g hg
    rcases List.mem_append.mp hg with hg | hg
    · exact h.causal g hg
    · rw [List.mem_singleton.mp hg]
      exact hcausal
  · simp
  · intro j other hj
    have hold := h.runs j other hj
    have hcomplete : w.Complete j other →
        Complete { w with reader := .received f, ring := w.ring ++ [f] } j other := by
      intro hc
      exact ⟨hc.1, (hstable j _ (by rw [← List.any_upTo, hc.2]; exact hc.1)).trans hc.2⟩
    refine ⟨hold.box, hold.inbox, hold.request, hold.mine, by simp, ?_, hold.unsent,
      fun hp => ?_, fun p hp => ?_, fun hp => ?_⟩
    · intro g hg
      rw [hframes] at hg
      rcases List.mem_append.mp hg with hg | hg
      · exact hold.worded g hg
      · simp only [List.mem_ite_nil_right, List.mem_singleton] at hg
        obtain ⟨⟨rfl, hr⟩, rfl⟩ := hg
        exact fun htype hempty => hworded htype hempty other hj hr.symm
    · obtain ⟨hopen, hposted, hring⟩ := hold.partly hp
      refine ⟨hopen, hposted, ?_⟩
      rw [hframes, hring, List.append_assoc]
      congr 1
      simp only [waiting, heading, hidle, List.filter_append, List.append_nil]
      congr 1
      by_cases hs : f.session = j <;> by_cases hr : f.request = other.request <;> simp [hs, hr]
    · exact (hold.failed p hp).imp_left hcomplete
    · exact (hold.finished hp).imp_left hcomplete
  · intro d hd
    have hend := h.ends d hd
    rcases hend.settled with hany | hno
    · exact ⟨by rw [hstable _ _ hany]; exact hend.exact, hend.old, hend.older,
        .inl (by rw [hframes, List.any_append, hany, Bool.true_or])⟩
    · have hother : ¬ (f.session = d.internal ∧ f.request = d.request) := by
        rintro ⟨hs, hr⟩
        exact hno (hs ▸ hr ▸ hcausal)
      exact ⟨by rw [hframes, if_neg hother, List.append_nil]; exact hend.exact, hend.old,
        hend.older, .inr hno⟩

/-- The reader moves on with its frame: what is on its way to a running request stays so. -/
lemma move {reader : Reader H} {boxes : Nat → List (Frame H)}
    (hheld : ∀ f, (reader = .received f ∨ ∃ b, reader = .found f b) → f ∈ w.ring)
    (hheldBox : ∀ f b, reader = .found f b → b < w.nextBox)
    (hruns : ∀ j other, w.running j = some other → (∀ f ∈ boxes other.box, f.session = j) ∧
      (∀ f b, reader = .found f b → (b = other.box → f.session = j) ∧
        (f.session = j → f.request = other.request → b = other.box)) ∧
      waiting { w with reader, boxes } j other = w.waiting j other) :
    Inv { w with reader, boxes } := by
  refine ⟨h.prompted, h.causal, hheld, hheldBox, h.inboxes, h.bounded, ?_,
    fun d hd => ⟨(h.ends d hd).exact, (h.ends d hd).old, (h.ends d hd).older,
      (h.ends d hd).settled⟩⟩
  intro j other hj
  have hold := h.runs j other hj
  obtain ⟨hmine, hfound, hwaiting⟩ := hruns j other hj
  refine ⟨hold.box, hold.inbox, hold.request, hmine, hfound, hold.worded, hold.unsent,
    fun hp => ?_, hold.failed, hold.finished⟩
  obtain ⟨hopen, hposted, hring⟩ := hold.partly hp
  exact ⟨hopen, hposted, hring.trans (by rw [hwaiting])⟩

/-- The reader looks for the inbox of its frame. -/
lemma find_stray {f : Frame H} (hreader : w.reader = .received f)
    (hnone : w.inboxes f.session = none) : Inv { w with reader := .idle } := by
  refine h.move (by simp) (by simp) fun j other hj => ⟨(h.runs j other hj).mine, by simp, ?_⟩
  have hne : f.session ≠ j := by
    rintro rfl
    simp [(h.runs _ other hj).inbox] at hnone
  simp [waiting, heading, hreader, hne]

lemma find_inbox {f : Frame H} {b : Nat} (hreader : w.reader = .received f)
    (hsome : w.inboxes f.session = some b) : Inv { w with reader := .found f b } := by
  refine h.move ?_ ?_ fun j other hj => ⟨(h.runs j other hj).mine, ?_, ?_⟩
  · rintro g (hg | ⟨b', hg⟩)
    · cases hg
    · cases hg
      exact h.held f (.inl hreader)
  · rintro g b' ⟨⟩
    exact h.bounded _ _ hsome
  · rintro g b' ⟨⟩
    exact ⟨fun hb => h.inboxes _ _ _ hsome (hb ▸ (h.runs j other hj).inbox), fun hs _ =>
      Option.some.inj ((hs ▸ hsome).symm.trans (h.runs j other hj).inbox)⟩
  · have hiff : b = other.box ↔ f.session = j := by
      constructor
      · exact fun hb => h.inboxes _ _ _ hsome (hb ▸ (h.runs j other hj).inbox)
      · exact fun hs => Option.some.inj ((hs ▸ hsome).symm.trans (h.runs j other hj).inbox)
    simp [waiting, heading, hreader, hiff]

/-- The reader puts its frame into the inbox it found. -/
lemma push {f : Frame H} {b : Nat} (hreader : w.reader = .found f b) :
    Inv { w with reader := .idle, boxes := Function.update w.boxes b (w.boxes b ++ [f]) } := by
  refine h.move (by simp) (by simp) fun j other hj => ?_
  have hold := h.runs j other hj
  by_cases hb : other.box = b
  · subst hb
    refine ⟨?_, by simp, by simp [waiting, heading, hreader]⟩
    intro g hg
    rw [Function.update_self] at hg
    rcases List.mem_append.mp hg with hg | hg
    · exact hold.mine g hg
    · rw [List.mem_singleton.mp hg]
      exact (hold.found f _ hreader).1 rfl
  · rw [Function.update_of_ne hb]
    refine ⟨hold.mine, by simp, ?_⟩
    simp [waiting, heading, hreader, Function.update_of_ne hb, Ne.symm hb]

/-- A thread took the first frame of its inbox and goes on as `run'`. -/
lemma popped {run' : RelayRun H} {rest : List (Frame H)} (hrun : w.running i = some run)
    (hreq : run'.request = run.request) (hinv : (w.pop run.box rest).RunInv i run') :
    ((w.pop run.box rest).put i run').Inv := by
  refine ⟨h.prompted, h.causal, h.held, h.heldBox, h.inboxes, h.bounded, ?_, ?_⟩
  · intro j other hj
    by_cases hji : j = i
    · subst hji
      rw [put_running_self] at hj
      cases hj
      exact hinv.congr le_rfl rfl le_rfl rfl rfl rfl id
    · rw [put_running_of_ne _ hji] at hj
      exact (h.runs j other hj).congr le_rfl rfl le_rfl
        (Function.update_of_ne (h.box_ne hrun hj hji) ..) rfl rfl id
  · intro d hd
    have hend := h.ends_put hrun hreq d hd
    exact ⟨hend.exact, hend.old, hend.older, hend.settled⟩

/-- A frame left over from an earlier request is dropped. -/
lemma pop_other {f : Frame H} {rest : List (Frame H)} (hrun : w.running i = some run)
    (hbox : w.boxes run.box = f :: rest) (hf : f.request ≠ run.request) :
    (w.pop run.box rest).Inv := by
  refine h.move h.held h.heldBox fun j other hj => ?_
  have hold := h.runs j other hj
  by_cases hji : j = i
  · subst hji
    obtain rfl : run = other := Option.some.inj (hrun.symm.trans hj)
    refine ⟨fun g hg => hold.mine g ?_, hold.found, ?_⟩
    · rw [Function.update_self] at hg
      simp [hbox, hg]
    · simp [waiting, heading, hbox, hf]
  · rw [Function.update_of_ne (h.box_ne hrun hj hji)]
    refine ⟨hold.mine, hold.found, ?_⟩
    simp [waiting, heading, Function.update_of_ne (h.box_ne hrun hj hji)]

/-- One turn of the loop of `run_request`. -/
lemma take {f : Frame H} {rest : List (Frame H)} (hrun : w.running i = some run)
    (hphase : run.phase = .relaying) (hbox : w.boxes run.box = f :: rest)
    (hfine : ((w.pop run.box rest).onFrame i run f).dissolved = false) :
    ((w.pop run.box rest).onFrame i run f).Inv := by
  have hi := h.runs i run hrun
  obtain ⟨hopen, hposted, hring⟩ := hi.partly (.inr hphase)
  have hmine : ∀ g ∈ (w.pop run.box rest).boxes run.box, g.session = i := by
    intro g hg
    simp only [pop, Function.update_self] at hg
    exact hi.mine g (by simp [hbox, hg])
  unfold onFrame at hfine ⊢
  by_cases hother : f.request = run.request
  · -- the frame is the next one of the ring for this request
    have hnext : w.ringFrames i run.request =
        run.taken ++ f :: (w.pop run.box rest).waiting i run := by
      rw [hring]
      simp [waiting, heading, pop, hbox, hother]
    rw [if_neg (not_not.mpr hother)] at hfine ⊢
    by_cases herror : f.type = .error
    · have htext : f.payload.message ≠ "" := hi.worded f (by rw [hnext]; simp) herror
      have hterminal : f.terminal := by simp [Frame.terminal, herror]
      rw [if_pos herror, if_neg htext]
      refine h.popped hrun rfl ⟨hi.box, hi.inbox, hi.request, hmine, hi.found, hi.worded, by simp,
        by simp, ?_, by simp⟩
      rintro problem ⟨⟩
      refine ⟨⟨by simp [hterminal], ?_⟩, ?_⟩
      · exact (congrArg _ hnext).trans (List.upTo_append_cons_of_marked hopen hterminal)
      · simp [hposted, RelayRun.toClient, herror, RelayRun.origin]
    · rw [if_neg herror] at hfine ⊢
      cases hstream : requireStreamed f i run.request with
      | error e => simp [hstream] at hfine
      | ok result =>
        have hclient : RelayRun.toClient run.clientSession run.clientRequest f =
            { f with session := run.clientSession, request := run.clientRequest } :=
          if_neg herror
        refine h.popped hrun rfl ?_
        by_cases hresult : f.type = .result
        · have hterminal : f.terminal := by simp [Frame.terminal, hresult]
          simp only [hresult, if_true]
          refine ⟨hi.box, hi.inbox, hi.request, hmine, hi.found, hi.worded, by simp, by simp,
            by simp, fun _ => ⟨⟨by simp [hterminal], ?_⟩, by simp [hposted, hclient, hresult]⟩⟩
          exact (congrArg _ hnext).trans (List.upTo_append_cons_of_marked hopen hterminal)
        · have hterminal : f.terminal = false := by simp [Frame.terminal, hresult, herror]
          simp only [hresult, if_false]
          refine ⟨hi.box, hi.inbox, hi.request, hmine, hi.found, hi.worded, by simp,
            fun _ => ⟨by simpa [hterminal] using hopen, by simp [hposted, hclient], ?_⟩, by simp,
            by simp⟩
          exact hnext.trans (by simp [waiting, heading])
  · rw [if_pos hother]
    exact h.pop_other hrun hbox hother

/-- Every step that does not dissolve the replica keeps the invariant. -/
lemma step {e : RelayEvent H} {w' : Relay H} (hcausal : w.Causal e) (hworded : w.Worded e)
    (hstep : w.step e = some w') (hfine : w'.dissolved = false) : w'.Inv := by
  unfold Relay.step at hstep
  split_ifs at hstep
  cases e <;> simp only [Option.ite_none_right_eq_some, Option.some.injEq,
    Option.bind_eq_some_iff] at hstep
  case register internal cs cr =>
    obtain ⟨hidle, rfl⟩ := hstep
    exact h.register hidle cs cr
  case send internal =>
    obtain ⟨run, hrun, hstart, rfl⟩ := hstep
    exact h.send hrun hstart
  case refuse internal problem =>
    obtain ⟨run, hrun, hstart, hstep⟩ := hstep
    have hi := h.runs internal run hrun
    split_ifs at hstep with hempty <;> cases hstep
    · exact h.put hrun rfl ⟨hi.box, hi.inbox, hi.request, hi.mine, hi.found, hi.worded, by simp,
        fun _ => hi.partly (.inl hstart), by simp, by simp⟩
    · refine h.close hrun _ ?_ (.inr (hi.unsent hstart))
      rw [h.ringFrames_of_unprompted (hi.unsent hstart)]
      rfl
  case receive frame =>
    cases hreader : w.reader <;> simp only [hreader, Option.some.injEq, reduceCtorEq] at hstep
    subst hstep
    exact h.receive hreader hcausal hworded
  case find =>
    cases hreader : w.reader <;> simp only [hreader, reduceCtorEq] at hstep
    case received frame =>
      cases hinbox : w.inboxes frame.session <;> simp only [hinbox, Option.some.injEq] at hstep
      · subst hstep
        exact h.find_stray hreader hinbox
      · subst hstep
        exact h.find_inbox hreader hinbox
  case push =>
    cases hreader : w.reader <;> simp only [hreader, Option.some.injEq, reduceCtorEq] at hstep
    subst hstep
    exact h.push hreader
  case take internal =>
    obtain ⟨run, hrun, hphase, hstep⟩ := hstep
    cases hbox : w.boxes run.box <;> simp only [hbox, Option.some.injEq, reduceCtorEq] at hstep
    subst hstep
    exact h.take hrun hphase hbox hfine
  case finish internal commit =>
    obtain ⟨run, hrun, hstep⟩ := hstep
    have hi := h.runs internal run hrun
    cases hphase : run.phase <;> simp only [hphase, Option.some.injEq, reduceCtorEq] at hstep <;>
      subst hstep
    · obtain ⟨hcomplete, hposted⟩ := hi.failed _ hphase
      refine h.close hrun _ (by rw [hcomplete.2]; exact hposted) (.inl ?_)
      rw [← List.any_upTo, hcomplete.2]
      exact hcomplete.1
    · obtain ⟨hcomplete, hposted⟩ := hi.finished hphase
      refine h.close hrun _ (by rw [hcomplete.2]; exact hposted) (.inl ?_)
      rw [← List.any_upTo, hcomplete.2]
      exact hcomplete.1
  case fail =>
    subst hstep
    simp at hfine

lemma faithful : w.Faithful where
  ended := fun d hd => (h.ends d hd).exact
  running := by
    intro j other hj
    have hi := h.runs j other hj
    cases hphase : other.phase with
    | starting =>
      obtain ⟨hopen, hposted, hring⟩ := hi.partly (.inl hphase)
      rw [hposted, hring, List.upTo_append_of_not_any hopen, List.map_append]
      exact List.prefix_append _ _
    | relaying =>
      obtain ⟨hopen, hposted, hring⟩ := hi.partly (.inr hphase)
      rw [hposted, hring, List.upTo_append_of_not_any hopen, List.map_append]
      exact List.prefix_append _ _
    | failed problem =>
      obtain ⟨hcomplete, hposted⟩ := hi.failed _ hphase
      rw [hcomplete.2, ← hposted]
      exact List.prefix_append _ _
    | finished =>
      obtain ⟨hcomplete, hposted⟩ := hi.finished hphase
      rw [hcomplete.2]
      exact ⟨[], by rw [List.append_nil, hposted]⟩
  drained := by
    intro j other hj hphase hidle hbox
    obtain ⟨hopen, hposted, hring⟩ := (h.runs j other hj).partly (.inr hphase)
    have hnone : w.waiting j other = [] := by simp [waiting, heading, hidle, hbox]
    rw [hring, hnone, List.append_nil, List.upTo_eq_self_of_not_any hopen, hposted]

end Inv

lemma inv_of_reachable {w : Relay H}
    (h : (system H).Reachable (fun w e => w.Causal e ∧ w.Worded e) w) :
    w.dissolved = false → w.Inv := by
  refine h.invariant (I := fun w => w.dissolved = false → w.Inv) ?_
    fun w e w' _ hinv hok hstep hfine => ?_
  · intro _
    exact ⟨by simp [system], by simp [system], by simp [system], by simp [system],
      by simp [system], by simp [system], by simp [system], by simp [system]⟩
  · have hup : w.dissolved = false := by
      by_contra hdown
      simp [system, Relay.step, hdown] at hstep
    exact (hinv hup).step hok.1 hok.2 hstep hfine

/-- While the replica is not dissolved and no running request gets a nameless error, every client
gets exactly the ring's frames for its own request; and what it gets is the same in any two runs
in which the ring returned the same frames for that request, whatever it returned for others. -/
theorem relay_faithful {w : Relay H}
    (h : (system H).Reachable (fun w e => w.Causal e ∧ w.Worded e) w)
    (hfine : w.dissolved = false) :
    w.Faithful ∧ ∀ w' : Relay H,
      (system H).Reachable (fun w e => w.Causal e ∧ w.Worded e) w' → w'.dissolved = false →
      ∀ d ∈ w.ended, ∀ d' ∈ w'.ended, d.clientSession = d'.clientSession →
        d.clientRequest = d'.clientRequest →
        w.ringFrames d.internal d.request = w'.ringFrames d'.internal d'.request →
        d.relayed = d'.relayed := by
  have hinv := inv_of_reachable h hfine
  refine ⟨hinv.faithful, fun w' h' hfine' d hd d' hd' hsession hrequest hframes => ?_⟩
  have hinv' := inv_of_reachable h' hfine'
  rw [hinv.faithful.ended d hd, hinv'.faithful.ended d' hd', hframes, hsession, hrequest]

/-- One token of request 1 on internal session 5, the last of its answer. -/
def lastToken : Frame Unit :=
  { type := .result, session := 5, request := 1, position := 4, payload := .sampled 9 true "a" }

/-- A request answered with one token. -/
theorem lastToken_relayed :
    ∃ w : Relay Unit, w.ended.map (·.relayed) =
      [[{ lastToken with session := 1, request := 3 }]] ∧ w.Faithful := by
  have hinit : (system Unit).Reachable (fun w e => w.Causal e ∧ w.Worded e) _ := .init
  have hprompt := (hinit.step (RelayEvent.register 5 1 3) ⟨trivial, trivial⟩ rfl).step
    (RelayEvent.send 5) ⟨trivial, trivial⟩ rfl
  have hreceived := hprompt.step (RelayEvent.receive lastToken)
    ⟨List.mem_singleton_self _, by simp [Worded, lastToken]⟩ rfl
  have hpushed := (hreceived.step RelayEvent.find ⟨trivial, trivial⟩ rfl).step RelayEvent.push
    ⟨trivial, trivial⟩ rfl
  have hended := (hpushed.step (RelayEvent.take 5) ⟨trivial, trivial⟩ rfl).step
    (RelayEvent.finish 5 (.ok 5)) ⟨trivial, trivial⟩ rfl
  exact ⟨_, rfl, (relay_faithful hended rfl).1⟩

instance (w : Relay H) (e : RelayEvent H) : Decidable (w.Causal e) :=
  match e with
  | .receive frame => inferInstanceAs (Decidable ((frame.session, frame.request) ∈ w.prompted))
  | .register _ _ _ | .send _ | .refuse _ _ | .find | .push | .take _ | .finish _ _ | .fail =>
    .isTrue trivial

/-- The ring fails a request without saying why. -/
def namelessError : List (RelayEvent Unit) :=
  [.register 5 1 3, .send 5,
   .receive { type := .error, session := 5, request := 1, payload := .text "" },
   .find, .push, .take 5, .finish 5 (.ok 0)]

/-- The empty text passes for no problem at all: the client gets no error. -/
theorem namelessError_not_relayed :
    ¬ ∀ w : Relay Unit, (system Unit).Reachable Causal w → w.dissolved = false → w.Faithful := by
  intro h
  have hfaithful := h _ (System.Reachable.init.exec namelessError rfl) rfl
  exact absurd (hfaithful.ended _ (List.mem_singleton_self _)) (by decide)

end Relay

end ProviderOwned
