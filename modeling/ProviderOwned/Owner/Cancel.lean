import Mathlib.Logic.Function.Basic
import ProviderOwned.Lib.Transition

/-!
# Cancelling a request at the owner

A client's link has one cancel slot, the two atomics `cancel_session` and `cancel_request`. The
link's reader stores the request and then the session of every `cancel_request` frame there
(`read_client`); each running request has its own thread, which looks at the slot after every token
that is not the last (`Link::cancelled`), first at the session and then at the request.

With several sessions on one link a cancel is overwritten by the next one before its request has
looked, and between the two stores the slot holds a pair no client sent. `Undisturbed` is the
condition under which neither happens.
-/

namespace ProviderOwned

open Transition

/-- The thread of a running request. `asked`: the client cancelled it while it ran; `checking`: it
is between the two loads of `Link::cancelled`, with `asked` as it was when the token came; `told`:
a token came after it was asked. -/
structure RunningRequest where
  request : Nat
  asked : Bool := false
  checking : Option Bool := none
  told : Bool := false
  cancelSent : Bool := false
  deriving DecidableEq, Repr

/-- A look at the cancel slot after a token: whether the client had asked by then, and whether
the thread noticed. -/
structure TokenCheck where
  session : Nat
  request : Nat
  asked : Bool
  noticed : Bool
  deriving DecidableEq, Repr

/-- A request that ended, and whether it ended as cancelled. -/
structure EndedRequest where
  session : Nat
  request : Nat
  told : Bool
  cancelled : Bool
  deriving DecidableEq, Repr

/-- A client's `Link` as far as cancels go. `storing` is the session the reader is about to store.
`received`, `checks`, `sent` and `ended` are the history of the link, which the code does not keep:
the cancels it received, the looks at the slot, the cancels it sent to the tail and the requests
that ended. -/
structure CancelLink where
  cancelSession : Nat := 0
  cancelRequest : Nat := 0
  storing : Option Nat := none
  gone : Bool := false
  running : Nat → Option RunningRequest := fun _ => none
  received : List (Nat × Nat) := []
  checks : List TokenCheck := []
  sent : List (Nat × Nat) := []
  ended : List EndedRequest := []

/-- What can happen on the link. `session` is a client session throughout. -/
inductive CancelEvent
  | start (session request : Nat)
  | storeRequest (session request : Nat)
  | storeSession
  | token (session : Nat)
  | check (session : Nat)
  | finish (session : Nat)
  | hangUp

namespace CancelLink

/-- The thread of the request on `session` goes on as `run`. -/
def put (w : CancelLink) (session : Nat) (run : RunningRequest) : CancelLink :=
  { w with running := Function.update w.running session (some run) }

/-- The thread looked at the slot: if it found its cancel it sends it to the tail. -/
def looked (w : CancelLink) (session : Nat) (run : RunningRequest) (asked noticed : Bool) :
    CancelLink :=
  { w.put session { run with checking := none, cancelSent := noticed } with
    checks := w.checks ++ [⟨session, run.request, asked, noticed⟩]
    sent := if noticed then w.sent ++ [(session, run.request)] else w.sent }

/-- A token that is not the last: `gone` and the session are looked at first. -/
def onToken (w : CancelLink) (session : Nat) (run : RunningRequest) : CancelLink :=
  if run.cancelSent then w.put session { run with told := run.told || run.asked }
  else if w.gone then
    w.looked session { run with told := run.told || run.asked } run.asked true
  else if w.cancelSession = session then
    w.put session { run with checking := some run.asked, told := run.told || run.asked }
  else w.looked session { run with told := run.told || run.asked } run.asked false

/-- The second store of the reader. The cancel is now received: a request it names is asked. -/
def onStored (w : CancelLink) (session : Nat) : CancelLink :=
  { w with
    cancelSession := session
    storing := none
    running := fun s => (w.running s).map fun run =>
      if s = session ∧ run.request = w.cancelRequest then { run with asked := true } else run }

/-- One step of the link. A session runs one request at a time, and neither id is zero. -/
def step (w : CancelLink) : CancelEvent → Option CancelLink
  | .start session request =>
    if session ≠ 0 ∧ request ≠ 0 ∧ w.running session = none then
      some (w.put session { request })
    else none
  | .storeRequest session request =>
    if w.storing = none ∧ w.gone = false then
      some { w with
        cancelRequest := request, storing := some session
        received := w.received ++ [(session, request)] }
    else none
  | .storeSession => w.storing.map w.onStored
  | .token session =>
    (w.running session).bind fun run =>
      if run.checking = none then some (w.onToken session run) else none
  | .check session =>
    (w.running session).bind fun run =>
      run.checking.map fun asked => w.looked session run asked (w.cancelRequest = run.request)
  | .finish session =>
    (w.running session).bind fun run =>
      if run.checking = none then
        some { w with
          running := Function.update w.running session none
          ended := w.ended ++ [⟨session, run.request, run.told, run.cancelSent⟩] }
      else none
  | .hangUp => if w.storing = none then some { w with gone := true } else none

def system : System CancelLink CancelEvent where
  init := {}
  step := step

/-- A look of the request on `session` can still find that session in the slot. -/
def Sees (w : CancelLink) (session : Nat) (run : RunningRequest) : Prop :=
  w.cancelSession = session ∨ run.checking ≠ none

/-- A cancel is stored only when the slot holds no cancel that a running request has still to
notice (its own, sent again, apart), and when no running request of another session that sees its
own session in the slot has the same request id; and a request does not start while the slot holds
its ids by halves. -/
def Undisturbed (w : CancelLink) : CancelEvent → Prop
  | .storeRequest session request =>
    (∀ s run, w.running s = some run → run.asked → ¬ run.cancelSent →
      s = session ∧ run.request = request) ∧
    ∀ s run, w.running s = some run → run.request = request → w.Sees s run → s = session
  | .start session request =>
    w.cancelSession = session → w.cancelRequest = request →
      w.storing = none ∨ w.storing = some session
  | _ => True

/-- No cancel is lost and none is misdirected: a look after the client asked notices, a request
that was told ends as cancelled, and the owner cancels only what the client cancelled (or
everything, once the client is gone). -/
structure Faithful (w : CancelLink) : Prop where
  noticed : ∀ c ∈ w.checks, c.asked → c.noticed
  cancelled : ∀ e ∈ w.ended, e.told → e.cancelled
  own : ∀ p ∈ w.sent, p ∈ w.received ∨ w.gone

/-- What an undisturbed run keeps for the thread of the request on session `s`. -/
structure RunInv (w : CancelLink) (s : Nat) (run : RunningRequest) : Prop where
  nonzero : s ≠ 0
  sees : run.request = w.cancelRequest → w.Sees s run → (s, run.request) ∈ w.received
  pending : run.asked → ¬ run.cancelSent →
    w.cancelSession = s ∧ w.cancelRequest = run.request ∧ ∀ s', w.storing = some s' → s' = s
  checking : run.checking = some true → run.asked
  unsent : run.checking ≠ none → ¬ run.cancelSent
  told : run.told → run.cancelSent ∨ run.checking = some true

/-- What every undisturbed run keeps. -/
structure Inv (w : CancelLink) : Prop extends w.Faithful where
  slot : w.storing = none → (w.cancelSession, w.cancelRequest) ∈ w.received ∨ w.cancelSession = 0
  half : ∀ s, w.storing = some s → (s, w.cancelRequest) ∈ w.received
  runs : ∀ s run, w.running s = some run → w.RunInv s run

namespace Inv

variable {w : CancelLink} (h : w.Inv) {session : Nat} {run : RunningRequest}
include h

/-- One thread goes on, with everything else as it was. -/
lemma put (hrun : w.RunInv session run) : (w.put session run).Inv where
  toFaithful := ⟨h.noticed, h.cancelled, h.own⟩
  slot := h.slot
  half := h.half
  runs := by
    intro s other hs
    by_cases heq : s = session
    · subst heq
      simp only [CancelLink.put, Function.update_self, Option.some.injEq] at hs
      subst hs
      exact ⟨hrun.nonzero, hrun.sees, hrun.pending, hrun.checking, hrun.unsent, hrun.told⟩
    · simp only [CancelLink.put, Function.update_of_ne heq] at hs
      have hother := h.runs s other hs
      exact ⟨hother.nonzero, hother.sees, hother.pending, hother.checking, hother.unsent,
        hother.told⟩

/-- A look at the slot that is as it should be. -/
lemma looked {asked noticed : Bool}
    (hrun : w.RunInv session { run with checking := none, cancelSent := noticed })
    (hasked : asked → noticed) (hown : noticed → (session, run.request) ∈ w.received ∨ w.gone) :
    (w.looked session run asked noticed).Inv := by
  have hput := h.put hrun
  refine ⟨⟨?_, hput.cancelled, ?_⟩, hput.slot, hput.half, fun s other hs => ?_⟩
  · intro c hc
    rcases List.mem_append.mp hc with hc | hc
    · exact h.noticed c hc
    · rw [List.mem_singleton.mp hc]
      exact hasked
  · intro p hp
    cases noticed with
    | false => exact h.own p hp
    | true =>
      rcases List.mem_append.mp hp with hp | hp
      · exact h.own p hp
      · rw [List.mem_singleton.mp hp]
        exact hown rfl
  · have hother := hput.runs s other hs
    exact ⟨hother.nonzero, hother.sees, hother.pending, hother.checking, hother.unsent,
      hother.told⟩

/-- A cancel of a running request that has still to be noticed is in the slot. -/
lemma slot_of_pending (hs : w.running session = some run) (hasked : run.asked)
    (hsent : ¬ run.cancelSent) :
    w.cancelSession = session ∧ w.cancelRequest = run.request :=
  ⟨((h.runs _ _ hs).pending hasked hsent).1, ((h.runs _ _ hs).pending hasked hsent).2.1⟩

lemma onToken (hs : w.running session = some run) (hidle : run.checking = none) :
    (w.onToken session run).Inv := by
  have hrun := h.runs _ _ hs
  have htold : run.told → run.cancelSent := fun ht => by simpa [hidle] using hrun.told ht
  have hsees : run.request = w.cancelRequest → w.cancelSession = session →
      (session, run.request) ∈ w.received := fun hr hc => hrun.sees hr (.inl hc)
  unfold CancelLink.onToken
  split_ifs with hsent hgone hslot
  · exact h.put ⟨hrun.nonzero, hrun.sees, fun _ hno => absurd hsent hno, by simp [hidle],
      by simp [hidle], fun _ => .inl hsent⟩
  · refine h.looked ⟨hrun.nonzero, fun hr hc => ?_, fun _ hno => absurd rfl hno, by simp, by simp,
      fun _ => .inl rfl⟩ (fun _ => rfl) fun _ => .inr hgone
    exact hsees hr (by simpa [Sees] using hc)
  · refine h.put ⟨hrun.nonzero, fun hr _ => hsees hr hslot, hrun.pending, ?_, fun _ => hsent,
      fun ht => ?_⟩
    · exact fun hc => Option.some.inj hc
    · rcases Bool.or_eq_true _ _ ▸ ht with ht | ht
      · exact absurd (htold ht) hsent
      · exact .inr (congrArg some ht)
  · -- the slot names another session, so nobody can have asked for this one
    have hasked : ¬ run.asked := fun ha => hslot (h.slot_of_pending hs ha hsent).1
    refine h.looked ⟨hrun.nonzero, fun hr hc => ?_, fun ha => absurd ha hasked, by simp, by simp,
      fun ht => ?_⟩ (fun ha => absurd ha hasked) (by simp)
    · exact hsees hr (by simpa [Sees] using hc)
    · rcases Bool.or_eq_true _ _ ▸ ht with ht | ht
      · exact absurd (htold ht) hsent
      · exact absurd ht hasked

lemma onStored (hstoring : w.storing = some session) : (w.onStored session).Inv where
  toFaithful := ⟨h.noticed, h.cancelled, h.own⟩
  slot := fun _ => .inl (h.half _ hstoring)
  half := by simp [CancelLink.onStored]
  runs := by
    intro s other hs
    obtain ⟨run, hrun, rfl⟩ := Option.map_eq_some_iff.mp hs
    have hold := h.runs s run hrun
    split_ifs with hnamed
    · obtain ⟨rfl, hreq⟩ := hnamed
      refine ⟨hold.nonzero, fun _ _ => hreq ▸ h.half _ hstoring, fun _ _ => ⟨rfl, hreq.symm, ?_⟩,
        fun _ => rfl, hold.unsent, hold.told⟩
      simp [CancelLink.onStored]
    · refine ⟨hold.nonzero, fun hr hc => ?_, fun ha hno => ?_, hold.checking, hold.unsent,
        hold.told⟩
      · rcases hc with hc | hc
        · exact absurd ⟨hc.symm, hr⟩ hnamed
        · exact hold.sees hr (.inr hc)
      · obtain ⟨-, hreq, hsame⟩ := hold.pending ha hno
        exact absurd ⟨(hsame _ hstoring).symm, hreq.symm⟩ hnamed

/-- Every undisturbed step keeps the invariant. -/
lemma step {e : CancelEvent} {w' : CancelLink} (hok : w.Undisturbed e)
    (hstep : w.step e = some w') : w'.Inv := by
  cases e <;> simp only [CancelLink.step, Option.ite_none_right_eq_some, Option.some.injEq,
    Option.map_eq_some_iff, Option.bind_eq_some_iff] at hstep
  case start session request =>
    obtain ⟨⟨hnonzero, -, -⟩, rfl⟩ := hstep
    refine h.put ⟨hnonzero, fun hr hc => ?_, by simp, by simp, by simp, by simp⟩
    have hc : w.cancelSession = session := by simpa [Sees] using hc
    -- the slot names this very request, which the client must have cancelled before it started
    rcases hok hc hr.symm with hfull | hhalf
    · rcases h.slot hfull with hslot | hzero
      · rwa [hc, ← hr] at hslot
      · exact absurd (hc.symm.trans hzero) hnonzero
    · exact hr ▸ h.half _ hhalf
  case storeRequest session request =>
    obtain ⟨-, rfl⟩ := hstep
    have hmem : ∀ p ∈ w.received, p ∈ w.received ++ [(session, request)] :=
      fun p hp => List.mem_append_left _ hp
    refine ⟨⟨h.noticed, h.cancelled, fun p hp => (h.own p hp).imp_left (hmem p)⟩, by simp, ?_, ?_⟩
    · rintro s ⟨⟩
      exact List.mem_append_right _ (List.mem_singleton_self _)
    · intro s run hs
      have hold := h.runs s run hs
      refine ⟨hold.nonzero, fun hr hc => ?_, fun ha hno => ?_, hold.checking, hold.unsent,
        hold.told⟩
      · obtain rfl := hok.2 s run hs hr hc
        rw [show run.request = request from hr]
        exact List.mem_append_right _ (List.mem_singleton_self _)
      · obtain ⟨rfl, hreq⟩ := hok.1 s run hs ha hno
        exact ⟨(hold.pending ha hno).1, hreq.symm, fun s' hs' => (Option.some.inj hs').symm⟩
  case storeSession =>
    obtain ⟨session, hstoring, rfl⟩ := hstep
    exact h.onStored hstoring
  case token session =>
    obtain ⟨run, hs, hidle, rfl⟩ := hstep
    exact h.onToken hs hidle
  case check session =>
    obtain ⟨run, hs, asked, hchecking, rfl⟩ := hstep
    have hrun := h.runs _ _ hs
    have hunsent : ¬ run.cancelSent := hrun.unsent (by simp [hchecking])
    have hfound : asked → w.cancelRequest = run.request := by
      rintro rfl
      exact (h.slot_of_pending hs (hrun.checking hchecking) hunsent).2
    refine h.looked ⟨hrun.nonzero, fun hr hc => ?_, fun ha hno => ?_, by simp, by simp,
      fun ht => ?_⟩ (fun ha => by simpa using hfound ha) fun hn => .inl ?_
    · exact hrun.sees hr (.inr (by simp [hchecking]))
    · exact absurd (decide_eq_true (h.slot_of_pending hs ha hunsent).2) hno
    · rcases hrun.told ht with hsent | hasked
      · exact absurd hsent hunsent
      · refine .inl (decide_eq_true (hfound ?_))
        simpa [hchecking] using hasked
    · exact hrun.sees (of_decide_eq_true hn).symm (.inr (by simp [hchecking]))
  case finish session =>
    obtain ⟨run, hs, hidle, rfl⟩ := hstep
    refine ⟨⟨h.noticed, ?_, h.own⟩, h.slot, h.half, fun s other hs' => ?_⟩
    · intro e he
      rcases List.mem_append.mp he with he | he
      · exact h.cancelled e he
      · rw [List.mem_singleton.mp he]
        exact fun ht => by simpa [hidle] using (h.runs _ _ hs).told ht
    · by_cases heq : s = session
      · simp [heq] at hs'
      · simp only [Function.update_of_ne heq] at hs'
        have hother := h.runs s other hs'
        exact ⟨hother.nonzero, hother.sees, hother.pending, hother.checking, hother.unsent,
          hother.told⟩
  case hangUp =>
    obtain ⟨-, rfl⟩ := hstep
    refine ⟨⟨h.noticed, h.cancelled, fun _ _ => .inr rfl⟩, h.slot, h.half, fun s run hs => ?_⟩
    have hrun := h.runs s run hs
    exact ⟨hrun.nonzero, hrun.sees, hrun.pending, hrun.checking, hrun.unsent, hrun.told⟩

end Inv

/-- In every run whose cancels do not disturb each other, no cancel is lost and none cancels
another request. -/
theorem cancels_faithful {w : CancelLink} (h : system.Reachable Undisturbed w) : w.Faithful := by
  have hinv : w.Inv := by
    refine h.invariant ⟨⟨?_, ?_, ?_⟩, ?_, ?_, ?_⟩ fun w e w' _ hinv hok hstep => hinv.step hok hstep
    all_goals simp [system]
  exact hinv.toFaithful

/-- One request, cancelled while it runs: it ends as cancelled. -/
theorem cancelled_request_faithful :
    ∃ w : CancelLink, w.ended = [⟨1, 7, true, true⟩] ∧ w.sent = [(1, 7)] ∧ w.Faithful := by
  have hstart : system.Reachable Undisturbed _ :=
    System.Reachable.init.step (.start 1 7) (by simp [Undisturbed, system]) rfl
  have honly : ∀ s run, (put {} 1 { request := 7 }).running s = some run →
      s = 1 ∧ run.request = 7 := by
    intro s run hs
    by_cases heq : s = 1
    · subst heq
      cases hs
      exact ⟨rfl, rfl⟩
    · simp [put, Function.update_of_ne heq] at hs
  have hcancel := hstart.step (CancelEvent.storeRequest 1 7)
    ⟨fun s run hs _ _ => honly s run hs, fun s run hs _ _ => (honly s run hs).1⟩ rfl
  have htoken := (hcancel.step CancelEvent.storeSession trivial rfl).step (CancelEvent.token 1)
    trivial rfl
  have hnoticed := htoken.step (CancelEvent.check 1) trivial rfl
  exact ⟨_, rfl, rfl, cancels_faithful (hnoticed.step (CancelEvent.finish 1) trivial rfl)⟩

/-- Two sessions of one client are cancelled between two tokens. -/
def lostCancel : List CancelEvent :=
  [.start 1 7, .start 2 8, .storeRequest 1 7, .storeSession, .storeRequest 2 8, .storeSession,
   .token 1, .finish 1]

/-- The second cancel overwrites the first: session 1 looks, finds session 2 in the slot, and its
request ends as if it had not been cancelled. -/
theorem lostCancel_not_faithful : ¬ ∀ w, system.Reachable (fun _ _ => True) w → w.Faithful := by
  intro h
  have hfaithful := h _ (System.Reachable.init.exec lostCancel rfl)
  exact absurd (hfaithful.cancelled ⟨1, 7, true, false⟩ (by decide) rfl) (by decide)

end CancelLink

end ProviderOwned
