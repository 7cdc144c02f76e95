import ProviderOwned.Coordinator.Scheduler

/-!
# The book of the scheduler

The book of a state says which job is in the hands of which thread. Each operation of the scheduler
on jobs and entries is one of the book, so that the book stays sound as long as no entry is erased
by its key that belongs to another submission.
-/

namespace ProviderOwned.Scheduler

open Transition Promises

inductive Thread
  | executor
  | stopper
  | client (job : Nat)
  | call (call : Nat)
  deriving DecidableEq

/-! ### The book of a state -/

def JobState.status : JobState → Status
  | .queued => .queued
  | .active => .active
  | .done => .done
  | .cancelled => .cancelled

/-- Whether an answer came of a run. -/
def Answer.isRan : Answer → Bool
  | .ran _ => true
  | .unran _ => false

def Job.stage (job : Job) : Stage :=
  if job.accepted then .accepted
  else match job.phase with
    | .entering => .outside
    | .pushing | .withdrawing => .entered
    | .waiting | .expired _ | .returned _ => .rejected

def Job.entryKey (job : Job) : Option RequestKey :=
  if job.kind = .generate then some job.key else none

def Job.promise (job : Job) : Promise RequestKey where
  key := job.entryKey
  status := job.state.status
  stage := job.stage
  answers := job.answers.map Answer.isRan

/-- What a thread in `cancel` has in its hands. -/
def CancelPhase.hand : CancelPhase → Option (Hand Nat)
  | .removing i | .setting i => some ⟨i, false, .cancelled⟩
  | .looking | .returned _ => none

/-- What the thread of a submission has in its hands. -/
def SubmitPhase.hand : SubmitPhase → Option (Hand Nat)
  | .expired phase => phase.hand
  | _ => none

/-- What a thread has in its hands that goes through the jobs that were queued. -/
def Drain.hand : Drain → Option (Hand Nat)
  | .next _ => none
  | .erasing i _ => some ⟨i, true, .cancelled⟩
  | .setting i _ => some ⟨i, false, .cancelled⟩

def Executor.hand : Executor → Option (Hand Nat)
  | .expiring i => some ⟨i, true, .cancelled⟩
  | .expired i => some ⟨i, false, .cancelled⟩
  | .running i | .completing i _ _ => some ⟨i, true, .active⟩
  | .erasing i _ _ => some ⟨i, true, .done⟩
  | .setting i _ _ => some ⟨i, false, .done⟩
  | .draining drain => drain.hand
  | _ => none

/-- What the thread has in its hands that called `stop`. -/
def Stopper.hand : Stopper → Option (Hand Nat)
  | .draining drain => drain.hand
  | _ => none

namespace State

variable {g g' : State} {i : Nat} {job : Job}

def book (g : State) : Book Nat RequestKey Thread where
  promises i := (g.jobs i).map Job.promise
  pending := g.pending
  hand
    | .executor => g.executor.hand
    | .stopper => g.stopper.hand
    | .client i => (g.jobs i).bind fun job => job.phase.hand
    | .call c => (g.calls c).bind fun call => call.phase.hand

lemma book_executor (executor : Executor) :
    (g.goto executor).book = g.book.give .executor executor.hand := by
  refine congrArg (Book.mk _ _) (funext fun y => ?_)
  cases y <;> simp [book, goto]

lemma book_stopper (stopper : Stopper) :
    (g.stopAt stopper).book = g.book.give .stopper stopper.hand := by
  refine congrArg (Book.mk _ _) (funext fun y => ?_)
  cases y <;> simp [book, stopAt]

lemma book_call {c : Nat} (call : Call) :
    (g.putCall c call).book = g.book.give (.call c) call.phase.hand := by
  refine congrArg (Book.mk _ _) (funext fun y => ?_)
  cases y with
  | call d => by_cases hd : d = c <;> simp [book, putCall, hd]
  | _ => simp [book, putCall]

/-- A thread puts its own job. -/
lemma book_putJob :
    (g.putJob i job).book = (g.book.put i job.promise).give (.client i) job.phase.hand := by
  have hpromises : (g.putJob i job).book.promises = (g.book.put i job.promise).promises := by
    funext j
    by_cases hj : j = i <;> simp [book, putJob, Book.put, hj]
  have hhand : (g.putJob i job).book.hand = (g.book.give (.client i) job.phase.hand).hand := by
    funext y
    cases y with
    | client j => by_cases hj : j = i <;> simp [book, putJob, Book.give, hj]
    | _ => simp [book, putJob, Book.give]
  exact congrArg₂ (fun p h => Book.mk p g.pending h) hpromises hhand

/-- A thread changes any job, and not where its submission is. -/
lemma book_modifyJob {f : Job → Job} (hjob : g.jobs i = some job)
    (hphase : (f job).phase = job.phase) :
    (g.modifyJob i f).book = g.book.put i (f job).promise := by
  have hpromises : (g.modifyJob i f).book.promises = (g.book.put i (f job).promise).promises := by
    funext j
    by_cases hj : j = i <;> simp [book, modifyJob, Book.put, hj, hjob]
  have hhand : (g.modifyJob i f).book.hand = g.book.hand := by
    funext y
    cases y with
    | client j => by_cases hj : j = i <;> simp [book, modifyJob, hj, hjob, hphase]
    | _ => rfl
  exact congrArg₂ (fun p h => Book.mk p g.pending h) hpromises hhand

lemma book_erase {key : RequestKey} : (g.erase key).book = g.book.unlist (some key) := by
  refine congrArg (fun p => Book.mk _ p _) (funext fun k => ?_)
  simp [book, erase, eq_comm]

lemma book_emplace {key : RequestKey} : (g.emplace key i).book = g.book.list (some key) i := by
  refine congrArg (fun p => Book.mk _ p _) (funext fun k => ?_)
  simp [book, emplace, eq_comm]

lemma book_erasePending (hjob : g.jobs i = some job) :
    (g.erasePending i).book = g.book.unlist job.entryKey := by
  unfold erasePending
  simp only [hjob]
  by_cases hkind : job.kind = .generate
  · rw [if_pos hkind, book_erase, Job.entryKey, if_pos hkind]
  · rw [if_neg hkind]
    refine congrArg (fun p => Book.mk _ p _) (funext fun k => ?_)
    simp [Job.entryKey, hkind, book]

/-- The thread of a submission goes on in `cancel`. -/
lemma book_expired {p q : CancelPhase} (hjob : g.jobs i = some job)
    (hphase : job.phase = .expired p) :
    (g.modifyJob i ({ · with phase := .expired q })).book = g.book.give (.client i) q.hand := by
  have hpromises : (g.modifyJob i ({ · with phase := .expired q })).book.promises =
    g.book.promises := by
    funext j
    by_cases hj : j = i
    · subst hj
      simp [book, modifyJob, hjob, Job.promise, Job.stage, Job.entryKey, hphase]
    · simp [book, modifyJob, hj]
  have hhand : (g.modifyJob i ({ · with phase := .expired q })).book.hand =
      (g.book.give (.client i) q.hand).hand := by
    funext y
    cases y with
    | client j => by_cases hj : j = i <;>
        simp [book, modifyJob, Book.give, hj, hjob, SubmitPhase.hand]
    | _ => simp [book, modifyJob, Book.give]
  exact congrArg₂ (fun p h => Book.mk p g.pending h) hpromises hhand

lemma promises_eq (hjob : g.jobs i = some job) : g.book.promises i = some job.promise := by
  simp [book, hjob]

/-- A job in somebody's hands. -/
lemma held_job (h : g.book.Sound) {x : Thread} {m : Hand Nat} (hm : g.book.hand x = some m) :
    ∃ job, g.jobs m.item = some job ∧ job.state.status = m.status ∧ job.answers = [] ∧
      (m.listed → job.stage = .accepted) := by
  obtain ⟨p, hp, hstatus, -, hanswers, hlisted⟩ := h.held x m hm
  obtain ⟨job, hjob, rfl⟩ := Option.map_eq_some_iff.mp hp
  exact ⟨job, hjob, hstatus, List.map_eq_nil_iff.mp hanswers, hlisted⟩

lemma exchange_eq_some {state : JobState} (h : g.exchange i state = some g') :
    ∃ job, g.jobs i = some job ∧ job.state = .queued ∧ g' = g.modifyJob i ({ · with state }) := by
  unfold exchange at h
  split_ifs at h with hany
  obtain ⟨job, hjob, hstate⟩ := Option.any_eq_true _ _ |>.mp hany
  exact ⟨job, hjob, by simpa using hstate, (Option.some.inj h).symm⟩

/-- A thread claims a job by `compare_exchange_strong`. -/
lemma sound_exchange (h : g.book.Sound) {x : Thread} {state : JobState}
    (hfree : g.book.hand x = none)
    (haccepted : ∀ job, g.jobs i = some job → job.accepted) (hstate : state.status ≠ .queued)
    (hexchange : g.exchange i state = some g') :
    (g'.book.give x (some ⟨i, true, state.status⟩)).Sound := by
  obtain ⟨job, hjob, hqueued, rfl⟩ := exchange_eq_some hexchange
  rw [book_modifyJob (f := ({ · with state })) hjob rfl]
  exact h.claim (promises_eq hjob) hfree (by simp [Job.promise, hqueued, JobState.status])
    (by simp [Job.promise, Job.stage, haccepted job hjob]) hstate

/-- A thread erases the entry of the job in its hands. -/
lemma sound_erase (h : g.book.Sound) {x : Thread} {status : Status}
    (hm : g.book.hand x = some ⟨i, true, status⟩) (hover : status ≠ .active) :
    ((g.erasePending i).book.give x (some ⟨i, false, status⟩)).Sound := by
  obtain ⟨job, hjob, hstatus, -⟩ := held_job h hm
  rw [book_erasePending hjob]
  exact h.unlist hm rfl (promises_eq hjob) fun hactive => hover (hstatus.symm.trans hactive)

/-- A thread sets the promise of the job in its hands. -/
lemma sound_set (h : g.book.Sound) {x : Thread} {status : Status} {answer : Answer}
    (hm : g.book.hand x = some ⟨i, false, status⟩) (hover : status ≠ .active)
    (hanswer : answer.isRan = decide (status = .done)) :
    ((g.setValue i answer).book.give x none).Sound := by
  obtain ⟨job, hjob, hstatus, -⟩ := held_job h hm
  rw [setValue,
    book_modifyJob (f := fun job => { job with answers := job.answers ++ [answer] }) hjob rfl]
  have heq : Job.promise { job with answers := job.answers ++ [answer] } =
      { job.promise with answers := job.promise.answers ++ [decide (status = .done)] } := by
    simp [Job.promise, Job.entryKey, Job.stage, hanswer]
  rw [heq]
  exact h.set hm rfl (promises_eq hjob) hover

/-- A thread goes on in `cancel`. -/
lemma sound_cancelStep (h : g.book.Sound) {x : Thread} {caller : Caller} {key : RequestKey}
    {timedOut : Bool} {phase phase' : CancelPhase} (hhand : g.book.hand x = phase.hand)
    (hstep : g.cancelStep caller key timedOut phase = some (g', phase')) :
    (g'.book.give x phase'.hand).Sound := by
  cases phase with
  | returned response => simp [cancelStep] at hstep
  | removing j =>
    obtain ⟨rfl, rfl⟩ := Prod.mk.inj (Option.some.inj hstep)
    exact h.give_self hhand
  | setting j =>
    obtain ⟨rfl, rfl⟩ := Prod.mk.inj (Option.some.inj hstep)
    exact sound_set h hhand (by simp) rfl
  | looking =>
    unfold cancelStep at hstep
    cases hfind : g.pending key with
    | none =>
      simp only [hfind] at hstep
      obtain ⟨rfl, rfl⟩ := Prod.mk.inj (Option.some.inj hstep)
      exact h.give_self hhand
    | some j =>
      simp only [hfind] at hstep
      obtain ⟨job, hjob, hstep⟩ := Option.bind_eq_some_iff.mp hstep
      obtain ⟨p, hp, hkey, -⟩ := h.entry key j hfind
      obtain rfl := Option.some.inj ((promises_eq hjob).symm.trans hp)
      cases hstate : job.state <;> simp only [hstate] at hstep
      case queued =>
        obtain ⟨rfl, rfl⟩ := Prod.mk.inj (Option.some.inj hstep)
        have hcancel := h.cancel hfind hp hhand (by simp [Job.promise, hstate, JobState.status])
        have hbook : ((g.modifyJob j (·.cancel caller)).erase key).book =
            (g.book.put j (job.cancel caller).promise).unlist job.promise.key := by
          rw [book_erase, book_modifyJob hjob rfl, hkey]
        rw [hbook]
        exact hcancel
      case active =>
        obtain ⟨rfl, rfl⟩ := Prod.mk.inj (Option.some.inj hstep)
        have hbook : (g.modifyJob j (·.interrupt caller timedOut)).book = g.book := by
          rw [book_modifyJob hjob rfl]
          exact Book.put_eq_self (b := g.book) (p := job.promise) (promises_eq hjob)
        rw [hbook]
        exact h.give_self hhand
      case done =>
        obtain ⟨rfl, rfl⟩ := Prod.mk.inj (Option.some.inj hstep)
        exact h.give_self hhand
      case cancelled =>
        obtain ⟨rfl, rfl⟩ := Prod.mk.inj (Option.some.inj hstep)
        exact h.give_self hhand

/-- A thread goes on with the jobs that were queued. -/
lemma sound_drainStep (h : g.book.Sound) {x : Thread} {error : String} {drain drain' : Drain}
    (hhand : g.book.hand x = drain.hand)
    (haccepted : ∀ i rest job, drain = .next (i :: rest) → g.jobs i = some job → job.accepted)
    (hstep : g.drainStep error drain = some (g', drain')) : (g'.book.give x drain'.hand).Sound := by
  unfold drainStep at hstep
  split at hstep
  · contradiction
  · next i rest =>
    cases hexchange : g.exchange i .cancelled with
    | none =>
      simp only [hexchange] at hstep
      obtain ⟨rfl, rfl⟩ := Prod.mk.inj (Option.some.inj hstep)
      exact h.give_self hhand
    | some g₁ =>
      simp only [hexchange] at hstep
      obtain ⟨rfl, rfl⟩ := Prod.mk.inj (Option.some.inj hstep)
      exact sound_exchange h hhand
        (fun job => haccepted i rest job rfl) (by simp [JobState.status]) hexchange
  · obtain ⟨rfl, rfl⟩ := Prod.mk.inj (Option.some.inj hstep)
    exact sound_erase h hhand (by simp)
  · obtain ⟨rfl, rfl⟩ := Prod.mk.inj (Option.some.inj hstep)
    exact sound_set h hhand (by simp) rfl

end State

end ProviderOwned.Scheduler
