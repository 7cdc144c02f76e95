import ProviderOwned.Coordinator.Book

/-!
# No job of the scheduler is lost

Every accepted job that nobody has claimed is in the queue or with the thread that took it from
there (`Kept`), and what is known of every single job says who may cancel it (`Marked`). Both are
kept by `cancel` and by the loops over the jobs that were queued.
-/

namespace ProviderOwned.Scheduler

open Transition Promises

/-! ### What was queued -/

/-- The jobs that a thread still has to look at that goes through those that were queued. -/
def Drain.jobs : Drain → List Nat
  | .next jobs => jobs
  | .erasing _ rest | .setting _ rest => rest

/-- The jobs that the executor took from the queue and has not looked at. -/
def Executor.jobs : Executor → List Nat
  | .taken i => [i]
  | .draining drain => drain.jobs
  | _ => []

/-- The jobs that the thread took from the queue that called `stop`, and has not looked at. -/
def Stopper.jobs : Stopper → List Nat
  | .draining drain => drain.jobs
  | _ => []

/-- The submission is not in the queue yet, or not any more and rejected. -/
def SubmitPhase.early : SubmitPhase → Bool
  | .entering | .pushing | .withdrawing => true
  | _ => false

def SubmitPhase.waits : SubmitPhase → Bool
  | .waiting | .expired _ => true
  | _ => false

/-- The thread that cancelled a job meant it: it is the job's own submission, or a client that gave
the job's key and called for this submission. -/
def Caller.Meant (calls : Nat → Option Call) (i : Nat) (key : RequestKey) : Caller → Prop
  | .timeout j => j = i
  | .client c => ∃ call, calls c = some call ∧ call.key = key ∧ call.job = i

structure JobOk (calls : Nat → Option Call) (i : Nat) (job : Job) : Prop where
  early : job.phase.early → job.accepted = false
  waits : job.phase.waits → job.accepted
  runs : job.runs = if job.state = .active ∨ job.state = .done then 1 else 0
  meant : ∀ caller ∈ job.cancelledBy, caller.Meant calls i job.key

/-- The job is not in the queue, and its thread goes on. -/
lemma JobOk.advance {calls : Nat → Option Call} {i : Nat} {job : Job} {phase : SubmitPhase}
    (hok : JobOk calls i job) (haccepted : job.accepted = false) (hwaits : phase.waits = false) :
    JobOk calls i { job with phase } :=
  ⟨fun _ => haccepted, fun hw => Bool.noConfusion (hwaits.symm.trans hw), hok.runs, hok.meant⟩

namespace State

variable {g g' : State} {i : Nat} {job : Job}

/-- Somebody still has to look at a job: it is in the queue, or with a thread that took it from
there. -/
def Has (g : State) (i : Nat) : Prop :=
  i ∈ g.queue.items ∨ i ∈ g.executor.jobs ∨ i ∈ g.stopper.jobs

/-- No job that was accepted and not claimed is lost. -/
structure Kept (g : State) : Prop where
  queue : g.queue.Valid
  taken : ∀ i, g.Has i → ∃ job, g.jobs i = some job ∧ job.accepted
  covered : ∀ i job, g.jobs i = some job → job.accepted → job.state = .queued → g.Has i

/-- What is known of every single job. -/
def Marked (g : State) : Prop := ∀ i job, g.jobs i = some job → JobOk g.calls i job

/-- Jobs stay accepted and none is queued again; what is looked at is not lost, unless it was
claimed. -/
lemma Kept.mono (h : g.Kept) (hqueue : g'.queue.Valid)
    (hjobs : ∀ i job, g.jobs i = some job → job.accepted → ∃ job', g'.jobs i = some job' ∧
      job'.accepted)
    (hback : ∀ i job', g'.jobs i = some job' → job'.accepted → job'.state = .queued →
      ∃ job, g.jobs i = some job ∧ job.accepted ∧ job.state = .queued)
    (hsub : ∀ i, g'.Has i → g.Has i)
    (hcover : ∀ i, g.Has i → g'.Has i ∨ ∀ job', g'.jobs i = some job' → job'.state ≠ .queued) :
    g'.Kept where
  queue := hqueue
  taken i hi := by
    obtain ⟨job, hjob, haccepted⟩ := h.taken i (hsub i hi)
    exact hjobs i job hjob haccepted
  covered i job' hjob' haccepted hqueued := by
    obtain ⟨job, hjob, hacc, hq⟩ := hback i job' hjob' haccepted hqueued
    rcases hcover i (h.covered i job hjob hacc hq) with hi | hnot
    · exact hi
    · exact absurd hqueued (hnot job' hjob')

/-- The threads go on and no job changes. -/
lemma Kept.threads (h : g.Kept) (hjobs : g'.jobs = g.jobs) (hqueue : g'.queue.Valid)
    (hsub : ∀ i, g'.Has i → g.Has i)
    (hcover : ∀ i, g.Has i → g'.Has i ∨ ∀ job, g.jobs i = some job → job.state ≠ .queued) :
    g'.Kept :=
  h.mono hqueue (fun _ job hjob hacc => ⟨job, hjobs ▸ hjob, hacc⟩)
    (fun _ job hjob hacc hq => ⟨job, hjobs ▸ hjob, hacc, hq⟩) hsub (hjobs ▸ hcover)

lemma Kept.modifyJob {f : Job → Job} (h : g.Kept)
    (hf : ∀ job, (f job).accepted = job.accepted ∧
      ((f job).state = .queued → job.state = .queued)) :
    (g.modifyJob i f).Kept := by
  refine h.mono h.queue ?_ ?_ (fun _ => id) (fun _ => .inl)
  · intro j job hjob hacc
    by_cases hj : j = i
    · subst hj
      exact ⟨f job, by simp [State.modifyJob, hjob], (hf job).1.trans hacc⟩
    · exact ⟨job, by simp [State.modifyJob, hj, hjob], hacc⟩
  · intro j job' hjob' hacc hq
    by_cases hj : j = i
    · subst hj
      simp only [State.modifyJob, if_true] at hjob'
      obtain ⟨job, hjob, rfl⟩ := Option.map_eq_some_iff.mp hjob'
      exact ⟨job, hjob, (hf job).1.symm.trans hacc, (hf job).2 hq⟩
    · exact ⟨job', by simpa [State.modifyJob, hj] using hjob', hacc, hq⟩

/-- A thread puts its own job. -/
lemma Kept.putJob (h : g.Kept) (hnew : job.accepted → job.state = .queued → g.Has i)
    (hold : ∀ old, g.jobs i = some old → old.accepted → job.accepted) : (g.putJob i job).Kept := by
  constructor
  · exact h.queue
  · intro j hj
    obtain ⟨old, hold', hacc⟩ := h.taken j hj
    by_cases hji : j = i
    · subst hji
      exact ⟨job, by simp [State.putJob], hold old hold' hacc⟩
    · exact ⟨old, by simp [State.putJob, hji, hold'], hacc⟩
  · intro j job' hjob' hacc hq
    by_cases hji : j = i
    · subst hji
      simp only [State.putJob, if_true, Option.some.injEq] at hjob'
      subst hjob'
      exact hnew hacc hq
    · exact h.covered j job' (by simpa [State.putJob, hji] using hjob') hacc hq

lemma Marked.modifyJob {f : Job → Job} (h : g.Marked)
    (hf : ∀ job, g.jobs i = some job → JobOk g.calls i job → JobOk g.calls i (f job)) :
    (g.modifyJob i f).Marked := by
  intro j job' hjob'
  by_cases hj : j = i
  · subst hj
    simp only [State.modifyJob, if_true] at hjob'
    obtain ⟨job, hjob, rfl⟩ := Option.map_eq_some_iff.mp hjob'
    exact hf job hjob (h j job hjob)
  · exact h j job' (by simpa [State.modifyJob, hj] using hjob')

lemma Marked.putJob (h : g.Marked) (hok : JobOk g.calls i job) : (g.putJob i job).Marked := by
  intro j job' hjob'
  by_cases hj : j = i
  · subst hj
    simp only [State.putJob, if_true, Option.some.injEq] at hjob'
    exact hjob' ▸ hok
  · exact h j job' (by simpa [State.putJob, hj] using hjob')

/-- A call of `cancel` goes on. -/
lemma Marked.putCall {c : Nat} {call : Call} (h : g.Marked)
    (hkey : ∀ old, g.calls c = some old → old.key = call.key ∧ old.job = call.job) :
    (g.putCall c call).Marked := by
  intro i job hjob
  obtain ⟨hearly, hwaits, hruns, hmeant⟩ := h i job hjob
  refine ⟨hearly, hwaits, hruns, fun caller hcaller => ?_⟩
  have hold := hmeant caller hcaller
  cases caller with
  | timeout j => exact hold
  | client d =>
    obtain ⟨old, hold, hk⟩ := hold
    by_cases hd : d = c
    · subst hd
      obtain ⟨hsame, hsame'⟩ := hkey old hold
      exact ⟨call, by simp [State.putCall], hsame ▸ hk.1, hsame' ▸ hk.2⟩
    · exact ⟨old, by simp [State.putCall, hd, hold], hk⟩

lemma exchange_eq_none {state : JobState} (h : g.exchange i state = none)
    (hjob : g.jobs i = some job) :
    job.state ≠ .queued := by
  unfold exchange at h
  split_ifs at h with hany
  simpa [hjob] using hany

lemma erasePending_eq : g.erasePending i = { g with pending := (g.erasePending i).pending } := by
  unfold erasePending
  split
  · rfl
  · split_ifs <;> rfl

/-- What a thread does with jobs and entries leaves the threads and the flags alone. -/
structure Frame (g g' : State) : Prop where
  executor : g'.executor = g.executor
  stopper : g'.stopper = g.stopper
  calls : g'.calls = g.calls
  unavailable : g'.unavailable = g.unavailable
  stopping : g'.stopping = g.stopping
  closed : g'.queue.closed = g.queue.closed

lemma frame_queue {queue : FairQueue Nat} (hclosed : queue.closed = g.queue.closed) :
    Frame g { g with queue } :=
  ⟨rfl, rfl, rfl, rfl, rfl, hclosed⟩

lemma frame_erasePending : Frame g (g.erasePending i) := by
  rw [erasePending_eq]
  exact ⟨rfl, rfl, rfl, rfl, rfl, rfl⟩

lemma Kept.erasePending (h : g.Kept) : (g.erasePending i).Kept := by
  rw [erasePending_eq]
  exact ⟨h.queue, h.taken, h.covered⟩

lemma Marked.erasePending (h : g.Marked) : (g.erasePending i).Marked := by
  rw [erasePending_eq]
  exact h

lemma Kept.setValue {answer : Answer} (h : g.Kept) : (g.setValue i answer).Kept :=
  h.modifyJob fun _ => ⟨rfl, id⟩

lemma Marked.setValue {answer : Answer} (h : g.Marked) : (g.setValue i answer).Marked :=
  h.modifyJob fun _ _ hok => ⟨hok.early, hok.waits, hok.runs, hok.meant⟩

/-! ### `cancel` -/

lemma frame_cancelStep {caller : Caller} {key : RequestKey} {timedOut : Bool}
    {phase phase' : CancelPhase}
    (hstep : g.cancelStep caller key timedOut phase = some (g', phase')) : Frame g g' := by
  unfold cancelStep at hstep
  split at hstep
  · split at hstep
    · obtain ⟨rfl, rfl⟩ := Prod.mk.inj (Option.some.inj hstep)
      exact ⟨rfl, rfl, rfl, rfl, rfl, rfl⟩
    · obtain ⟨job, -, hstep⟩ := Option.bind_eq_some_iff.mp hstep
      split at hstep
      all_goals
        obtain ⟨rfl, rfl⟩ := Prod.mk.inj (Option.some.inj hstep)
        exact ⟨rfl, rfl, rfl, rfl, rfl, rfl⟩
  · obtain ⟨rfl, rfl⟩ := Prod.mk.inj (Option.some.inj hstep)
    exact ⟨rfl, rfl, rfl, rfl, rfl, FairQueue.removeIf_closed⟩
  · obtain ⟨rfl, rfl⟩ := Prod.mk.inj (Option.some.inj hstep)
    exact ⟨rfl, rfl, rfl, rfl, rfl, rfl⟩
  · contradiction

/-- `cancel` leaves every submission where it is. -/
lemma phase_cancelStep {caller : Caller} {key : RequestKey} {timedOut : Bool}
    {phase phase' : CancelPhase}
    (hstep : g.cancelStep caller key timedOut phase = some (g', phase'))
    (hjob : g.jobs i = some job) :
    ∃ job', g'.jobs i = some job' ∧ job'.phase = job.phase := by
  have hmodify : ∀ (j : Nat) (f : Job → Job), (∀ job, (f job).phase = job.phase) →
      ∃ job', (g.modifyJob j f).jobs i = some job' ∧ job'.phase = job.phase := by
    intro j f hf
    by_cases hj : i = j
    · subst hj
      exact ⟨f job, by simp [State.modifyJob, hjob], hf job⟩
    · exact ⟨job, by simp [State.modifyJob, hj, hjob], rfl⟩
  unfold cancelStep at hstep
  split at hstep
  · split at hstep
    · obtain ⟨rfl, rfl⟩ := Prod.mk.inj (Option.some.inj hstep)
      exact ⟨job, hjob, rfl⟩
    · obtain ⟨other, -, hstep⟩ := Option.bind_eq_some_iff.mp hstep
      split at hstep
      · obtain ⟨rfl, rfl⟩ := Prod.mk.inj (Option.some.inj hstep)
        exact hmodify _ _ fun _ => rfl
      · obtain ⟨rfl, rfl⟩ := Prod.mk.inj (Option.some.inj hstep)
        exact hmodify _ _ fun _ => rfl
      all_goals
        obtain ⟨rfl, rfl⟩ := Prod.mk.inj (Option.some.inj hstep)
        exact ⟨job, hjob, rfl⟩
  · obtain ⟨rfl, rfl⟩ := Prod.mk.inj (Option.some.inj hstep)
    exact ⟨job, hjob, rfl⟩
  · obtain ⟨rfl, rfl⟩ := Prod.mk.inj (Option.some.inj hstep)
    exact hmodify _ _ fun _ => rfl
  · contradiction

/-- A job that is removed from the queue was claimed before. -/
lemma Kept.remove (h : g.Kept) (hclaimed : ∀ job, g.jobs i = some job → job.state ≠ .queued) :
    Kept { g with queue := (g.queue.removeIf (· = i)).2 } := by
  rcases hremove : g.queue.removeIf (· = i) with ⟨removed, queue⟩
  cases removed with
  | none =>
    obtain ⟨rfl, -⟩ := FairQueue.removeIf_none hremove
    exact h
  | some j =>
    obtain ⟨hvalid, hj, hperm⟩ := FairQueue.removeIf_some h.queue hremove
    obtain rfl : j = i := by simpa using hj
    refine h.threads rfl hvalid ?_ ?_
    · rintro k (hk | hk)
      · exact .inl (hperm.mem_iff.mpr (List.mem_cons_of_mem _ hk))
      · exact .inr hk
    · rintro k (hk | hk)
      · rcases List.mem_cons.mp (hperm.mem_iff.mp hk) with rfl | hk
        · exact .inr hclaimed
        · exact .inl (.inl hk)
      · exact .inl (.inr hk)

lemma kept_cancelStep (h : g.Kept) (hbook : g.book.Sound) {x : Thread} {caller : Caller}
    {key : RequestKey} {timedOut : Bool} {phase phase' : CancelPhase}
    (hhand : g.book.hand x = phase.hand)
    (hstep : g.cancelStep caller key timedOut phase = some (g', phase')) : g'.Kept := by
  unfold cancelStep at hstep
  split at hstep
  · split at hstep
    · obtain ⟨rfl, rfl⟩ := Prod.mk.inj (Option.some.inj hstep)
      exact h
    · next i hfind =>
      obtain ⟨job, -, hstep⟩ := Option.bind_eq_some_iff.mp hstep
      split at hstep
      · obtain ⟨rfl, rfl⟩ := Prod.mk.inj (Option.some.inj hstep)
        have hcancelled : (g.modifyJob i (·.cancel caller)).Kept :=
          h.modifyJob fun _ => ⟨rfl, by rintro ⟨⟩⟩
        exact ⟨hcancelled.queue, hcancelled.taken, hcancelled.covered⟩
      · obtain ⟨rfl, rfl⟩ := Prod.mk.inj (Option.some.inj hstep)
        exact h.modifyJob fun _ => ⟨rfl, id⟩
      all_goals
        obtain ⟨rfl, rfl⟩ := Prod.mk.inj (Option.some.inj hstep)
        exact h
  · obtain ⟨rfl, rfl⟩ := Prod.mk.inj (Option.some.inj hstep)
    refine h.remove fun job hjob hqueued => ?_
    obtain ⟨job', hjob', hstatus, -⟩ := held_job hbook hhand
    obtain rfl := Option.some.inj (hjob'.symm.trans hjob)
    simp [hqueued, JobState.status] at hstatus
  · obtain ⟨rfl, rfl⟩ := Prod.mk.inj (Option.some.inj hstep)
    exact h.setValue
  · contradiction

lemma marked_cancelStep (h : g.Marked) {caller : Caller} {key : RequestKey} {timedOut : Bool}
    {phase phase' : CancelPhase}
    (hmeant : phase = .looking → ∀ i job, g.pending key = some i → g.jobs i = some job →
      job.state = .queued ∨ job.state = .active → caller.Meant g.calls i job.key)
    (hstep : g.cancelStep caller key timedOut phase = some (g', phase')) : g'.Marked := by
  unfold cancelStep at hstep
  split at hstep
  · split at hstep
    · obtain ⟨rfl, rfl⟩ := Prod.mk.inj (Option.some.inj hstep)
      exact h
    · next i hfind =>
      obtain ⟨job, hjob, hstep⟩ := Option.bind_eq_some_iff.mp hstep
      have hmeans := hmeant rfl i job hfind hjob
      split at hstep
      · next hstate =>
        obtain ⟨rfl, rfl⟩ := Prod.mk.inj (Option.some.inj hstep)
        refine h.modifyJob fun other hother hok => ?_
        obtain rfl := Option.some.inj (hjob.symm.trans hother)
        refine ⟨hok.early, hok.waits, ?_, ?_⟩
        · simpa [Job.cancel, hstate] using hok.runs
        · exact List.forall_mem_cons.mpr ⟨hmeans (.inl hstate), hok.meant⟩
      · next hstate =>
        obtain ⟨rfl, rfl⟩ := Prod.mk.inj (Option.some.inj hstep)
        refine h.modifyJob fun other hother hok => ?_
        obtain rfl := Option.some.inj (hjob.symm.trans hother)
        exact ⟨hok.early, hok.waits, hok.runs,
          List.forall_mem_cons.mpr ⟨hmeans (.inr hstate), hok.meant⟩⟩
      all_goals
        obtain ⟨rfl, rfl⟩ := Prod.mk.inj (Option.some.inj hstep)
        exact h
  · obtain ⟨rfl, rfl⟩ := Prod.mk.inj (Option.some.inj hstep)
    exact h
  · obtain ⟨rfl, rfl⟩ := Prod.mk.inj (Option.some.inj hstep)
    exact h.setValue
  · contradiction

/-! ### The jobs that were queued -/

lemma frame_drainStep {error : String} {drain drain' : Drain}
    (hstep : g.drainStep error drain = some (g', drain')) : Frame g g' ∧ g'.queue = g.queue := by
  unfold drainStep at hstep
  split at hstep
  · contradiction
  · next i rest =>
    split at hstep
    · next hexchange =>
      obtain ⟨rfl, rfl⟩ := Prod.mk.inj (Option.some.inj hstep)
      obtain ⟨job, -, -, rfl⟩ := exchange_eq_some hexchange
      exact ⟨⟨rfl, rfl, rfl, rfl, rfl, rfl⟩, rfl⟩
    · obtain ⟨rfl, rfl⟩ := Prod.mk.inj (Option.some.inj hstep)
      exact ⟨⟨rfl, rfl, rfl, rfl, rfl, rfl⟩, rfl⟩
  · obtain ⟨rfl, rfl⟩ := Prod.mk.inj (Option.some.inj hstep)
    exact ⟨frame_erasePending, by rw [erasePending_eq]⟩
  · obtain ⟨rfl, rfl⟩ := Prod.mk.inj (Option.some.inj hstep)
    exact ⟨⟨rfl, rfl, rfl, rfl, rfl, rfl⟩, rfl⟩

lemma Kept.exchange {state : JobState} (h : g.Kept) (hstate : state ≠ .queued)
    (hexchange : g.exchange i state = some g') : g'.Kept := by
  obtain ⟨job, -, -, rfl⟩ := exchange_eq_some hexchange
  exact h.modifyJob fun _ => ⟨rfl, fun hqueued => absurd hqueued hstate⟩

lemma Marked.cancelled (h : g.Marked) (hexchange : g.exchange i .cancelled = some g') :
    g'.Marked := by
  obtain ⟨job, hjob, hqueued, rfl⟩ := exchange_eq_some hexchange
  refine h.modifyJob fun other hother hok => ?_
  obtain rfl := Option.some.inj (hjob.symm.trans hother)
  exact ⟨hok.early, hok.waits, by simpa [hqueued] using hok.runs, hok.meant⟩

/-- A job that was exchanged is claimed. -/
lemma exchanged_claimed {state : JobState} (hstate : state ≠ .queued)
    (hexchange : g.exchange i state = some g') (hjob : g'.jobs i = some job) :
    job.state ≠ .queued := by
  obtain ⟨old, hold, -, rfl⟩ := exchange_eq_some hexchange
  simp only [State.modifyJob, if_true, hold, Option.map_some, Option.some.injEq] at hjob
  exact hjob ▸ hstate

lemma kept_drainStep (h : g.Kept) {error : String} {drain drain' : Drain}
    (hstep : g.drainStep error drain = some (g', drain')) :
    g'.Kept ∧ (∀ j ∈ drain'.jobs, j ∈ drain.jobs) ∧
      ∀ j ∈ drain.jobs, j ∈ drain'.jobs ∨ ∀ job, g'.jobs j = some job → job.state ≠ .queued := by
  unfold drainStep at hstep
  split at hstep
  · contradiction
  · next i rest =>
    split at hstep
    · next hexchange =>
      obtain ⟨rfl, rfl⟩ := Prod.mk.inj (Option.some.inj hstep)
      refine ⟨h.exchange (by simp) hexchange, fun j hj => List.mem_cons_of_mem _ hj, fun j hj => ?_⟩
      rcases List.mem_cons.mp hj with rfl | hj
      · exact .inr fun job => exchanged_claimed (by simp) hexchange
      · exact .inl hj
    · next hexchange =>
      obtain ⟨rfl, rfl⟩ := Prod.mk.inj (Option.some.inj hstep)
      refine ⟨h, fun j hj => List.mem_cons_of_mem _ hj, fun j hj => ?_⟩
      rcases List.mem_cons.mp hj with rfl | hj
      · exact .inr fun job => exchange_eq_none hexchange
      · exact .inl hj
  · obtain ⟨rfl, rfl⟩ := Prod.mk.inj (Option.some.inj hstep)
    exact ⟨h.erasePending, fun _ => id, fun _ => .inl⟩
  · obtain ⟨rfl, rfl⟩ := Prod.mk.inj (Option.some.inj hstep)
    exact ⟨h.setValue, fun _ => id, fun _ => .inl⟩

lemma marked_drainStep (h : g.Marked) {error : String} {drain drain' : Drain}
    (hstep : g.drainStep error drain = some (g', drain')) : g'.Marked := by
  unfold drainStep at hstep
  split at hstep
  · contradiction
  · next i rest =>
    split at hstep
    · next hexchange =>
      obtain ⟨rfl, rfl⟩ := Prod.mk.inj (Option.some.inj hstep)
      exact h.cancelled hexchange
    · obtain ⟨rfl, rfl⟩ := Prod.mk.inj (Option.some.inj hstep)
      exact h
  · obtain ⟨rfl, rfl⟩ := Prod.mk.inj (Option.some.inj hstep)
    exact h.erasePending
  · obtain ⟨rfl, rfl⟩ := Prod.mk.inj (Option.some.inj hstep)
    exact h.setValue

end State

end ProviderOwned.Scheduler
