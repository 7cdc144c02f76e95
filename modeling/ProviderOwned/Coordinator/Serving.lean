import ProviderOwned.Coordinator.Kept

/-!
# The executor of the scheduler

The flags say whether anything serves the queue (`Served`). With the book and the jobs they make the
invariant of the scheduler (`Inv`), which every step of the executor keeps.
-/

namespace ProviderOwned.Scheduler

open Transition Promises

/-! ### Whether the queue is served -/

def Executor.left : Executor → Bool
  | .leaving | .exited => true
  | _ => false

/-- Whether the replica has failed, while the executor is in its loop. -/
def Executor.failed? : Executor → Option Bool
  | .completing _ _ failed | .erasing _ _ failed | .setting _ _ failed => some failed
  | .failing | .draining _ | .recovering | .formed | .reformed => some true
  | .leaving | .exited => none
  | _ => some false

lemma Executor.left_eq_false {executor : Executor} {failed : Bool}
    (h : executor.failed? = some failed) :
    executor.left = false := by
  cases executor <;> first | rfl | simp [Executor.failed?] at h

/-- `stop` has closed the queue. -/
def Stopper.closed : Stopper → Bool
  | .idle | .closing => false
  | _ => true

namespace State

variable {options : Options} {g g' : State} {i : Nat} {job : Job}

/-- Where the queue is not served any more it is closed, or `stop` is about to close it. -/
structure Served (options : Options) (g : State) : Prop where
  stopping : g.stopper ≠ .idle ↔ g.stopping
  closed : g.stopper.closed → g.queue.closed
  left : g.executor.left → g.stopping ∨ g.queue.closed
  drained : ∀ drain, g.executor = .draining drain → options.recover ∨ g.queue.closed
  available : ∀ failed, g.executor.failed? = some failed → g.unavailable = failed
  gone : g.executor.left → g.stopping ∨ g.unavailable

lemma Served.frame (h : g.Served options) (hframe : Frame g g') : g'.Served options := by
  obtain ⟨hexecutor, hstopper, -, hunavailable, hstopping, hclosed⟩ := hframe
  obtain ⟨h₁, h₂, h₃, h₄, h₅, h₆⟩ := h
  constructor
  · rwa [hstopper, hstopping]
  · rwa [hstopper, hclosed]
  · rwa [hexecutor, hstopping, hclosed]
  · rwa [hexecutor, hclosed]
  · rwa [hexecutor, hunavailable]
  · rwa [hexecutor, hstopping, hunavailable]

/-- The executor goes on in its loop. -/
lemma Served.goto {executor : Executor} (h : g.Served options) (hleft : executor.left = false)
    (hdrained : ∀ drain, executor = .draining drain → options.recover ∨ g.queue.closed)
    (havailable : ∀ failed, executor.failed? = some failed → g.unavailable = failed) :
    (g.goto executor).Served options where
  stopping := h.stopping
  closed := h.closed
  left hl := Bool.noConfusion (hleft.symm.trans hl)
  drained := hdrained
  available := havailable
  gone hl := Bool.noConfusion (hleft.symm.trans hl)

/-- The executor leaves its loop. -/
lemma Served.leave (h : g.Served options) (hleft : g.stopping ∨ g.queue.closed)
    (hgone : g.stopping ∨ g.unavailable) : (g.goto .leaving).Served options where
  stopping := h.stopping
  closed := h.closed
  left _ := hleft
  drained := by rintro _ ⟨⟩
  available := by rintro _ ⟨⟩
  gone _ := hgone

/-- The book is sound, no job is lost, and the flags are right. -/
structure Inv (options : Options) (g : State) : Prop where
  book : g.book.Sound
  kept : g.Kept
  marked : g.Marked
  served : g.Served options

/-- The executor goes on with the same in its hands, and nothing taken from the queue or put
back. -/
lemma Inv.goto {executor : Executor} (h : g.Inv options) (hhand : executor.hand = g.executor.hand)
    (hjobs : executor.jobs = g.executor.jobs) (hserved : (g.goto executor).Served options) :
    (g.goto executor).Inv options := by
  refine ⟨?_, ?_, h.marked, hserved⟩
  · rw [book_executor, hhand]
    exact h.book.give_self rfl
  · have hhas : ∀ i, (g.goto executor).Has i ↔ g.Has i := by
      intro i
      simp [Has, State.goto, hjobs]
    exact h.kept.threads rfl h.kept.queue (fun i => (hhas i).mp) fun i hi => .inl ((hhas i).mpr hi)

/-- The executor goes on after something it did with a job or an entry. -/
lemma Inv.goOn {executor : Executor} (h : g.Inv options) (hframe : Frame g g')
    (hqueue : g'.queue = g.queue)
    (hbook : (g'.book.give .executor executor.hand).Sound) (hkept : g'.Kept) (hmarked : g'.Marked)
    (hsub : ∀ j ∈ executor.jobs, j ∈ g.executor.jobs)
    (hcover : ∀ j ∈ g.executor.jobs, j ∈ executor.jobs ∨
      ∀ job, g'.jobs j = some job → job.state ≠ .queued)
    (hleft : executor.left = false)
    (hdrained : ∀ drain, executor = .draining drain → options.recover ∨ g.queue.closed)
    (havailable : ∀ failed, executor.failed? = some failed → g.unavailable = failed) :
    (g'.goto executor).Inv options := by
  refine ⟨book_executor executor ▸ hbook, ?_, hmarked, ?_⟩
  · refine hkept.threads rfl hkept.queue ?_ ?_
    · rintro j (hj | hj | hj)
      · exact .inl hj
      · exact .inr (.inl (hframe.executor ▸ hsub j hj))
      · exact .inr (.inr hj)
    · rintro j (hj | hj | hj)
      · exact .inl (.inl hj)
      · rcases hcover j (hframe.executor ▸ hj) with hj | hnot
        · exact .inl (.inr (.inl hj))
        · exact .inr hnot
      · exact .inl (.inr (.inr hj))
  · refine (h.served.frame hframe).goto hleft ?_ ?_
    · rwa [hqueue]
    · rwa [hframe.unavailable]

/-- The executor takes a job or all jobs out of the queue, or finds none. -/
lemma Inv.take {executor : Executor} {queue : FairQueue Nat} (h : g.Inv options)
    (hhand : executor.hand = g.executor.hand) (hnone : g.executor.jobs = []) (hvalid : queue.Valid)
    (hitems : ∀ i, i ∈ g.queue.items ↔ i ∈ queue.items ∨ i ∈ executor.jobs)
    (hserved : ({ g with queue }.goto executor).Served options) :
    ({ g with queue }.goto executor).Inv options := by
  refine ⟨?_, ?_, h.marked, hserved⟩
  · have hsame : ({ g with queue }.goto executor).book = g.book.give .executor executor.hand :=
      book_executor executor
    rw [hsame, hhand]
    exact h.book.give_self rfl
  · have hhas : ∀ i, ({ g with queue }.goto executor).Has i ↔ g.Has i := by
      intro i
      simp only [Has, State.goto, hnone, List.not_mem_nil, false_or, hitems i, or_assoc]
    exact h.kept.threads rfl hvalid (fun i => (hhas i).mp) fun i hi => .inl ((hhas i).mpr hi)

/-- A flag is set and the executor goes on with the same in its hands. -/
lemma Inv.mark {executor : Executor} {unavailable : Bool} (h : g.Inv options)
    (hhand : executor.hand = g.executor.hand) (hjobs : executor.jobs = g.executor.jobs)
    (hserved : ({ g with unavailable }.goto executor).Served options) :
    ({ g with unavailable }.goto executor).Inv options := by
  refine ⟨?_, ?_, h.marked, hserved⟩
  · have hsame : ({ g with unavailable }.goto executor).book =
        g.book.give .executor executor.hand :=
      book_executor executor
    rw [hsame, hhand]
    exact h.book.give_self rfl
  · have hhas : ∀ i, ({ g with unavailable }.goto executor).Has i ↔ g.Has i := by
      intro i
      simp [Has, State.goto, hjobs]
    exact h.kept.threads rfl h.kept.queue (fun i => (hhas i).mp) fun i hi => .inl ((hhas i).mpr hi)

/-- The executor exchanges the state of the job it took. -/
lemma Inv.exchanged {state : JobState} {f : Job → Job} {executor : Executor} (h : g.Inv options)
    (hexec : g.executor = .taken i) (hstate : state.status ≠ .queued)
    (hexchange : g.exchange i state = some g')
    (hf : ∀ job, (f job).promise = job.promise ∧ (f job).phase = job.phase ∧
      (f job).accepted = job.accepted ∧ (f job).state = job.state)
    (hok : ∀ job, JobOk g.calls i job → job.state = .queued →
      JobOk g.calls i (f { job with state }))
    (hhand : executor.hand = some ⟨i, true, state.status⟩) (hjobs : executor.jobs = [])
    (hfailed : executor.failed? = some false) :
    ((g'.modifyJob i f).goto executor).Inv options := by
  have hfine := h.served.available false (by rw [hexec]; rfl)
  have haccepted : ∀ job, g.jobs i = some job → job.accepted := by
    intro job hjob
    obtain ⟨job', hjob', hacc⟩ := h.kept.taken i (.inr (.inl (by simp [hexec, Executor.jobs])))
    exact Option.some.inj (hjob'.symm.trans hjob) ▸ hacc
  have hclaimed :=
    sound_exchange (x := Thread.executor) h.book (by simp [State.book, hexec, Executor.hand])
    haccepted hstate hexchange
  have hnot : state ≠ .queued := by
    rintro rfl
    exact hstate rfl
  have hkept := h.kept.exchange hnot hexchange
  have hclaimed' : ∀ job, g'.jobs i = some job → job.state ≠ .queued :=
    fun job => exchanged_claimed hnot hexchange
  obtain ⟨job, hjob, hqueued, rfl⟩ := exchange_eq_some hexchange
  have hjob' : (g.modifyJob i ({ · with state })).jobs i = some { job with state } := by
    simp [State.modifyJob, hjob]
  refine h.goOn ⟨rfl, rfl, rfl, rfl, rfl, rfl⟩ rfl ?_ ?_ ?_ ?_ ?_ ?_ ?_ ?_
  · rw [book_modifyJob hjob' (hf _).2.1, (hf _).1, Book.put_eq_self (promises_eq hjob'), hhand]
    exact hclaimed
  · exact hkept.modifyJob fun job => ⟨(hf job).2.2.1, fun hq => (hf job).2.2.2 ▸ hq⟩
  · intro j other hother
    by_cases hj : j = i
    · subst hj
      simp only [State.modifyJob, if_true, hjob, Option.map_some, Option.some.injEq] at hother
      exact hother ▸ hok job (h.marked j job hjob) hqueued
    · exact h.marked j other (by simpa [State.modifyJob, hj] using hother)
  · simp [hjobs]
  · intro j hj
    obtain rfl : j = i := by simpa [hexec, Executor.jobs] using hj
    right
    intro other hother
    simp only [State.modifyJob, if_true, hjob, Option.map_some, Option.some.injEq] at hother
    rw [← hother, (hf _).2.2.2]
    exact hnot
  · exact Executor.left_eq_false hfailed
  · intro drain hdrain
    rw [hdrain] at hfailed
    simp [Executor.failed?] at hfailed
  · intro failed hf'
    rw [hfine]
    exact Option.some.inj (hfailed.symm.trans hf')

lemma Inv.executorStep (h : g.Inv options) {late : Bool} {outcome : Outcome}
    (hstep : g.executorStep options late outcome = some g') : g'.Inv options := by
  unfold State.executorStep at hstep
  cases hexec : g.executor <;> simp only [hexec] at hstep
  case looping =>
    obtain rfl := Option.some.inj hstep
    have hfine := h.served.available false (by rw [hexec]; rfl)
    by_cases hstopping : g.stopping
    · rw [if_pos hstopping]
      exact h.goto (by rw [hexec]; rfl) (by rw [hexec]; rfl)
        (h.served.leave (.inl hstopping) (.inl hstopping))
    · rw [if_neg hstopping]
      exact h.goto (by rw [hexec]; rfl) (by rw [hexec]; rfl)
        (h.served.goto rfl (by rintro _ ⟨⟩) fun failed hf => hfine.trans (Option.some.inj hf))
  case popping =>
    have hfine := h.served.available false (by rw [hexec]; rfl)
    have hclosed := FairQueue.pop_closed (q := g.queue)
    rcases hpop : g.queue.popLocked with ⟨popped, queue⟩
    rw [hpop] at hstep hclosed
    dsimp only at hclosed
    cases popped with
    | none =>
      obtain rfl := Option.some.inj hstep
      obtain ⟨hvalid, hempty, hempty'⟩ := FairQueue.pop_none h.kept.queue hpop
      refine h.take (by rw [hexec]; rfl) (by rw [hexec]; rfl) hvalid ?_ ?_
      · simp [hempty, hempty', Executor.jobs]
      · exact (h.served.frame (frame_queue hclosed)).goto rfl (by rintro _ ⟨⟩)
          fun failed hf => hfine.trans (Option.some.inj hf)
    | some i =>
      obtain rfl := Option.some.inj hstep
      obtain ⟨hvalid, hperm⟩ := FairQueue.pop_some h.kept.queue hpop
      refine h.take (by rw [hexec]; rfl) (by rw [hexec]; rfl) hvalid ?_ ?_
      · intro j
        rw [hperm.mem_iff, List.mem_cons, Executor.jobs, List.mem_singleton, or_comm]
      · exact (h.served.frame (frame_queue hclosed)).goto rfl (by rintro _ ⟨⟩)
          fun failed hf => hfine.trans (Option.some.inj hf)
  case beating =>
    have hfine := h.served.available false (by rw [hexec]; rfl)
    split_ifs at hstep with hstopping
    · obtain rfl := Option.some.inj hstep
      exact h.goto (by rw [hexec]; rfl) (by rw [hexec]; rfl)
        (h.served.leave (.inl hstopping) (.inl hstopping))
    · split at hstep
      · obtain rfl := Option.some.inj hstep
        refine h.mark (by rw [hexec]; rfl) (by rw [hexec]; rfl) ?_
        exact ⟨h.served.stopping, h.served.closed, by rintro ⟨⟩, by rintro _ ⟨⟩,
          fun _ hf => Option.some.inj hf, by rintro ⟨⟩⟩
      · obtain rfl := Option.some.inj hstep
        exact h.goto (by rw [hexec]; rfl) (by rw [hexec]; rfl)
          (h.served.goto rfl (by rintro _ ⟨⟩) fun failed hf => hfine.trans (Option.some.inj hf))
  case taken i =>
    have hfine := h.served.available false (by rw [hexec]; rfl)
    -- the job was claimed by another thread
    have hlost : ∀ state, g.exchange i state = none → (g.goto .looping).Inv options := by
      intro state hnone
      refine h.goOn ⟨rfl, rfl, rfl, rfl, rfl, rfl⟩ rfl ?_ h.kept h.marked (by rintro _ ⟨⟩) ?_ rfl
        (by rintro _ ⟨⟩)
        fun failed hf => hfine.trans (Option.some.inj hf)
      · have hhand : g.book.hand Thread.executor = none := by
          simp [State.book, hexec, Executor.hand]
        exact h.book.give_self hhand
      · intro j hj
        obtain rfl : j = i := by simpa [hexec, Executor.jobs] using hj
        exact .inr fun job => exchange_eq_none hnone
    cases late with
    | true =>
      simp only [if_true] at hstep
      cases hexchange : g.exchange i .cancelled with
      | none =>
        simp only [hexchange] at hstep
        obtain rfl := Option.some.inj hstep
        exact hlost _ hexchange
      | some g₁ =>
        simp only [hexchange] at hstep
        obtain rfl := Option.some.inj hstep
        have hsame : g₁.modifyJob i id = g₁ := by
          unfold State.modifyJob
          refine congrArg (fun jobs => { g₁ with jobs }) (funext fun j => ?_)
          by_cases hj : j = i <;> simp [hj]
        rw [← hsame]
        refine h.exchanged hexec (by simp [JobState.status]) hexchange
          (fun _ => ⟨rfl, rfl, rfl, rfl⟩) ?_
          rfl rfl rfl
        intro job hok hqueued
        exact ⟨hok.early, hok.waits, by simpa [hqueued] using hok.runs, hok.meant⟩
    | false =>
      simp only [Bool.false_eq_true, if_false] at hstep
      cases hexchange : g.exchange i .active with
      | none =>
        simp only [hexchange] at hstep
        obtain rfl := Option.some.inj hstep
        exact hlost _ hexchange
      | some g₁ =>
        simp only [hexchange] at hstep
        obtain rfl := Option.some.inj hstep
        refine h.exchanged hexec (by simp [JobState.status]) hexchange
          (fun _ => ⟨rfl, rfl, rfl, rfl⟩) ?_
          rfl rfl rfl
        intro job hok hqueued
        exact ⟨hok.early, hok.waits, by simpa [hqueued, Job.started] using hok.runs, hok.meant⟩
  case expiring i =>
    obtain rfl := Option.some.inj hstep
    have hfine := h.served.available false (by rw [hexec]; rfl)
    exact h.goOn frame_erasePending (by rw [erasePending_eq])
      (@sound_erase _ _ h.book .executor .cancelled (by simp [State.book, hexec, Executor.hand])
        (by simp))
      h.kept.erasePending h.marked.erasePending (by rintro _ ⟨⟩)
      (by simp [hexec, Executor.jobs]) rfl (by rintro _ ⟨⟩)
        fun failed hf => hfine.trans (Option.some.inj hf)
  case expired i =>
    obtain rfl := Option.some.inj hstep
    have hfine := h.served.available false (by rw [hexec]; rfl)
    have hhand : g.book.hand Thread.executor = some ⟨i, false, .cancelled⟩ := by
      simp only [State.book, hexec]
      rfl
    have hset := @sound_set _ _ h.book _ _ (.unran "queue_timeout") hhand (by simp) rfl
    exact h.goOn ⟨rfl, rfl, rfl, rfl, rfl, rfl⟩ rfl hset
      h.kept.setValue h.marked.setValue (by rintro _ ⟨⟩) (by simp [hexec, Executor.jobs]) rfl
        (by rintro _ ⟨⟩)
      fun failed hf => hfine.trans (Option.some.inj hf)
  case running i =>
    have hfine := h.served.available false (by rw [hexec]; rfl)
    split at hstep
    · obtain rfl := Option.some.inj hstep
      exact h.goto (by rw [hexec]; rfl) (by rw [hexec]; rfl)
        (h.served.goto rfl (by rintro _ ⟨⟩) fun failed hf => hfine.trans (Option.some.inj hf))
    · obtain rfl := Option.some.inj hstep
      exact h.goto (by rw [hexec]; rfl) (by rw [hexec]; rfl)
        (h.served.goto rfl (by rintro _ ⟨⟩) fun failed hf => hfine.trans (Option.some.inj hf))
    · obtain rfl := Option.some.inj hstep
      refine h.mark (by rw [hexec]; rfl) (by rw [hexec]; rfl) ?_
      exact ⟨h.served.stopping, h.served.closed, by rintro ⟨⟩, by rintro _ ⟨⟩,
        fun _ hf => Option.some.inj hf, by rintro ⟨⟩⟩
  case completing i response failed =>
    obtain rfl := Option.some.inj hstep
    have havailable := h.served.available failed (by rw [hexec]; rfl)
    have hhand : g.book.hand Thread.executor = some ⟨i, true, .active⟩ := by
      simp only [State.book, hexec]
      rfl
    obtain ⟨job, hjob, hstatus, -⟩ := held_job h.book hhand
    have hactive : job.state = .active := by
      cases hstate : job.state <;> simp [hstate, JobState.status] at hstatus ⊢
    refine h.goOn ⟨rfl, rfl, rfl, rfl, rfl, rfl⟩ rfl ?_ ?_ ?_ (by rintro _ ⟨⟩)
      (by simp [hexec, Executor.jobs]) rfl
      (by rintro _ ⟨⟩) fun failed' hf => havailable.trans (Option.some.inj hf)
    · rw [book_modifyJob hjob rfl]
      exact h.book.finish hhand (promises_eq hjob) rfl
    · exact h.kept.modifyJob fun _ => ⟨rfl, by rintro ⟨⟩⟩
    · refine h.marked.modifyJob fun other hother hok => ?_
      obtain rfl := Option.some.inj (hjob.symm.trans hother)
      exact ⟨hok.early, hok.waits, by simpa [hactive] using hok.runs, hok.meant⟩
  case erasing i response failed =>
    obtain rfl := Option.some.inj hstep
    have havailable := h.served.available failed (by rw [hexec]; rfl)
    exact h.goOn frame_erasePending (by rw [erasePending_eq])
      (@sound_erase _ _ h.book .executor .done (by simp [State.book, hexec, Executor.hand])
        (by simp))
      h.kept.erasePending h.marked.erasePending (by rintro _ ⟨⟩)
      (by simp [hexec, Executor.jobs]) rfl (by rintro _ ⟨⟩)
        fun failed' hf => havailable.trans (Option.some.inj hf)
  case setting i response failed =>
    obtain rfl := Option.some.inj hstep
    have havailable := h.served.available failed (by rw [hexec]; rfl)
    have hhand : g.book.hand Thread.executor = some ⟨i, false, .done⟩ := by
      simp only [State.book, hexec]
      rfl
    have hset := @sound_set _ _ h.book _ _ (.ran response) hhand (by simp) rfl
    cases failed with
    | true =>
      exact h.goOn ⟨rfl, rfl, rfl, rfl, rfl, rfl⟩ rfl hset h.kept.setValue h.marked.setValue
        (by rintro _ ⟨⟩)
        (by simp [hexec, Executor.jobs]) rfl (by rintro _ ⟨⟩)
          fun failed' hf => havailable.trans (Option.some.inj hf)
    | false =>
      simp only [Bool.false_eq_true, if_false, havailable]
      exact h.goOn ⟨rfl, rfl, rfl, rfl, rfl, rfl⟩ rfl hset h.kept.setValue h.marked.setValue
        (by rintro _ ⟨⟩)
        (by simp [hexec, Executor.jobs]) rfl (by rintro _ ⟨⟩)
          fun failed' hf => havailable.trans (Option.some.inj hf)
  case failing =>
    obtain rfl := Option.some.inj hstep
    have havailable := h.served.available true (by rw [hexec]; rfl)
    by_cases hrecover : options.recover
    · simp only [hrecover, if_true]
      obtain ⟨hvalid, hitems, hempty⟩ := FairQueue.drain_spec (q := g.queue)
      refine h.take (by rw [hexec]; rfl) (by rw [hexec]; rfl) hvalid ?_ ?_
      · intro j
        simp [hitems, hempty, Executor.jobs, Drain.jobs]
      · have hserved : ({ g with queue := g.queue.drain.2 } : State).Served options :=
          h.served.frame (frame_queue rfl)
        exact hserved.goto rfl (fun _ _ => .inl hrecover)
          fun failed hf => havailable.trans (Option.some.inj hf)
    · simp only [hrecover, Bool.false_eq_true, if_false]
      obtain ⟨hvalid, hitems, hempty, hclosed⟩ := FairQueue.close_spec (q := g.queue)
      refine h.take (by rw [hexec]; rfl) (by rw [hexec]; rfl) hvalid ?_ ?_
      · intro j
        simp [hitems, hempty, Executor.jobs, Drain.jobs]
      · exact ⟨h.served.stopping, fun _ => hclosed, fun _ => .inr hclosed, fun _ _ => .inr hclosed,
          fun failed hf => havailable.trans (Option.some.inj hf), by rintro ⟨⟩⟩
  case draining drain =>
    have havailable := h.served.available true (by rw [hexec]; rfl)
    have hdrained := h.served.drained drain hexec
    -- the loop goes on with the jobs that are left
    have hloop : ∀ g₁ drain', g.drainStep "provider_disconnected" drain = some (g₁, drain') →
        (g₁.goto (.draining drain')).Inv options := by
      intro g₁ drain' hdrain
      obtain ⟨hframe, hqueue⟩ := frame_drainStep hdrain
      obtain ⟨hkept, hsub, hcover⟩ := kept_drainStep h.kept hdrain
      refine h.goOn hframe hqueue ?_ hkept (marked_drainStep h.marked hdrain) ?_ ?_ rfl
        (fun _ _ => hdrained) fun failed hf => havailable.trans (Option.some.inj hf)
      · refine @sound_drainStep _ _ h.book .executor _ _ _ (by simp only [State.book, hexec]; rfl)
          ?_ hdrain
        intro i rest job hnext hjob
        obtain ⟨job', hjob', hacc⟩ := h.kept.taken i
          (.inr (.inl (by simp [hexec, Executor.jobs, hnext, Drain.jobs])))
        exact Option.some.inj (hjob'.symm.trans hjob) ▸ hacc
      · simpa [hexec, Executor.jobs] using hsub
      · simpa [hexec, Executor.jobs] using hcover
    cases drain with
    | next jobs =>
      cases jobs with
      | nil =>
        obtain rfl := Option.some.inj hstep
        refine h.goto ?_ ?_ ?_
        · rw [hexec]
          split_ifs <;> rfl
        · rw [hexec]
          split_ifs <;> rfl
        · by_cases hrecover : options.recover
          · rw [if_pos hrecover]
            exact h.served.goto rfl (by rintro _ ⟨⟩)
              fun failed hf => havailable.trans (Option.some.inj hf)
          · rw [if_neg hrecover]
            exact h.served.leave (.inr (hdrained.resolve_left hrecover)) (.inr havailable)
      | cons i rest =>
        obtain ⟨⟨g₁, drain'⟩, hdrain, rfl⟩ := Option.map_eq_some_iff.mp hstep
        exact hloop g₁ drain' hdrain
    | erasing i rest =>
      obtain ⟨⟨g₁, drain'⟩, hdrain, rfl⟩ := Option.map_eq_some_iff.mp hstep
      exact hloop g₁ drain' hdrain
    | setting i rest =>
      obtain ⟨⟨g₁, drain'⟩, hdrain, rfl⟩ := Option.map_eq_some_iff.mp hstep
      exact hloop g₁ drain' hdrain
  case recovering =>
    have havailable := h.served.available true (by rw [hexec]; rfl)
    split_ifs at hstep with hstopping
    · obtain rfl := Option.some.inj hstep
      exact h.goto (by rw [hexec]; rfl) (by rw [hexec]; rfl)
        (h.served.leave (.inl hstopping) (.inl hstopping))
    · split at hstep
      · obtain rfl := Option.some.inj hstep
        exact h
      · obtain rfl := Option.some.inj hstep
        exact h.goto (by rw [hexec]; rfl) (by rw [hexec]; rfl)
          (h.served.goto rfl (by rintro _ ⟨⟩)
            fun failed hf => havailable.trans (Option.some.inj hf))
  case formed =>
    have havailable := h.served.available true (by rw [hexec]; rfl)
    split_ifs at hstep with hstopping
    · obtain rfl := Option.some.inj hstep
      exact h.goto (by rw [hexec]; rfl) (by rw [hexec]; rfl)
        (h.served.leave (.inl hstopping) (.inl hstopping))
    · split at hstep
      all_goals
        obtain rfl := Option.some.inj hstep
        exact h.goto (by rw [hexec]; rfl) (by rw [hexec]; rfl)
          (h.served.goto rfl (by rintro _ ⟨⟩)
            fun failed hf => havailable.trans (Option.some.inj hf))
  case reformed =>
    obtain rfl := Option.some.inj hstep
    refine h.mark (by rw [hexec]; rfl) (by rw [hexec]; rfl) ?_
    exact ⟨h.served.stopping, h.served.closed, by rintro ⟨⟩, by rintro _ ⟨⟩,
      fun _ hf => Option.some.inj hf, by rintro ⟨⟩⟩
  case leaving =>
    have hleft := h.served.left (by rw [hexec]; rfl)
    have hgone := h.served.gone (by rw [hexec]; rfl)
    have hexit : (g.goto .exited).Inv options := h.goto (by rw [hexec]; rfl) (by rw [hexec]; rfl)
      ⟨h.served.stopping, h.served.closed, fun _ => hleft, by rintro _ ⟨⟩, by rintro _ ⟨⟩,
        fun _ => hgone⟩
    split_ifs at hstep
    · split at hstep
      · obtain rfl := Option.some.inj hstep
        refine h.mark (by rw [hexec]; rfl) (by rw [hexec]; rfl) ?_
        exact ⟨h.served.stopping, h.served.closed, fun _ => hleft, by rintro _ ⟨⟩, by rintro _ ⟨⟩,
          fun _ => .inr rfl⟩
      · obtain rfl := Option.some.inj hstep
        exact hexit
    · obtain rfl := Option.some.inj hstep
      exact hexit
  case exited => contradiction

end State

end ProviderOwned.Scheduler
