import ProviderOwned.Coordinator.Serving

/-!
# Every job of the scheduler is completed once

The thread that stops and the clients keep the invariant, these where no entry is found or erased by
its key that belongs to another submission (`Undisturbed`). What the scheduler promises (`Orderly`)
is read off it.
-/

namespace ProviderOwned.Scheduler

open Transition Promises

namespace State

variable {options : Options} {g g' : State} {i : Nat} {job : Job}

/-! ### The thread that stops -/

lemma Inv.stopAt {stopper : Stopper} (h : g.Inv options) (hhand : stopper.hand = g.stopper.hand)
    (hjobs : stopper.jobs = g.stopper.jobs) (hclosed : stopper.closed = g.stopper.closed)
    (hstopping : stopper ≠ .idle → g.stopping) (hidle : stopper = .idle → g.stopping = false) :
    (g.stopAt stopper).Inv options := by
  refine ⟨?_, ?_, h.marked, ?_⟩
  · rw [book_stopper, hhand]
    exact h.book.give_self rfl
  · have hhas : ∀ i, (g.stopAt stopper).Has i ↔ g.Has i := by
      intro i
      simp [Has, State.stopAt, hjobs]
    exact h.kept.threads rfl h.kept.queue (fun i => (hhas i).mp) fun i hi => .inl ((hhas i).mpr hi)
  · refine ⟨⟨hstopping, ?_⟩, fun hc => h.served.closed (hclosed ▸ hc), h.served.left,
      h.served.drained, h.served.available, h.served.gone⟩
    rintro hs rfl
    exact Bool.noConfusion ((hidle rfl).symm.trans hs)

lemma Inv.stopperStep (h : g.Inv options) (hstep : g.stopperStep = some g') : g'.Inv options := by
  unfold State.stopperStep at hstep
  have hstopping : g.stopper ≠ .idle → g.stopping := h.served.stopping.mp
  cases hstop : g.stopper <;> simp only [hstop] at hstep
  case idle => contradiction
  case stopped => contradiction
  case closing =>
    obtain rfl := Option.some.inj hstep
    obtain ⟨hvalid, hitems, hempty, hclosed⟩ := FairQueue.close_spec (q := g.queue)
    refine ⟨?_, ?_, h.marked, ?_⟩
    · have hhand : g.book.hand Thread.stopper = none := by simp [State.book, hstop, Stopper.hand]
      have hbook : ({ g with queue := g.queue.close.2 }.stopAt
          (.draining (.next g.queue.close.1))).book = g.book := by
        rw [book_stopper]
        exact Book.give_eq_self hhand
      exact hbook.symm ▸ h.book
    · have hhas : ∀ i, ({ g with queue := g.queue.close.2 }.stopAt
          (.draining (.next g.queue.close.1))).Has i ↔ g.Has i := by
        intro i
        simp only [Has, State.stopAt, hstop, hitems, hempty, Stopper.jobs, Drain.jobs,
          List.not_mem_nil, false_or, or_false]
        exact or_comm
      exact h.kept.threads rfl hvalid (fun i => (hhas i).mp) fun i hi => .inl ((hhas i).mpr hi)
    · exact ⟨⟨fun _ => hstopping (by simp [hstop]), by rintro - ⟨⟩⟩, fun _ => hclosed,
        fun _ => .inr hclosed, fun _ _ => .inr hclosed, h.served.available, h.served.gone⟩
  case draining drain =>
    have hclosed := h.served.closed (by rw [hstop]; rfl)
    -- the loop goes on with the jobs that are left
    have hloop : ∀ g₁ drain', g.drainStep "coordinator_stopping" drain = some (g₁, drain') →
        (g₁.stopAt (.draining drain')).Inv options := by
      intro g₁ drain' hdrain
      obtain ⟨hframe, hqueue⟩ := frame_drainStep hdrain
      obtain ⟨hkept, hsub, hcover⟩ := kept_drainStep h.kept hdrain
      have hserved := h.served.frame hframe
      have hmarked := marked_drainStep h.marked hdrain
      refine ⟨?_, ?_, hmarked, ?_⟩
      · rw [book_stopper]
        refine @sound_drainStep _ _ h.book .stopper _ _ _ (by simp only [State.book, hstop]; rfl) ?_
          hdrain
        intro i rest job hnext hjob
        obtain ⟨job', hjob', hacc⟩ := h.kept.taken i
          (.inr (.inr (by simp [hstop, Stopper.jobs, hnext, Drain.jobs])))
        exact Option.some.inj (hjob'.symm.trans hjob) ▸ hacc
      · have hbefore : g₁.stopper.jobs = drain.jobs := by rw [hframe.stopper, hstop]; rfl
        refine hkept.threads rfl hkept.queue ?_ ?_
        · rintro j (hj | hj | hj)
          · exact .inl hj
          · exact .inr (.inl hj)
          · exact .inr (.inr (hbefore ▸ hsub j hj))
        · rintro j (hj | hj | hj)
          · exact .inl (.inl hj)
          · exact .inl (.inr (.inl hj))
          · rcases hcover j (hbefore ▸ hj) with hj | hnot
            · exact .inl (.inr (.inr hj))
            · exact .inr hnot
      · refine ⟨⟨fun _ => ?_, by rintro - ⟨⟩⟩, fun _ => hframe.closed.trans hclosed, hserved.left,
          hserved.drained, hserved.available, hserved.gone⟩
        exact hframe.stopping.trans (hstopping (by simp [hstop]))
    cases drain with
    | next jobs =>
      cases jobs with
      | nil =>
        obtain rfl := Option.some.inj hstep
        exact h.stopAt (by rw [hstop]; rfl) (by rw [hstop]; rfl) (by rw [hstop]; rfl)
          (fun _ => hstopping (by simp [hstop])) (by rintro ⟨⟩)
      | cons i rest =>
        obtain ⟨⟨g₁, drain'⟩, hdrain, rfl⟩ := Option.map_eq_some_iff.mp hstep
        exact hloop g₁ drain' hdrain
    | erasing i rest =>
      obtain ⟨⟨g₁, drain'⟩, hdrain, rfl⟩ := Option.map_eq_some_iff.mp hstep
      exact hloop g₁ drain' hdrain
    | setting i rest =>
      obtain ⟨⟨g₁, drain'⟩, hdrain, rfl⟩ := Option.map_eq_some_iff.mp hstep
      exact hloop g₁ drain' hdrain
  case joining =>
    split_ifs at hstep
    obtain rfl := Option.some.inj hstep
    exact h.stopAt (by rw [hstop]; rfl) (by rw [hstop]; rfl) (by rw [hstop]; rfl)
      (fun _ => hstopping (by simp [hstop])) (by rintro ⟨⟩)

/-! ### The clients -/

lemma book_putJob_free (hhand : g.book.hand (.client i) = none) (hafter : job.phase.hand = none) :
    (g.putJob i job).book = g.book.put i job.promise := by
  have hsame : (g.book.put i job.promise).give (.client i) none = g.book.put i job.promise :=
    Book.give_eq_self hhand
  rw [book_putJob, hafter, hsame]

/-- The thread of a submission has nothing in its hands and does something else with its job. -/
lemma Inv.putJob (h : g.Inv options) (hbook : (g.book.put i job.promise).Sound)
    (hhand : g.book.hand (.client i) = none) (hafter : job.phase.hand = none)
    (hnew : job.accepted → job.state = .queued → g.Has i)
    (hold : ∀ old, g.jobs i = some old → old.accepted → job.accepted)
    (hok : JobOk g.calls i job) : (g.putJob i job).Inv options := by
  refine ⟨?_, h.kept.putJob hnew hold, h.marked.putJob hok,
    h.served.frame ⟨rfl, rfl, rfl, rfl, rfl, rfl⟩⟩
  rw [book_putJob_free hhand hafter]
  exact hbook

lemma client_hand (hjob : g.jobs i = some job) : g.book.hand (.client i) = job.phase.hand := by
  simp [book, hjob]

/-- The thread of a submission whose job was accepted gets its promise, or its wait times out. -/
lemma Inv.wait {phase : SubmitPhase} (h : g.Inv options) (hjob : g.jobs i = some job)
    (hwaits : job.phase.waits) (hnone : job.phase.hand = none) (hnone' : phase.hand = none)
    (hearly : phase.early = false) : (g.putJob i { job with phase }).Inv options := by
  have hok := h.marked i job hjob
  have hacc := hok.waits hwaits
  have hsame : Job.promise { job with phase } = job.promise := by
    simp [Job.promise, Job.stage, Job.entryKey, hacc]
  refine h.putJob ?_ ((client_hand hjob).trans hnone) hnone' ?_ ?_ ?_
  · rw [hsame, Book.put_eq_self (promises_eq hjob)]
    exact h.book
  · exact fun _ hq => h.kept.covered i job hjob hacc hq
  · exact fun _ _ _ => hacc
  · exact ⟨fun he => Bool.noConfusion (hearly.symm.trans he), fun _ => hacc, hok.runs, hok.meant⟩

/-- The job is not in the queue, and its thread goes on. -/
lemma Inv.advance {phase : SubmitPhase} (h : g.Inv options) (hjob : g.jobs i = some job)
    (hacc : job.accepted = false) (hfree : job.phase.hand = none) (hhand : phase.hand = none)
    (hwaits : phase.waits = false) (hbook : (g.book.put i (Job.promise { job with phase })).Sound) :
    (g.putJob i { job with phase }).Inv options := by
  refine h.putJob hbook ((client_hand hjob).trans hfree) hhand ?_ ?_
    ((h.marked i job hjob).advance hacc hwaits)
  · exact fun ha => absurd ha (by simp [hacc])
  · exact fun old hold ha => absurd ha (by simp [Option.some.inj (hold.symm.trans hjob), hacc])

/-- The entries change and nothing else. -/
lemma Inv.emplace {key : RequestKey} (h : g.Kept ∧ g.Marked ∧ g.Served options)
    (hbook : (g.emplace key i).book.Sound) : (g.emplace key i).Inv options :=
  ⟨hbook, ⟨h.1.queue, h.1.taken, h.1.covered⟩, h.2.1, h.2.2.frame ⟨rfl, rfl, rfl, rfl, rfl, rfl⟩⟩

/-- The thread of a submission goes on in `cancel`. -/
lemma Inv.expired {phase phase' : CancelPhase} (h : g.Inv options) (hjob : g.jobs i = some job)
    (hphase : job.phase = .expired phase)
    (hmeant : phase = .looking → ∀ j other, g.pending job.key = some j →
      g.jobs j = some other → other.state = .queued ∨ other.state = .active → j = i)
    (hstep : g.cancelStep (.timeout i) job.key true phase = some (g', phase')) :
    (g'.modifyJob i ({ · with phase := .expired phase' })).Inv options := by
  have hhand : g.book.hand (.client i) = phase.hand := by rw [client_hand hjob, hphase]; rfl
  obtain ⟨job', hjob', hphase'⟩ := phase_cancelStep hstep hjob
  rw [hphase] at hphase'
  have hmeans : phase = .looking → ∀ j other, g.pending job.key = some j → g.jobs j = some other →
      other.state = .queued ∨ other.state = .active →
          (Caller.timeout i).Meant g.calls j other.key :=
    fun hlook j other hj hother hstate => (hmeant hlook j other hj hother hstate).symm
  have hmarked : g'.Marked := marked_cancelStep h.marked hmeans hstep
  refine ⟨?_, ?_, ?_,
    (h.served.frame (frame_cancelStep hstep)).frame ⟨rfl, rfl, rfl, rfl, rfl, rfl⟩⟩
  · rw [book_expired hjob' hphase']
    exact sound_cancelStep h.book hhand hstep
  · exact (kept_cancelStep h.kept h.book hhand hstep).modifyJob fun _ => ⟨rfl, id⟩
  · refine hmarked.modifyJob fun other hother hok => ?_
    obtain rfl := Option.some.inj (hjob'.symm.trans hother)
    exact ⟨by rintro ⟨⟩, fun _ => hok.waits (by rw [hphase']; rfl), hok.runs, hok.meant⟩

lemma Inv.clientStep (h : g.Inv options) (hjob : g.jobs i = some job)
    (hown : job.phase = .withdrawing → job.kind = .generate → ∀ j, g.pending job.key = some j →
      j = i)
    (hmeant : job.phase = .expired .looking → ∀ j other, g.pending job.key = some j →
      g.jobs j = some other → other.state = .queued ∨ other.state = .active → j = i)
    (hstep : g.clientStep i job = some g') : g'.Inv options := by
  have hok := h.marked i job hjob
  have hhand := client_hand hjob
  have hp := promises_eq hjob
  unfold State.clientStep at hstep
  cases hphase : job.phase <;> simp only [hphase] at hstep
  case entering =>
    have hacc := hok.early (by rw [hphase]; rfl)
    have hstage : job.promise.stage = .outside := by simp [Job.promise, Job.stage, hacc, hphase]
    have hfree : job.phase.hand = none := by rw [hphase]; rfl
    have hentered : Job.promise { job with phase := .pushing } =
        ⟨job.promise.key, job.promise.status, .entered, job.promise.answers⟩ := by
      simp [Job.promise, Job.stage, Job.entryKey, hacc]
    split_ifs at hstep with hkind htaken
    · obtain rfl := Option.some.inj hstep
      have hrejected : Job.promise { job with phase := .returned (.error "duplicate_request") } =
          ⟨job.promise.key, job.promise.status, .rejected, job.promise.answers⟩ := by
        simp [Job.promise, Job.stage, Job.entryKey, hacc]
      exact h.advance hjob hacc hfree rfl rfl (hrejected ▸ h.book.refuse hp hstage)
    · obtain rfl := Option.some.inj hstep
      have hkey : job.promise.key = some job.key := by simp [Job.promise, Job.entryKey, hkind]
      have hnone : g.pending job.key = none := by simpa using htaken
      have henter := h.book.enter hp hstage fun k hk => by
        obtain rfl := Option.some.inj (hkey.symm.trans hk)
        exact hnone
      refine Inv.emplace ⟨?_, h.marked.putJob (hok.advance hacc rfl),
        h.served.frame ⟨rfl, rfl, rfl, rfl, rfl, rfl⟩⟩ ?_
      · exact h.kept.putJob (fun ha => absurd ha (by simp [hacc]))
          fun old hold ha => absurd ha (by simp [Option.some.inj (hold.symm.trans hjob), hacc])
      · rw [book_emplace, book_putJob_free (hhand.trans hfree) rfl, hentered, ← hkey]
        exact henter
    · obtain rfl := Option.some.inj hstep
      have hkey : job.promise.key = none := by simp [Job.promise, Job.entryKey, hkind]
      have henter := h.book.enter hp hstage (by simp [hkey])
      rw [hkey, Book.list_none] at henter
      refine h.advance hjob hacc hfree rfl rfl ?_
      rw [hentered, hkey]
      exact henter
  case pushing =>
    have hacc := hok.early (by rw [hphase]; rfl)
    have hstage : job.promise.stage = .entered := by simp [Job.promise, Job.stage, hacc, hphase]
    have hfree : job.phase.hand = none := by rw [hphase]; rfl
    cases hpush : g.queue.push job.key.fairness i with
    | none =>
      simp only [hpush] at hstep
      obtain rfl := Option.some.inj hstep
      have hsame : Job.promise { job with phase := .withdrawing } = job.promise := by
        simp [Job.promise, Job.stage, Job.entryKey, hacc, hphase]
      refine h.advance hjob hacc hfree rfl rfl ?_
      rw [hsame, Book.put_eq_self hp]
      exact h.book
    | some queue =>
      simp only [hpush] at hstep
      obtain rfl := Option.some.inj hstep
      obtain ⟨hvalid, hperm⟩ := FairQueue.push_spec h.kept.queue hpush
      have haccepted : Job.promise { job with phase := .waiting, accepted := true } =
          ⟨job.promise.key, job.promise.status, .accepted, job.promise.answers⟩ := by
        simp [Job.promise, Job.stage, Job.entryKey]
      refine ⟨?_, ?_, ?_, h.served.frame ⟨rfl, rfl, rfl, rfl, rfl, FairQueue.push_closed hpush⟩⟩
      · have hsame :
            ({ g with queue }.putJob i { job with phase := .waiting, accepted := true }).book =
            g.book.put i (Job.promise { job with phase := .waiting, accepted := true }) :=
          book_putJob_free (hhand.trans hfree) rfl
        rw [hsame, haccepted]
        exact h.book.accept hp hstage
      · have hhas : ∀ j, ({ g with queue }.putJob i
            { job with phase := .waiting, accepted := true }).Has j ↔ j = i ∨ g.Has j := by
          intro j
          simp only [Has, State.putJob, hperm.mem_iff, List.mem_cons, or_assoc]
        constructor
        · exact hvalid
        · intro j hj
          by_cases hji : j = i
          · subst hji
            exact ⟨_, if_pos rfl, rfl⟩
          · obtain ⟨old, hold, ha⟩ := h.kept.taken j (((hhas j).mp hj).resolve_left hji)
            exact ⟨old, (if_neg hji).trans hold, ha⟩
        · intro j other hother ha hq
          by_cases hji : j = i
          · exact (hhas j).mpr (.inl hji)
          · exact (hhas j).mpr
              (.inr (h.kept.covered j other ((if_neg hji).symm.trans hother) ha hq))
      · exact Marked.putJob (g := { g with queue }) h.marked ⟨by rintro ⟨⟩, fun _ => rfl, hok.runs,
          hok.meant⟩
  case withdrawing =>
    have hacc := hok.early (by rw [hphase]; rfl)
    have hstage : job.promise.stage = .entered := by simp [Job.promise, Job.stage, hacc, hphase]
    have hfree : job.phase.hand = none := by rw [hphase]; rfl
    obtain rfl := Option.some.inj hstep
    have hrejected : Job.promise { job with phase := .returned (.error "queue_full") } =
        ⟨job.promise.key, job.promise.status, .rejected, job.promise.answers⟩ := by
      simp [Job.promise, Job.stage, Job.entryKey, hacc]
    have hwithdrawn := h.book.withdraw hp hstage fun k j hk hj => by
      by_cases hkind : job.kind = .generate
      · have hkey : job.promise.key = some job.key := by simp [Job.promise, Job.entryKey, hkind]
        obtain rfl := Option.some.inj (hkey.symm.trans hk)
        exact hown hphase hkind j hj
      · simp [Job.promise, Job.entryKey, hkind] at hk
    have herased := erasePending_eq (g := g) (i := i)
    refine ⟨?_, ?_, ?_, (h.served.frame frame_erasePending).frame ⟨rfl, rfl, rfl, rfl, rfl, rfl⟩⟩
    · have hhand' : (g.erasePending i).book.hand (.client i) = none := by
        rw [herased]
        exact hhand.trans hfree
      rw [book_putJob_free hhand' rfl, book_erasePending hjob, hrejected]
      exact hwithdrawn
    · have hsame : (g.erasePending i).jobs i = some job := by
        rw [herased]
        exact hjob
      exact h.kept.erasePending.putJob (fun ha => absurd ha (by simp [hacc]))
        fun old hold ha => absurd ha (by simp [Option.some.inj (hold.symm.trans hsame), hacc])
    · refine h.marked.erasePending.putJob ?_
      rw [frame_erasePending.calls]
      exact hok.advance hacc rfl
  case waiting =>
    obtain ⟨answer, -, rfl⟩ := Option.map_eq_some_iff.mp hstep
    exact h.wait hjob (by rw [hphase]; rfl) (by rw [hphase]; rfl) rfl rfl
  case expired phase =>
    have hcancel : ∀ g₁ phase', g.cancelStep (.timeout i) job.key true phase = some (g₁, phase') →
        (g₁.modifyJob i ({ · with phase := .expired phase' })).Inv options :=
      fun g₁ phase' => h.expired hjob hphase (fun hlook => hmeant (hlook ▸ hphase))
    cases phase with
    | returned =>
      obtain ⟨answer, -, rfl⟩ := Option.map_eq_some_iff.mp hstep
      exact h.wait hjob (by rw [hphase]; rfl) (by rw [hphase]; rfl) rfl rfl
    | looking =>
      obtain ⟨⟨g₁, phase'⟩, hmap, rfl⟩ := Option.map_eq_some_iff.mp hstep
      exact hcancel g₁ phase' hmap
    | removing j =>
      obtain ⟨⟨g₁, phase'⟩, hmap, rfl⟩ := Option.map_eq_some_iff.mp hstep
      exact hcancel g₁ phase' hmap
    | setting j =>
      obtain ⟨⟨g₁, phase'⟩, hmap, rfl⟩ := Option.map_eq_some_iff.mp hstep
      exact hcancel g₁ phase' hmap
  case returned response => contradiction

lemma Inv.calling {c : Nat} {call : Call} {phase : CancelPhase} (h : g.Inv options)
    (hcall : g.calls c = some call)
    (hfor : call.phase = .looking → ∀ j other, g.pending call.key = some j →
      g.jobs j = some other → other.state = .queued ∨ other.state = .active → j = call.job)
    (hstep : g.cancelStep (.client c) call.key false call.phase = some (g', phase)) :
    (g'.putCall c { call with phase }).Inv options := by
  have hhand : g.book.hand (.call c) = call.phase.hand := by simp [State.book, hcall]
  have hframe := frame_cancelStep hstep
  have hserved := h.served.frame hframe
  refine ⟨?_, ?_, ?_, ?_⟩
  · rw [book_call]
    exact sound_cancelStep h.book hhand hstep
  · have hkept := kept_cancelStep h.kept h.book hhand hstep
    exact ⟨hkept.queue, hkept.taken, hkept.covered⟩
  · have hmarked : g'.Marked := by
      refine marked_cancelStep h.marked (fun hlook j other hj hother hstate => ?_) hstep
      obtain ⟨p, hp, hkey, -⟩ := h.book.entry call.key j hj
      obtain rfl := Option.some.inj ((promises_eq hother).symm.trans hp)
      refine ⟨call, hcall, ?_, (hfor hlook j other hj hother hstate).symm⟩
      simp only [Job.promise, Job.entryKey] at hkey
      split_ifs at hkey
      exact (Option.some.inj hkey).symm
    refine hmarked.putCall fun old hold => ?_
    rw [hframe.calls] at hold
    obtain rfl : old = call := Option.some.inj (hold.symm.trans hcall)
    exact ⟨rfl, rfl⟩
  · exact ⟨hserved.stopping, hserved.closed, hserved.left, hserved.drained, hserved.available,
      hserved.gone⟩

end State

/-- The job under these ids in `pending_` is `i`, or it is neither queued nor active. -/
def State.findsOnly (g : State) (key : RequestKey) (i : Nat) : Bool :=
  (g.pending key).all fun j =>
    j = i || (g.jobs j).all fun other => other.state = .done || other.state = .cancelled

/-- The condition under which the scheduler keeps its promises: a submission that withdraws finds no
other under its ids in `pending_`, and one that timed out, or a client's call of `cancel`, finds no
other than the submission it is for that is queued or active. -/
def Undisturbed (g : State) : Event → Bool
  | .client i => (g.jobs i).all fun job =>
    match job.phase with
    | .withdrawing => job.kind ≠ .generate || (g.pending job.key).all (· = i)
    | .expired .looking => g.findsOnly job.key i
    | _ => true
  | .calling c => (g.calls c).all fun call => call.phase ≠ .looking || g.findsOnly call.key call.job
  | _ => true

namespace State

variable {options : Options} {g g' : State}

lemma eq_of_findsOnly {key : RequestKey} {i j : Nat} {other : Job} (h : g.findsOnly key i)
    (hj : g.pending key = some j) (hother : g.jobs j = some other)
    (hstate : other.state = .queued ∨ other.state = .active) : j = i := by
  rcases hstate with hstate | hstate <;> simpa [findsOnly, hj, hother, hstate] using h

/-- Every step that meets the condition keeps the invariant. -/
lemma Inv.step (h : g.Inv options) {e : Event} (hok : Undisturbed g e)
    (hstep : g.step options e = some g') : g'.Inv options := by
  cases e <;> dsimp only [State.step] at hstep
  case submit i kind key =>
    split_ifs at hstep with hnew hclosed
    all_goals
      obtain rfl := Option.some.inj hstep
      have hnone : g.jobs i = none := by simpa using hnew
      refine h.putJob ?_ (by simp [State.book, hnone]) rfl (by rintro ⟨⟩) (by simp [hnone]) ?_
      · exact h.book.opens (by simp [State.book, hnone]) (by simp [Job.promise, Job.stage]) rfl rfl
      · exact ⟨fun _ => rfl, by rintro ⟨⟩, rfl, by rintro _ ⟨⟩⟩
  case client i =>
    obtain ⟨job, hjob, hstep⟩ := Option.bind_eq_some_iff.mp hstep
    refine h.clientStep hjob ?_ ?_ hstep
    · intro hphase hkind j hj
      simpa [Undisturbed, hjob, hphase, hkind, hj] using hok
    · intro hphase j other hj hother hstate
      have hfinds : g.findsOnly job.key i := by simpa [Undisturbed, hjob, hphase] using hok
      exact eq_of_findsOnly hfinds hj hother hstate
  case expire i =>
    obtain ⟨job, hjob, hstep⟩ := Option.bind_eq_some_iff.mp hstep
    split_ifs at hstep with hwaiting
    obtain rfl := Option.some.inj hstep
    exact h.wait hjob (by rw [hwaiting.2.1]; rfl) (by rw [hwaiting.2.1]; rfl) rfl rfl
  case cancel c key job =>
    split_ifs at hstep with hnew
    obtain rfl := Option.some.inj hstep
    have hnone : g.calls c = none := by simpa using hnew
    have hhand : g.book.hand (.call c) = none := by simp [State.book, hnone]
    have hserved := h.served
    refine ⟨?_, ⟨h.kept.queue, h.kept.taken, h.kept.covered⟩, h.marked.putCall (by simp [hnone]),
      ⟨hserved.stopping, hserved.closed, hserved.left, hserved.drained, hserved.available,
        hserved.gone⟩⟩
    rw [book_call]
    exact h.book.give_self hhand
  case calling c =>
    obtain ⟨call, hcall, hstep⟩ := Option.bind_eq_some_iff.mp hstep
    obtain ⟨⟨g₁, phase⟩, hcancel, rfl⟩ := Option.map_eq_some_iff.mp hstep
    refine h.calling hcall (fun hlook j other hj hother hstate => ?_) hcancel
    have hfinds : g.findsOnly call.key call.job := by simpa [Undisturbed, hcall, hlook] using hok
    exact eq_of_findsOnly hfinds hj hother hstate
  case executor late outcome => exact h.executorStep hstep
  case stop =>
    split_ifs at hstep with hidle
    obtain rfl := Option.some.inj hstep
    have hhand : g.book.hand .stopper = none := by simp [State.book, hidle, Stopper.hand]
    have hsame : ({ g with stopping := true }.stopAt .closing).book = g.book.give .stopper none :=
      book_stopper _
    refine ⟨?_, ?_, h.marked, ?_⟩
    · have hbook : ({ g with stopping := true }.stopAt .closing).book = g.book :=
        hsame.trans (Book.give_eq_self hhand)
      exact hbook.symm ▸ h.book
    · have hhas : ∀ i, ({ g with stopping := true }.stopAt .closing).Has i ↔ g.Has i := by
        intro i
        simp [Has, State.stopAt, hidle, Stopper.jobs]
      exact h.kept.threads rfl h.kept.queue (fun i => (hhas i).mp)
        fun i hi => .inl ((hhas i).mpr hi)
    · exact ⟨⟨fun _ => rfl, by rintro - ⟨⟩⟩, by rintro ⟨⟩, fun _ => .inl rfl, h.served.drained,
        h.served.available, fun _ => .inl rfl⟩
  case stopper => exact h.stopperStep hstep

lemma inv (h : (scheduler options).Reachable (fun g e => Undisturbed g e) g) : g.Inv options := by
  refine h.invariant ⟨?_, ?_, ?_, ?_⟩ fun s e s' _ ih hok hstep => ih.step hok hstep
  · refine Book.sound_empty (fun _ => rfl) (fun _ => rfl) fun x => ?_
    cases x <;> rfl
  · have hvalid : (scheduler options).init.queue.Valid := by
      constructor <;> simp [scheduler, FairQueue.items, FairQueue.line]
    refine ⟨hvalid, ?_, by simp [scheduler]⟩
    rintro i (hi | hi | hi) <;> simp [scheduler, FairQueue.items, Executor.jobs, Stopper.jobs] at hi
  · intro i job hjob
    simp [scheduler] at hjob
  · constructor <;> simp [scheduler, Stopper.closed, Executor.left, Executor.failed?]

end State

/-- The executor goes on, and what it runs is answered. -/
def executing (n : Nat) : List Event := List.replicate n (.executor false (.answered .ok))

end ProviderOwned.Scheduler
