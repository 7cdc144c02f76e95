import ProviderOwned.Owner.Departed

/-!
# The owner's accounts in every run

Every step that meets a condition on it (`Exact`) keeps the maps, the threads, the counter and the
jobs in agreement, and so they agree in every state that is reached by such steps (`accounted`).
-/

namespace ProviderOwned.Owner

open Transition

/-! ### Every step -/

/-- The condition under which the accounts are kept. The thread of a request whose client has left
does not count the session it has destroyed once the replica is being dissolved, and a link that
holds a session is still listed when the replica is dissolved. -/
def Exact (g : State) : Event → Bool
  | .request i _ => g.main.serving || !(g.requests[i]?).any fun t => t.phase = .freed
  | .main _ _ => g.main ≠ .unlinking || g.sessions.all fun s => (g.links[s.link]?).any Link.listed
  | _ => true

namespace State

/-- The maps, the threads, the counter and the jobs agree. -/
structure Inv (limit : Nat) (g : State) : Prop where
  core : g.Core limit
  queue : g.Queue

variable {limit : Nat} {options : Options} {g g' : State}

@[simp]
lemma post_inv {link session : Nat} {reply : Reply} :
    (g.post link session reply).Inv limit ↔ g.Inv limit :=
  ⟨fun h => ⟨post_core.mp h.core, post_queue.mp h.queue⟩,
    fun h => ⟨post_core.mpr h.core, post_queue.mpr h.queue⟩⟩

/-- The main thread goes on, with nothing in its hands before and after, and with the same job or
after the end of one that is no cleanup. -/
lemma Inv.goto {main : Main} (h : g.Inv limit) (hplain : g.main.plain) (hplain' : main.plain)
    (hmain : MainOk limit { g with main })
    (hjob : main.working → g.main.working ∧ (main.job = g.main.job ∨
      main.job = none ∧ ∃ job, g.main.job = some job ∧ job.kind ≠ .cleanup)) :
    Inv limit { g with main } := by
  obtain ⟨hserving, hreleased, hentering, hleaving, hhands, herasing⟩ := Main.plain_spec hplain
  obtain ⟨hserving', hreleased', hentering', hleaving', hhands', herasing'⟩ :=
    Main.plain_spec hplain'
  refine ⟨h.core.goto (hserving'.trans hserving.symm) (hreleased'.trans hreleased.symm)
    (hentering'.trans hentering.symm) (hleaving'.trans hleaving.symm) (hhands'.trans hhands.symm)
    (herasing'.trans herasing.symm) hmain, ?_⟩
  by_cases hworking : main.working
  · obtain ⟨hworking', hsame | ⟨hnone, job, hsome, hkind⟩⟩ := hjob hworking
    · exact h.queue.goOn rfl (fun _ => hworking') (work_of_same hsame rfl)
        fun s hs => .inr (.inr ⟨s, hs, rfl, id⟩)
    · exact h.queue.goOn rfl (fun _ => hworking') (work_of_ended hsome hnone rfl hkind)
        fun s hs => .inr (.inr ⟨s, hs, rfl, id⟩)
  · exact h.queue.stopped rfl (by simpa using hworking)

/-- The end of a job that is no cleanup. -/
lemma Inv.goIdle {job : Job} (h : g.Inv limit) (hplain : g.main.plain) (hworking : g.main.working)
    (hjob : g.main.job = some job) (hkind : job.kind ≠ .cleanup) :
    Inv limit { g with main := .idle } :=
  h.goto hplain rfl trivial fun _ => ⟨hworking, .inr ⟨rfl, job, hjob, hkind⟩⟩

/-- The replica is given up. -/
lemma Inv.dissolve (h : g.Inv limit) (hplain : g.main.plain) :
    Inv limit { g with main := .zeroing } :=
  h.goto hplain rfl trivial fun hw => Bool.noConfusion hw

/-- Sessions change in nothing but their positions. -/
lemma Inv.mapSessions {f : SessionState → SessionState} (h : g.Inv limit)
    (hup : g.main.released = false)
    (hf : ∀ s, (f s).key = s.key ∧ (f s).busy = s.busy ∧ (f s).internal = s.internal) :
    Inv limit { g with sessions := g.sessions.map f } := by
  refine ⟨h.core.mapSessions hup hf, ?_⟩
  refine h.queue.goOn rfl id (work_of_same rfl rfl) fun s hs => .inr (.inr ?_)
  obtain ⟨s₀, hs₀, rfl⟩ := List.mem_map.mp hs
  exact ⟨s₀, hs₀, (congrArg Prod.fst (hf s₀).1).symm, fun hbusy => (hf s₀).2.1.trans hbusy⟩

/-- Setting the position of one session. -/
lemma Inv.setPosition (h : g.Inv limit) (hup : g.main.released = false) (key : Nat × Nat)
    (position : Nat) : (g.modifySession key ({ · with position })).Inv limit := by
  refine h.mapSessions hup fun s => ?_
  split_ifs
  · exact ⟨rfl, rfl, rfl⟩
  · exact ⟨rfl, rfl, rfl⟩

lemma Inv.startPending (h : g.Inv limit) (hup : g.main.released = false) :
    (g.startPending options).Inv limit := by
  refine ⟨h.core.startPending ?_, h.queue.congr rfl rfl rfl rfl⟩
  exact h.core.main.mono hup rfl (fun s hs => List.mem_map_of_mem hs)
    (fun s hs hidle => ⟨s, hs, rfl, hidle, rfl⟩) (Nat.le_refl _)

lemma find_eq_some {key : Nat × Nat} {s : SessionState} (h : g.find key = some s) :
    s ∈ g.sessions ∧ s.key = key :=
  Keyed.mem_of_find? h

/-- The start of `execute`. -/
lemma Inv.execute (h : g.Inv limit) {job : Job} (hjob : g.main = .executing job) :
    (g.execute options job).Inv limit := by
  have hplain : g.main.plain := by rw [hjob]; rfl
  have hworking : g.main.working := by rw [hjob]; rfl
  have hsame : g.main.job = some job := by rw [hjob]; rfl
  have hidle : job.kind ≠ .cleanup → Inv limit { g with main := .idle } :=
    h.goIdle hplain hworking hsame
  have hending : job.kind ≠ .cleanup → ∀ s ∈ g.sessions, s.key = job.key → s.busy = false →
      Inv limit { g with main := .ending job s.internal } := by
    intro hkind s hs hkey hbusy
    exact h.goto hplain rfl ⟨hkind, s, hs, hkey, hbusy, rfl⟩ fun _ => ⟨hworking, .inl hsame.symm⟩
  unfold State.execute
  dsimp only
  cases hkind : job.kind with
  | cleanup => exact ⟨h.core.cleanup hjob, h.queue.cleanup hjob⟩
  | create =>
    have hidle := hidle (by simp [hkind])
    dsimp only
    split_ifs with hgone hfound
    · exact hidle
    · exact post_inv.mpr hidle
    · refine h.goto hplain rfl ?_ fun _ => ⟨hworking, .inl hsame.symm⟩
      refine ⟨by simp [hkind], fun hmem => ?_⟩
      obtain ⟨s, hs, hkey⟩ := List.mem_map.mp hmem
      rw [find, ← hkey, Keyed.find?_eq h.core.keys hs] at hfound
      exact hfound rfl
  | reset | destroy | prepare =>
    have hidle := hidle (by simp [hkind])
    dsimp only
    cases hfound : g.find job.key with
    | none => exact post_inv.mpr hidle
    | some s =>
      obtain ⟨hs, hkey⟩ := find_eq_some hfound
      dsimp only
      split_ifs with hbusy
      · exact post_inv.mpr hidle
      · exact hending (by simp [hkind]) s hs hkey (by simpa using hbusy)
  | request =>
    have hidle := hidle (by simp [hkind])
    dsimp only
    split_ifs with hgone
    · exact hidle
    · cases hfound : g.find job.key with
      | none => exact post_inv.mpr hidle
      | some s =>
        obtain ⟨hs, hkey⟩ := find_eq_some hfound
        dsimp only
        split_ifs with hbusy hposition
        · exact post_inv.mpr hidle
        · exact post_inv.mpr hidle
        · refine Inv.startPending ⟨h.core.accept hjob hs hkey (by simpa using hbusy), ?_⟩ rfl
          refine h.queue.goOn rfl (fun _ => hworking)
            (work_of_ended hsame rfl rfl (by simp [hkind])) fun s' hs' => ?_
          obtain ⟨s₀, hs₀, rfl⟩ := List.mem_map.mp hs'
          right
          right
          split_ifs
          · exact ⟨s₀, hs₀, rfl, fun _ => rfl⟩
          · exact ⟨s₀, hs₀, rfl, id⟩

/-- The end of a reset, a destruction or a preparation. -/
lemma Inv.answered (h : g.Inv limit) {job : Job} {internal : Nat} (answer : Answer) (position : Nat)
    (hmain : g.main = .ending job internal) :
    (g.answered job internal answer position).Inv limit := by
  have hok := h.core.main
  simp only [MainOk, hmain] at hok
  have hworking : g.main.working := by rw [hmain]; rfl
  have hjob : g.main.job = some job := by rw [hmain]; rfl
  have hidle : Inv limit { g with main := .idle } :=
    h.goIdle (by rw [hmain]; rfl) hworking hjob hok.1
  have hposition := fun position => hidle.setPosition rfl job.key position
  have hbroken : Inv limit { g with main := .idle, broken := true } :=
    ⟨hidle.core.break, hidle.queue.congr rfl rfl rfl rfl⟩
  have hqueue : Queue { g.noted internal answer with main := .erasing job internal } := by
    obtain ⟨destroyed, refused, -, heq⟩ := g.noted_eq internal answer
    rw [heq]
    exact h.queue.goOn rfl (fun _ => hworking) (work_of_same hjob.symm rfl)
      fun s hs => .inr (.inr ⟨s, hs, rfl, id⟩)
  unfold State.answered
  dsimp only
  split_ifs
  · exact post_inv.mpr (hposition _)
  · exact post_inv.mpr (hposition _)
  · exact post_inv.mpr hidle
  · exact hbroken
  · exact ⟨h.core.destroy hmain answer, hqueue⟩
  · exact post_inv.mpr (hposition _)

/-- A step of the main thread. -/
lemma Inv.mainStep (h : g.Inv options.sessions.toNat) {answer : Answer} {position : Nat}
    (hok : Exact g (.main answer position)) (hstep : g.mainStep options answer position = some g') :
    g'.Inv options.sessions.toNat := by
  have hlimit : options.sessions.toNat < 2 ^ 32 := options.sessions.toNat_lt
  have hmainOk := h.core.main
  have hsame : ∀ s ∈ g.sessions, g.work s.link ≠ [] ∨ g.gone s.link = false ∨
      ∃ s₀ ∈ g.sessions, s₀.link = s.link ∧ (s₀.busy → s.busy) :=
    fun s hs => .inr (.inr ⟨s, hs, rfl, id⟩)
  have hworking : g.main.working ∨ g.main.working = false := by cases g.main.working <;> simp
  unfold State.mainStep at hstep
  cases hmain : g.main <;> simp only [hmain] at hstep hworking <;>
    simp only [MainOk, hmain] at hmainOk
  case down => contradiction
  case idle =>
    obtain rfl := Option.some.inj hstep
    refine ⟨?_, h.queue.goOn rfl (fun _ => by rw [hmain]; rfl) (fun l => .inl ?_) hsame⟩
    · have htaken : Core options.sessions.toNat { g with main := .taken g.jobs.head? } := by
        refine h.core.goto ?_ ?_ ?_ ?_ ?_ ?_ trivial <;> rw [hmain] <;> rfl
      exact htaken.congr rfl rfl rfl rfl rfl rfl rfl rfl rfl rfl rfl
    · cases hjobs : g.jobs <;> simp [work, hmain, Main.job, hjobs]
  case taken job =>
    split_ifs at hstep with hbroken
    · obtain rfl := Option.some.inj hstep
      exact h.dissolve (by rw [hmain]; rfl)
    · obtain rfl := Option.some.inj hstep
      have hpending : (g.startPending options).Inv options.sessions.toNat :=
        h.startPending (by rw [hmain]; rfl)
      have hmain' : (g.startPending options).main = .taken job := hmain
      cases job with
      | none =>
        exact hpending.goto (by rw [hmain']; rfl) rfl trivial
          fun _ => ⟨by rw [hmain']; rfl, .inl (by rw [hmain']; rfl)⟩
      | some job =>
        exact hpending.goto (by rw [hmain']; rfl) rfl trivial
          fun _ => ⟨by rw [hmain']; rfl, .inl (by rw [hmain']; rfl)⟩
  case executing job =>
    obtain rfl := Option.some.inj hstep
    exact h.execute hmain
  case checked job =>
    split_ifs at hstep with hfull
    · obtain rfl := Option.some.inj hstep
      exact post_inv.mpr
        (h.goIdle (by rw [hmain]; rfl) (by rw [hmain]; rfl) (congrArg Main.job hmain)
        hmainOk.1)
    · obtain rfl := Option.some.inj hstep
      exact h.goto (by rw [hmain]; rfl) rfl ⟨hmainOk.1, hmainOk.2, Nat.not_le.mp hfull⟩
        fun _ => ⟨by rw [hmain]; rfl, .inl (congrArg Main.job hmain).symm⟩
  case creating job =>
    split_ifs at hstep with hanswer hnone
    · obtain rfl := Option.some.inj hstep
      refine ⟨h.core.create hmain fun x hx => ?_, h.queue.goOn rfl (fun _ => by rw [hmain]; rfl)
        (work_of_same (congrArg Main.job hmain).symm rfl) hsame⟩
      split_ifs <;> omega
    · obtain rfl := Option.some.inj hstep
      refine ⟨h.core.create hmain fun x hx => ?_, h.queue.goOn rfl (fun _ => by rw [hmain]; rfl)
        (work_of_same (congrArg Main.job hmain).symm rfl) hsame⟩
      rw [if_neg (Ne.symm hx), Nat.zero_add]
    · obtain rfl := Option.some.inj hstep
      exact h.dissolve (by rw [hmain]; rfl)
  case inserting job internal =>
    obtain rfl := Option.some.inj hstep
    refine ⟨h.core.insert hmain, h.queue.goOn rfl (fun _ => by rw [hmain]; rfl)
      (work_of_same (congrArg Main.job hmain).symm rfl) fun s hs => ?_⟩
    rcases List.mem_append.mp hs with hs | hs
    · exact .inr (.inr ⟨s, (List.mem_filter.mp hs).1, rfl, id⟩)
    · left
      obtain rfl := List.mem_singleton.mp hs
      simp [work, hmain, Main.job]
  case inserted job =>
    obtain rfl := Option.some.inj hstep
    refine post_inv.mpr ⟨h.core.countInserted hmain (h.core.incremented hlimit hmain), ?_⟩
    exact h.queue.goOn rfl (fun _ => by rw [hmain]; rfl)
      (work_of_ended (congrArg Main.job hmain) rfl rfl hmainOk.1) hsame
  case ending job internal =>
    obtain rfl := Option.some.inj hstep
    exact h.answered answer position hmain
  case erasing job internal =>
    obtain rfl := Option.some.inj hstep
    exact ⟨h.core.erase hmain, h.queue.goOn rfl (fun _ => by rw [hmain]; rfl)
      (work_of_same (congrArg Main.job hmain).symm rfl)
      fun s hs => .inr (.inr ⟨s, (List.mem_filter.mp hs).1, rfl, id⟩)⟩
  case erased job =>
    obtain rfl := Option.some.inj hstep
    have hn := h.core.decremented hlimit (by rw [hmain]; rfl)
      (by simp only [leaving, hmain, Main.leaving]; omega)
    refine post_inv.mpr ⟨h.core.countLeaving (by rw [hmain]; rfl) rfl (by rw [hmain]; rfl)
      (by rw [hmain]; rfl) rfl (by rw [hmain]; rfl) (by rw [hmain]; rfl)
        (by rw [hmain]; rfl) trivial hn, ?_⟩
    exact h.queue.goOn rfl (fun _ => by rw [hmain]; rfl)
      (work_of_ended (congrArg Main.job hmain) rfl rfl hmainOk) hsame
  case cleaning internals =>
    cases internals with
    | nil =>
      obtain rfl := Option.some.inj hstep
      refine ⟨?_, h.queue.goOn rfl (fun _ => by rw [hmain]; rfl)
        (work_of_same (congrArg Main.job hmain).symm rfl) hsame⟩
      refine h.core.goto ?_ ?_ ?_ ?_ ?_ ?_ trivial <;> rw [hmain] <;> rfl
    | cons internal rest =>
      change (if answer.fine then some { g.noted internal answer with main := .cleaned rest }
        else some { g with main := .idle, broken := true,
                           dropped := g.dropped ++ internal :: rest }) =
        some g' at hstep
      split_ifs at hstep
      · obtain rfl := Option.some.inj hstep
        refine ⟨h.core.endIdle hmain answer, ?_⟩
        obtain ⟨destroyed, refused, -, heq⟩ := g.noted_eq internal answer
        rw [heq]
        exact h.queue.goOn rfl (fun _ => by rw [hmain]; rfl)
          (work_of_same (congrArg Main.job hmain).symm rfl) hsame
      · obtain rfl := Option.some.inj hstep
        exact ⟨h.core.dropIdle hmain, h.queue.goOn rfl (fun _ => by rw [hmain]; rfl)
          (work_of_same (congrArg Main.job hmain).symm rfl) hsame⟩
  case cleaned rest =>
    obtain rfl := Option.some.inj hstep
    have hn := h.core.decremented hlimit (by rw [hmain]; rfl)
      (by simp only [leaving, hmain, Main.leaving]; omega)
    refine ⟨h.core.countLeaving (by rw [hmain]; rfl) rfl (by rw [hmain]; rfl)
      (by rw [hmain]; rfl) rfl (by rw [hmain]; rfl) (by rw [hmain]; rfl)
        (by rw [hmain]; rfl) trivial hn, ?_⟩
    exact h.queue.goOn rfl (fun _ => by rw [hmain]; rfl)
      (work_of_same (congrArg Main.job hmain).symm rfl) hsame
  case checking =>
    obtain rfl := Option.some.inj hstep
    split_ifs with hanswer
    · exact h.goto (by rw [hmain]; rfl) rfl trivial
        fun _ => ⟨by rw [hmain]; rfl, .inl (congrArg Main.job hmain).symm⟩
    · exact h.dissolve (by rw [hmain]; rfl)
  case zeroing =>
    obtain rfl := Option.some.inj hstep
    exact ⟨h.core.zeroed hmain, h.queue.stopped rfl rfl⟩
  case unlinking =>
    obtain rfl := Option.some.inj hstep
    have hlisted : ∀ s ∈ g.sessions, s.link ∈ (List.range g.links.length).filter fun link =>
        (g.links[link]?).any Link.listed := by
      intro s hs
      have hall : ∀ s ∈ g.sessions, (g.links[s.link]?).any Link.listed := by
        simpa [Exact, hmain] using hok
      have hany := hall s hs
      refine List.mem_filter.mpr ⟨List.mem_range.mpr ?_, hany⟩
      cases hlink : g.links[s.link]? with
      | none => simp [hlink] at hany
      | some link => exact (List.getElem?_eq_some_iff.mp hlink).1
    refine ⟨?_, ?_⟩
    · have hnext : Core options.sessions.toNat { g with
          main := .unqueueing ((List.range g.links.length).filter fun link =>
            (g.links[link]?).any Link.listed) } := by
        refine h.core.goto ?_ ?_ ?_ ?_ ?_ ?_ hlisted <;> rw [hmain] <;> rfl
      exact hnext.congr rfl rfl rfl rfl rfl rfl rfl rfl rfl rfl rfl
    · have hback : ∀ {l : Nat} {link : Link},
          (g.links.map ({ · with listed := false }))[l]? = some link →
          ∃ link₀, g.links[l]? = some link₀ ∧ link.reader = link₀.reader ∧
              link.gone = link₀.gone := by
        intro l link hlink
        rw [List.getElem?_map] at hlink
        obtain ⟨link₀, hlink₀, rfl⟩ := Option.map_eq_some_iff.mp hlink
        exact ⟨link₀, hlink₀, rfl, rfl⟩
      constructor
      · intro l link hlink hreader
        obtain ⟨link₀, hlink₀, hsame, hgone⟩ := hback hlink
        rw [hgone]
        exact h.queue.gone l link₀ hlink₀ (hsame ▸ hreader)
      · intro l link job hlink hreader
        obtain ⟨link₀, hlink₀, hsame, -⟩ := hback hlink
        exact h.queue.pushing l link₀ job hlink₀ (hsame ▸ hreader)
      · exact fun _ _ _ _ hw => Bool.noConfusion hw
      · exact fun _ _ _ _ hw => Bool.noConfusion hw
  case unqueueing links =>
    obtain rfl := Option.some.inj hstep
    refine ⟨?_, h.queue.stopped rfl rfl⟩
    have hnext : Core options.sessions.toNat { g with main := .failing links } := by
      refine h.core.goto ?_ ?_ ?_ ?_ ?_ ?_ hmainOk <;> rw [hmain] <;> rfl
    exact hnext.congr rfl rfl rfl rfl rfl rfl rfl rfl rfl rfl rfl
  case failing links =>
    obtain rfl := Option.some.inj hstep
    refine ⟨?_, h.queue.stopped rfl rfl⟩
    have hnext : Core options.sessions.toNat { g with main := .joining links } := by
      refine h.core.goto ?_ ?_ ?_ ?_ ?_ ?_ hmainOk <;> rw [hmain] <;> rfl
    exact hnext.break
  case joining links =>
    split_ifs at hstep with hdone
    obtain rfl := Option.some.inj hstep
    refine ⟨h.core.join hmain fun t ht => ?_, h.queue.stopped rfl rfl⟩
    simpa using List.all_eq_true.mp hdone t ht
  case forgetting links =>
    cases links with
    | nil =>
      obtain rfl := Option.some.inj hstep
      refine ⟨?_, h.queue.stopped rfl rfl⟩
      have hnone : g.sessions = [] := List.eq_nil_iff_forall_not_mem.mpr fun s hs =>
        absurd (hmainOk.1 s hs) List.not_mem_nil
      refine h.core.goto ?_ ?_ ?_ ?_ ?_ ?_ ⟨hnone, hmainOk.2⟩ <;> rw [hmain] <;> rfl
    | cons link rest =>
      obtain rfl := Option.some.inj hstep
      refine ⟨(h.core.forget hmain).congr rfl rfl rfl rfl rfl rfl rfl rfl rfl rfl rfl, ?_⟩
      have hclosed : (g.modifyLink link ({ · with closing := true })).Queue :=
        h.queue.modifyLink (fun l hl hr => h.queue.gone link l hl hr)
          (fun l job hl hr => h.queue.pushing link l job hl hr) fun _ _ hr => hr
      exact hclosed.stopped rfl rfl

/-- The end of a request. -/
lemma Inv.finished (h : g.Inv limit) {i : Nat} {job : Job} {position : Nat} {problem : String}
    (ht : g.requests[i]? = some ⟨job, .running⟩) :
    (g.finished i job position problem).Inv limit := by
  have hposted : ((g.modifySession job.key ({ · with position })).post job.link job.session
      (if problem ≠ "" then .error problem else .ack position)).Inv limit :=
    post_inv.mpr (h.setPosition (h.core.up ht) job.key position)
  have htask : ((g.modifySession job.key ({ · with position })).post job.link job.session
      (if problem ≠ "" then .error problem else .ack position)).requests[i]? =
      some ⟨job, .running⟩ := by
    unfold State.post
    split <;> exact ht
  unfold State.finished
  dsimp only
  generalize (g.modifySession job.key ({ · with position })).post job.link job.session _ = g₁
    at hposted htask ⊢
  obtain ⟨⟨s, hs, hkey, hbusy⟩, -⟩ := hposted.core.busy_of_running htask
  have hgoneEq : (g₁.modifySession job.key ({ · with busy := false })).gone job.link =
    g₁.gone job.link := rfl
  rw [hgoneEq]
  by_cases hgone : g₁.gone job.link
  · rw [if_pos hgone]
    have herased : (g₁.sessions.map fun s => if s.key = job.key then { s with busy := false }
      else s).filter
        (·.key ≠ job.key) = g₁.sessions.filter (·.key ≠ job.key) :=
      Keyed.filter_modify fun _ => rfl
    have hfind : ((g₁.modifySession job.key ({ · with busy := false })).find job.key).map
        SessionState.internal = some s.internal := by
      have hmodified : (g₁.sessions.map fun s => if s.key = job.key then { s with busy := false }
          else s).find? (·.key = job.key) =
          (g₁.sessions.find? (·.key = job.key)).map fun s => { s with busy := false } :=
        Keyed.find?_modify fun _ => rfl
      have hfound := Keyed.find?_eq hposted.core.keys hs
      rw [hkey] at hfound
      rw [find, modifySession, hmodified, hfound]
      rfl
    rw [hfind, Option.getD_some]
    refine ⟨?_, ?_⟩
    · have hleft := hposted.core.finish_left htask hs hkey
      refine hleft.congr herased rfl rfl rfl rfl rfl rfl rfl rfl rfl rfl
    · refine hposted.queue.goOn rfl id (work_of_same rfl rfl)
        fun s' hs' => .inr (.inr ⟨s', ?_, rfl, id⟩)
      have hmem : s' ∈ g₁.sessions.filter (·.key ≠ job.key) := herased ▸ hs'
      exact (List.mem_filter.mp hmem).1
  · rw [if_neg hgone]
    refine ⟨(hposted.core.finish_done htask).congr rfl rfl rfl rfl rfl rfl rfl rfl rfl rfl rfl, ?_⟩
    refine hposted.queue.goOn rfl id (work_of_same rfl rfl) fun s' hs' => ?_
    obtain ⟨s₀, hs₀, rfl⟩ := List.mem_map.mp hs'
    split_ifs with hk
    · right
      left
      have hlink : s₀.link = job.link := congrArg Prod.fst hk
      rw [hlink]
      simpa using hgone
    · exact .inr (.inr ⟨s₀, hs₀, rfl, id⟩)

/-- A step of the thread of a request after that. -/
lemma Inv.requestStep (h : g.Inv limit) (hlimit : limit < 2 ^ 32) {i : Nat} {t : Task}
    {answer : Answer} (ht : g.requests[i]? = some t) (hok : Exact g (.request i answer))
    (hstep : g.requestStep i t answer = some g') : g'.Inv limit := by
  obtain ⟨job, phase⟩ := t
  have hqueue : ∀ {g' : State}, g'.links = g.links → g'.jobs = g.jobs → g'.main = g.main →
      g'.sessions = g.sessions → g'.Queue := fun hl hj hm hs => h.queue.congr hl hj hm hs
  unfold State.requestStep at hstep
  cases phase <;> dsimp only at hstep
  case running => contradiction
  case done => contradiction
  case left internal =>
    split_ifs at hstep with hbroken
    · obtain rfl := Option.some.inj hstep
      have hcore := h.core.advance .done g.broken [internal] [] [] ht (by simp) (by simp)
        (by simp [List.count_singleton]) (by simp) (by simp [hbroken])
      exact ⟨hcore.congr rfl rfl rfl rfl rfl rfl rfl (by simp) (by simp) rfl rfl,
        hqueue rfl rfl rfl rfl⟩
    · obtain rfl := Option.some.inj hstep
      have hcore := h.core.advance (.passed internal) g.broken [] [] [] ht (by simp) (by simp)
        (by simp)
        (by simp) (by simp)
      exact ⟨hcore.congr rfl rfl rfl rfl rfl rfl rfl (by simp) (by simp) (by simp) rfl,
        hqueue rfl rfl rfl rfl⟩
  case passed internal =>
    split_ifs at hstep
    · obtain rfl := Option.some.inj hstep
      obtain ⟨destroyed, refused, hends, heq⟩ := g.noted_eq internal answer
      rw [heq]
      have hcore := h.core.advance .freed g.broken [] destroyed refused ht (by simp) (by simp)
        (by simp [hends]) (by simp) (by simp)
      exact ⟨hcore.congr rfl rfl rfl rfl rfl rfl rfl rfl rfl (by simp) rfl, hqueue rfl rfl rfl rfl⟩
    · obtain rfl := Option.some.inj hstep
      have hcore := h.core.advance .done true [internal] [] [] ht (by simp) (by simp)
        (by simp [List.count_singleton]) (by simp) (by simp)
      exact ⟨hcore.congr rfl rfl rfl rfl rfl rfl rfl (by simp) (by simp) rfl rfl,
        hqueue rfl rfl rfl rfl⟩
  case freed =>
    obtain rfl := Option.some.inj hstep
    have hserving : g.main.serving := by simpa [Exact, ht] using hok
    have hleaving : 0 < g.leaving := by
      have hpos : 0 < g.requests.countP (·.phase.leaving) :=
        List.countP_pos_iff.mpr ⟨_, List.mem_of_getElem? ht, rfl⟩
      rw [leaving]
      omega
    exact ⟨h.core.countFreed ht hserving (h.core.decremented hlimit hserving hleaving),
      hqueue rfl rfl rfl rfl⟩

/-- Every step that meets the condition keeps the invariant. -/
lemma Inv.step (h : g.Inv options.sessions.toNat) {e : Event} (hok : Exact g e)
    (hstep : g.step options e = some g') : g'.Inv options.sessions.toNat := by
  cases e <;> dsimp only [State.step] at hstep
  case accept =>
    obtain rfl := Option.some.inj hstep
    refine ⟨h.core.congr rfl rfl rfl rfl rfl rfl rfl rfl rfl rfl rfl, ?_⟩
    have hback : ∀ {l : Nat} {link : Link}, (g.links ++ [({} : Link)])[l]? = some link →
        link.reader ≠ .reading → g.links[l]? = some link := by
      intro l link hlink hreader
      rcases Nat.lt_or_ge l g.links.length with hl | hl
      · rwa [List.getElem?_append_left hl] at hlink
      · rw [List.getElem?_append_right hl] at hlink
        obtain rfl := List.mem_singleton.mp (List.mem_of_getElem? hlink)
        exact absurd rfl hreader
    constructor
    · intro l link hlink hreader
      exact h.queue.gone l link (hback hlink (by rcases hreader with hr | hr <;> simp [hr])) hreader
    · exact fun l link job hlink hr => h.queue.pushing l link job (hback hlink (by simp [hr])) hr
    · exact fun l link hlink hr => h.queue.last l link (hback hlink (by simp [hr])) hr
    · exact fun l link hlink hr => h.queue.idle l link (hback hlink (by simp [hr])) hr
  case read link job =>
    obtain ⟨l, hl, hstep⟩ := Option.bind_eq_some_iff.mp hstep
    split_ifs at hstep with hrefused hready
    · obtain rfl := Option.some.inj hstep
      simp only [not_or, not_not] at hrefused
      refine ⟨h.core.congr rfl rfl rfl rfl rfl rfl rfl rfl rfl rfl rfl, h.queue.modifyLink ?_ ?_ ?_⟩
      · simp
      · intro _ job' _ hjob
        obtain rfl := Reader.pushing.inj hjob
        exact hrefused.2.2
      · simp
    · obtain rfl := Option.some.inj hstep
      exact post_inv.mpr h
  case push link =>
    obtain ⟨l, hl, hstep⟩ := Option.bind_eq_some_iff.mp hstep
    cases hreader : l.reader <;> simp only [hreader] at hstep
    case reading => contradiction
    case left => contradiction
    case pushing job =>
      obtain rfl := Option.some.inj hstep
      exact ⟨h.core.congr rfl rfl rfl rfl rfl rfl rfl rfl rfl rfl rfl,
        h.queue.push (h.queue.pushing link l job hl hreader) (by simp) (by simp) (by simp)
          (by simp)⟩
    case leaving =>
      obtain rfl := Option.some.inj hstep
      refine ⟨h.core.congr rfl rfl rfl rfl rfl rfl rfl rfl rfl rfl rfl,
        h.queue.push rfl (fun l' hl' _ => ?_) (by simp) (by simp) (by simp)⟩
      obtain rfl := Option.some.inj (hl.symm.trans hl')
      exact h.queue.gone link l hl (.inl hreader)
  case leave link =>
    obtain ⟨l, hl, hstep⟩ := Option.bind_eq_some_iff.mp hstep
    split_ifs at hstep with hreader
    obtain rfl := Option.some.inj hstep
    exact ⟨h.core.congr rfl rfl rfl rfl rfl rfl rfl rfl rfl rfl rfl,
      h.queue.modifyLink (by simp) (by simp) (by simp)⟩
  case drop link =>
    obtain rfl := Option.some.inj hstep
    exact ⟨h.core.congr rfl rfl rfl rfl rfl rfl rfl rfl rfl rfl rfl,
      h.queue.modifyLink (by simp) (fun l job hl hr => h.queue.pushing link l job hl hr)
        fun _ _ hr => hr⟩
  case fail =>
    have hbroken : Inv options.sessions.toNat { g with broken := true } :=
      ⟨h.core.break, h.queue.congr rfl rfl rfl rfl⟩
    split at hstep <;> first | contradiction | (obtain rfl := Option.some.inj hstep; exact hbroken)
  case form =>
    split_ifs at hstep with hdown
    obtain rfl := Option.some.inj hstep
    have hok := h.core.main
    simp only [MainOk, hdown] at hok
    refine ⟨h.core.form hdown, h.queue.gone, h.queue.pushing, ?_, ?_⟩
    · simp [work, Main.job]
    · simp [hok.1]
  case giveWay =>
    split_ifs at hstep with hidle
    obtain rfl := Option.some.inj hstep
    exact h.dissolve (by rw [hidle.1]; rfl)
  case main answer position => exact h.mainStep hok hstep
  case finish i position problem =>
    obtain ⟨t, ht, hstep⟩ := Option.bind_eq_some_iff.mp hstep
    split_ifs at hstep with hrunning
    obtain rfl := Option.some.inj hstep
    obtain ⟨job, phase⟩ := t
    obtain rfl : phase = .running := hrunning
    exact h.finished ht
  case request i answer =>
    obtain ⟨t, ht, hstep⟩ := Option.bind_eq_some_iff.mp hstep
    exact h.requestStep options.sessions.toNat_lt ht hok hstep

lemma inv (h : (owner options).Reachable (fun g e => Exact g e) g) :
    g.Inv options.sessions.toNat := by
  refine h.invariant ⟨?_, ?_⟩ fun s e s' _ ih hok hstep => ih.step hok hstep
  · constructor <;>
      simp [owner, places, runs, leaving, MainOk, Main.hands, Main.erasing?, Main.serving]
  · constructor <;> simp [owner]

/-! ### The accounts -/

/-- Nothing is at hand, queued or running, and the replica is fine. -/
def AtRest (g : State) : Prop :=
  g.main = .idle ∧ g.jobs = [] ∧ g.pending = [] ∧ (∀ t ∈ g.requests, t.phase = .done) ∧
    g.broken = false

/-- A member session is held for a client, or a thread has it to put it into a map or to destroy
it. -/
def Held (g : State) (x : Nat) : Prop :=
  (∃ s ∈ g.sessions, s.internal = x) ∨ (∃ t ∈ g.requests, t.phase.hand = some x) ∨ x ∈ g.main.hands

/-- What the owner's accounts of its sessions say. -/
structure Accounted (limit : Nat) (g : State) : Prop where
  /-- The counter is the sessions in the maps and those on their way out of them. -/
  counted : g.main.serving → g.inUse + g.main.entering = g.sessions.length + g.leaving
  zeroed : g.main.serving = false → g.inUse = 0
  bound : g.inUse ≤ limit
  /-- No session is destroyed twice, and none that was destroyed is held by a client or a thread,
  but for the one the main thread is about to take out of its map. -/
  destroyed : ∀ x, x ≠ 0 →
    g.destroyed.count x ≤ 1 ∧ (x ∈ g.destroyed → g.main.erasing? ≠ some x → ¬ g.Held x)
  /-- No session is lost. -/
  kept : ∀ x < g.next, x ≠ 0 →
    g.Held x ∨ x ∈ g.destroyed ∨ x ∈ g.refused ∨ x ∈ g.dropped ∨ x ∈ g.released
  dropped : g.broken = false → g.main.serving → g.dropped = []
  /-- Once the cleanup of a client that left was executed, its sessions are those of its requests
  that are queued or run. -/
  departed : ∀ (l : Nat) (link : Link), g.links[l]? = some link → link.reader = .left →
    g.main.working → g.work l = [] → ∀ s ∈ g.sessions, s.link = l → s.busy ∧ g.runs s.key = 1
  /-- At rest the counter is the number of sessions of clients that have not left. -/
  rest : g.AtRest → g.inUse = g.sessions.length ∧ ∀ (l : Nat) (link : Link), g.links[l]? =
    some link →
    link.reader = .left → ∀ s ∈ g.sessions, s.link ≠ l

lemma held_iff {x : Nat} : g.Held x ↔ 0 < g.sessions.countP (·.internal = x) +
    g.requests.countP (·.phase.hand = some x) + g.main.hands.count x := by
  rw [Held, ← List.count_pos_iff]
  have hsessions : (∃ s ∈ g.sessions, s.internal = x) ↔ 0 < g.sessions.countP (·.internal = x) := by
    simp [List.countP_pos_iff]
  have hrequests : (∃ t ∈ g.requests, t.phase.hand = some x) ↔
      0 < g.requests.countP (·.phase.hand = some x) := by
    simp [List.countP_pos_iff]
  rw [hsessions, hrequests]
  omega

/-- The session that is being erased is still in its map. -/
lemma Core.erasing (h : g.Core limit) {x : Nat} (hx : g.main.erasing? = some x) :
    0 < g.sessions.countP (·.internal = x) := by
  have hmain := h.main
  unfold MainOk at hmain
  cases hcase : g.main <;> simp only [hcase, Main.erasing?, reduceCtorEq, Option.some.injEq]
    at hx hmain
  obtain ⟨-, s, hs, -, -, hinternal⟩ := hmain
  exact List.countP_pos_iff.mpr ⟨s, hs, by simpa using hinternal.trans hx⟩

lemma Inv.toAccounted (h : g.Inv limit) : g.Accounted limit := by
  have hcore := h.core
  have honce : ∀ x, x ≠ 0 → g.destroyed.count x ≤ 1 ∧
      (x ∈ g.destroyed → g.main.erasing? ≠ some x → ¬ g.Held x) := by
    intro x hpos
    have hplaces := hcore.once x hpos
    rw [places] at hplaces
    rw [held_iff, ← List.count_pos_iff]
    by_cases hx : g.main.erasing? = some x
    · have := hcore.erasing hx
      rw [if_pos hx] at hplaces
      refine ⟨?_, fun _ hne => absurd hx hne⟩
      split_ifs at hplaces <;> omega
    · rw [if_neg hx] at hplaces
      split_ifs at hplaces <;> omega
  constructor
  · exact hcore.count
  · exact hcore.zero
  · exact hcore.bound
  · exact honce
  · intro x hx hpos
    have hplaces := hcore.once x hpos
    rw [places, if_pos hx] at hplaces
    rw [held_iff]
    simp only [← List.count_pos_iff]
    omega
  · exact hcore.dropped
  · intro l link hlink hleft hworking hnil s hs hl
    have hbusy := h.queue.idle l link hlink hleft hworking hnil s hs hl
    refine ⟨hbusy, hcore.runs_of_busy ?_ hs hbusy⟩
    cases hmain : g.main <;> simp [hmain, Main.working, Main.serving, Main.released] at hworking ⊢
  · rintro ⟨hmain, hjobs, hpending, hdone, hbroken⟩
    have hserving : g.main.serving = true := by rw [hmain]; rfl
    have hcount := hcore.count hserving
    have hrequests : ∀ p : Task → Bool, (∀ t, t.phase = .done → p t = false) →
        g.requests.countP p = 0 := by
      intro p hp
      rw [List.countP_eq_zero]
      intro t ht
      simp [hp t (hdone t ht)]
    refine ⟨?_, ?_⟩
    · simpa [leaving, hmain, Main.entering, Main.leaving, hcore.dropped hbroken hserving,
        hrequests (·.phase.leaving) (fun t ht => by simp [ht])] using hcount
    · intro l link hlink hleft s hs hl
      have hbusy := h.queue.idle l link hlink hleft (by rw [hmain]; rfl)
        (by simp [work, hmain, hjobs, Main.job]) s hs hl
      have hone := hcore.runs_of_busy (by rw [hmain]; rfl) hs hbusy
      rw [runs, hpending, hrequests _ (fun t ht => by simp [ht])] at hone
      simp at hone

end State

/-- The accounts are right in every state that is reached by steps that meet the condition. -/
theorem accounted {options : Options} {g : State}
    (h : (owner options).Reachable (fun g e => Exact g e) g) :
    g.Accounted options.sessions.toNat :=
  (State.inv h).toAccounted

def going (n : Nat) : List Event := List.replicate n (.main .done 0)

/-- A client opens a session, sends a request and leaves while the request runs, which then ends. -/
def leftWhileRunning : List Event :=
  [.form, .accept, .read 0 { kind := .create, link := 0, session := 1 }, .push 0] ++ going 7 ++
    [.read 0 { kind := .request, link := 0, session := 1 }, .push 0] ++ going 3 ++
    [.leave 0, .finish 0 0 ""]

/-- The thread of the request destroys the session of the client that left, and the cleanup finds
none to destroy. -/
theorem accounted_leftWhileRunning :
    ∃ g : State, g.destroyed = [1] ∧ g.inUse = 0 ∧ g.main = .idle ∧ g.Accounted 1 := by
  have hrun : ((owner { sessions := 1 }).exec (fun g e => Exact g e) {}
      (leftWhileRunning ++ [.request 0 .done, .request 0 .done, .request 0 .done, .push 0] ++
        going 4)).map (fun g => (g.destroyed, g.inUse, g.main)) = some ([1], 0, .idle) := by
    decide +kernel
  obtain ⟨g, hexec, hview⟩ := Option.map_eq_some_iff.mp hrun
  simp only [Prod.mk.injEq] at hview
  obtain ⟨hdestroyed, hinUse, hmain⟩ := hview
  exact ⟨g, hdestroyed, hinUse, hmain, accounted (System.Reachable.init.exec _ hexec)⟩

/-- The thread of the request destroys the session while the replica is dissolved, and counts it
after the counter was zeroed. Where the replica broke before, nobody destroys the session. -/
theorem leftWhileRunning_dissolved :
    (∃ g, (owner { sessions := 1 }).Reachable (fun _ _ => True) g ∧
      g.inUse = 2 ^ 32 - 1 ∧ g.sessions = []) ∧
    ∃ g, (owner { sessions := 1 }).Reachable (fun _ _ => True) g ∧
      g.next = 2 ∧ g.sessions = [] ∧ g.requests = [] ∧ g.main = .down ∧ g.destroyed = [] := by
  have hwrapped : ((owner { sessions := 1 }).exec (fun _ _ => True) {}
      (leftWhileRunning ++ [.request 0 .done] ++ going 2 ++
        [.main (.lost "no answer") 0, .main .done 0, .request 0 .done, .request 0 .done])).map
        (fun g => (g.inUse, g.sessions)) = some (2 ^ 32 - 1, []) := by
    decide +kernel
  have hdropped : ((owner { sessions := 1 }).exec (fun _ _ => True) {}
      (leftWhileRunning ++ [.fail, .request 0 .done] ++ going 9)).map
        (fun g => (g.next, g.sessions, g.requests, g.main, g.destroyed)) =
      some (2, [], [], .down, []) := by
    decide +kernel
  obtain ⟨g, hexec, hview⟩ := Option.map_eq_some_iff.mp hwrapped
  obtain ⟨g', hexec', hview'⟩ := Option.map_eq_some_iff.mp hdropped
  simp only [Prod.mk.injEq] at hview hview'
  exact ⟨⟨g, System.Reachable.init.exec _ hexec, hview⟩, g', System.Reachable.init.exec _ hexec',
    hview'⟩

end ProviderOwned.Owner
