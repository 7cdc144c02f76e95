import ProviderOwned.Owner.Sessions

/-!
# The accounts of the owner's sessions

What one thread changes in one step keeps the maps, the threads and the counter in agreement
(`Core`).
-/

namespace ProviderOwned.Owner

open Transition

/-! ### Where a session is -/

namespace Main

/-- The replica is up and its counter was not zeroed yet. -/
def serving : Main → Bool
  | .down | .unlinking | .unqueueing _ | .failing _ | .joining _ | .forgetting _ => false
  | _ => true

def working (main : Main) : Bool := main.serving && main ≠ .zeroing

def released : Main → Bool
  | .down | .forgetting _ => true
  | _ => false

/-- Nothing in the thread's hands, while the replica is up. -/
def plain : Main → Bool
  | .idle | .taken _ | .executing _ | .checked _ | .creating _ | .ending _ _ | .checking |
      .zeroing => true
  | _ => false

/-- Sessions in a map that are still to be counted. -/
def entering : Main → Nat
  | .inserted _ => 1
  | _ => 0

/-- Sessions in no map that are still counted. -/
def leaving : Main → Nat
  | .cleaning internals => internals.length
  | .cleaned internals => internals.length + 1
  | .erased _ => 1
  | _ => 0

/-- The member sessions the main thread has to put into a map or to destroy. -/
def hands : Main → List Nat
  | .inserting _ internal => [internal]
  | .cleaning internals | .cleaned internals => internals
  | _ => []

/-- A session that was destroyed, or given up, and is still in its map. -/
def erasing? : Main → Option Nat
  | .erasing _ internal => some internal
  | _ => none

/-- The job at hand, a cleanup only until its sessions are out of the map. -/
def job : Main → Option Job
  | .taken job => job
  | .executing job | .checked job | .creating job | .inserting job _ | .inserted job | .ending job _
  | .erasing job _ | .erased job => some job
  | _ => none

lemma plain_spec {main : Main} (h : main.plain) :
    main.serving = true ∧ main.released = false ∧ main.entering = 0 ∧ main.leaving = 0 ∧
      main.hands = [] ∧ main.erasing? = none := by
  cases main <;> first | exact Bool.noConfusion h | exact ⟨rfl, rfl, rfl, rfl, rfl, rfl⟩

end Main

namespace Phase

/-- The thread has a session that is still counted and in no map. -/
def leaving : Phase → Bool
  | .left _ | .passed _ | .freed => true
  | .running | .done => false

/-- The member session the thread has to destroy. -/
def hand : Phase → Option Nat
  | .left internal | .passed internal => some internal
  | .running | .freed | .done => none

@[simp] lemma leaving_running : leaving .running = false := rfl
@[simp] lemma leaving_left {internal : Nat} : leaving (.left internal) = true := rfl
@[simp] lemma leaving_passed {internal : Nat} : leaving (.passed internal) = true := rfl
@[simp] lemma leaving_freed : leaving .freed = true := rfl
@[simp] lemma leaving_done : leaving .done = false := rfl
@[simp] lemma hand_running : hand .running = none := rfl
@[simp] lemma hand_left {internal : Nat} : hand (.left internal) = some internal := rfl
@[simp] lemma hand_passed {internal : Nat} : hand (.passed internal) = some internal := rfl
@[simp] lemma hand_freed : hand .freed = none := rfl
@[simp] lemma hand_done : hand .done = none := rfl

end Phase

namespace State

/-- Sessions in no map that are still counted. -/
def leaving (g : State) : Nat :=
  g.main.leaving + g.requests.countP (·.phase.leaving) + g.dropped.length

/-- In how many places a member session is. -/
def places (g : State) (x : Nat) : Nat :=
  g.sessions.countP (·.internal = x) + g.requests.countP (·.phase.hand = some x) +
    g.main.hands.count x + g.dropped.count x + g.released.count x + g.destroyed.count x +
    g.refused.count x

/-- The requests for a key that are queued or run. -/
def runs (g : State) (k : Nat × Nat) : Nat :=
  g.pending.countP (·.key = k) + g.requests.countP fun t => t.phase = .running ∧ t.job.key = k

def MainOk (limit : Nat) (g : State) : Prop :=
  match g.main with
  | .checked job => job.kind ≠ .cleanup ∧ job.key ∉ g.sessions.map SessionState.key
  | .creating job | .inserting job _ =>
    job.kind ≠ .cleanup ∧ job.key ∉ g.sessions.map SessionState.key ∧ g.inUse < limit
  | .inserted job =>
    job.kind ≠ .cleanup ∧ (∃ s ∈ g.sessions, s.key = job.key ∧ s.busy = false) ∧ g.inUse < limit
  | .ending job internal | .erasing job internal =>
    job.kind ≠ .cleanup ∧ ∃ s ∈ g.sessions, s.key = job.key ∧ s.busy = false ∧ s.internal = internal
  | .erased job => job.kind ≠ .cleanup
  | .unqueueing links | .failing links | .joining links => ∀ s ∈ g.sessions, s.link ∈ links
  | .forgetting links =>
    (∀ s ∈ g.sessions, s.link ∈ links) ∧ g.requests = [] ∧ g.pending = [] ∧ g.dropped = []
  | .down => g.sessions = [] ∧ g.requests = [] ∧ g.pending = [] ∧ g.dropped = []
  | _ => True

/-- The maps, the threads and the counter agree. -/
structure Core (limit : Nat) (g : State) : Prop where
  keys : (g.sessions.map SessionState.key).Nodup
  busy : ∀ k, g.main.released = false → g.sessions.countP (fun s => s.busy ∧ s.key = k) = g.runs k
  once : ∀ x, x ≠ 0 →
    g.places x = (if x < g.next then 1 else 0) + (if g.main.erasing? = some x then 1 else 0)
  count : g.main.serving → g.inUse + g.main.entering = g.sessions.length + g.leaving
  zero : g.main.serving = false → g.inUse = 0
  bound : g.inUse ≤ limit
  main : g.MainOk limit
  dropped : g.broken = false → g.main.serving → g.dropped = []

/-! ### Steps keep the maps, the threads and the counter in agreement -/

variable {limit : Nat} {g g' : State}

/-- What the links, the queue of jobs and the posts are does not matter. -/
lemma Core.congr (h : g.Core limit) (hsessions : g'.sessions = g.sessions)
    (hrequests : g'.requests = g.requests) (hpending : g'.pending = g.pending)
    (hmain : g'.main = g.main) (hinUse : g'.inUse = g.inUse) (hbroken : g'.broken = g.broken)
    (hnext : g'.next = g.next) (hdestroyed : g'.destroyed = g.destroyed)
    (hrefused : g'.refused = g.refused) (hdropped : g'.dropped = g.dropped)
    (hreleased : g'.released = g.released) : g'.Core limit := by
  obtain ⟨hkeys, hbusy, honce, hcount, hzero, hbound, hmainOk, hdrop⟩ := h
  constructor <;>
    simpa only [runs, places, leaving, MainOk, hsessions, hrequests, hpending, hmain, hinUse,
      hbroken, hnext, hdestroyed, hrefused, hdropped, hreleased]

@[simp]
lemma post_core {link session : Nat} {reply : Reply} :
    (g.post link session reply).Core limit ↔ g.Core limit := by
  unfold post
  split_ifs
  · exact ⟨fun h => h.congr rfl rfl rfl rfl rfl rfl rfl rfl rfl rfl rfl,
      fun h => h.congr rfl rfl rfl rfl rfl rfl rfl rfl rfl rfl rfl⟩
  · rfl

/-- The main thread goes on, with nothing in its hands before and after. -/
lemma Core.goto {main : Main} (h : g.Core limit) (hserving : main.serving = g.main.serving)
    (hreleased : main.released = g.main.released) (hentering : main.entering = g.main.entering)
    (hleaving : main.leaving = g.main.leaving) (hhands : main.hands = g.main.hands)
    (herasing : main.erasing? = g.main.erasing?) (hmain : MainOk limit { g with main }) :
    Core limit { g with main } := by
  obtain ⟨hkeys, hbusy, honce, hcount, hzero, hbound, -, hdrop⟩ := h
  constructor
  · exact hkeys
  · exact fun k hk => hbusy k (hreleased ▸ hk)
  · intro x hpos
    have := honce x hpos
    simp only [places, hhands, herasing] at this ⊢
    exact this
  · intro hs
    have := hcount (hserving ▸ hs)
    simp only [leaving, hentering, hleaving] at this ⊢
    exact this
  · exact fun hs => hzero (hserving ▸ hs)
  · exact hbound
  · exact hmain
  · exact fun hb hs => hdrop hb (hserving ▸ hs)

/-- Something breaks. -/
lemma Core.break (h : g.Core limit) : Core limit { g with broken := true } := by
  obtain ⟨hkeys, hbusy, honce, hcount, hzero, hbound, hmain, -⟩ := h
  exact ⟨hkeys, hbusy, honce, hcount, hzero, hbound, hmain, by simp⟩

/-- Tasks that are done are joined and queued ones started. -/
lemma Core.startPending {options : Options} (h : g.Core limit)
    (hmain : MainOk limit (g.startPending options)) : (g.startPending options).Core limit := by
  obtain ⟨hkeys, hbusy, honce, hcount, hzero, hbound, -, hdrop⟩ := h
  -- a count that tasks that are done do not add to
  have hcountP : ∀ p : Task → Bool, (∀ job, p ⟨job, .done⟩ = false) →
      (g.startPending options).requests.countP p = g.requests.countP p +
        (g.pending.take (slots options - (g.requests.filter (·.phase ≠ .done)).length)).countP
          fun job => p { job } := by
    intro p hp
    rw [State.startPending, List.countP_append, List.countP_map, List.countP_filter]
    congr 1
    refine List.countP_congr ?_
    rintro ⟨job, phase⟩ -
    by_cases hdone : phase = .done
    · simp [hdone, hp]
    · simp [hdone]
  constructor
  · exact hkeys
  · intro k hk
    have hold := hbusy k hk
    have hsplit := congrArg (List.countP fun j : Job => j.key = k) (List.take_append_drop
      (slots options - (g.requests.filter (·.phase ≠ .done)).length) g.pending)
    rw [List.countP_append] at hsplit
    rw [runs, hcountP _ (by simp)]
    simp only [runs, State.startPending, true_and] at hold hsplit ⊢
    omega
  · intro x hpos
    rw [places, hcountP _ (by simp)]
    simp only [Phase.hand_running, reduceCtorEq, decide_false, List.countP_false,
      Function.const_apply, Nat.add_zero]
    exact honce x hpos
  · intro hs
    rw [leaving, hcountP _ (by simp)]
    simp only [Phase.leaving_running, List.countP_false, Function.const_apply, Nat.add_zero]
    exact hcount hs
  · exact hzero
  · exact hbound
  · exact hmain
  · exact hdrop

/-- What the main thread knows is not changed by a thread of a request, which leaves sessions alone
that are not busy. -/
lemma MainOk.mono (h : g.MainOk limit) (hup : g.main.released = false) (hmain : g'.main = g.main)
    (hkeys : ∀ s ∈ g'.sessions, s.key ∈ g.sessions.map SessionState.key)
    (hidle : ∀ s ∈ g.sessions, s.busy = false →
      ∃ s' ∈ g'.sessions, s'.key = s.key ∧ s'.busy = false ∧ s'.internal = s.internal)
    (hinUse : g'.inUse ≤ g.inUse) : g'.MainOk limit := by
  have hnot : ∀ k, k ∉ g.sessions.map SessionState.key → k ∉ g'.sessions.map SessionState.key := by
    intro k hk hk'
    obtain ⟨s, hs, rfl⟩ := List.mem_map.mp hk'
    exact hk (hkeys s hs)
  have hlinks : ∀ links : List Nat, (∀ s ∈ g.sessions, s.link ∈ links) →
      ∀ s ∈ g'.sessions, s.link ∈ links := by
    intro links hall s hs
    obtain ⟨s₀, hs₀, heq⟩ := List.mem_map.mp (hkeys s hs)
    have hlink : s₀.link = s.link := congrArg Prod.fst heq
    exact hlink ▸ hall s₀ hs₀
  unfold MainOk at h ⊢
  rw [hmain]
  cases hcase : g.main <;> simp only [hcase] at h hup ⊢
  case checked job => exact ⟨h.1, hnot _ h.2⟩
  case creating job => exact ⟨h.1, hnot _ h.2.1, Nat.lt_of_le_of_lt hinUse h.2.2⟩
  case inserting job internal => exact ⟨h.1, hnot _ h.2.1, Nat.lt_of_le_of_lt hinUse h.2.2⟩
  case inserted job =>
    obtain ⟨hkind, ⟨s, hs, hkey, hbusy⟩, hlt⟩ := h
    obtain ⟨s', hs', hkey', hbusy', -⟩ := hidle s hs hbusy
    exact ⟨hkind, ⟨s', hs', hkey'.trans hkey, hbusy'⟩, Nat.lt_of_le_of_lt hinUse hlt⟩
  case ending job internal =>
    obtain ⟨hkind, s, hs, hkey, hbusy, hinternal⟩ := h
    obtain ⟨s', hs', hkey', hbusy', hinternal'⟩ := hidle s hs hbusy
    exact ⟨hkind, s', hs', hkey'.trans hkey, hbusy', hinternal'.trans hinternal⟩
  case erasing job internal =>
    obtain ⟨hkind, s, hs, hkey, hbusy, hinternal⟩ := h
    obtain ⟨s', hs', hkey', hbusy', hinternal'⟩ := hidle s hs hbusy
    exact ⟨hkind, s', hs', hkey'.trans hkey, hbusy', hinternal'.trans hinternal⟩
  case erased job => exact h
  case unqueueing links => exact hlinks links h
  case failing links => exact hlinks links h
  case joining links => exact hlinks links h
  case forgetting links => simp [Main.released] at hup
  case down => simp [Main.released] at hup

/-- Sessions change in nothing but their positions. -/
lemma Core.mapSessions {f : SessionState → SessionState} (h : g.Core limit)
    (hup : g.main.released = false)
    (hf : ∀ s, (f s).key = s.key ∧ (f s).busy = s.busy ∧ (f s).internal = s.internal) :
    Core limit { g with sessions := g.sessions.map f } := by
  obtain ⟨hkeys, hbusy, honce, hcount, hzero, hbound, hmain, hdrop⟩ := h
  constructor
  · have hsame : (g.sessions.map f).map SessionState.key = g.sessions.map SessionState.key := by
      rw [List.map_map]
      exact List.map_congr_left fun s _ => (hf s).1
    rw [hsame]
    exact hkeys
  · intro k hk
    refine Eq.trans ?_ (hbusy k hk)
    rw [List.countP_map]
    refine List.countP_congr fun s _ => ?_
    simp [(hf s).1, (hf s).2.1]
  · intro x hpos
    have hsame : (g.sessions.map f).countP (·.internal = x) =
        g.sessions.countP (·.internal = x) := by
      rw [List.countP_map]
      refine List.countP_congr fun s _ => ?_
      simp [(hf s).2.2]
    have := honce x hpos
    simp only [places, hsame] at this ⊢
    exact this
  · intro hs
    rw [List.length_map]
    exact hcount hs
  · exact hzero
  · exact hbound
  · refine hmain.mono hup rfl ?_ ?_ (Nat.le_refl _)
    · intro s hs
      obtain ⟨s₀, hs₀, rfl⟩ := List.mem_map.mp hs
      rw [(hf s₀).1]
      exact List.mem_map_of_mem hs₀
    · intro s hs hidle
      exact ⟨f s, List.mem_map_of_mem hs, (hf s).1, (hf s).2.1.trans hidle, (hf s).2.2⟩
  · exact hdrop

/-! ### The threads of requests -/

/-- While a request runs the route is up. -/
lemma Core.up (h : g.Core limit) {i : Nat} {t : Task} (ht : g.requests[i]? = some t) :
    g.main.released = false := by
  have hne : g.requests ≠ [] := List.ne_nil_of_mem (List.mem_of_getElem? ht)
  have hmain := h.main
  unfold MainOk at hmain
  cases hcase : g.main <;> simp only [hcase] at hmain <;> try rfl
  · exact absurd hmain.2.1 hne
  · exact absurd hmain.2.1 hne

/-- A session that is busy has one request. -/
lemma Core.runs_of_busy (h : g.Core limit) (hup : g.main.released = false) {s : SessionState}
    (hs : s ∈ g.sessions) (hbusy : s.busy) : g.runs s.key = 1 := by
  rw [← h.busy s.key hup, (Keyed.perm_erase h.keys hs).countP_eq, List.countP_cons,
    List.countP_filter]
  have hothers : g.sessions.countP
      (fun a => decide (a.busy = true ∧ a.key = s.key) && decide (a.key ≠ s.key)) = 0 := by
    rw [List.countP_eq_zero]
    intro a _
    simp only [Bool.and_eq_true, decide_eq_true_eq]
    tauto
  rw [hothers]
  simp [hbusy]

/-- The session of a request that runs is in its map and busy, and no other request is for it. -/
lemma Core.busy_of_running (h : g.Core limit) {i : Nat} {job : Job}
    (ht : g.requests[i]? = some ⟨job, .running⟩) :
    (∃ s ∈ g.sessions, s.key = job.key ∧ s.busy) ∧ g.runs job.key = 1 := by
  have hpos : 0 < g.runs job.key := by
    refine Nat.lt_of_lt_of_le (List.countP_pos_iff.mpr ⟨⟨job, .running⟩, ?_, by simp⟩)
      (Nat.le_add_left _ _)
    exact List.mem_of_getElem? ht
  obtain ⟨s, hs, hkey⟩ := List.countP_pos_iff.mp (h.busy job.key (h.up ht) ▸ hpos)
  simp only [decide_eq_true_eq] at hkey
  exact ⟨⟨s, hs, hkey.2, hkey.1⟩, hkey.2 ▸ h.runs_of_busy (h.up ht) hs hkey.1⟩

/-- A request ends and its client is still there. -/
lemma Core.finish_done (h : g.Core limit) {i : Nat} {job : Job}
    (ht : g.requests[i]? = some ⟨job, .running⟩) :
    Core limit { g with
      sessions := g.sessions.map fun s => if s.key = job.key then { s with busy := false } else s
      requests := g.requests.set i ⟨job, .done⟩ } := by
  obtain ⟨⟨s, hs, hkey, hsbusy⟩, hruns⟩ := h.busy_of_running ht
  have hup := h.up ht
  obtain ⟨hkeys, hbusy, honce, hcount, hzero, hbound, hmain, hdrop⟩ := h
  have hperm : (g.sessions.map fun b => if b.key = job.key then { b with busy := false }
    else b).Perm
      ({ s with busy := false } :: g.sessions.filter (·.key ≠ s.key)) :=
    hkey ▸ Keyed.perm_modify hkeys hs fun b => { b with busy := false }
  have hsame : (g.sessions.map fun b => if b.key = job.key then { b with busy := false } else b).map
      SessionState.key = g.sessions.map SessionState.key :=
    Keyed.map_key_modify fun _ => rfl
  have herase := Keyed.perm_erase hkeys hs
  constructor
  · rw [hsame]
    exact hkeys
  · intro k hk
    have hold := hbusy k hk
    have hset := Keyed.countP_set (b := ⟨job, .done⟩) ht fun t => t.phase = .running ∧ t.job.key = k
    rw [herase.countP_eq, List.countP_cons] at hold
    rw [hperm.countP_eq, List.countP_cons]
    simp only [runs, hsbusy, hkey, true_and, false_and, decide_false, decide_eq_true_eq, if_false,
      Bool.false_eq_true, reduceCtorEq, Nat.add_zero] at hold hset ⊢
    omega
  · intro x hpos
    have hold := honce x hpos
    have hset := Keyed.countP_set (b := ⟨job, .done⟩) ht fun t => t.phase.hand = some x
    simp only [Phase.hand_running, Phase.hand_done, reduceCtorEq, decide_false, Bool.false_eq_true,
      if_false, Nat.add_zero] at hset
    rw [places, herase.countP_eq, List.countP_cons] at hold
    rw [places, hperm.countP_eq, List.countP_cons, hset]
    exact hold
  · intro hs
    have hset := Keyed.countP_set (b := ⟨job, .done⟩) ht fun t => t.phase.leaving
    have hold := hcount hs
    simp only [Phase.leaving_running, Phase.leaving_done, Bool.false_eq_true, if_false,
      Nat.add_zero] at hset
    rw [leaving, List.length_map, hset]
    exact hold
  · exact hzero
  · exact hbound
  · refine hmain.mono hup rfl ?_ ?_ (Nat.le_refl _)
    · intro b hb
      exact hsame ▸ List.mem_map_of_mem (f := SessionState.key) hb
    · intro b hb hidle
      refine ⟨b, ?_, rfl, hidle, rfl⟩
      refine hperm.mem_iff.mpr (List.mem_cons_of_mem _ (List.mem_filter.mpr ⟨hb, ?_⟩))
      simp only [decide_eq_true_eq]
      intro heq
      obtain rfl := List.inj_on_of_nodup_map hkeys hb hs heq
      rw [hidle] at hsbusy
      contradiction
  · exact hdrop

/-- A request ends and its client has left: the thread has to destroy the session. -/
lemma Core.finish_left (h : g.Core limit) {i : Nat} {job : Job} {s : SessionState}
    (ht : g.requests[i]? = some ⟨job, .running⟩) (hs : s ∈ g.sessions) (hkey : s.key = job.key) :
    Core limit { g with
      sessions := g.sessions.filter (·.key ≠ job.key)
      requests := g.requests.set i ⟨job, .left s.internal⟩ } := by
  obtain ⟨⟨s', hs', hkey', hsbusy⟩, hruns⟩ := h.busy_of_running ht
  have hup := h.up ht
  obtain ⟨hkeys, hbusy, honce, hcount, hzero, hbound, hmain, hdrop⟩ := h
  obtain rfl := List.inj_on_of_nodup_map hkeys hs hs' (hkey.trans hkey'.symm)
  have herase := Keyed.perm_erase hkeys hs
  rw [hkey] at herase
  constructor
  · exact Keyed.nodup_filter hkeys _
  · intro k hk
    have hold := hbusy k hk
    have hset := Keyed.countP_set (b := ⟨job, .left s.internal⟩) ht
      fun t => t.phase = .running ∧ t.job.key = k
    rw [herase.countP_eq, List.countP_cons] at hold
    simp only [runs, hsbusy, hkey, true_and, false_and, decide_false, decide_eq_true_eq, if_false,
      Bool.false_eq_true, reduceCtorEq, Nat.add_zero] at hold hset ⊢
    omega
  · intro x hpos
    have hold := honce x hpos
    have hset := Keyed.countP_set (b := ⟨job, .left s.internal⟩) ht fun t => t.phase.hand = some x
    simp only [Phase.hand_running, Phase.hand_left, reduceCtorEq, decide_false, Bool.false_eq_true,
      if_false, Nat.add_zero, Option.some.injEq] at hset
    rw [places, herase.countP_eq, List.countP_cons] at hold
    rw [places, hset]
    dsimp only at hold ⊢
    omega
  · intro hserving
    have hset := Keyed.countP_set (b := ⟨job, .left s.internal⟩) ht fun t => t.phase.leaving
    have hold := hcount hserving
    have hlength := herase.length_eq
    simp only [Phase.leaving_running, Phase.leaving_left, Bool.false_eq_true, if_false,
      Nat.add_zero, if_true] at hset
    rw [List.length_cons] at hlength
    simp only [leaving] at hold ⊢
    omega
  · exact hzero
  · exact hbound
  · refine hmain.mono hup rfl ?_ ?_ (Nat.le_refl _)
    · intro b hb
      exact List.mem_map_of_mem (List.mem_filter.mp hb).1
    · intro b hb hidle
      refine ⟨b, List.mem_filter.mpr ⟨hb, ?_⟩, rfl, hidle, rfl⟩
      simp only [decide_eq_true_eq]
      intro heq
      obtain rfl := List.inj_on_of_nodup_map hkeys hb hs (heq.trans hkey.symm)
      rw [hidle] at hsbusy
      contradiction
  · exact hdrop

/-- The thread of a client that left goes on: the session it has stays with it, is destroyed, or is
dropped with a replica that broke. -/
lemma Core.advance (h : g.Core limit) {i : Nat} {job : Job} {p : Phase} (p' : Phase) (broken : Bool)
    (dropped destroyed refused : List Nat) (ht : g.requests[i]? = some ⟨job, p⟩) (hp : p ≠ .running)
    (hp' : p' ≠ .running)
    (hplaces : ∀ x, (if p.hand = some x then 1 else 0) =
      (if p'.hand = some x then 1 else 0) + dropped.count x + destroyed.count x + refused.count x)
    (hleaving : (if p.leaving then 1 else 0) = (if p'.leaving then 1 else 0) + dropped.length)
    (hbroken : broken = false → g.broken = false ∧ dropped = []) :
    Core limit { g with
      requests := g.requests.set i ⟨job, p'⟩, broken
      dropped := g.dropped ++ dropped, destroyed := g.destroyed ++ destroyed
      refused := g.refused ++ refused } := by
  have hup := h.up ht
  obtain ⟨hkeys, hbusy, honce, hcount, hzero, hbound, hmain, hdrop⟩ := h
  constructor
  · exact hkeys
  · intro k hk
    have hset := Keyed.countP_set (b := ⟨job, p'⟩) ht fun t => t.phase = .running ∧ t.job.key = k
    simp only [hp, hp', false_and, decide_false, Bool.false_eq_true, if_false, Nat.add_zero] at hset
    rw [runs, hset]
    exact hbusy k hk
  · intro x hpos
    have hold := honce x hpos
    have hset := Keyed.countP_set (b := ⟨job, p'⟩) ht fun t => t.phase.hand = some x
    have hx := hplaces x
    simp only [decide_eq_true_eq] at hset
    simp only [places, List.count_append] at hold ⊢
    omega
  · intro hserving
    have hold := hcount hserving
    have hset := Keyed.countP_set (b := ⟨job, p'⟩) ht fun t => t.phase.leaving
    dsimp only at hset
    simp only [leaving, List.length_append] at hold ⊢
    omega
  · exact hzero
  · exact hbound
  · exact hmain.mono hup rfl (fun s hs => List.mem_map_of_mem hs)
      (fun s hs hidle => ⟨s, hs, rfl, hidle, rfl⟩) (Nat.le_refl _)
  · intro hb hserving
    obtain ⟨hold, hnil⟩ := hbroken hb
    rw [hnil, List.append_nil]
    exact hdrop hold hserving

/-- A session that has left is still counted. -/
lemma Core.inUse_pos (h : g.Core limit) (hserving : g.main.serving) (hleaving : 0 < g.leaving) :
    0 < g.inUse := by
  have hcount := h.count hserving
  by_cases hentering : g.main.entering = 0
  · omega
  · -- the session that is being entered is in its map already
    have hmain := h.main
    unfold MainOk at hmain
    cases hcase : g.main <;> simp only [hcase, Main.entering, not_true_eq_false]
      at hentering hmain hcount
    obtain ⟨-, ⟨s, hs, -⟩, -⟩ := hmain
    have := List.length_pos_of_mem hs
    omega

/-- Where one has left, the counter does not wrap around. -/
lemma Core.decremented (h : g.Core limit) (hlimit : limit < 2 ^ 32) (hserving : g.main.serving)
    (hleaving : 0 < g.leaving) : changeSessions g.inUse (-1) + 1 = g.inUse := by
  have hpos := h.inUse_pos hserving hleaving
  have hbound := h.bound
  rw [changeSessions]
  omega

/-- The thread of a client that left counts the session it has destroyed. -/
lemma Core.countFreed (h : g.Core limit) {i n : Nat} {job : Job}
    (ht : g.requests[i]? = some ⟨job, .freed⟩) (hserving : g.main.serving) (hn : n + 1 = g.inUse) :
    Core limit { g with inUse := n, requests := g.requests.set i ⟨job, .done⟩ } := by
  have hup := h.up ht
  obtain ⟨hkeys, hbusy, honce, hcount, hzero, hbound, hmain, hdrop⟩ := h
  constructor
  · exact hkeys
  · intro k hk
    have hset := Keyed.countP_set (b := ⟨job, .done⟩) ht fun t => t.phase = .running ∧ t.job.key = k
    simp only [reduceCtorEq, false_and, decide_false, Bool.false_eq_true, if_false, Nat.add_zero]
      at hset
    rw [runs, hset]
    exact hbusy k hk
  · intro x hpos
    have hset := Keyed.countP_set (b := ⟨job, .done⟩) ht fun t => t.phase.hand = some x
    simp only [Phase.hand_freed, Phase.hand_done, reduceCtorEq, decide_false, Bool.false_eq_true,
      if_false, Nat.add_zero] at hset
    rw [places, hset]
    exact honce x hpos
  · intro hs
    have hold := hcount hs
    have hset := Keyed.countP_set (b := ⟨job, .done⟩) ht fun t => t.phase.leaving
    simp only [Phase.leaving_freed, Phase.leaving_done, Bool.false_eq_true, if_false, if_true,
      Nat.add_zero] at hset
    simp only [leaving] at hold ⊢
    omega
  · exact fun hs => Bool.noConfusion (hserving.symm.trans hs)
  · exact Nat.le_trans (Nat.le_of_lt (Nat.lt_of_succ_le (Nat.le_of_eq hn))) hbound
  · exact hmain.mono hup rfl (fun s hs => List.mem_map_of_mem hs)
      (fun s hs hidle => ⟨s, hs, rfl, hidle, rfl⟩)
        (Nat.le_of_lt (Nat.lt_of_succ_le (Nat.le_of_eq hn)))
  · exact hdrop

/-! ### The main thread -/

/-- A cleanup takes the idle sessions of a link out of its map. -/
lemma Core.cleanup (h : g.Core limit) {job : Job} (hjob : g.main = .executing job) :
    Core limit { g with
      sessions := g.sessions.filter fun s => s.link ≠ job.link || s.busy
      main := .cleaning ((g.sessions.filter fun s => s.link = job.link && !s.busy).map
        SessionState.internal) } := by
  obtain ⟨hkeys, hbusy, honce, hcount, hzero, hbound, hmain, hdrop⟩ := h
  have hperm := List.filter_append_perm
    (fun s : SessionState => s.link ≠ job.link || s.busy) g.sessions
  have hrest : (g.sessions.filter fun s => !(decide (s.link ≠ job.link) || s.busy)) =
      g.sessions.filter fun s => s.link = job.link && !s.busy := by
    refine List.filter_congr fun s _ => ?_
    simp
  rw [hrest] at hperm
  constructor
  · exact Keyed.nodup_filter hkeys _
  · intro k hk
    refine Eq.trans ?_ (hbusy k (by simp [hjob, Main.released]))
    rw [List.countP_filter]
    refine List.countP_congr fun s _ => ?_
    simp only [Bool.and_eq_true, Bool.or_eq_true, decide_eq_true_eq]
    tauto
  · intro x hpos
    have hold := honce x hpos
    have hcountP := hperm.countP_eq (fun s => decide (s.internal = x))
    rw [List.countP_append] at hcountP
    simp only [places, hjob, Main.hands, Main.erasing?, List.countP_nil, Nat.add_zero, reduceCtorEq,
      if_false, List.count_eq_countP, List.countP_map] at hold ⊢
    have hcomp : (g.sessions.filter fun s => s.link = job.link && !s.busy).countP
          ((fun y => y == x) ∘ SessionState.internal) =
        (g.sessions.filter fun s => s.link = job.link && !s.busy).countP
          (fun s => decide (s.internal = x)) := by
      refine List.countP_congr fun s _ => ?_
      simp
    omega
  · intro hserving
    have hold := hcount (by simp [hjob, Main.serving])
    have hlength := hperm.length_eq
    rw [List.length_append] at hlength
    simp only [leaving, hjob, Main.entering, Main.leaving, List.length_map] at hold ⊢
    omega
  · exact fun hs => Bool.noConfusion hs
  · exact hbound
  · trivial
  · exact fun hb _ => hdrop hb (by simp [hjob, Main.serving])

/-- A request is accepted: its session is busy and it is queued. -/
lemma Core.accept (h : g.Core limit) {job : Job} {s : SessionState} (hjob : g.main = .executing job)
    (hs : s ∈ g.sessions) (hkey : s.key = job.key) (hidle : s.busy = false) :
    Core limit { g with
      sessions := g.sessions.map fun s => if s.key = job.key then { s with busy := true } else s
      pending := g.pending ++ [job], main := .idle } := by
  obtain ⟨hkeys, hbusy, honce, hcount, hzero, hbound, hmain, hdrop⟩ := h
  have hperm : (g.sessions.map fun b => if b.key = job.key then { b with busy := true } else b).Perm
      ({ s with busy := true } :: g.sessions.filter (·.key ≠ s.key)) :=
    hkey ▸ Keyed.perm_modify hkeys hs fun b => { b with busy := true }
  have hsame : (g.sessions.map fun b => if b.key = job.key then { b with busy := true } else b).map
      SessionState.key = g.sessions.map SessionState.key :=
    Keyed.map_key_modify fun _ => rfl
  have herase := Keyed.perm_erase hkeys hs
  constructor
  · rw [hsame]
    exact hkeys
  · intro k hk
    have hold := hbusy k (by simp [hjob, Main.released])
    rw [herase.countP_eq, List.countP_cons] at hold
    rw [hperm.countP_eq, List.countP_cons]
    have hsingle : [job].countP (fun j => decide (j.key = k)) = if job.key = k then 1 else 0 := by
      simp [List.countP_cons]
    have hnew : SessionState.key { s with busy := true } = job.key := hkey
    simp only [runs, hidle, hnew, List.countP_append, hsingle, true_and, false_and, decide_false,
      decide_eq_true_eq, if_false, Bool.false_eq_true, Nat.add_zero] at hold ⊢
    omega
  · intro x hpos
    have hold := honce x hpos
    rw [places, herase.countP_eq, List.countP_cons] at hold
    rw [places, hperm.countP_eq, List.countP_cons]
    simp only [hjob, Main.hands, Main.erasing?] at hold ⊢
    exact hold
  · intro _
    have hold := hcount (by simp [hjob, Main.serving])
    simp only [leaving, hjob, Main.entering, Main.leaving, List.length_map] at hold ⊢
    exact hold
  · exact fun hs => Bool.noConfusion hs
  · exact hbound
  · trivial
  · exact fun hb _ => hdrop hb (by simp [hjob, Main.serving])

/-- A session is created on the members, or is kept without one. -/
lemma Core.create (h : g.Core limit) {job : Job} {internal next : Nat}
    (hjob : g.main = .creating job)
    (hnew : ∀ x, x ≠ 0 →
      (if x < next then 1 else 0) = (if internal = x then 1 else 0) + if x < g.next then 1 else 0) :
    Core limit { g with main := .inserting job internal, next } := by
  obtain ⟨hkeys, hbusy, honce, hcount, hzero, hbound, hmain, hdrop⟩ := h
  constructor
  · exact hkeys
  · exact fun k _ => hbusy k (by simp [hjob, Main.released])
  · intro x hpos
    have hold := honce x hpos
    have hx := hnew x hpos
    simp only [places, hjob, Main.hands, Main.erasing?, List.count_nil, List.count_singleton,
      reduceCtorEq, if_false, beq_iff_eq] at hold ⊢
    omega
  · intro _
    have hold := hcount (by simp [hjob, Main.serving])
    simp only [leaving, hjob, Main.entering, Main.leaving] at hold ⊢
    exact hold
  · exact fun hs => Bool.noConfusion hs
  · exact hbound
  · simpa only [MainOk, hjob] using hmain
  · exact fun hb _ => hdrop hb (by simp [hjob, Main.serving])

/-- The session that was created is put into the map of the link. -/
lemma Core.insert (h : g.Core limit) {job : Job} {internal : Nat}
    (hjob : g.main = .inserting job internal) :
    Core limit { g with
      sessions := g.sessions.filter (·.key ≠ job.key) ++
        [{ link := job.link, session := job.session, internal }]
      main := .inserted job } := by
  obtain ⟨hkeys, hbusy, honce, hcount, hzero, hbound, hmain, hdrop⟩ := h
  simp only [MainOk, hjob] at hmain
  obtain ⟨hkind, hnew, hroom⟩ := hmain
  have hsame : g.sessions.filter (·.key ≠ job.key) = g.sessions := by
    refine List.filter_eq_self.mpr fun s hs => ?_
    simp only [decide_eq_true_eq]
    intro heq
    exact hnew (List.mem_map.mpr ⟨s, hs, heq⟩)
  rw [hsame]
  constructor
  · rw [List.map_append, List.map_singleton]
    refine List.nodup_append.mpr ⟨hkeys, by simp, fun a ha b hb => ?_⟩
    rw [List.mem_singleton.mp hb]
    rintro rfl
    exact hnew ha
  · intro k _
    have hold := hbusy k (by simp [hjob, Main.released])
    rw [List.countP_append]
    simpa [runs] using hold
  · intro x hpos
    have hold := honce x hpos
    have hsingle : [({ link := job.link, session := job.session, internal } : SessionState)].countP
        (fun s => decide (s.internal = x)) = if internal = x then 1 else 0 := by
      simp [List.countP_cons]
    simp only [places, hjob, Main.hands, Main.erasing?, List.count_nil, List.count_singleton,
      List.countP_append, hsingle, reduceCtorEq, if_false, beq_iff_eq] at hold ⊢
    omega
  · intro _
    have hold := hcount (by simp [hjob, Main.serving])
    simp only [leaving, hjob, Main.entering, Main.leaving, List.length_append,
      List.length_singleton]
      at hold ⊢
    omega
  · exact fun hs => Bool.noConfusion hs
  · exact hbound
  · exact ⟨hkind, ⟨_, List.mem_append_right _ (List.mem_singleton.mpr rfl), rfl, rfl⟩, hroom⟩
  · exact fun hb _ => hdrop hb (by simp [hjob, Main.serving])

lemma Core.incremented (h : g.Core limit) (hlimit : limit < 2 ^ 32) {job : Job}
    (hjob : g.main = .inserted job) : changeSessions g.inUse 1 = g.inUse + 1 := by
  have hmain := h.main
  simp only [MainOk, hjob] at hmain
  rw [changeSessions]
  omega

/-- The session is counted. -/
lemma Core.countInserted (h : g.Core limit) {n : Nat} {job : Job} (hjob : g.main = .inserted job)
    (hn : n = g.inUse + 1) : Core limit { g with inUse := n, main := .idle } := by
  obtain ⟨hkeys, hbusy, honce, hcount, hzero, hbound, hmain, hdrop⟩ := h
  simp only [MainOk, hjob] at hmain
  constructor
  · exact hkeys
  · exact fun k _ => hbusy k (by simp [hjob, Main.released])
  · intro x hpos
    have hold := honce x hpos
    simp only [places, hjob, Main.hands, Main.erasing?] at hold ⊢
    exact hold
  · intro _
    have hold := hcount (by simp [hjob, Main.serving])
    simp only [leaving, hjob, Main.entering, Main.leaving] at hold ⊢
    omega
  · exact fun hs => Bool.noConfusion hs
  · exact hn ▸ hmain.2.2
  · trivial
  · exact fun hb _ => hdrop hb (by simp [hjob, Main.serving])

/-- The history of a session of which the members have answered. -/
lemma noted_eq (g : State) (internal : Nat) (answer : Answer) : ∃ destroyed refused : List Nat,
    (∀ x, destroyed.count x + refused.count x = if internal = x then 1 else 0) ∧
      g.noted internal answer =
        { g with destroyed := g.destroyed ++ destroyed, refused := g.refused ++ refused } := by
  cases answer with
  | done => exact ⟨[internal], [], by simp [List.count_singleton], by simp [noted]⟩
  | refused problem => exact ⟨[], [internal], by simp [List.count_singleton], by simp [noted]⟩
  | lost problem => exact ⟨[], [internal], by simp [List.count_singleton], by simp [noted]⟩

/-- The members have destroyed a session that its client gave up, or count as if they had. -/
lemma Core.destroy (h : g.Core limit) {job : Job} {internal : Nat}
    (hjob : g.main = .ending job internal)
    (answer : Answer) :
    Core limit { g.noted internal answer with main := .erasing job internal } := by
  obtain ⟨destroyed, refused, hends, heq⟩ := g.noted_eq internal answer
  rw [heq]
  obtain ⟨hkeys, hbusy, honce, hcount, hzero, hbound, hmain, hdrop⟩ := h
  constructor
  · exact hkeys
  · exact fun k _ => hbusy k (by simp [hjob, Main.released])
  · intro x hpos
    have hold := honce x hpos
    have hx := hends x
    simp only [places, hjob, Main.hands, Main.erasing?, List.count_append, reduceCtorEq, if_false,
      Option.some.injEq] at hold ⊢
    omega
  · intro _
    have hold := hcount (by simp [hjob, Main.serving])
    simp only [leaving, hjob, Main.entering, Main.leaving] at hold ⊢
    exact hold
  · exact fun hs => Bool.noConfusion hs
  · exact hbound
  · simpa only [MainOk, hjob] using hmain
  · exact fun hb _ => hdrop hb (by simp [hjob, Main.serving])

/-- It is taken out of the map of the link. -/
lemma Core.erase (h : g.Core limit) {job : Job} {internal : Nat}
    (hjob : g.main = .erasing job internal) :
    Core limit { g with sessions := g.sessions.filter (·.key ≠ job.key), main := .erased job } := by
  obtain ⟨hkeys, hbusy, honce, hcount, hzero, hbound, hmain, hdrop⟩ := h
  simp only [MainOk, hjob] at hmain
  obtain ⟨hkind, s, hs, hkey, hidle, hinternal⟩ := hmain
  have herase := Keyed.perm_erase hkeys hs
  rw [hkey] at herase
  constructor
  · exact Keyed.nodup_filter hkeys _
  · intro k _
    have hold := hbusy k (by simp [hjob, Main.released])
    rw [herase.countP_eq, List.countP_cons] at hold
    simpa [runs, hidle] using hold
  · intro x hpos
    have hold := honce x hpos
    rw [places, herase.countP_eq, List.countP_cons] at hold
    simp only [places, hjob, Main.hands, Main.erasing?, hinternal, reduceCtorEq, if_false,
      decide_eq_true_eq, Option.some.injEq] at hold ⊢
    omega
  · intro _
    have hold := hcount (by simp [hjob, Main.serving])
    have hlength := herase.length_eq
    rw [List.length_cons] at hlength
    simp only [leaving, hjob, Main.entering, Main.leaving] at hold ⊢
    omega
  · exact fun hs => Bool.noConfusion hs
  · exact hbound
  · exact hkind
  · exact fun hb _ => hdrop hb (by simp [hjob, Main.serving])

/-- The main thread counts a session that is in no map any more. -/
lemma Core.countLeaving {main : Main} {n : Nat} (h : g.Core limit) (hserving : g.main.serving)
    (hserving' : main.serving) (hup : g.main.released = false) (hentering : g.main.entering = 0)
    (hentering' : main.entering = 0) (hleaving : g.main.leaving = main.leaving + 1)
    (hhands : main.hands = g.main.hands) (herasing : main.erasing? = g.main.erasing?)
    (hmain : MainOk limit { g with inUse := n, main }) (hn : n + 1 = g.inUse) :
    Core limit { g with inUse := n, main } := by
  obtain ⟨hkeys, hbusy, honce, hcount, hzero, hbound, -, hdrop⟩ := h
  constructor
  · exact hkeys
  · exact fun k _ => hbusy k hup
  · intro x hpos
    have hold := honce x hpos
    simp only [places, hhands, herasing] at hold ⊢
    exact hold
  · intro _
    have hold := hcount hserving
    simp only [leaving, hentering, hentering'] at hold ⊢
    omega
  · exact fun hs => Bool.noConfusion (hserving'.symm.trans hs)
  · exact Nat.le_trans (Nat.le_of_lt (Nat.lt_of_succ_le (Nat.le_of_eq hn))) hbound
  · exact hmain
  · exact fun hb _ => hdrop hb hserving

/-- The members answered the destruction of a session of a cleanup: it is destroyed, or given up. -/
lemma Core.endIdle (h : g.Core limit) {internal : Nat} {rest : List Nat}
    (hmain : g.main = .cleaning (internal :: rest)) (answer : Answer) :
    Core limit { g.noted internal answer with main := .cleaned rest } := by
  obtain ⟨destroyed, refused, hends, heq⟩ := g.noted_eq internal answer
  rw [heq]
  obtain ⟨hkeys, hbusy, honce, hcount, hzero, hbound, -, hdrop⟩ := h
  constructor
  · exact hkeys
  · exact fun k _ => hbusy k (by simp [hmain, Main.released])
  · intro x hpos
    have hold := honce x hpos
    have hx := hends x
    simp only [places, hmain, Main.hands, Main.erasing?, List.count_append, List.count_cons,
      beq_iff_eq, reduceCtorEq, if_false] at hold ⊢
    omega
  · intro _
    have hold := hcount (by simp [hmain, Main.serving])
    simp only [leaving, hmain, Main.entering, Main.leaving, List.length_cons] at hold ⊢
    exact hold
  · exact fun hs => Bool.noConfusion hs
  · exact hbound
  · trivial
  · exact fun hb _ => hdrop hb (by simp [hmain, Main.serving])

/-- A cleanup is given up because a member is lost. -/
lemma Core.dropIdle (h : g.Core limit) {internals : List Nat}
    (hmain : g.main = .cleaning internals) :
    Core limit { g with main := .idle, broken := true, dropped := g.dropped ++ internals } := by
  obtain ⟨hkeys, hbusy, honce, hcount, hzero, hbound, -, hdrop⟩ := h
  constructor
  · exact hkeys
  · exact fun k _ => hbusy k (by simp [hmain, Main.released])
  · intro x hpos
    have hold := honce x hpos
    simp only [places, hmain, Main.hands, Main.erasing?, List.count_append, List.count_nil,
      reduceCtorEq, if_false] at hold ⊢
    omega
  · intro _
    have hold := hcount (by simp [hmain, Main.serving])
    simp only [leaving, hmain, Main.entering, Main.leaving, List.length_append] at hold ⊢
    omega
  · exact fun hs => Bool.noConfusion hs
  · exact hbound
  · trivial
  · simp

/-! ### Dissolution -/

/-- The counter is zeroed. -/
lemma Core.zeroed (h : g.Core limit) (hmain : g.main = .zeroing) :
    Core limit { g with main := .unlinking, ready := false, inUse := 0 } := by
  obtain ⟨hkeys, hbusy, honce, hcount, hzero, hbound, -, hdrop⟩ := h
  constructor
  · exact hkeys
  · exact fun k _ => hbusy k (by simp [hmain, Main.released])
  · intro x hpos
    have hold := honce x hpos
    simp only [places, hmain, Main.hands, Main.erasing?] at hold ⊢
    exact hold
  · exact fun hs => Bool.noConfusion hs
  · exact fun _ => rfl
  · exact Nat.zero_le _
  · trivial
  · exact fun _ hs => Bool.noConfusion hs

/-- The threads are joined and the route is released. -/
lemma Core.join (h : g.Core limit) {links : List Nat} (hmain : g.main = .joining links)
    (hdone : ∀ t ∈ g.requests, t.phase = .done) :
    Core limit { g with
      main := .forgetting links, requests := [], pending := [], broken := false
      released := g.released ++ g.dropped, dropped := [] } := by
  obtain ⟨hkeys, hbusy, honce, hcount, hzero, hbound, hmainOk, hdrop⟩ := h
  constructor
  · exact hkeys
  · exact fun k hk => Bool.noConfusion hk
  · intro x hpos
    have hold := honce x hpos
    have hnone : g.requests.countP (·.phase.hand = some x) = 0 := by
      rw [List.countP_eq_zero]
      intro t ht
      simp [hdone t ht]
    simp only [places, hmain, Main.hands, Main.erasing?, hnone, List.count_append, List.countP_nil,
      List.count_nil, reduceCtorEq, if_false] at hold ⊢
    omega
  · exact fun hs => Bool.noConfusion hs
  · exact fun _ => hzero (by simp [hmain, Main.serving])
  · exact hbound
  · simp only [MainOk, hmain] at hmainOk
    exact ⟨hmainOk, rfl, rfl, rfl⟩
  · exact fun _ _ => rfl

/-- The sessions of a link are forgotten. -/
lemma Core.forget (h : g.Core limit) {link : Nat} {rest : List Nat}
    (hmain : g.main = .forgetting (link :: rest)) :
    Core limit { g with
      main := .forgetting rest, sessions := g.sessions.filter (·.link ≠ link)
      released :=
          g.released ++ (g.sessions.filter (·.link = link)).map SessionState.internal } := by
  obtain ⟨hkeys, hbusy, honce, hcount, hzero, hbound, hmainOk, hdrop⟩ := h
  simp only [MainOk, hmain] at hmainOk
  constructor
  · exact Keyed.nodup_filter hkeys _
  · exact fun k hk => Bool.noConfusion hk
  · intro x hpos
    have hold := honce x hpos
    have hperm := (List.filter_append_perm (fun s : SessionState => decide (s.link = link))
      g.sessions).countP_eq (fun s => decide (s.internal = x))
    have hcomp : ((g.sessions.filter (·.link = link)).map SessionState.internal).count x =
        (g.sessions.filter (·.link = link)).countP (fun s => decide (s.internal = x)) := by
      rw [List.count_eq_countP, List.countP_map]
      refine List.countP_congr fun s _ => ?_
      simp
    have hrest : (g.sessions.filter fun s => !decide (s.link = link)) =
        g.sessions.filter fun s => s.link ≠ link := by
      simp
    rw [List.countP_append, hrest] at hperm
    simp only [places, hmain, Main.hands, Main.erasing?, List.count_append, hcomp, reduceCtorEq,
      if_false] at hold ⊢
    omega
  · exact fun hs => Bool.noConfusion hs
  · exact fun _ => hzero (by simp [hmain, Main.serving])
  · exact hbound
  · refine ⟨fun s hs => ?_, hmainOk.2⟩
    obtain ⟨hmem, hne⟩ := List.mem_filter.mp hs
    exact (List.mem_cons.mp (hmainOk.1 s hmem)).resolve_left (by simpa using hne)
  · exact fun _ hs => Bool.noConfusion hs

/-- A new replica starts with nothing. -/
lemma Core.form (h : g.Core limit) (hmain : g.main = .down) :
    Core limit { g with main := .idle, inUse := 0, jobs := [], ready := true } := by
  obtain ⟨hkeys, hbusy, honce, hcount, hzero, hbound, hmainOk, hdrop⟩ := h
  simp only [MainOk, hmain] at hmainOk
  obtain ⟨hsessions, hrequests, hpending, hdropped⟩ := hmainOk
  constructor
  · exact hkeys
  · intro k _
    simp [runs, hsessions, hrequests, hpending]
  · intro x hpos
    have hold := honce x hpos
    simp only [places, hmain, Main.hands, Main.erasing?] at hold ⊢
    exact hold
  · intro _
    simp [leaving, Main.entering, Main.leaving, hsessions, hrequests, hdropped]
  · exact fun _ => rfl
  · exact Nat.zero_le _
  · trivial
  · exact fun _ _ => hdropped

end State

end ProviderOwned.Owner
