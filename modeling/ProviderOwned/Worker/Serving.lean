import ProviderOwned.Stage.Sessions
import ProviderOwned.Worker.Accepted
import ProviderOwned.Worker.Measured
import ProviderOwned.Worker.Reservation

/-!
# The greetings of a worker that serves

A worker in serve mode (`stage_worker.cpp`) over its whole uptime: its lease, its stage, and the
speeds and bandwidths it has measured. A connection is greeted with a capability whose parts are
read one after the other, each under a lock of its own. Every capability is well formed, but nothing
removes an old speed from the table, and `parse_available` refuses the whole greeting for one line
that it does not take.
-/

namespace ProviderOwned

open Text Planner
open Binary64 (Double)

/-! ### What it is started with -/

structure CatalogModel where
  modelId : List Char
  sha256 : List Char
  index : ModelIndex

/-- The options of serve mode as `main` checks them, with the models of the catalog as
`load_manifest` and `fill_model_index` check them. `runtimeAbi` is fixed when the worker is built;
sizes are of the type `int`. -/
structure ServeOptions where
  providerId : List Char
  gpuName : List Char
  offeredVramMib : UInt64
  peerHeader : Bool
  ringTarget : List Char
  ringHost : List Char
  ringPort : Nat
  runtimeAbi : List Char
  context : Nat
  maxSessions : Nat
  prefillChunk : Nat
  replicaOwner : Bool
  models : List CatalogModel
  providerId_ne_nil : providerId ≠ []
  gpuName_ne_nil : gpuName ≠ []
  offeredVramMib_ne_zero : offeredVramMib ≠ 0
  validP2pTarget : peerHeader → validP2pTarget ringTarget
  context_lt : context < 2 ^ 31
  maxSessions_lt : maxSessions < 2 ^ 31
  hexString : ∀ model ∈ models, Address.hexString model.sha256 64
  hidden_ne_zero : ∀ model ∈ models, model.index.hidden ≠ 0

namespace ServeOptions

variable {o : ServeOptions}

def ringEndpoint (o : ServeOptions) : List Char :=
  if o.peerHeader then o.ringTarget else o.ringHost ++ ':' :: decimal o.ringPort

def catalog (o : ServeOptions) : AList fun _ : List Char => CatalogModel :=
  o.models.foldl (fun catalog model => catalog.insert (lowercase model.sha256) model) ∅

lemma mem_entries_catalog {entry : Sigma fun _ : List Char => CatalogModel}
    (h : entry ∈ o.catalog.entries) :
    entry.2 ∈ o.models ∧ entry.1 = lowercase entry.2.sha256 := by
  rw [catalog] at h
  generalize o.models = models at h ⊢
  induction models using List.reverseRecOn with
  | nil => exact absurd h List.not_mem_nil
  | append_singleton models model ih =>
    rw [List.foldl_concat, AList.entries_insert] at h
    rcases List.mem_cons.mp h with rfl | h
    · exact ⟨List.mem_append_right _ (List.mem_singleton_self _), rfl⟩
    · obtain ⟨hmem, hsha⟩ := ih ((List.kerase_sublist _ _).subset h)
      exact ⟨List.mem_append_left _ hmem, hsha⟩

/-- What `reservation_problem` reads. -/
def serveContext (o : ServeOptions) (holdsLayers : Bool) (gpuFreeMib : UInt64) : ServeContext where
  catalog sha := (o.catalog.lookup sha).map (·.index)
  maxContext := o.context
  maxSessions := o.maxSessions
  offeredVramMib := o.offeredVramMib
  holdsLayers := holdsLayers
  gpuFreeMib := gpuFreeMib
  prefillChunk := o.prefillChunk
  hidden_ne_zero h := by
    obtain ⟨model, hmodel, rfl⟩ := Option.map_eq_some_iff.mp h
    exact o.hidden_ne_zero model (mem_entries_catalog (AList.mem_lookup_iff.mp hmodel)).1
  maxContext_lt := o.context_lt

/-- The part of the capability that does not change: `hello`, filled in by `main`. -/
def hello (o : ServeOptions) : Greeting.ProviderCapability Double where
  id := o.providerId
  gpu := o.gpuName
  offeredVramMib := o.offeredVramMib
  ringEndpoint := o.ringEndpoint
  runtimeAbi := o.runtimeAbi
  maxContext := .ofNat o.context
  maxSessions := .ofNat o.maxSessions
  models := o.models.map fun model => lowercase model.sha256

/-- The options keep to the bounds of a greeting, which `main` does not check. -/
structure Modest (o : ServeOptions) : Prop where
  providerId : o.providerId.length ≤ Greeting.maxGreetingName ∧ ∀ b ∈ o.providerId, b ≠ '\r' ∧
    b ≠ '\n'
  gpuName : o.gpuName.length ≤ Greeting.maxGreetingName ∧ '\n' ∉ o.gpuName
  offeredVramMib : o.offeredVramMib ≤ Greeting.maxGreetingVramMib
  ringEndpoint : validRingTarget o.ringEndpoint ∧ o.ringEndpoint.length ≤ 16 * 1024
  runtimeAbi : o.runtimeAbi.length ≤ Greeting.maxGreetingName ∧ ∀ b ∈ o.runtimeAbi, b ≠ '\r' ∧
    b ≠ '\n'
  context : o.context ≤ 2 ^ 20
  maxSessions : o.maxSessions ≤ 256
  models : o.models.length ≤ Greeting.maxGreetingModels

/-- A request that the worker takes is of a model by its SHA-256, and for no more sessions than it
has. -/
structure Takes (o : ServeOptions) (r : StageRequest) : Prop where
  modelSha256 : Address.hexString r.modelSha256.toList 64
  sessions : r.sessions ≤ o.maxSessions

lemma takes_of_reserved {r : StageRequest} {holds : Bool} {free : UInt64} (hvalid : r.valid)
    (h : (o.serveContext holds free).reservationProblem r = "") : o.Takes r := by
  simp only [StageRequest.valid, Bool.and_eq_true] at hvalid
  refine ⟨hvalid.1.1.1.1.1.1.2, ?_⟩
  rw [ServeContext.reservationProblem] at h
  cases hindex : (o.serveContext holds free).catalog (lowercase r.modelSha256.toList) with
  | none =>
    rw [hindex] at h
    dsimp only at h
    exact absurd h (by decide)
  | some index =>
    rw [hindex] at h
    dsimp only at h
    split_ifs at h with hrange hlease hlimits
    iterate 3 exact absurd h (by decide)
    all_goals
      rw [not_or] at hlimits
      exact Nat.not_lt.mp hlimits.2

lemma Takes.of_sameStage {r assigned : StageRequest} (h : o.Takes r)
    (hsame : r.sameStage assigned) :
    o.Takes assigned := by
  simp only [StageRequest.sameStage, Bool.and_eq_true, decide_eq_true_eq] at hsame
  obtain ⟨⟨⟨⟨⟨⟨⟨-, hmodel⟩, -⟩, -⟩, -⟩, hsessions⟩, -⟩, -⟩ := hsame
  exact ⟨hmodel ▸ h.modelSha256, hsessions ▸ h.sessions⟩

end ServeOptions

/-! ### What changes -/

/-- What a worker that serves has. `assigned` are the requests that a connection has begun to load,
which its thread keeps. -/
structure Serving (H : Type*) where
  lease : WorkerLease := {}
  assigned : List StageRequest := []
  stage : Option (Stage H) := none
  speedUsPerGib : UInt64 := 0
  speeds : List (Greeting.SpeedRecord Double) := []
  bandwidth : List Greeting.Bandwidth := []

namespace Serving

open Greeting (SpeedRecord Bandwidth contextBucket sessionsBucket)

variable {H : Type*} {o : ServeOptions} {w w' : Serving H}

/-- The start of serve mode, with what is in `decode-speed.txt` and the lines of `speeds.txt`. A
line that is malformed or old is left out. -/
def start (speed : UInt64) (lines : List (List Char)) (now : Int) : Serving H where
  speedUsPerGib := speed
  speeds := Greeting.observed ((lines.filterMap (Greeting.parseSpeedText · now)).filter
      fun record =>
    now - record.updatedUnixS ≤ Greeting.speedMaxAgeS)

/-- The configuration that `update_speed` measures for. -/
def measuredKey (r : StageRequest) (phase : Greeting.Phase) (sessions : UInt32) :
    Greeting.SpeedKey where
  modelSha256 := lowercase r.modelSha256.toList
  phase := phase
  context := contextBucket (.ofNat r.context)
  sessions := sessionsBucket sessions

/-- What the threads of the worker do, in any order. A stage is loaded for a request that was
assigned, and speeds are measured for one; what is measured is taken as it comes. -/
inductive Step (o : ServeOptions) : Serving H → Serving H → Prop
  | reserve (w : Serving H) (r : StageRequest) (free : UInt64) (now : Nat) : r.valid →
      (o.serveContext w.stage.isSome free).reservationProblem r = "" →
        Step o w { w with lease := (w.lease.reserve r now).2 }
  | look (w : Serving H) (now : Nat) : Step o w { w with lease := w.lease.expire now }
  | assign (w : Serving H) (r : StageRequest) (now : Nat) : (w.lease.beginLoading r now).1 →
      Step o w { w with lease := (w.lease.beginLoading r now).2, assigned := r :: w.assigned }
  | serve (w : Serving H) (route : String) : Step o w { w with lease := (w.lease.serve route).2 }
  | release (w : Serving H) (route : String) :
      Step o w { w with lease := (w.lease.release route).2 }
  | unload (w : Serving H) : Step o w { w with stage := none }
  | load (w : Serving H) (r : StageRequest) (m : StageModel H) : r ∈ w.assigned →
      m.maxSessions = r.sessions →
      Step o w { w with stage := some (Stage.load m) }
  | stage (w : Serving H) {st st' : Stage H} : w.stage = some st → Stage.Step st st' →
      Step o w { w with stage := some st' }
  | updateSpeed (w : Serving H) (r : StageRequest) (phase : Greeting.Phase) (sessions : UInt32)
      (usPerGib : Double)
      (samples : UInt32) (now : Int) : r ∈ w.assigned →
        Step o w { w with
          speeds := Greeting.observe w.speeds (measuredKey r phase sessions) usPerGib samples now }
  | storeSpeed (w : Serving H) (speed : UInt64) : Step o w { w with speedUsPerGib := speed }
  | receive (w : Serving H) (peer : List Char) (bytes : UInt64) (seconds : Double) (now : Int) :
      Step o w { w with bandwidth := Bandwidth.observe w.bandwidth peer bytes seconds now }

/-- The states of a worker that was started with these options. -/
inductive Reachable (o : ServeOptions) : Serving H → Prop
  | start (speed : UInt64) (lines : List (List Char)) (now : Int) :
      Reachable o (start speed lines now)
  | step {w w' : Serving H} : Reachable o w → Step o w w' → Reachable o w'

/-- What holds of a worker at any time. -/
structure Inv (o : ServeOptions) (w : Serving H) : Prop where
  lease : w.lease.state ≠ .available → o.Takes w.lease.request
  assigned : ∀ r ∈ w.assigned, o.Takes r
  stage : ∀ st ∈ w.stage, ∃ limit ≤ o.maxSessions, st.Limited limit
  speeds : Greeting.Bounded w.speeds
  keys : ∀ record ∈ w.speeds, record.key.Proper
  bandwidth : Bandwidth.Plain w.bandwidth

/-! ### The lease and the stage -/

lemma lease_expire (h : w.lease.state ≠ .available → o.Takes w.lease.request) (now : Nat)
    (hstate : (w.lease.expire now).state ≠ .available) : o.Takes (w.lease.expire now).request := by
  rcases w.lease.expire_cases now with hfree | hsame
  · exact absurd hfree hstate
  · rw [hsame] at hstate ⊢
    exact h hstate

lemma lease_reserve (h : w.lease.state ≠ .available → o.Takes w.lease.request) {r : StageRequest}
    (hr : o.Takes r) (now : Nat) (hstate : (w.lease.reserve r now).2.state ≠ .available) :
    o.Takes (w.lease.reserve r now).2.request := by
  rcases w.lease.reserve_cases r now with hsame | ⟨-, hsame⟩
  · rw [hsame] at hstate ⊢
    exact lease_expire h now hstate
  · rw [hsame]
    exact hr

lemma lease_release (h : w.lease.state ≠ .available → o.Takes w.lease.request) (route : String)
    (hstate : (w.lease.release route).2.state ≠ .available) :
    o.Takes (w.lease.release route).2.request := by
  rcases w.lease.release_cases route with hsame | ⟨-, -, hsame⟩
  · rw [hsame] at hstate ⊢
    exact h hstate
  · rw [hsame] at hstate
    exact absurd rfl hstate

lemma lease_serve (h : w.lease.state ≠ .available → o.Takes w.lease.request) (route : String)
    (hstate : (w.lease.serve route).2.state ≠ .available) :
    o.Takes (w.lease.serve route).2.request := by
  rw [WorkerLease.serve] at hstate ⊢
  split_ifs at hstate ⊢ with hnot
  · exact h hstate
  · rw [not_or, not_not] at hnot
    exact h (by rw [hnot.1]; decide)

/-- A load begins from a reservation that was taken. -/
lemma lease_assign (h : w.lease.state ≠ .available → o.Takes w.lease.request) {r : StageRequest}
    {now : Nat}
    (hassign : (w.lease.beginLoading r now).1) : o.Takes (w.lease.beginLoading r now).2.request ∧
    o.Takes r := by
  rcases w.lease.beginLoading_cases r now with hsame | ⟨hreserved, -, hstage, hsame⟩
  · rw [hsame] at hassign
    cases hassign
  · have htaken := h (by rw [hreserved]; decide)
    rw [hsame]
    exact ⟨htaken, htaken.of_sameStage hstage⟩

/-! ### The configurations of speeds -/

lemma exists_bucket (largest value : UInt32) (fuel : Nat) (size : UInt32) :
    ∃ n < fuel + 1, Greeting.bucket largest value fuel size = (· * 2)^[n] size := by
  induction fuel generalizing size with
  | zero => exact ⟨0, Nat.zero_lt_one, rfl⟩
  | succ fuel ih =>
    rw [Greeting.bucket]
    split_ifs
    · obtain ⟨n, hn, heq⟩ := ih (size * 2)
      exact ⟨n + 1, Nat.succ_lt_succ hn, heq⟩
    · exact ⟨0, Nat.zero_lt_succ _, rfl⟩

lemma contextBucket_contextBucket (context : UInt32) :
    contextBucket (contextBucket context) = contextBucket context := by
  have hfixed : ∀ n < 12, contextBucket ((· * 2)^[n] 512) = (· * 2)^[n] 512 := by decide
  obtain ⟨n, hn, heq⟩ := exists_bucket (2 ^ 20) context 11 512
  rw [show contextBucket context = (· * 2)^[n] 512 from heq, hfixed n hn]

lemma sessionsBucket_sessionsBucket (sessions : UInt32) :
    sessionsBucket (sessionsBucket sessions) = sessionsBucket sessions := by
  have hfixed : ∀ n < 7, sessionsBucket ((· * 2)^[n] 1) = (· * 2)^[n] 1 := by decide
  obtain ⟨n, hn, heq⟩ := exists_bucket 64 sessions 6 1
  rw [show sessionsBucket sessions = (· * 2)^[n] 1 from heq, hfixed n hn]

/-- A speed is kept for a configuration in buckets. -/
lemma proper_measuredKey {r : StageRequest} (h : o.Takes r) (phase : Greeting.Phase)
    (sessions : UInt32) :
    (measuredKey r phase sessions).Proper where
  length := by
    have hhex := h.modelSha256
    rw [Address.hexString, Bool.and_eq_true, decide_eq_true_eq] at hhex
    rw [measuredKey, lowercase, List.length_map]
    exact hhex.1
  lower := by
    have hlower : ∀ c ∈ hexDigits, Greeting.lowerHex c.toLower = true :=
      List.all_iff_forall_prop.mp (by decide)
    rw [List.all_eq_true]
    intro c hc
    obtain ⟨b, hb, rfl⟩ := List.mem_map.mp hc
    exact hlower b (mem_hexDigits h.modelSha256 hb)
  context := (contextBucket_contextBucket _).symm
  sessions := (sessionsBucket_sessionsBucket _).symm

/-- Every key of the table is one it had, or that of the observation. -/
lemma proper_observes {records records' : List (SpeedRecord Double)} {record : SpeedRecord Double}
    (h : ∀ found ∈ records, found.key.Proper) (hrecord : record.key.Proper)
    (hstep : Greeting.Observes records record records') : ∀ found ∈ records', found.key.Proper := by
  intro found hfound
  by_cases hkey : found.key = record.key
  · exact hkey ▸ hrecord
  · exact h found (hstep.mem_of_ne hfound hkey)

lemma proper_observed {observations : List (SpeedRecord Double)}
    (h : ∀ record ∈ observations, record.key.Proper) :
    ∀ found ∈ Greeting.observed observations, found.key.Proper := by
  induction observations using List.reverseRecOn with
  | nil => exact fun _ h => absurd h List.not_mem_nil
  | append_singleton observations record ih =>
    rw [Greeting.observed, List.foldl_concat]
    have hkeys := ih fun found hfound => h found (List.mem_append_left _ hfound)
    exact proper_observes hkeys (h record (List.mem_append_right _ (List.mem_singleton_self _)))
      (Greeting.observes_add _ record)

/-! ### Every run -/

lemma inv_start (speed : UInt64) (lines : List (List Char)) (now : Int) :
    Inv o (start speed lines now : Serving H) where
  lease h := absurd rfl h
  assigned _ h := absurd h List.not_mem_nil
  stage _ h := by cases h
  speeds := Greeting.bounded_observed _
  keys := proper_observed fun record hrecord => by
    obtain ⟨line, -, hline⟩ := List.mem_filterMap.mp (List.mem_filter.mp hrecord).1
    exact (Greeting.parseSpeedText_readAt hline).key
  bandwidth _ h := absurd h List.not_mem_nil

lemma Inv.step (h : Inv o w) (hstep : Step o w w') : Inv o w' := by
  cases hstep with
  | reserve r free now hvalid hproblem =>
    exact { h with
      lease := lease_reserve h.lease (ServeOptions.takes_of_reserved hvalid hproblem) now }
  | look now => exact { h with lease := lease_expire h.lease now }
  | assign r now hassign =>
    obtain ⟨hlease, hr⟩ := lease_assign h.lease hassign
    exact { h with lease := fun _ => hlease, assigned := List.forall_mem_cons.mpr ⟨hr, h.assigned⟩ }
  | serve route => exact { h with lease := lease_serve h.lease route }
  | release route => exact { h with lease := lease_release h.lease route }
  | unload => exact { h with stage := fun _ hst => by cases hst }
  | load r m hr hsessions =>
    refine { h with stage := fun st hst => ⟨_, (h.assigned r hr).sessions, ?_⟩ }
    rw [← Option.some.inj hst, ← hsessions]
    exact Stage.limited_load m
  | stage hst hgoes =>
    obtain ⟨limit, hlimit, hlimited⟩ := h.stage _ hst
    refine { h with stage := fun st hst => ⟨limit, hlimit, ?_⟩ }
    rw [← Option.some.inj hst]
    exact hlimited.step hgoes
  | updateSpeed r phase sessions usPerGib samples now hr =>
    have hobserves := Greeting.observes_add w.speeds ⟨measuredKey r phase sessions, usPerGib,
        samples, now⟩
    exact { h with
      speeds := h.speeds.observes hobserves
      keys := proper_observes h.keys (proper_measuredKey (h.assigned r hr) phase sessions)
        hobserves }
  | storeSpeed speed => exact { h with }
  | receive peer bytes seconds now => exact { h with bandwidth := h.bandwidth.observe }

lemma Reachable.inv (h : Reachable o w) : Inv o w := by
  induction h with
  | start speed lines now => exact inv_start speed lines now
  | step _ hstep ih => exact ih.step hstep

end Serving

/-! ### The greeting -/

def LeaseState.name : LeaseState → List Char
  | .available => "available".toList
  | .reserved => "reserved".toList
  | .loading => "loading".toList
  | .serving => "serving".toList

/-- What the start of `serve_connection` reads for a greeting: parts of the worker, each in the
state of its own moment, and what it finds around it. `files` are the names in the cache when it
looks for a model, `locked` says whether the stage is at work, and `status` is the file of the
sidecar. -/
structure Sight (H : Type*) where
  memory : Serving H
  lease : Serving H
  speed : Serving H
  speeds : Serving H
  stage : Serving H
  bandwidth : Serving H
  gpuFreeMib : UInt64
  leaseNow : Nat
  files : List Char → List (List Char)
  locked : Bool
  idleS : UInt32
  status : Option (List Char)
  statusMs : Int
  bandwidthNow : Int

namespace Sight

open Greeting (ProviderCapability CachedRange PeerLink Bandwidth cachedRanges measuredLinks
  parseAvailable availableMessage maxUsPerGib speedMaxAgeS)

variable {H : Type*} {o : ServeOptions} {s : Sight H} {now : Int}

def state (s : Sight H) : LeaseState := (s.lease.lease.expire s.leaseNow).state

/-- The layers on disk, of every model. -/
def ranges (s : Sight H) (o : ServeOptions) : List CachedRange :=
  o.catalog.entries.flatMap fun model => cachedRanges (s.files model.1) model.2.modelId model.1

def links (s : Sight H) : List PeerLink := measuredLinks s.status s.statusMs

/-- The capability that `serve_connection` fills in. -/
def capability (s : Sight H) (o : ServeOptions) : ProviderCapability Double :=
  { o.hello with
    offeredVramMib := (o.serveContext s.memory.stage.isSome s.gpuFreeMib).availableMib
    state := s.state.name
    cached := s.ranges o
    speedUsPerGib := s.speed.speedUsPerGib
    speeds := s.speeds.speeds
    idleS :=
      if s.state = .available then none
      else if s.locked then some 0
      else s.stage.stage.map fun _ => s.idleS
    openSessions :=
      if s.state = .available then 0
      else if s.locked then 1
      else s.stage.stage.elim 0 fun st => .ofNat st.openSessions
    links := s.links.map fun link =>
      { link with kibPerS := Bandwidth.kibPerSOf s.bandwidth.bandwidth link.peer s.bandwidthNow }
    replicaOwner := o.replicaOwner
    f16Activations := true
    fp8Activations := true }

/-- Every part is of a state that the worker can be in. -/
structure Reachable (s : Sight H) (o : ServeOptions) : Prop where
  memory : s.memory.Reachable o
  lease : s.lease.Reachable o
  speed : s.speed.Reachable o
  speeds : s.speeds.Reachable o
  stage : s.stage.Reachable o
  bandwidth : s.bandwidth.Reachable o

/-- What the parser asks for and nothing in the worker sees to. -/
structure Fresh (s : Sight H) (o : ServeOptions) (now : Int) : Prop where
  count : (s.ranges o).length ≤ Greeting.maxGreetingCached
  layers : ∀ range ∈ s.ranges o, range.last ≤ Greeting.maxGreetingLayer
  speed : s.speed.speedUsPerGib.toNat ≤ maxUsPerGib
  rounded : ∀ record ∈ s.speeds.speeds, record.speed ≠ 0
  age : ∀ record ∈ s.speeds.speeds, now - record.updatedUnixS ≤ speedMaxAgeS * 4
  once : s.links.Pairwise fun l link => l.peer = link.peer →
    !Bandwidth.knows s.bandwidth.bandwidth link.peer s.bandwidthNow

lemma name_state (s : Sight H) :
    s.state.name ∈
      [[], "available".toList, "reserved".toList, "loading".toList, "serving".toList] := by
  cases s.state <;> decide

lemma availableMib_spec (o : ServeOptions) (holds : Bool) (free : UInt64) :
    (o.serveContext holds free).availableMib ≤ o.offeredVramMib ∧
      (o.serveContext holds free).availableMib ≠ 0 := by
  have hquota := o.offeredVramMib_ne_zero
  rw [ServeContext.availableMib]
  split_ifs with hholds hzero
  · exact ⟨UInt64.le_refl _, hquota⟩
  · exact ⟨UInt64.le_refl _, hquota⟩
  · change (if o.offeredVramMib ≤ free then o.offeredVramMib else free) ≤ o.offeredVramMib ∧
      (if o.offeredVramMib ≤ free then o.offeredVramMib else free) ≠ 0
    split_ifs with hle
    · exact ⟨UInt64.le_refl _, hquota⟩
    · exact ⟨UInt64.le_of_lt (UInt64.not_le.mp hle), hzero⟩

lemma openSessions_le (hs : s.stage.Inv o) (h : o.maxSessions ≤ 256) :
    (s.capability o).openSessions ≤ Greeting.maxGreetingSessions := by
  change (if s.state = .available then 0 else if s.locked then 1
    else s.stage.stage.elim 0 fun st => UInt32.ofNat st.openSessions) ≤ Greeting.maxGreetingSessions
  split_ifs
  · decide
  · decide
  · cases hstage : s.stage.stage with
    | none => exact (by decide : (0 : UInt32) ≤ Greeting.maxGreetingSessions)
    | some st =>
      obtain ⟨limit, hlimit, hlimited⟩ := hs.stage st hstage
      have hopen := hlimited.openSessions
      have hnat : (UInt32.ofNat st.openSessions).toNat = st.openSessions :=
        UInt32.toNat_ofNat_of_lt' (by
        change st.openSessions < 2 ^ 32
        omega)
      change UInt32.ofNat st.openSessions ≤ Greeting.maxGreetingSessions
      rw [UInt32.le_iff_toNat_le, hnat]
      change st.openSessions ≤ 256
      omega

/-- A speed in the range that is taken is written in it. -/
lemma speed_le {record : Greeting.SpeedRecord Double} (h : Greeting.admitted record.usPerGib) :
    record.speed ≤ maxUsPerGib := by
  obtain ⟨x, hx, hpos, hmax⟩ := Greeting.admitted_iff.mp h
  have hround : Double.llround record.usPerGib = ⌊x + 1 / 2⌋ :=
    Double.llround_eq_floor hx hpos.le (by linarith)
  have hnonneg : 0 ≤ ⌊x + 1 / 2⌋ := Int.floor_nonneg.mpr (by linarith)
  have hle : ⌊x + 1 / 2⌋ < 10 ^ 9 + 1 := Int.floor_lt.mpr (by push_cast; linarith)
  change (Double.llround record.usPerGib % 2 ^ 64).toNat ≤ 10 ^ 9
  omega

/-- The capability is well formed, whatever the worker has done and found. -/
lemma formed_capability (ho : o.Modest) (hs : s.Reachable o) : (s.capability o).Formed where
  valid := by
    obtain ⟨hvram, hvram'⟩ := availableMib_spec o s.memory.stage.isSome s.gpuFreeMib
    have hcontext : (UInt32.ofNat o.context).toNat = o.context := UInt32.toNat_ofNat_of_lt' (by
      have := o.context_lt
      change o.context < 2 ^ 32
      omega)
    have hsessions : (UInt32.ofNat o.maxSessions).toNat = o.maxSessions :=
      UInt32.toNat_ofNat_of_lt' (by
      have := o.maxSessions_lt
      change o.maxSessions < 2 ^ 32
      omega)
    refine Greeting.ProviderCapability.valid_iff.mpr ⟨o.providerId_ne_nil, ho.providerId.2,
      ho.providerId.1, ho.gpuName.1, ho.runtimeAbi.1, UInt64.le_trans hvram ho.offeredVramMib, ?_,
      ?_, openSessions_le hs.stage.inv ho.maxSessions, o.gpuName_ne_nil, hvram', ho.ringEndpoint.1,
      name_state s, ho.runtimeAbi.2⟩
    · rw [UInt32.le_iff_toNat_le]
      exact hcontext.trans_le ho.context
    · rw [UInt32.le_iff_toNat_le]
      exact hsessions.trans_le ho.maxSessions
  gpu := ho.gpuName.2
  ring := ho.ringEndpoint.2
  modelCount := (List.length_map _).trans_le ho.models
  models model hmodel := by
    obtain ⟨found, hfound, rfl⟩ := List.mem_map.mp hmodel
    exact hexString_lowercase (o.hexString found hfound)
  cached range hrange := by
    obtain ⟨entry, hentry, hrange⟩ := List.mem_flatMap.mp hrange
    obtain ⟨hsha, hbounds⟩ := Greeting.mem_cachedRanges hrange
    obtain ⟨hmodel, hkey⟩ := ServeOptions.mem_entries_catalog hentry
    rw [hsha, hkey]
    exact ⟨hexString_lowercase (o.hexString _ hmodel), hbounds⟩
  speedCount := hs.speeds.inv.speeds.length_le
  speeds record hrecord :=
    ⟨hs.speeds.inv.keys record hrecord, speed_le (hs.speeds.inv.speeds.admitted record hrecord),
      hs.speeds.inv.speeds.samples_ne_zero record hrecord⟩
  linkCount := (List.length_map _).trans_le (Greeting.measuredLinks_spec s.status s.statusMs).1
  links link hlink := by
    obtain ⟨found, hfound, rfl⟩ := List.mem_map.mp hlink
    obtain ⟨hpeer, hrtt⟩ := (Greeting.measuredLinks_spec s.status s.statusMs).2 found hfound
    exact ⟨hpeer, hrtt, (Bandwidth.kibPerSOf_spec hs.bandwidth.inv.bandwidth).1⟩
  bandwidth := by
    refine ⟨fun peer => Bandwidth.kibPerSOf s.bandwidth.bandwidth peer s.bandwidthNow,
      fun link hlink => ?_⟩
    obtain ⟨found, -, rfl⟩ := List.mem_map.mp hlink
    rfl

lemma fresh_capability_iff (hs : s.Reachable o) : (s.capability o).Fresh now ↔ s.Fresh o now := by
  have honce : (s.capability o).links.Pairwise (fun l link => l.peer = link.peer →
      link.kibPerS = 0) ↔
      s.links.Pairwise fun l link => l.peer = link.peer →
        !Bandwidth.knows s.bandwidth.bandwidth link.peer s.bandwidthNow := by
    change ((s.links.map fun link : PeerLink => { link with
      kibPerS := Bandwidth.kibPerSOf s.bandwidth.bandwidth link.peer s.bandwidthNow }).Pairwise
        _) ↔ _
    rw [List.pairwise_map]
    refine List.Pairwise.iff fun {l link} => ?_
    exact imp_congr_right fun _ => (Bandwidth.kibPerSOf_spec hs.bandwidth.inv.bandwidth).2
  have hage : ∀ record : Greeting.SpeedRecord Double, record.age now ≤ speedMaxAgeS * 4 ↔
      now - record.updatedUnixS ≤ speedMaxAgeS * 4 := by
    intro record
    rw [Greeting.SpeedRecord.age]
    omega
  constructor
  · intro h
    exact ⟨h.cachedCount, h.layers, h.speed, fun record hrecord => (h.speeds record hrecord).1,
      fun record hrecord => (hage record).mp (h.speeds record hrecord).2, honce.mp h.once⟩
  · intro h
    exact ⟨h.count, h.layers, h.speed,
      fun record hrecord => ⟨h.rounded record hrecord, (hage record).mpr (h.age record hrecord)⟩,
      honce.mpr h.once⟩

/-- A greeting is taken in whatever state the worker is, if and only if what is not seen to
holds. -/
theorem greeting_taken_iff (ho : o.Modest) (hs : s.Reachable o) (now : Int) (clock : Nat → Int) :
    (parseAvailable (D := Double) (availableMessage (s.capability o) now) clock).isSome ↔
      s.Fresh o now := by
  rw [(formed_capability ho hs).isSome_iff]
  exact fresh_capability_iff hs

lemma context_oneModel : 4096 < 2 ^ 31 := by decide

def oneModel : ServeOptions where
  providerId := "worker".toList
  gpuName := "gpu".toList
  offeredVramMib := 8192
  peerHeader := false
  ringTarget := []
  ringHost := "10.0.0.1".toList
  ringPort := 9000
  runtimeAbi := "1".toList
  context := 4096
  maxSessions := 4
  prefillChunk := 0
  replicaOwner := false
  models := [⟨"model".toList, List.replicate 64 'a', ServeContext.twoLayers 64⟩]
  providerId_ne_nil := by decide
  gpuName_ne_nil := by decide
  offeredVramMib_ne_zero := by decide
  validP2pTarget h := by cases h
  context_lt := context_oneModel
  maxSessions_lt := by decide
  hexString := by decide
  hidden_ne_zero := by decide

/-- A speed of five microseconds, just measured. -/
def measuredLine : List Char := List.replicate 64 'a' ++ ":d:512:1:5:32:0".toList

/-- A worker that has read it at the start, with nothing around it. -/
def restarted : Sight Nat :=
  let w : Serving Nat := Serving.start 0 [measuredLine] 0
  { memory := w, lease := w, speed := w, speeds := w, stage := w, bandwidth := w, gpuFreeMib := 0,
    leaseNow := 0,
    files := fun _ => [], locked := false, idleS := 0, status := none, statusMs := 0,
    bandwidthNow := 0 }

lemma modest_oneModel : oneModel.Modest where
  providerId := ⟨by decide, List.all_iff_forall_prop.mp (by decide)⟩
  gpuName := by decide
  offeredVramMib := by decide
  ringEndpoint := by decide +kernel
  runtimeAbi := ⟨by decide, List.all_iff_forall_prop.mp (by decide)⟩
  context := by decide
  maxSessions := by decide
  models := by decide

lemma reachable_restarted : restarted.Reachable oneModel := by
  have hstart : (Serving.start 0 [measuredLine] 0 : Serving Nat).Reachable oneModel :=
    .start 0 [measuredLine] 0
  exact ⟨hstart, hstart, hstart, hstart, hstart, hstart⟩

def fiveMicroseconds : Greeting.SpeedRecord Double where
  key := ⟨List.replicate 64 'a', .decode, 512, 1⟩
  usPerGib := Greeting.Rounding.ofNat 5
  samples := 32
  updatedUnixS := 0

lemma value_fiveMicroseconds :
    fiveMicroseconds.usPerGib.value = some (((5 : ℚ) : WithTop ℚ) : Binary64.Extended) :=
  Bandwidth.value_natCast (n := 5) (by norm_num)

lemma speeds_restarted : restarted.speeds.speeds = [fiveMicroseconds] := by
  have hline : Greeting.parseSpeedText measuredLine 0 = some fiveMicroseconds := by rfl
  have hadmitted : Greeting.admitted fiveMicroseconds.usPerGib :=
    Greeting.admitted_iff.mpr ⟨5, value_fiveMicroseconds, by norm_num, by norm_num⟩
  have hread : [measuredLine].filterMap (Greeting.parseSpeedText (D := Double) · 0) =
    [fiveMicroseconds] :=
    List.filterMap_cons_some hline
  change Greeting.observed
    (([measuredLine].filterMap (Greeting.parseSpeedText (D := Double) · 0)).filter _) = _
  rw [hread]
  change Greeting.add [] fiveMicroseconds = _
  rw [Greeting.add, Greeting.observe, hadmitted]
  rfl

/-- A week after the last measurement a greeting is still taken. -/
theorem greeting_taken_after_week :
    (parseAvailable (D := Double) (availableMessage (restarted.capability oneModel) 604800)
      fun _ => 0).isSome := by
  refine (greeting_taken_iff modest_oneModel reachable_restarted 604800 _).mpr ?_
  have hspeed : fiveMicroseconds.speed = 5 := by
    have hround : Double.llround fiveMicroseconds.usPerGib = ⌊(5 : ℚ) + 1 / 2⌋ :=
      Double.llround_eq_floor value_fiveMicroseconds (by norm_num) (by norm_num)
    have hfloor : ⌊(5 : ℚ) + 1 / 2⌋ = 5 := by norm_num
    change (Double.llround fiveMicroseconds.usPerGib % 2 ^ 64).toNat = 5
    rw [hround, hfloor]
    rfl
  refine ⟨by decide +kernel, by decide +kernel, by decide, ?_, ?_, List.Pairwise.nil⟩
  · rw [speeds_restarted]
    exact List.forall_mem_singleton.mpr (by rw [hspeed]; decide)
  · rw [speeds_restarted]
    exact List.forall_mem_singleton.mpr (by decide)

/-- Four weeks and a second after the last measurement the greeting is refused. -/
theorem greeting_refused_after_four_weeks :
    oneModel.Modest ∧ restarted.Reachable oneModel ∧
      parseAvailable (D := Double) (availableMessage (restarted.capability oneModel) 2419201)
        (fun _ => 2419201) = none := by
  refine ⟨modest_oneModel, reachable_restarted, ?_⟩
  rw [← Option.not_isSome_iff_eq_none,
    (formed_capability modest_oneModel reachable_restarted).isSome_iff,
    fresh_capability_iff reachable_restarted]
  intro hfresh
  have hage :=
    hfresh.age fiveMicroseconds (by rw [speeds_restarted]; exact List.mem_singleton_self _)
  exact absurd hage (by decide)

end Sight

end ProviderOwned
