import ProviderOwned.Client.Discovery
import ProviderOwned.Planner.Search
import ProviderOwned.Protocol
import ProviderOwned.Worker.Capability

/-!
# The model and the context of a route

How `place_route` of `placement.cpp` chooses what to run: for each model the contexts of
`context_ladder` are tried, the smallest first, each with the plan search over the workers that
could take part, and a larger context is kept while its plan needs no more stages. Clocks, the `long
double`s of the earlier planner and everything after the choice are left to the environment
(`Placing`).

A ladder begins at the context of the catalog, so the route should never get less;
`context_kept_iff` says for which catalogs that is so.
-/

namespace ProviderOwned

open Greeting Planner Planner.Arithmetic Text

/-- What placement reads of `struct Manifest`. -/
structure Manifest where
  sha256 : List Char
  hidden : UInt32
  context : UInt32
  deriving DecidableEq, Repr

/-- `struct ModelOption`, with the `trained_context` of its model. -/
structure ModelOption where
  manifest : Manifest
  model : ModelIndex
  trainedContext : UInt32
  deriving DecidableEq, Repr

/-- What the choice reads of `struct PlacementRequest`; `previews` says whether it is asked for
them. -/
structure PlacementRequest (D : Type) where
  models : List ModelOption
  context : UInt32 := 0
  largestContext : Bool := false
  sessions : UInt32 := 1
  minimumStages : Nat := 1
  maximumStages : Nat := 5
  searchBudget : Nat := 4000
  previews : Bool := false
  reclaimIdleS : UInt32 := 0
  ordinaryInputTokens : UInt32 := 2048
  prefillChunkRows : UInt32 := 512
  firstTokenLimitMs : D
  runtimeAbi : List Char := []
  activations : DType := .f32le
  attempts : Nat := 3
  head : List Char := []

/-- A worker that greeted the client: `struct Worker`. -/
structure GreetedWorker (D : Type) where
  candidate : PlacementCandidate
  connected : Bool := true
  hello : ProviderCapability D
  orderKey : List Char

structure RoutePreview (D : Type) where
  model : Nat
  context : UInt32
  stages : Nat
  tokenMs : D
  firstTokenMs : D
  measured : Bool
  fromCache : Bool
  downloadBytes : Nat
  peers : List (List Char)

structure Fit (D : Type) where
  pool : List (GreetedWorker D)
  plan : List StageAssignment
  fromCache : Bool
  head : Option Nat
  context : UInt32
  preview : RoutePreview D

/-! ### Contexts -/

def largestContext : UInt32 := 262144

/-- The loop of `context_ladder`. -/
def doublings (top floor : UInt32) : Nat → UInt32 → List UInt32
  | 0, _ => []
  | fuel + 1, value =>
    if value < top ∧ floor < value then value :: doublings top floor fuel (value * 2) else []

variable {D L : Type}

def contextLadder (option : ModelOption) (request : PlacementRequest D) : List UInt32 :=
  let floor := option.manifest.context
  if request.context ≠ 0 then [request.context]
  else if floor = 0 then []
  else if !request.largestContext then [floor]
  else
    let top := min largestContext (max floor option.trainedContext)
    floor :: doublings top floor 32 (floor * 2) ++ if top ≠ floor then [top] else []

/-! ### Workers that can take part -/

def peerOf (target : List Char) : List Char := (afterLast "/p2p/".toList target).getD []

def unusable (worker : GreetedWorker D) (request : PlacementRequest D) (option : ModelOption)
    (context : UInt32) : List Char :=
  let hello := worker.hello
  let reclaimable := request.previews && request.reclaimIdleS ≠ 0 &&
    (hello.state = "reserved".toList || hello.state = "serving".toList) &&
    hello.idleS.any (request.reclaimIdleS ≤ ·) && hello.openSessions = 0
  if hello.state ≠ "available".toList ∧ !reclaimable then
    "state ".toList ++ if hello.state = [] then "unknown".toList else hello.state
  else if hello.runtimeAbi ≠ request.runtimeAbi then "runtime ABI ".toList ++ hello.runtimeAbi
  else if hello.models.all (lowercase · ≠ lowercase option.manifest.sha256) then
    "model not in catalog".toList
  else if hello.maxContext < context then "context limit".toList
  else if hello.maxSessions < request.sessions then "session limit".toList
  else if worker.candidate.peerId = [] then
    if validPrivateEndpoint hello.ringEndpoint then [] else "invalid direct ring endpoint".toList
  else if !validP2pTarget hello.ringEndpoint ∨
    peerOf hello.ringEndpoint ≠ worker.candidate.peerId then
    "ring address does not match the authenticated PeerID".toList
  else []

def linkCost (candidate : PlacementCandidate) : Nat :=
  candidate.rttMs / 25 + if candidate.relayed then 1 else 0

def closer (left right : GreetedWorker D) : Bool :=
  if linkCost left.candidate ≠ linkCost right.candidate then
    linkCost left.candidate < linkCost right.candidate
  else if left.hello.offeredVramMib ≠ right.hello.offeredVramMib then
    right.hello.offeredVramMib < left.hello.offeredVramMib
  else left.orderKey < right.orderKey

/-- The workers of a pool and where its head is, or nothing where the head is not among them. -/
def poolFor (workers : List (GreetedWorker D)) (request : PlacementRequest D) (option : ModelOption)
    (context : UInt32) : Option (List (GreetedWorker D) × Option Nat) :=
  let pool := (workers.filter fun worker =>
    worker.connected && (unusable worker request option context).isEmpty).insertionSort
      fun left right => !closer right left
  if request.head = [] then some (pool, none)
  else match pool.findIdx? (·.candidate.control = request.head) with
    | none => none
    | some found => some (pool[found]?.toList ++ pool.eraseIdx found, some 0)

/-! ### The plan at one context -/

section

variable [Arithmetic D] [Arithmetic L]

def searchCandidate (request : PlacementRequest D) (option : ModelOption) (context : UInt32)
    (now : Int) (worker : GreetedWorker D) : SearchCandidate D :=
  let sha := lowercase option.manifest.sha256
  let speedOf (phase : Phase) : D :=
    let speed := estimateSpeed worker.hello.speeds
      ⟨sha, phase, contextBucket context, sessionsBucket request.sessions⟩ now (ofNat 0)
    if speed.measured then speed.usPerGib else ofNat 0
  { offeredMib := worker.hello.offeredVramMib
    usPerGib := speedOf .decode
    prefillUsPerGib := speedOf .prefill
    rttMs := ofNat worker.candidate.rttMs
    relayed := worker.candidate.relayed
    key := String.ofList worker.orderKey
    links := worker.hello.links.map fun link => ⟨String.ofList link.peer, ofNat link.rttMs.toNat,
      link.relayed, ofNat link.kibPerS.toNat / ofNat 1024⟩
    cached := (worker.hello.cached.filter fun range => lowercase range.modelSha256 = sha).map
      fun range => (range.first, range.last) }

def searchRequest (request : PlacementRequest D) (option : ModelOption) (context : UInt32)
    (pool : List (GreetedWorker D)) (head : Option Nat) : SearchRequest D :=
  let narrow := request.activations ≠ .f32le && pool.all fun worker =>
    if request.activations = .f16le then worker.hello.f16Activations
      else worker.hello.fp8Activations
  { context
    sessions := request.sessions
    minimumStages := request.minimumStages
    maximumStages := request.maximumStages
    head
    workBudget := request.searchBudget
    poolLimit := 12
    cachedTolerance := decimal 10 2
    relayPenaltyMs := ofNat 25
    promptRows := request.ordinaryInputTokens
    chunkRows := request.prefillChunkRows
    rowBytes := UInt64.ofNat option.manifest.hidden.toNat *
      if !narrow then 4 else if request.activations = .f16le then 2 else 1
    firstTokenLimitMs := request.firstTokenLimitMs }

/-- What is asked of the earlier planner, about the closest eight workers. -/
def legacyRequest (request : PlacementRequest D) (option : ModelOption) (context : UInt32)
    (found : List (SearchCandidate D)) (head : Option Nat) : Request :=
  let offered := (found.take 8).map SearchCandidate.offeredMib
  { model := option.model, offered, context, sessions := request.sessions
    minimum := min request.minimumStages offered.length, head }

/-- The plan of the earlier planner, where it has a stage count that was asked for. -/
def legacyPlan (request : PlacementRequest D) (asked : Request) (cut : List Nat → Nat → Int) :
    Option (List StageAssignment) :=
  (asked.planStages cut).filter fun plan =>
    request.minimumStages ≤ plan.length && plan.length ≤ request.maximumStages

/-- Whether the plan of the earlier planner takes the place of the search's. -/
def legacyWins (search : SearchRequest D) (legacyMs legacyFirst : D) (result : SearchResult D) :
    Bool :=
  !result.fromCache &&
    if firstTokenRank legacyFirst search ≠ firstTokenRank result.firstTokenMs search then
      firstTokenRank result.firstTokenMs search < firstTokenRank legacyFirst search
    else lt legacyMs (result.tokenMs - decimal 1 9)

variable (L) in
/-- The result for a pool: the search's, with the earlier planner as a floor. -/
def planned (request : PlacementRequest D) (option : ModelOption) (context : UInt32)
    (pool : List (GreetedWorker D)) (head : Option Nat) (found : List (SearchCandidate D))
    (cut : List Nat → Nat → Int) : Option (SearchResult D) :=
  if pool.length < request.minimumStages then none
  else
    let search := searchRequest request option context pool head
    let result := (searchPlan L option.model found search).toOption
    match legacyPlan request (legacyRequest request option context found head) cut with
    | none => result
    | some legacy =>
      let legacyMs := searchTokenMs option.model found search legacy
      let legacyFirst := searchFirstTokenMs option.model found search legacy
      if result.all (legacyWins search legacyMs legacyFirst) then
        some ⟨legacy, legacyMs, legacyFirst, false, 0, false⟩
      else result

/-- What a selection policy is told of a plan. -/
def previewOf (index : Nat) (option : ModelOption) (context : UInt32)
    (pool : List (GreetedWorker D))
    (found : List (SearchCandidate D)) (result : SearchResult D) : RoutePreview D where
  model := index
  context := context
  stages := result.plan.length
  tokenMs := result.tokenMs
  firstTokenMs := result.firstTokenMs
  measured := result.plan.all fun stage => lt (ofNat 0) (found.getD stage.provider default).usPerGib
  fromCache := result.fromCache
  downloadBytes := (result.plan.foldl (fun bytes stage =>
    if ((stage.first : Int), (stage.last : Int)) ∈ (found.getD stage.provider default).cached
      then bytes
    else bytes + stageModelBytes option.model stage.first stage.last) 0) % 2 ^ 64
  peers := result.plan.filterMap fun stage => pool[stage.provider]?.map fun worker =>
    if worker.candidate.peerId = [] then worker.hello.id else worker.candidate.peerId

/-! ### The choice -/

/-- What the choice does not decide itself, attempt by attempt: the workers that greeted the client,
who is greeted again, the clock when a model is planned at a context, where the earlier planner
looks for a cut first, and what becomes of the route that was chosen: it may fail, be placed, or
leave the workers to another attempt. -/
structure Placing (D : Type) where
  opened : List (GreetedWorker D)
  greet : Nat → List (GreetedWorker D) → List (GreetedWorker D)
  now : Nat → Nat → UInt32 → Int
  cut : Nat → Nat → UInt32 → List Nat → Nat → Int
  carryOut : Nat → List (GreetedWorker D) → ModelOption → Fit D →
    Except String (Option (List (GreetedWorker D)))

/-- How `place_route` ends without a failure. -/
inductive Placed (D : Type)
  | previewed (previews : List (RoutePreview D))
  | placed (option : ModelOption) (fit : Fit D)

/-- The loop over the ladder. A context without a plan ends it once there is one, as does a context
whose plan needs more stages. -/
def climb (fitAt : UInt32 → Option (Fit D)) : List UInt32 → Option (Fit D) → Option (Fit D)
  | [], best => best
  | context :: ladder, best =>
    match fitAt context with
    | none => if best.isSome then best else climb fitAt ladder none
    | some fit =>
      if best.any (·.plan.length < fit.plan.length) then best else climb fitAt ladder (some fit)

section

variable (L) (p : Placing D) (request : PlacementRequest D) (attempt : Nat)
  (workers : List (GreetedWorker D)) (index : Nat) (option : ModelOption)

/-- What the workers can run of a model at a context. -/
def fitAt (context : UInt32) : Option (Fit D) :=
  (poolFor workers request option context).bind fun (pool, head) =>
    let found := pool.map (searchCandidate request option context (p.now attempt index context))
    (planned L request option context pool head found (p.cut attempt index context)).map
        fun result =>
      ⟨pool, result.plan, result.fromCache, head, context,
        previewOf index option context pool found result⟩

/-- What the workers are to run of a model. -/
def bestFit : Option (Fit D) :=
  climb (fitAt L p request attempt workers index option) (contextLadder option request) none

def previewsOf : List (RoutePreview D) :=
  request.models.zipIdx.filterMap fun (option, index) =>
    (bestFit L p request attempt workers index option).map Fit.preview

/-- The first model that the workers can run. -/
def chosenFit : Option (ModelOption × Fit D) :=
  request.models.zipIdx.findSome? fun (option, index) =>
    (bestFit L p request attempt workers index option).map (option, ·)

/-- The attempts of `place_route`. -/
def attempts : Nat → Nat → List (GreetedWorker D) → Except String (Placed D)
  | 0, _, _ =>
      .error ("could not reserve a placement after " ++ toString request.attempts ++ " attempts")
  | left + 1, attempt, workers =>
    let workers := p.greet attempt workers
    if request.previews then .ok (.previewed (previewsOf L p request attempt workers))
    else match chosenFit L p request attempt workers with
      | none => .error "no placement fits the available workers"
      | some (option, fit) =>
        match p.carryOut attempt workers option fit with
        | .error error => .error error
        | .ok none => .ok (.placed option fit)
        | .ok (some workers) => attempts left (attempt + 1) workers

def placeRoute (candidates : List PlacementCandidate) : Except String (Placed D) :=
  if candidates = [] ∨ request.models = [] ∨ request.sessions = 0 ∨
      request.models.any (·.manifest.hidden = 0) then
    .error "placement needs candidates, models with a hidden size and sessions"
  else if candidates.any fun candidate =>
      candidate.peerId.isEmpty ≠ candidates.head?.any (·.peerId.isEmpty) then
    .error "candidates must be all libp2p or all direct"
  else attempts L p request request.attempts 0 p.opened

end

end

/-! ### The ladder -/

/-- The contexts of a model are in order, and the first is that of the catalog. -/
structure LadderOk (option : ModelOption) (request : PlacementRequest D) : Prop where
  increasing : (contextLadder option request).Pairwise (· < ·)
  first : (contextLadder option request).head? = some option.manifest.context
  floor_le : ∀ context ∈ contextLadder option request, option.manifest.context ≤ context

/-- Below the top nothing wraps around, so doubling goes up. -/
lemma lt_double {top floor value : UInt32} (htop : top ≤ largestContext) (hvalue : value < top)
    (hfloor : floor < value) : value < value * 2 := by
  have hsmall : value.toNat < 262144 := Nat.lt_of_lt_of_le hvalue htop
  have hpos : 0 < value.toNat := Nat.lt_of_le_of_lt (Nat.zero_le _) hfloor
  rw [UInt32.lt_iff_toNat_lt, UInt32.toNat_mul, show (2 : UInt32).toNat = 2 from rfl,
    Nat.mod_eq_of_lt (by omega)]
  omega

lemma doublings_spec {top floor : UInt32} (htop : top ≤ largestContext) (fuel : Nat)
    (value : UInt32) :
    (∀ context ∈ doublings top floor fuel value, value ≤ context ∧ floor < context ∧
      context < top) ∧
      (doublings top floor fuel value).Pairwise (· < ·) := by
  induction fuel generalizing value with
  | zero => exact ⟨fun _ h => absurd h List.not_mem_nil, .nil⟩
  | succ fuel ih =>
    rw [doublings]
    split
    · rename_i hgoes
      obtain ⟨hvalue, hfloor⟩ := hgoes
      have hdouble := lt_double htop hvalue hfloor
      obtain ⟨hrest, hpairwise⟩ := ih (value * 2)
      constructor
      · rw [List.forall_mem_cons]
        exact ⟨⟨UInt32.le_refl _, hfloor, hvalue⟩, fun context hcontext =>
          ⟨UInt32.le_trans (UInt32.le_of_lt hdouble) (hrest context hcontext).1,
            (hrest context hcontext).2⟩⟩
      · exact .cons (fun context hcontext =>
          UInt32.lt_of_lt_of_le hdouble (hrest context hcontext).1) hpairwise
    · exact ⟨fun _ h => absurd h List.not_mem_nil, .nil⟩

lemma toNat_max (a b : UInt32) : (max a b).toNat = max a.toNat b.toNat :=
  apply_ite UInt32.toNat (a ≤ b) b a

lemma toNat_min (a b : UInt32) : (min a b).toNat = min a.toNat b.toNat :=
  apply_ite UInt32.toNat (a ≤ b) a b

/-- The ladder is in order where the catalog's context is not above the largest that is tried. -/
lemma ladderOk_iff {option : ModelOption} {request : PlacementRequest D}
    (hlargest : request.largestContext) (hfixed : request.context = 0) :
    LadderOk option request ↔
      0 < option.manifest.context ∧ option.manifest.context ≤ largestContext := by
  generalize hfloor : option.manifest.context = floor
  have hladder : contextLadder option request = if floor = 0 then [] else
      floor :: doublings (min largestContext (max floor option.trainedContext)) floor 32
        (floor * 2) ++
        if min largestContext (max floor option.trainedContext) ≠ floor then
          [min largestContext (max floor option.trainedContext)] else [] := by
    rw [contextLadder, hfloor, if_neg (not_not.mpr hfixed), hlargest]
    rfl
  generalize htop : min largestContext (max floor option.trainedContext) = top at hladder
  have htopNat : top.toNat = min 262144 (max floor.toNat option.trainedContext.toNat) := by
    rw [← htop, toNat_min, toNat_max]
    rfl
  constructor
  · intro hok
    have hpos : floor ≠ 0 := by
      intro hzero
      have hfirst := hok.first
      rw [hladder, if_pos hzero] at hfirst
      cases hfirst
    refine ⟨UInt32.pos_iff_ne_zero.mpr hpos, ?_⟩
    by_contra hlarge
    have hbelow : top < floor := by
      have hlargeNat : 262144 < floor.toNat := UInt32.not_le.mp hlarge
      rw [UInt32.lt_iff_toNat_lt, htopNat]
      omega
    have hne : top ≠ floor := UInt32.ne_of_lt hbelow
    have hmem : top ∈ contextLadder option request := by
      rw [hladder, if_neg hpos, if_pos hne]
      exact List.mem_append_right _ (List.mem_singleton_self _)
    have hle := hok.floor_le top hmem
    rw [hfloor] at hle
    exact UInt32.not_le.mpr hbelow hle
  · rintro ⟨hpos, hsmall⟩
    have hne : floor ≠ 0 := UInt32.pos_iff_ne_zero.mp hpos
    have hsmallNat : floor.toNat ≤ 262144 := hsmall
    have htopLe : top ≤ largestContext := by
      rw [UInt32.le_iff_toNat_le, htopNat]
      exact Nat.min_le_left _ _
    have hfloorTop : floor ≤ top := by
      rw [UInt32.le_iff_toNat_le, htopNat]
      omega
    have hdoublings := @doublings_spec top floor htopLe 32 (floor * 2)
    obtain ⟨hrungs, hpairwise⟩ := hdoublings
    rw [if_neg hne] at hladder
    have hlast : ∀ context ∈ (if top ≠ floor then [top] else []), context = top ∧ floor < top := by
      intro context hcontext
      split at hcontext
      · rename_i hdiffers
        exact ⟨List.mem_singleton.mp hcontext, UInt32.lt_of_le_of_ne hfloorTop (Ne.symm hdiffers)⟩
      · cases hcontext
    have habove :
        ∀ context ∈ doublings top floor 32 (floor * 2) ++ (if top ≠ floor then [top] else []),
        floor < context := by
      intro context hcontext
      rcases List.mem_append.mp hcontext with hrung | hend
      · exact (hrungs context hrung).2.1
      · rw [(hlast context hend).1]
        exact (hlast context hend).2
    constructor
    · rw [hladder, List.cons_append, List.pairwise_cons]
      refine ⟨habove,
        List.pairwise_append.mpr ⟨hpairwise, ?_, fun context hcontext last hend => ?_⟩⟩
      · split
        · exact List.pairwise_singleton _ _
        · exact .nil
      · rw [(hlast last hend).1]
        exact (hrungs context hcontext).2.2
    · rw [hladder, hfloor]
      rfl
    · intro context hcontext
      rw [hladder, List.cons_append, List.mem_cons] at hcontext
      rw [hfloor]
      rcases hcontext with rfl | hcontext
      · exact UInt32.le_refl _
      · exact UInt32.le_of_lt (habove context hcontext)

/-- The first rung is that of the catalog. -/
lemma contextLadder_eq_cons {option : ModelOption} {request : PlacementRequest D}
    (hlargest : request.largestContext) (hfixed : request.context = 0)
    (hfloor : option.manifest.context ≠ 0) :
    ∃ ladder, contextLadder option request = option.manifest.context :: ladder := by
  rw [contextLadder, if_neg (not_not.mpr hfixed), hlargest, if_neg hfloor]
  exact ⟨_, rfl⟩

/-! ### The kept rung -/

lemma climb_eq_some {fitAt : UInt32 → Option (Fit D)} {ladder : List UInt32} {best : Option (Fit D)}
    {fit : Fit D} (h : climb fitAt ladder best = some fit) :
    best = some fit ∨ ∃ context ∈ ladder, fitAt context = some fit := by
  induction ladder generalizing best with
  | nil => exact .inl h
  | cons context ladder ih =>
    have hlater : ∀ best', climb fitAt ladder best' = some fit →
        (best' = some fit → best = some fit ∨
        ∃ context' ∈ context :: ladder, fitAt context' = some fit) → best = some fit ∨
        ∃ context' ∈ context :: ladder, fitAt context' = some fit := by
      intro best' hclimb hnow
      rcases ih hclimb with hbest | ⟨later, hlater, hfit⟩
      · exact hnow hbest
      · exact .inr ⟨later, List.mem_cons_of_mem _ hlater, hfit⟩
    rw [climb] at h
    split at h
    · split at h
      · exact .inl h
      · exact hlater _ h fun hnone => nomatch hnone
    · rename_i next hnext
      split at h
      · exact .inl h
      · refine hlater _ h fun hsome => ?_
        rw [← hsome]
        exact .inr ⟨context, List.mem_cons_self, hnext⟩

/-- What is kept needs no more stages than what was kept before. -/
lemma length_climb_le {fitAt : UInt32 → Option (Fit D)} {ladder : List UInt32} {best fit : Fit D}
    (h : climb fitAt ladder (some best) = some fit) : fit.plan.length ≤ best.plan.length := by
  induction ladder generalizing best with
  | nil =>
    rw [climb, Option.some.injEq] at h
    rw [h]
  | cons context ladder ih =>
    rw [climb] at h
    split at h
    · rw [Option.isSome_some, if_pos rfl, Option.some.injEq] at h
      rw [h]
    · rename_i next hnext
      split at h
      · rw [Option.some.injEq] at h
        rw [h]
      · rename_i hfew
        rw [Option.any_some, decide_eq_true_eq, Nat.not_lt] at hfew
        exact Nat.le_trans (ih h) hfew

section

variable [Arithmetic D] [Arithmetic L] {p : Placing D} {request : PlacementRequest D}
  {attempt : Nat}
  {workers : List (GreetedWorker D)} {index : Nat} {option : ModelOption} {fit : Fit D}

lemma context_of_fitAt {context : UInt32}
    (h : fitAt L p request attempt workers index option context = some fit) :
    fit.context = context ∧ fit.preview.context = context ∧ fit.preview.model = index := by
  rw [fitAt, Option.bind_eq_some_iff] at h
  obtain ⟨⟨pool, head⟩, -, h⟩ := h
  obtain ⟨result, -, rfl⟩ := Option.map_eq_some_iff.mp h
  exact ⟨rfl, rfl, rfl⟩

/-- The context of what the workers are to run is one of the ladder's. -/
lemma context_of_bestFit (h : bestFit L p request attempt workers index option = some fit) :
    fit.context ∈ contextLadder option request ∧ fit.preview.context = fit.context ∧
      fit.preview.model = index := by
  rcases climb_eq_some h with hnone | ⟨context, hcontext, hfit⟩
  · cases hnone
  · obtain ⟨hhere, hpreview, hindex⟩ := context_of_fitAt hfit
    rw [hhere, hpreview]
    exact ⟨hcontext, rfl, hindex⟩

lemma placed_of_attempts {left attempt : Nat} {workers : List (GreetedWorker D)}
    {option : ModelOption}
    {fit : Fit D} (h : attempts L p request left attempt workers = .ok (.placed option fit)) :
    ∃ attempt' workers', chosenFit L p request attempt' workers' = some (option, fit) := by
  induction left generalizing attempt workers with
  | zero => cases h
  | succ left ih =>
    rw [attempts] at h
    split at h
    · cases h
    · split at h
      · cases h
      · rename_i option' fit' hchosen
        split at h
        · cases h
        · cases h
          exact ⟨_, _, hchosen⟩
        · exact ih h

lemma previewed_of_attempts {left attempt : Nat} {workers : List (GreetedWorker D)}
    {previews : List (RoutePreview D)}
    (h : attempts L p request left attempt workers = .ok (.previewed previews)) :
    ∃ attempt' workers', previews = previewsOf L p request attempt' workers' := by
  induction left generalizing attempt workers with
  | zero => cases h
  | succ left ih =>
    rw [attempts] at h
    split at h
    · cases h
      exact ⟨_, _, rfl⟩
    · split at h
      · cases h
      · split at h
        · cases h
        · cases h
        · exact ih h

/-- What is kept needs no more stages than the plan at the catalog's context. -/
lemma stages_le_floor (hlargest : request.largestContext) (hfixed : request.context = 0)
    {floorFit : Fit D} (hfit : bestFit L p request attempt workers index option = some fit)
    (hfloorFit : fitAt L p request attempt workers index option option.manifest.context =
      some floorFit) : fit.plan.length ≤ floorFit.plan.length := by
  rw [bestFit] at hfit
  by_cases hfloor : option.manifest.context = 0
  · have hempty : contextLadder option request = [] := by
      rw [contextLadder, if_neg (not_not.mpr hfixed), if_pos hfloor]
    rw [hempty] at hfit
    cases hfit
  · obtain ⟨ladder, hladder⟩ := contextLadder_eq_cons hlargest hfixed hfloor
    rw [hladder, climb, hfloorFit] at hfit
    exact length_climb_le hfit

variable (L) in
/-- With the largest context asked for and no fixed one, the ladders are in order and no route and
no preview gets less context than the catalog says, for any workers: exactly where every catalog
context is positive and at most the largest that is tried. A larger context never costs a stage. -/
theorem context_kept_iff (hlargest : request.largestContext) (hfixed : request.context = 0) :
    ((∀ option ∈ request.models, LadderOk option request) ∧
      ∀ (p : Placing D) (candidates : List PlacementCandidate),
        (∀ previews, placeRoute L p request candidates = .ok (.previewed previews) →
          ∀ preview ∈ previews, ∃ option, request.models[preview.model]? = some option ∧
            option.manifest.context ≤ preview.context) ∧
        (∀ option fit, placeRoute L p request candidates = .ok (.placed option fit) →
          option ∈ request.models ∧ option.manifest.context ≤ fit.context) ∧
        ∀ attempt workers index option fit floorFit,
          bestFit L p request attempt workers index option = some fit →
          fitAt L p request attempt workers index option option.manifest.context = some floorFit →
          fit.plan.length ≤ floorFit.plan.length) ↔
      ∀ option ∈ request.models,
        0 < option.manifest.context ∧ option.manifest.context ≤ largestContext := by
  constructor
  · exact fun h option hoption => (ladderOk_iff hlargest hfixed).mp (h.1 option hoption)
  · intro h
    have hladders : ∀ option ∈ request.models, LadderOk option request := fun option hoption =>
      (ladderOk_iff hlargest hfixed).mpr (h option hoption)
    refine ⟨hladders, fun p candidates => ⟨?_, ?_, ?_⟩⟩
    · intro previews hplaced preview hpreview
      rw [placeRoute] at hplaced
      split at hplaced
      · cases hplaced
      · split at hplaced
        · cases hplaced
        · obtain ⟨attempt, workers, rfl⟩ := previewed_of_attempts hplaced
          obtain ⟨⟨option, index⟩, hindexed, hfit⟩ := List.mem_filterMap.mp hpreview
          obtain ⟨fit, hbest, rfl⟩ := Option.map_eq_some_iff.mp hfit
          obtain ⟨hcontext, hpreviewed, hindex⟩ := context_of_bestFit hbest
          have hoption := List.mem_zipIdx_iff_getElem?.mp hindexed
          refine ⟨option, hindex ▸ hoption, ?_⟩
          rw [hpreviewed]
          exact (hladders option (List.mem_of_getElem? hoption)).floor_le _ hcontext
    · intro option fit hplaced
      rw [placeRoute] at hplaced
      split at hplaced
      · cases hplaced
      · split at hplaced
        · cases hplaced
        · obtain ⟨attempt, workers, hchosen⟩ := placed_of_attempts hplaced
          obtain ⟨⟨option', index⟩, hindexed, hfit⟩ := List.exists_of_findSome?_eq_some hchosen
          obtain ⟨fit', hbest, heq⟩ := Option.map_eq_some_iff.mp hfit
          cases heq
          have hoption := List.mem_of_getElem? (List.mem_zipIdx_iff_getElem?.mp hindexed)
          exact ⟨hoption, (hladders option hoption).floor_le _ (context_of_bestFit hbest).1⟩
    · intro attempt workers index option fit floorFit hfit hfloorFit
      exact stages_le_floor hlargest hfixed hfit hfloorFit

end

/-! ### A catalog with a context above the largest -/

/-- A small model with that context in the catalog. -/
def smallOption (context : UInt32) : ModelOption :=
  ⟨⟨List.replicate 64 'a', 64, context⟩, Request.tinyModel, 32768⟩

def smallPlacement (context : UInt32) : PlacementRequest Time where
  models := [smallOption context]
  largestContext := true
  previews := true
  firstTokenLimitMs := ofNat 0

def roomyWorker : GreetedWorker Time where
  candidate := { control := "127.0.0.1:4000".toList, peerId := [] }
  hello := {
    id := "w".toList
    offeredVramMib := 4096
    ringEndpoint := "127.0.0.1:5000".toList
    state := "available".toList
    maxContext := 2 ^ 20
    maxSessions := 1
    models := [List.replicate 64 'a'] }
  orderKey := "w".toList

def onePlacing : Placing Time where
  opened := [roomyWorker]
  greet _ workers := workers
  now _ _ _ := 0
  cut _ _ _ _ _ := 0
  carryOut _ _ _ _ := .ok none

def previewsIn : Except String (Placed D) → List (RoutePreview D)
  | .ok (.previewed previews) => previews
  | _ => []

lemma eq_previewed_of_ne_nil {placed : Except String (Placed D)} (h : previewsIn placed ≠ []) :
    placed = .ok (.previewed (previewsIn placed)) := by
  rcases placed with e | ⟨previews⟩ | _
  · exact absurd rfl h
  · rfl
  · exact absurd rfl h

/-- With 300000 in the catalog, the ladder goes down and the preview has 262144. -/
theorem context_below_catalog :
    ¬ LadderOk (smallOption 300000) (smallPlacement 300000) ∧
      ∃ previews, placeRoute Time onePlacing (smallPlacement 300000) [roomyWorker.candidate] =
          .ok (.previewed previews) ∧
        previews.map (fun preview => (preview.model, preview.context)) = [(0, 262144)] := by
  constructor
  · rw [ladderOk_iff rfl rfl]
    decide
  · have hrun : (previewsIn (placeRoute Time onePlacing (smallPlacement 300000)
        [roomyWorker.candidate])).map (fun preview => (preview.model, preview.context)) =
            [(0, 262144)] := by
      decide +kernel
    refine ⟨_, eq_previewed_of_ne_nil fun hnil => ?_, hrun⟩
    rw [hnil] at hrun
    cases hrun

theorem context_kept_small :
    LadderOk (smallOption 8192) (smallPlacement 8192) ∧
      ∃ preview, placeRoute Time onePlacing (smallPlacement 8192) [roomyWorker.candidate] =
        .ok (.previewed [preview]) ∧ preview.context = 32768 ∧
        ∃ option, [smallOption 8192][preview.model]? = some option ∧
          option.manifest.context ≤ preview.context := by
  have hkept := (context_kept_iff Time (rfl : (smallPlacement 8192).largestContext = true) rfl).mpr
    (by decide)
  have hrun : (previewsIn (placeRoute Time onePlacing (smallPlacement 8192)
      [roomyWorker.candidate])).map (·.context) = [32768] := by
    decide +kernel
  refine ⟨hkept.1 _ List.mem_cons_self, ?_⟩
  obtain ⟨preview, hpreviews, hcontext⟩ := List.map_eq_singleton_iff.mp hrun
  have hplaced := eq_previewed_of_ne_nil (hpreviews ▸ List.cons_ne_nil _ _)
  rw [hpreviews] at hplaced
  exact ⟨preview, hplaced, hcontext,
    (hkept.2 onePlacing _).1 [preview] hplaced preview List.mem_cons_self⟩

end ProviderOwned
