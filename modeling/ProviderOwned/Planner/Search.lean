import Mathlib.Data.List.Sublists
import Mathlib.Data.List.Rotate
import ProviderOwned.Planner.Sizes

/-!
# The plan search

`search_plan` of `search.cpp`: which candidates form a route, in which order, and where the layer
boundaries fall. For one order the split is the best one by a dynamic program over the boundaries
(`best_split`); groups and orders are tried one after another within a work budget, and a plan from
the ranges already on disk is taken where it is nearly as fast.

The times are `double`s and some of the memory is a `long double`. What the search returns does not
depend on how they are rounded, so their arithmetic is left open (`Arithmetic`): all that is used
of it is that infinity equals itself.
-/

namespace ProviderOwned.Planner

/-- The operations of a floating-point type. -/
class Arithmetic (D : Type) extends Add D, Sub D, Mul D, Div D, Neg D where
  ofNat : Nat → D
  /-- `decimal n k` is the literal `n * 10 ^ (-k)`. -/
  decimal : Nat → Nat → D
  infinite : D
  lt : D → D → Bool
  le : D → D → Bool
  eq : D → D → Bool
  eq_infinite : eq infinite infinite

open Arithmetic

section

variable {D L : Type} [Arithmetic D] [Arithmetic L]

/-- `std::max`. -/
def maxOf (a b : D) : D := if lt a b then b else a

/-- `std::min`. -/
def minOf (a b : D) : D := if lt b a then b else a

structure Link (D : Type) where
  peer : String
  rttMs : D
  relayed : Bool
  mibPerS : D

structure SearchCandidate (D : Type) where
  offeredMib : UInt64
  usPerGib : D
  rttMs : D
  relayed : Bool
  prefillUsPerGib : D
  cached : List (Int × Int)
  key : String
  links : List (Link D)

structure SearchRequest (D : Type) where
  context : UInt32
  sessions : UInt32
  minimumStages : Nat
  maximumStages : Nat
  head : Option Nat
  workBudget : Nat
  poolLimit : Nat
  cachedTolerance : D
  relayPenaltyMs : D
  promptRows : UInt32
  chunkRows : UInt32
  rowBytes : UInt64
  firstTokenLimitMs : D

structure SearchResult (D : Type) where
  plan : List StageAssignment
  tokenMs : D
  firstTokenMs : D
  fromCache : Bool
  evaluated : Nat
  complete : Bool

/-- A candidate as its default constructor leaves it. -/
instance : Inhabited (SearchCandidate D) := ⟨⟨0, ofNat 0, ofNat 0, false, ofNat 0, [], "", []⟩⟩

/-! ### Times -/

def gib : D := ofNat (2 ^ 30)

def speedOf (c : SearchCandidate D) : D :=
  if lt (ofNat 0) c.usPerGib then c.usPerGib else ofNat 4000

def rttOf (c : SearchCandidate D) (r : SearchRequest D) : D :=
  c.rttMs + (if c.relayed then r.relayPenaltyMs else ofNat 0)

def computeMs (s : Sizes) (c : SearchCandidate D) (first last : Nat) : D :=
  ofNat (s.decode first last).toNat / gib * speedOf c / ofNat 1000

/-- The links that one of two candidates measured to the other. -/
def linksBetween (a b : SearchCandidate D) : List (Link D) :=
  [(a, b), (b, a)].flatMap fun (a, b) => a.links.filter fun link => b.key ≠ "" ∧ link.peer = b.key

def measuredRtt (a b : SearchCandidate D) (r : SearchRequest D) : Option D :=
  (linksBetween a b).head?.map fun link =>
    link.rttMs + (if link.relayed then r.relayPenaltyMs else ofNat 0)

def measuredMibPerS (a b : SearchCandidate D) : D :=
  (linksBetween a b).foldl (fun best link => maxOf best link.mibPerS) (ofNat 0)

def linkOneWayMs (candidates : List (SearchCandidate D)) (r : SearchRequest D) (a b : Nat) : D :=
  let fromRtt := rttOf (candidates.getD a default) r
  let toRtt := rttOf (candidates.getD b default) r
  if r.head = some a then toRtt / ofNat 2
  else if r.head = some b then fromRtt / ofNat 2
  else (measuredRtt (candidates.getD a default) (candidates.getD b default) r).getD
    (fromRtt + toRtt) / ofNat 2

def linksMs (candidates : List (SearchCandidate D)) (r : SearchRequest D) (order : List Nat) : D :=
  if order.length < 2 then ofNat 0
  else (order.zip (order.rotate 1)).foldl
    (fun total (a, b) => total + linkOneWayMs candidates r a b) (ofNat 0)

def decodeBytes (m : ModelIndex) (first last : Nat) : Nat :=
  if first = 0 then
    m.tensors.foldl (fun bytes t =>
      if t.name = "token_embd.weight".toList ∧ t.bytes.toNat < bytes then bytes - t.bytes.toNat
      else bytes) (stageModelBytes m first last)
  else stageModelBytes m first last

def searchTokenMs (m : ModelIndex) (candidates : List (SearchCandidate D)) (r : SearchRequest D)
    (plan : List StageAssignment) : D :=
  plan.foldl (fun total a => total + ofNat (decodeBytes m a.first a.last) / gib *
    speedOf (candidates.getD a.provider default) / ofNat 1000) (ofNat 0) +
      linksMs candidates r (plan.map StageAssignment.provider)

def firstTokenRank (firstTokenMs : D) (r : SearchRequest D) : Int :=
  if le r.firstTokenLimitMs (ofNat 0) then 2
  else if le firstTokenMs (ofNat 0) then 1
  else if le firstTokenMs r.firstTokenLimitMs then 2 else 0

/-- The loop of `search_first_token_ms` over the stages: the total and the slowest of stages and
hops, or nothing where one of them was not measured. -/
def firstTokenSteps (m : ModelIndex) (candidates : List (SearchCandidate D)) (r : SearchRequest D)
    (rows : D) : List StageAssignment → D → D → Option (D × D)
  | [], total, slowest => some (total, slowest)
  | a :: rest, total, slowest =>
    let c := candidates.getD a.provider default
    if !lt (ofNat 0) c.prefillUsPerGib then none
    else
      let ms := ofNat (decodeBytes m a.first a.last) / gib * c.prefillUsPerGib / ofNat 1000 * rows
      let total := total + ms
      let slowest := maxOf slowest ms
      match rest with
      | [] => some (total, slowest)
      | b :: others =>
        let mibPerS := measuredMibPerS c (candidates.getD b.provider default)
        if !lt (ofNat 0) mibPerS || r.rowBytes = 0 then none
        else
          let hop := rows * ofNat r.rowBytes.toNat / (mibPerS * ofNat mib) * ofNat 1000
          firstTokenSteps m candidates r rows (b :: others)
            (total + hop + linkOneWayMs candidates r a.provider b.provider) (maxOf slowest hop)

def searchFirstTokenMs (m : ModelIndex) (candidates : List (SearchCandidate D))
    (r : SearchRequest D) (plan : List StageAssignment) : D :=
  if r.promptRows = 0 then ofNat 0
  else match plan.head?, plan.getLast? with
    | some first, some last =>
      let chunk := if r.chunkRows = 0 then r.promptRows else min r.chunkRows r.promptRows
      let chunks := (r.promptRows + chunk - 1) / chunk
      let rows := ofNat r.promptRows.toNat / ofNat chunks.toNat
      match firstTokenSteps m candidates r rows plan (ofNat 0) (ofNat 0) with
      | none => ofNat 0
      | some (total, slowest) =>
        let total := total + ofNat (chunks - 1).toNat * slowest
        let total := if r.head = some first.provider then total
          else total + rttOf (candidates.getD first.provider default) r / ofNat 2
        if r.head = some last.provider then total
        else total + rttOf (candidates.getD last.provider default) r / ofNat 2
    | _, _ => ofNat 0

/-! ### `best_split` -/

/-- A cell of the tables of `best_split`: the least time of stages that end there, and where the
last of them begins. -/
structure Cell (D : Type) where
  cost : D
  start : Option Nat

/-- The cells of one stage, by where it ends. -/
abbrev Row (D : Type) := Nat → Cell D

/-- A row in which nothing was reached. -/
def unreached : Row D := fun _ => ⟨infinite, none⟩

def atStart : Row D := Function.update unreached 0 ⟨ofNat 0, none⟩

/-- The loop over `end`, for one stage that begins at `first`. -/
def relax (s : Sizes) (c : SearchCandidate D) (final : Bool) (cost : D) (first : Nat) :
    List Nat → Row D → Row D
  | [], row => row
  | last :: rest, row =>
    if final ∧ last ≠ s.layers then relax s c final cost first rest row
    else if !s.fits c.offeredMib first last then row
    else
      let stageMs := computeMs s c first last
      let value := cost + stageMs + decimal 1 9 * stageMs * stageMs
      relax s c final cost first rest
        (if lt value (row last).cost then Function.update row last ⟨value, some first⟩ else row)

/-- The loop over `begin`: the row of a stage from that of the stage before it. -/
def stageRow (s : Sizes) (c : SearchCandidate D) (stage count : Nat) (previous : Row D) : Row D :=
  let lastEnd := s.layers - (count - stage - 1)
  (List.range' stage (lastEnd - stage)).foldl (fun row first =>
    if eq (previous first).cost infinite then row
    else relax s c (stage + 1 = count) (previous first).cost first
      (List.range' (first + 1) (lastEnd - first)) row) unreached

/-- The rows of an order of providers, the last stage first. -/
def stageRows (s : Sizes) (candidates : List (SearchCandidate D)) (count : Nat) :
    Nat → List Nat → List (Nat × Row D) → List (Nat × Row D)
  | _, [], rows => rows
  | stage, provider :: rest, rows =>
    let previous := (rows.head?.map Prod.snd).getD atStart
    let row := stageRow s (candidates.getD provider default) stage count previous
    stageRows s candidates count (stage + 1) rest ((provider, row) :: rows)

/-- The stages that lead to a cell, before those of `plan`. -/
def backtrack (s : Sizes) : List (Nat × Row D) → Nat → List StageAssignment → List StageAssignment
  | [], _, plan => plan
  | (provider, row) :: earlier, last, plan =>
    let first := (row last).start.getD 0
    backtrack s earlier first
      (⟨provider, first, last, (s.model first last).toNat, (s.kv first last).toNat⟩ :: plan)

/-- `best_split`: the time of the plan, or infinity, and the plan. -/
def bestSplit (s : Sizes) (candidates : List (SearchCandidate D)) (order : List Nat) :
    D × List StageAssignment :=
  let rows := stageRows s candidates order.length 0 order []
  if eq ((rows.head?.map Prod.snd).getD atStart s.layers).cost infinite then (infinite, [])
  else
    let plan := backtrack s rows s.layers []
    (plan.foldl (fun total a =>
      total + computeMs s (candidates.getD a.provider default) a.first a.last) (ofNat 0), plan)

/-! ### `search_pool` -/

/-- `ranked`: the candidates in the order of a number, then of their keys; the sort is stable. -/
def ranked (candidates : List (SearchCandidate D)) (better : SearchCandidate D → D) : List Nat :=
  let less (left right : Nat) : Bool :=
    let a := candidates.getD left default
    let b := candidates.getD right default
    if !eq (better a) (better b) then lt (better a) (better b) else a.key < b.key
  (List.range candidates.length).insertionSort fun left right => !less right left

/-- One round over the lists: the next candidate of each that is not taken. -/
def poolRound (limit : Nat) : List (List Nat) → List Nat → List Nat
  | [], pool => pool
  | list :: rest, pool =>
    if pool.length < limit then
      match list.find? (· ∉ pool) with
      | none => poolRound limit rest pool
      | some candidate => poolRound limit rest (pool ++ [candidate])
    else poolRound limit rest pool

/-- The rounds of `search_pool`. -/
def poolRounds (limit : Nat) (lists : List (List Nat)) : Nat → List Nat → List Nat
  | 0, pool => pool
  | n + 1, pool =>
    if pool.length < limit then poolRounds limit lists n (poolRound limit lists pool) else pool

/-- `search_pool`. Every round takes a candidate, so `limit` rounds are enough. -/
def searchPool (candidates : List (SearchCandidate D)) (r : SearchRequest D) : List Nat :=
  let lists := [ranked candidates (rttOf · r), ranked candidates fun c => -ofNat c.offeredMib.toNat,
    ranked candidates speedOf, ranked candidates fun c => if c.cached.isEmpty then ofNat 1
      else ofNat 0]
  let limit := min r.poolLimit candidates.length
  poolRounds limit lists limit (r.head.toList.filter (· < candidates.length))

/-! ### Groups and orders -/

/-- The best plan so far, with the locals of `search_plan` that go with it. -/
structure Best (D : Type) where
  plan : List StageAssignment
  tokenMs : D
  firstTokenMs : D
  rank : Int
  evaluated : Nat
  exhaustive : Bool

section

variable (m : ModelIndex) (s : Sizes) (candidates : List (SearchCandidate D)) (r : SearchRequest D)

def tryOrder (order : List Nat) (best : Best D) : Best D :=
  let links := linksMs candidates r order
  if best.rank = 2 ∧ le best.tokenMs links then best
  else
    let (compute, plan) := bestSplit s candidates order
    if eq compute infinite then best
    else
      let firstToken := searchFirstTokenMs m candidates r plan
      let rank := firstTokenRank firstToken r
      if best.rank < rank ∨
        (rank = best.rank ∧ lt (compute + links) (best.tokenMs - decimal 1 9)) then
        { best with plan, tokenMs := compute + links, firstTokenMs := firstToken, rank }
      else best

/-- The orders of a group, and whether the budget lasted. -/
def tryOrders : List (List Nat) → Best D → Best D × Bool
  | [], best => (best, true)
  | order :: rest, best =>
    if r.workBudget ≤ best.evaluated then ({ best with exhaustive := false }, false)
    else tryOrders rest
      (tryOrder m s candidates r order { best with evaluated := best.evaluated + 1 })

/-- The permutations of `n` numbers in the order of `std::next_permutation`. -/
def nextPermutations : Nat → List Nat → List (List Nat)
  | 0, _ => [[]]
  | n + 1, members => members.flatMap fun x => (nextPermutations n (members.erase x)).map (x :: ·)

/-- The orders that are tried of the members other than the head. -/
def ordersOf (rest : List Nat) : List (List Nat) :=
  if rest.length ≤ 4 then nextPermutations rest.length (rest.insertionSort (· ≤ ·))
  else
    let sorted (less : SearchCandidate D → SearchCandidate D → Bool) : List Nat :=
      rest.insertionSort fun left right =>
        !less (candidates.getD right default) (candidates.getD left default)
    let speed := sorted fun a b => lt (speedOf a) (speedOf b)
    let memory := sorted fun a b => b.offeredMib < a.offeredMib
    let near := sorted fun a b => lt (rttOf a r) (rttOf b r)
    [speed, memory, near].foldl (fun orders order =>
      if order ∈ orders then orders else orders ++ [order]) []

variable (L) in
/-- The members of a group have enough memory in total. -/
def roomy (count : Nat) (group : List Nat) : Bool :=
  let usable : L := group.foldl (fun usable member =>
    let offered : L := ofNat (candidates.getD member default).offeredMib.toNat * ofNat mib
    usable + maxOf (ofNat 0) (offered - maxOf (ofNat 1024 * ofNat mib) (offered * decimal 15 2)))
    (ofNat 0)
  !lt usable (ofNat (s.model 0 s.layers - s.header).toNat + ofNat s.header.toNat * ofNat count +
    ofNat (s.kv 0 s.layers).toNat)

/-- No order of the group can beat the best plan. -/
def beaten (count : Nat) (group : List Nat) (best : Best D) : Bool :=
  let fastest := group.foldl (fun fastest member =>
    minOf fastest (speedOf (candidates.getD member default))) infinite
  let anyLinks := group.any fun member => !(candidates.getD member default).links.isEmpty
  let rtts := (group.filter (r.head ≠ some ·)).foldl (fun bound member =>
    bound + rttOf (candidates.getD member default) r) (ofNat 0)
  let linkBound := if count < 2 ∨ anyLinks then ofNat 0 else rtts / ofNat 2
  best.rank = 2 && le best.tokenMs
    (ofNat (s.decode 0 s.layers).toNat / gib * fastest / ofNat 1000 + linkBound)

variable (L) in
def tryGroup (count : Nat) (group : List Nat) (best : Best D) : Best D × Bool :=
  if r.head.any (· ∉ group) then (best, true)
  else if !roomy L s candidates count group then (best, true)
  else if beaten s candidates r count group best then (best, true)
  else
    let rest := group.filter (r.head ≠ some ·)
    tryOrders m s candidates r ((ordersOf candidates r rest).map (r.head.toList ++ ·))
      { best with exhaustive := best.exhaustive && rest.length ≤ 4 }

variable (L) in
def tryGroups (count : Nat) : List (List Nat) → Best D → Best D
  | [], best => best
  | group :: rest, best =>
    match tryGroup L m s candidates r count group best with
    | (best, true) => tryGroups count rest best
    | (best, false) => best

variable (L) in
/-- The groups of each size, as combinations of the pool in increasing order. -/
def tryCounts (pool : List Nat) : List Nat → Best D → Best D
  | [], best => best
  | count :: rest, best =>
    let best := tryGroups L m s candidates r count (pool.sublistsLen count).reverse best
    if r.workBudget ≤ best.evaluated then best else tryCounts pool rest best

/-- What `plan_from_cache` is asked for: the candidates of the pool, by their positions in it. -/
def pooled (pool : List Nat) : Request where
  model := m
  offered := pool.map fun candidate => (candidates.getD candidate default).offeredMib
  context := r.context
  sessions := r.sessions
  minimum := r.minimumStages
  head := r.head.bind (pool.idxOf? ·)

variable (L) in
/-- `search_plan`; the error is the `reason`. -/
def searchPlan : Except String (SearchResult D) :=
  if ¬ compatible m then .error "model cannot be staged"
  else if candidates = [] ∨ r.context = 0 ∨ r.sessions = 0 ∨ r.minimumStages = 0 ∨
      r.maximumStages < r.minimumStages ∨ r.head.any (candidates.length ≤ ·) then
    .error "invalid search request"
  else match sizesOf m r.context r.sessions with
    | none => .error "model sizes are not additive by layer"
    | some s =>
      let pool := searchPool candidates r
      let largest := min r.maximumStages (min pool.length s.layers)
      let best := tryCounts L m s candidates r pool
        (List.range' r.minimumStages (largest + 1 - r.minimumStages))
        ⟨[], infinite, ofNat 0, -1, 0, pool.length = candidates.length⟩
      let reuse := ((pooled m candidates r pool).planFromCache
        (pool.map fun candidate => (candidates.getD candidate default).cached) largest).map
          (List.map fun a => { a with provider := pool.getD a.provider 0 })
      let complete := best.exhaustive && best.evaluated < r.workBudget
      let searched : Except String (SearchResult D) :=
        if best.plan = [] then
          .error (if r.workBudget ≤ best.evaluated then "no plan found within the search budget"
            else "no group of up to " ++ toString largest ++
              " candidates holds the model with this context and session count")
        else .ok ⟨best.plan, best.tokenMs, best.firstTokenMs, false, best.evaluated, complete⟩
      match reuse with
      | none => searched
      | some plan =>
        let reuseMs := searchTokenMs m candidates r plan
        let reuseFirst := searchFirstTokenMs m candidates r plan
        if best.plan = [] ∨ (best.rank ≤ firstTokenRank reuseFirst r ∧
            le reuseMs (best.tokenMs * (ofNat 1 + r.cachedTolerance))) then
          .ok ⟨plan, reuseMs, reuseFirst, true, best.evaluated, complete⟩
        else searched

end

/-! ### What `best_split` finds -/

variable {m : ModelIndex} {s : Sizes} {candidates : List (SearchCandidate D)} {r : SearchRequest D}
  {rows : List (Nat × Row D)} {first last : Nat} {plan : List StageAssignment}

/-- Stages that fit lead to `last`, by the rows of an order, the last stage first. -/
def Reached (s : Sizes) (candidates : List (SearchCandidate D)) : List (Nat × Row D) → Nat → Prop
  | [], last => last = 0
  | (provider, row) :: earlier, last =>
    ∃ first, (row last).start = some first ∧ first < last ∧ last ≤ s.layers ∧
      s.fits (candidates.getD provider default).offeredMib first last ∧
      Reached s candidates earlier first

/-- Every cell of the last row that has a cost is reached. -/
def RowsOk (s : Sizes) (candidates : List (SearchCandidate D)) (rows : List (Nat × Row D)) : Prop :=
  ∀ last, eq ((rows.head?.map Prod.snd).getD atStart last).cost infinite ∨
    Reached s candidates rows last

lemma rowsOk_nil : RowsOk s candidates ([] : List (Nat × Row D)) := by
  intro last
  by_cases hzero : last = 0
  · exact .inr hzero
  · left
    have hcell : (atStart last : Cell D) = ⟨infinite, none⟩ := Function.update_of_ne hzero _ _
    simp only [List.head?_nil, Option.map_none, Option.getD_none, hcell]
    exact eq_infinite

/-- Going through the ends of a stage that begins at a reached layer keeps the row. -/
lemma rowsOk_relax {provider : Nat} {final : Bool} {cost : D} {lasts : List Nat} {row : Row D}
    (hreached : Reached s candidates rows first)
    (hlasts : ∀ last ∈ lasts, first < last ∧ last ≤ s.layers)
    (hrow : RowsOk s candidates ((provider, row) :: rows)) :
    RowsOk s candidates
      ((provider, relax s (candidates.getD provider default) final cost first lasts row) ::
        rows) := by
  induction lasts generalizing row with
  | nil => exact hrow
  | cons last rest ih =>
    obtain ⟨hlast, hrest⟩ := List.forall_mem_cons.mp hlasts
    rw [relax]
    split_ifs with hskip hfits
    · exact ih hrest hrow
    · exact hrow
    · refine ih hrest ?_
      split_ifs with hless
      · intro other
        by_cases hother : other = last
        · subst hother
          right
          refine ⟨first, ?_, hlast.1, hlast.2, by simpa using hfits, hreached⟩
          rw [Function.update_self]
        · have hsame := hrow other
          simp only [List.head?_cons, Option.map_some, Option.getD_some, Reached] at hsame ⊢
          rwa [Function.update_of_ne hother]
      · exact hrow

lemma rowsOk_stageRow {provider stage count : Nat} (hrows : RowsOk s candidates rows) :
    RowsOk s candidates ((provider, stageRow s (candidates.getD provider default) stage count
      ((rows.head?.map Prod.snd).getD atStart)) :: rows) := by
  rw [stageRow]
  have hend : s.layers - (count - stage - 1) ≤ s.layers := Nat.sub_le _ _
  generalize s.layers - (count - stage - 1) = lastEnd at *
  have hunreached : RowsOk s candidates ((provider, unreached) :: rows) := fun _ => .inl eq_infinite
  revert hunreached
  generalize (unreached : Row D) = row
  generalize List.range' stage (lastEnd - stage) = firsts
  induction firsts generalizing row with
  | nil => exact id
  | cons first rest ih =>
    intro hrow
    rw [List.foldl_cons]
    apply ih
    split_ifs with hcost
    · exact hrow
    · refine rowsOk_relax ((hrows first).resolve_left hcost) (fun last hlast => ?_) hrow
      rw [List.mem_range'_1] at hlast
      omega

lemma rowsOk_stageRows {stage count : Nat} {order : List Nat} (hrows : RowsOk s candidates rows) :
    RowsOk s candidates (stageRows s candidates count stage order rows) := by
  induction order generalizing stage rows with
  | nil => exact hrows
  | cons provider rest ih => exact ih (rowsOk_stageRow hrows)

lemma stageRows_providers {stage count : Nat} {order : List Nat} :
    (stageRows s candidates count stage order rows).map Prod.fst =
      order.reverse ++ rows.map Prod.fst := by
  induction order generalizing stage rows with
  | nil => rfl
  | cons provider rest ih =>
      rw [stageRows, ih, List.map_cons, List.reverse_cons, List.append_assoc]; rfl

/-- What the search asks for, in the planner's terms. -/
def asked (m : ModelIndex) (candidates : List (SearchCandidate D)) (r : SearchRequest D) :
    Request where
  model := m
  offered := candidates.map SearchCandidate.offeredMib
  context := r.context
  sessions := r.sessions
  minimum := r.minimumStages
  head := r.head

/-- A stage that fits by the folded sizes is one of the planner's. -/
lemma asked_fits {provider : Nat} (hsizes : SizesOf m r.context r.sessions s)
    (hkv : kvBytes m 0 m.layers.toNat r.context r.sessions ≠ 0) (hlast : first < last)
    (hlayers : last ≤ m.layers.toNat) (hprovider : provider < candidates.length)
    (hfits : s.fits (candidates.getD provider default).offeredMib first last) :
    (asked m candidates r).fits provider first last =
      some ⟨provider, first, last, (s.model first last).toNat, (s.kv first last).toNat⟩ := by
  have hscan := hsizes.stageFits_of_fits hkv hlast hlayers hfits
  have hoffered : (asked m candidates r).offered[provider]? =
      some (candidates.getD provider default).offeredMib := by
    simp [asked, hprovider]
  rw [Request.fits, hoffered, Option.bind_some]
  exact congrArg (Option.map _) hscan

/-- Going back through the rows gives stages of the order up to where they lead. -/
lemma backtrack_spec (hsizes : SizesOf m r.context r.sessions s)
    (hkv : kvBytes m 0 m.layers.toNat r.context r.sessions ≠ 0)
    (hknown : ∀ provider ∈ rows.map Prod.fst, provider < candidates.length)
    (hreached : Reached s candidates rows last) (plan : List StageAssignment) :
    ∃ front, backtrack s rows last plan = front ++ plan ∧ Request.Tiles 0 last front ∧
      front.map StageAssignment.provider = (rows.map Prod.fst).reverse ∧
      ∀ a ∈ front, (asked m candidates r).fits a.provider a.first a.last = some a := by
  induction rows generalizing last plan with
  | nil => exact ⟨[], rfl, Eq.symm hreached, rfl, by simp⟩
  | cons entry earlier ih =>
    obtain ⟨provider, row⟩ := entry
    obtain ⟨first, hstart, hlt, hle, hfits, hearlier⟩ := hreached
    obtain ⟨hprovider, hothers⟩ := List.forall_mem_cons.mp hknown
    let a : StageAssignment :=
      ⟨provider, first, last, (s.model first last).toNat, (s.kv first last).toNat⟩
    have ha : (asked m candidates r).fits a.provider a.first a.last = some a :=
      asked_fits hsizes hkv hlt (hsizes.layers ▸ hle) hprovider hfits
    obtain ⟨front, heq, htiles, hproviders, hfront⟩ := ih hothers hearlier (a :: plan)
    have htiles : Request.Tiles 0 a.last (front ++ [a]) :=
      Request.tiles_concat_iff.mpr ⟨htiles, hlt, rfl⟩
    refine ⟨front ++ [a], ?_, htiles, ?_, ?_⟩
    · rw [backtrack, hstart, Option.getD_some, heq, List.append_assoc, List.singleton_append]
    · rw [List.map_append, hproviders, List.map_cons (l := earlier), List.reverse_cons]
      rfl
    · exact List.forall_mem_append.mpr ⟨hfront, List.forall_mem_singleton.mpr ha⟩

/-- The split that `best_split` finds is one. -/
lemma splits_of_bestSplit {order : List Nat} (hsizes : SizesOf m r.context r.sessions s)
    (hkv : kvBytes m 0 m.layers.toNat r.context r.sessions ≠ 0)
    (hknown : ∀ provider ∈ order, provider < candidates.length)
    (h : ¬ eq (bestSplit s candidates order).1 infinite) :
    (asked m candidates r).Splits order 0 (bestSplit s candidates order).2 := by
  have hrows : RowsOk s candidates (stageRows s candidates order.length 0 order []) :=
    rowsOk_stageRows rowsOk_nil
  have hproviders : (stageRows s candidates order.length 0 order []).map Prod.fst =
      order.reverse := by
    rw [stageRows_providers, List.map_nil, List.append_nil]
  unfold bestSplit at h ⊢
  dsimp only at h ⊢
  split_ifs at h ⊢ with hcost
  · exact absurd eq_infinite h
  · have hreached := (hrows s.layers).resolve_left hcost
    have hrowsKnown : ∀ provider ∈ (stageRows s candidates order.length 0 order []).map Prod.fst,
        provider < candidates.length := by
      simpa [hproviders] using hknown
    obtain ⟨front, heq, htiles, horder, hfits⟩ := backtrack_spec hsizes hkv hrowsKnown hreached []
    rw [List.append_nil] at heq
    rw [hproviders, List.reverse_reverse] at horder
    rw [hsizes.layers] at htiles heq
    rw [hsizes.layers, heq]
    exact ⟨htiles, horder, hfits⟩

/-! ### The pool -/

variable {lists : List (List Nat)} {pool : List Nat}

/-- A pool of different candidates. -/
def PoolOk (candidates : List (SearchCandidate D)) (pool : List Nat) : Prop :=
  pool.Nodup ∧ ∀ candidate ∈ pool, candidate < candidates.length

lemma perm_ranked (better : SearchCandidate D → D) :
    (ranked candidates better).Perm (List.range candidates.length) :=
  List.perm_insertionSort _ _

omit [Arithmetic D] in
/-- The next candidate of a list is not in the pool yet. -/
lemma PoolOk.concat {list : List Nat} {candidate : Nat} (h : PoolOk candidates pool)
    (hlist : list.Perm (List.range candidates.length))
    (hfound : list.find? (· ∉ pool) = some candidate) :
    PoolOk candidates (pool ++ [candidate]) := by
  have hnew : candidate ∉ pool := by simpa using List.find?_some hfound
  have hknown : candidate < candidates.length :=
    List.mem_range.mp (hlist.subset (List.mem_of_find?_eq_some hfound))
  refine ⟨List.nodup_append.mpr ⟨h.1, by simp, fun a ha b hb => ?_⟩,
    List.forall_mem_append.mpr ⟨h.2, List.forall_mem_singleton.mpr hknown⟩⟩
  rw [List.mem_singleton.mp hb]
  rintro rfl
  exact hnew ha

omit [Arithmetic D] in
lemma poolRound_spec (limit : Nat)
    (hlists : ∀ list ∈ lists, list.Perm (List.range candidates.length))
    (h : PoolOk candidates pool) :
    PoolOk candidates (poolRound limit lists pool) ∧ pool <+: poolRound limit lists pool := by
  induction lists generalizing pool with
  | nil => exact ⟨h, List.prefix_rfl⟩
  | cons list rest ih =>
    obtain ⟨hlist, hrest⟩ := List.forall_mem_cons.mp hlists
    rw [poolRound]
    split_ifs with hroom
    · cases hfound : list.find? (· ∉ pool) with
      | none => exact ih hrest h
      | some candidate =>
        obtain ⟨hround, hgrown⟩ := ih hrest (h.concat hlist hfound)
        exact ⟨hround, (List.prefix_append pool [candidate]).trans hgrown⟩
    · exact ih hrest h

omit [Arithmetic D] in
lemma poolRounds_spec (limit n : Nat)
    (hlists : ∀ list ∈ lists, list.Perm (List.range candidates.length))
    (h : PoolOk candidates pool) :
    PoolOk candidates (poolRounds limit lists n pool) ∧ pool <+: poolRounds limit lists n pool := by
  induction n generalizing pool with
  | zero => exact ⟨h, List.prefix_rfl⟩
  | succ n ih =>
    rw [poolRounds]
    split_ifs with hroom
    · obtain ⟨hround, hgrown⟩ := poolRound_spec limit hlists h
      obtain ⟨hrounds, hmore⟩ := ih hround
      exact ⟨hrounds, hgrown.trans hmore⟩
    · exact ⟨h, List.prefix_rfl⟩

omit [Arithmetic D] in
/-- As long as there is room, a round takes a candidate: the first list has one that is not
taken. -/
lemma length_lt_poolRound {limit : Nat}
    (hlists : ∀ list ∈ lists, list.Perm (List.range candidates.length)) (hne : lists ≠ [])
    (h : PoolOk candidates pool) (hroom : pool.length < limit)
    (hlimit : limit ≤ candidates.length) :
    pool.length < (poolRound limit lists pool).length := by
  match lists with
  | [] => exact absurd rfl hne
  | list :: rest =>
    obtain ⟨hlist, hrest⟩ := List.forall_mem_cons.mp hlists
    rw [poolRound, if_pos hroom]
    cases hfound : list.find? (· ∉ pool) with
    | none =>
      have hall : list ⊆ pool := fun candidate hcandidate => by
        simpa using List.find?_eq_none.mp hfound candidate hcandidate
      have hle := ((hlist.nodup_iff.mpr List.nodup_range).subperm hall).length_le
      rw [hlist.length_eq, List.length_range] at hle
      omega
    | some candidate =>
      have hgrown := (poolRound_spec limit hrest (h.concat hlist hfound)).2.length_le
      rwa [List.length_append, List.length_singleton] at hgrown

omit [Arithmetic D] in
/-- The rounds do not end before the pool is full. -/
lemma le_length_poolRounds {limit n : Nat}
    (hlists : ∀ list ∈ lists, list.Perm (List.range candidates.length)) (hne : lists ≠ [])
    (h : PoolOk candidates pool) (hlimit : limit ≤ candidates.length)
    (hn : limit ≤ pool.length + n) :
    limit ≤ (poolRounds limit lists n pool).length := by
  induction n generalizing pool with
  | zero => exact hn
  | succ n ih =>
    rw [poolRounds]
    split_ifs with hroom
    · have hmore := length_lt_poolRound hlists hne h hroom hlimit
      exact ih (poolRound_spec limit hlists h).1 (by omega)
    · exact Nat.not_lt.mp hroom

/-- The pool has different candidates, the head among them, and as many as it may have. -/
lemma searchPool_spec :
    PoolOk candidates (searchPool candidates r) ∧
      (∀ head ∈ r.head, head < candidates.length → head ∈ searchPool candidates r) ∧
      min r.poolLimit candidates.length ≤ (searchPool candidates r).length := by
  have hstart : PoolOk candidates (r.head.toList.filter (· < candidates.length)) := by
    refine ⟨List.Nodup.filter _ (Option.toList_nodup r.head), fun candidate hcandidate => ?_⟩
    simpa using (List.mem_filter.mp hcandidate).2
  rw [searchPool]
  generalize hlists : [ranked candidates (rttOf · r),
    ranked candidates fun c => -ofNat c.offeredMib.toNat, ranked candidates speedOf,
    ranked candidates fun c => if c.cached.isEmpty then ofNat 1 else ofNat 0] = lists
  have hperm : ∀ list ∈ lists, list.Perm (List.range candidates.length) := by
    simp [← hlists, perm_ranked]
  have hne : lists ≠ [] := by simp [← hlists]
  obtain ⟨hpool, hgrown⟩ := poolRounds_spec (min r.poolLimit candidates.length)
    (min r.poolLimit candidates.length) hperm hstart
  refine ⟨hpool,
    fun head hhead hknown => hgrown.subset (List.mem_filter.mpr ⟨?_, by simpa using hknown⟩), ?_⟩
  · exact Option.mem_toList.mpr hhead
  · exact le_length_poolRounds hperm hne hstart (Nat.min_le_right _ _) (Nat.le_add_left _ _)

/-! ### What the search tries -/

lemma perm_of_mem_nextPermutations {n : Nat} {members order : List Nat} (hn : members.length = n)
    (h : order ∈ nextPermutations n members) : order.Perm members := by
  induction n generalizing members order with
  | zero =>
    rw [List.length_eq_zero_iff.mp hn, List.mem_singleton.mp h]
  | succ n ih =>
    obtain ⟨x, hx, horder⟩ := List.mem_flatMap.mp h
    obtain ⟨tail, htail, rfl⟩ := List.mem_map.mp horder
    have hlength : (members.erase x).length = n := by
      rw [List.length_erase_of_mem hx, hn, Nat.succ_sub_one]
    exact ((ih hlength htail).cons x).trans (List.perm_cons_erase hx).symm

lemma perm_of_mem_ordersOf {rest order : List Nat} (h : order ∈ ordersOf candidates r rest) :
    order.Perm rest := by
  unfold ordersOf at h
  split_ifs at h with hsmall
  · have hsorted := List.perm_insertionSort (· ≤ ·) rest
    exact (perm_of_mem_nextPermutations hsorted.length_eq h).trans hsorted
  · -- each of the three orders is the group, sorted
    have hdistinct : ∀ orders tried : List (List Nat), (∀ order ∈ orders, order.Perm rest) →
        (∀ order ∈ tried, order.Perm rest) →
        ∀ order ∈ orders.foldl (fun tried order =>
          if order ∈ tried then tried else tried ++ [order]) tried, order.Perm rest := by
      intro orders
      induction orders with
      | nil => exact fun tried _ htried => htried
      | cons next orders ih =>
        intro tried horders htried
        obtain ⟨hnext, horders⟩ := List.forall_mem_cons.mp horders
        refine ih _ horders ?_
        dsimp only
        split_ifs
        · exact htried
        · exact List.forall_mem_append.mpr ⟨htried, List.forall_mem_singleton.mpr hnext⟩
    refine hdistinct _ [] ?_ (by simp) order h
    intro order horder
    simp only [List.mem_cons, List.not_mem_nil, or_false] at horder
    rcases horder with rfl | rfl | rfl <;> exact List.perm_insertionSort _ _

/-- Every order of a group that is tried is an order of providers, the head first. -/
lemma order_of_group {pool group order : List Nat} (hpool : pool.Nodup)
    (hknown : ∀ candidate ∈ pool, candidate < candidates.length) (hgroup : group.Sublist pool)
    (hhead : ∀ head ∈ r.head, head ∈ group)
    (h : order ∈ (ordersOf candidates r (group.filter (r.head ≠ some ·))).map
      (r.head.toList ++ ·)) :
    (asked m candidates r).Order order ∧ order.Perm group := by
  obtain ⟨others, hothers, rfl⟩ := List.mem_map.mp h
  have hperm : (r.head.toList ++ others).Perm group := by
    have hrest := perm_of_mem_ordersOf hothers
    cases hcase : r.head with
    | none => simpa [hcase] using hrest
    | some head =>
      rw [hcase] at hrest
      have hnodup : group.Nodup := hpool.sublist hgroup
      have herase : group.filter (fun member => some head ≠ some member) = group.erase head := by
        rw [hnodup.erase_eq_filter]
        refine List.filter_congr fun member _ => ?_
        rw [Bool.eq_iff_iff, decide_eq_true_eq, bne_iff_ne, ne_eq, Option.some_inj]
        exact not_congr eq_comm
      rw [herase] at hrest
      exact (hrest.cons head).trans (List.perm_cons_erase (hhead head hcase)).symm
  refine ⟨⟨hperm.nodup_iff.mpr (hpool.sublist hgroup), fun provider hprovider => ?_,
    fun _ head hmem => ?_⟩, hperm⟩
  · simpa [asked] using hknown provider (hgroup.subset (hperm.subset hprovider))
  · have hcase : r.head = some head := hmem
    simp [hcase]

def Answers (m : ModelIndex) (candidates : List (SearchCandidate D)) (r : SearchRequest D)
    (plan : List StageAssignment) : Prop :=
  (asked m candidates r).Valid plan ∧ r.minimumStages ≤ plan.length ∧ plan.length ≤ r.maximumStages

/-- The best plan so far answers the request, and the budget is kept. -/
def BestOk (m : ModelIndex) (candidates : List (SearchCandidate D)) (r : SearchRequest D)
    (best : Best D) : Prop :=
  (best.plan = [] ∨ Answers m candidates r best.plan) ∧ best.evaluated ≤ r.workBudget

variable {best : Best D}

section

variable (hsizes : SizesOf m r.context r.sessions s)
  (hkv : kvBytes m 0 m.layers.toNat r.context r.sessions ≠ 0)

include hsizes hkv

lemma bestOk_tryOrder {order : List Nat} (horder : (asked m candidates r).Order order)
    (hne : order ≠ []) (hleast : r.minimumStages ≤ order.length)
    (hmost : order.length ≤ r.maximumStages)
    (h : BestOk m candidates r best) :
    BestOk m candidates r (tryOrder m s candidates r order best) := by
  unfold tryOrder
  dsimp only
  split_ifs with hlinks hcompute hbetter
  · exact h
  · exact h
  · have hknown : ∀ provider ∈ order, provider < candidates.length := by
      simpa [asked] using horder.known
    have hsplits := splits_of_bestSplit hsizes hkv hknown hcompute
    have hlength : (bestSplit s candidates order).2.length = order.length := by
      simpa using congrArg List.length hsplits.order
    exact ⟨.inr ⟨Request.valid_of_splits horder hne hsplits, hlength ▸ hleast, hlength ▸ hmost⟩,
      h.2⟩
  · exact h

end

variable (L s candidates r) in
/-- An order that is tried of a group: the group has the head, and the memory bound lets it
through. -/
structure Tried (group order : List Nat) : Prop where
  head : ∀ head ∈ r.head, head ∈ group
  roomy : roomy L s candidates group.length group
  listed : order ∈ (ordersOf candidates r (group.filter (r.head ≠ some ·))).map (r.head.toList ++ ·)

section

variable {pool : List Nat} {P : Best D → Prop}
  (hflag : ∀ best exhaustive, P best → P { best with exhaustive })

include hflag

/-- What every order that is tried keeps is kept by a list of orders. -/
lemma tryOrders_keeps {orders : List (List Nat)}
    (hstep : ∀ order ∈ orders, ∀ best, best.evaluated < r.workBudget → P best →
      P (tryOrder m s candidates r order { best with evaluated := best.evaluated + 1 }))
    (h : P best) : P (tryOrders m s candidates r orders best).1 := by
  induction orders generalizing best with
  | nil => exact h
  | cons order rest ih =>
    obtain ⟨horder, hrest⟩ := List.forall_mem_cons.mp hstep
    rw [tryOrders]
    split_ifs with hbudget
    · exact hflag best _ h
    · exact ih hrest (horder best (Nat.not_le.mp hbudget) h)

lemma tryGroup_keeps {group : List Nat}
    (hstep : ∀ order, Tried L s candidates r group order → ∀ best, best.evaluated < r.workBudget →
      P best → P (tryOrder m s candidates r order { best with evaluated := best.evaluated + 1 }))
    (h : P best) : P (tryGroup L m s candidates r group.length group best).1 := by
  unfold tryGroup
  split_ifs with hhead hroomy hbeaten
  · exact h
  · exact h
  · exact h
  · refine tryOrders_keeps hflag (fun order horder => hstep order ⟨fun head hmem => ?_, ?_, horder⟩)
      (hflag best _ h)
    · by_contra hnot
      exact hhead ((Option.any_eq_true _ _).mpr ⟨head, hmem, by simpa using hnot⟩)
    · simpa using hroomy

lemma tryGroups_keeps {count : Nat} {groups : List (List Nat)}
    (hgroups : ∀ group ∈ groups, group.length = count ∧
      ∀ order, Tried L s candidates r group order → ∀ best, best.evaluated < r.workBudget →
        P best → P (tryOrder m s candidates r order { best with evaluated := best.evaluated + 1 }))
    (h : P best) : P (tryGroups L m s candidates r count groups best) := by
  induction groups generalizing best with
  | nil => exact h
  | cons group rest ih =>
    obtain ⟨⟨rfl, hstep⟩, hrest⟩ := List.forall_mem_cons.mp hgroups
    have hkept := tryGroup_keeps (L := L) hflag hstep h
    rw [tryGroups]
    split
    next next heq =>
      rw [heq] at hkept
      exact ih hrest hkept
    next next heq =>
      rw [heq] at hkept
      exact hkept

/-- What every order that is tried keeps is kept by the search over the groups of all sizes. -/
lemma tryCounts_keeps {counts : List Nat}
    (hstep : ∀ group, group.Sublist pool → group.length ∈ counts → ∀ order,
      Tried L s candidates r group order → ∀ best, best.evaluated < r.workBudget →
        P best → P (tryOrder m s candidates r order { best with evaluated := best.evaluated + 1 }))
    (h : P best) : P (tryCounts L m s candidates r pool counts best) := by
  induction counts generalizing best with
  | nil => exact h
  | cons count rest ih =>
    have hkept : P (tryGroups L m s candidates r count (pool.sublistsLen count).reverse best) := by
      refine tryGroups_keeps hflag (fun group hgroup => ?_) h
      obtain ⟨hsub, hlength⟩ := List.mem_sublistsLen.mp (List.mem_reverse.mp hgroup)
      exact ⟨hlength, hstep group hsub (hlength ▸ List.mem_cons_self)⟩
    rw [tryCounts]
    split_ifs with hbudget
    · exact hkept
    · exact ih (fun group hsub hcount => hstep group hsub (List.mem_cons_of_mem _ hcount)) hkept

end

/-- The best plan of the groups of all sizes answers the request. -/
lemma bestOk_tryCounts {pool counts : List Nat} (hsizes : SizesOf m r.context r.sessions s)
    (hkv : kvBytes m 0 m.layers.toNat r.context r.sessions ≠ 0) (hpool : pool.Nodup)
    (hknown : ∀ candidate ∈ pool, candidate < candidates.length)
    (hcounts : ∀ count ∈ counts, count ≠ 0 ∧ r.minimumStages ≤ count ∧ count ≤ r.maximumStages)
    (h : BestOk m candidates r best) :
    BestOk m candidates r (tryCounts L m s candidates r pool counts best) := by
  refine tryCounts_keeps (fun _ _ => id)
    (fun group hsub hcount order htried best hbudget hbest => ?_) h
  obtain ⟨hsome, hleast, hmost⟩ := hcounts group.length hcount
  obtain ⟨horder, hperm⟩ := order_of_group (m := m) hpool hknown hsub htried.head htried.listed
  have hlength := hperm.length_eq
  refine bestOk_tryOrder hsizes hkv horder ?_ (hlength ▸ hleast) (hlength ▸ hmost)
    ⟨hbest.1, hbudget⟩
  rintro rfl
  exact hsome hlength.symm

/-! ### `search_plan` -/

/-- A model that can be staged has two layers at least. -/
lemma one_lt_layers (h : compatible m) : 1 < m.layers.toNat := by
  have hattention := validAttention_of_compatible h
  simp only [validAttention, Bool.and_eq_true, decide_eq_true_eq] at hattention
  exact UInt32.le_iff_toNat_le.mp hattention.1.1.1.1.1

lemma tiles_map (f : Nat → Nat) :
    Request.Tiles first last (plan.map fun a => { a with provider := f a.provider }) ↔
      Request.Tiles first last plan := by
  induction plan generalizing first with
  | nil => rfl
  | cons a rest ih => simp only [List.map_cons, Request.Tiles, ih]

/-- A plan for the pool is one for its candidates. -/
lemma valid_of_pooled (hpool : PoolOk candidates pool) (hhead : ∀ head ∈ r.head, head ∈ pool)
    (h : (pooled m candidates r pool).Valid plan) :
    (asked m candidates r).Valid
      (plan.map fun a => { a with provider := pool.getD a.provider 0 }) := by
  have hposition : ∀ a ∈ plan, a.provider < pool.length ∧
      pool[a.provider]? = some (pool.getD a.provider 0) := by
    intro a ha
    have hlt : a.provider < pool.length := by
      simpa [pooled] using (Request.fits_eq (h.fits a ha)).2.2.2.1
    exact ⟨hlt, by simp [hlt]⟩
  refine ⟨(tiles_map (pool.getD · 0)).mpr h.tiles, ?_, ?_, fun head hmem => ?_⟩
  · have hproviders : ((plan.map fun a => { a with provider := pool.getD a.provider 0 }).map
        StageAssignment.provider) = (plan.map StageAssignment.provider).map (pool.getD · 0) := by
      rw [List.map_map, List.map_map]
      rfl
    rw [hproviders]
    refine h.distinct.map_on fun i hi j hj heq => ?_
    obtain ⟨a, ha, rfl⟩ := List.mem_map.mp hi
    obtain ⟨b, hb, rfl⟩ := List.mem_map.mp hj
    refine (List.getElem?_inj (hposition a ha).1 hpool.1).mp ?_
    rw [(hposition a ha).2, (hposition b hb).2]
    exact congrArg some heq
  · intro b hb
    obtain ⟨a, ha, rfl⟩ := List.mem_map.mp hb
    obtain ⟨offeredMib, hoffered, heq, hfits⟩ := Request.fits_eq_some_iff.mp (h.fits a ha)
    have hmember := hpool.2 _ (List.mem_of_getElem? (hposition a ha).2)
    refine Request.fits_eq_some_iff.mpr ⟨offeredMib, ?_, ?_, hfits⟩
    · simp only [pooled, List.getElem?_map, (hposition a ha).2, Option.map_some] at hoffered
      have hsame : candidates[pool.getD a.provider 0]? =
          some (candidates.getD (pool.getD a.provider 0) default) := by
        generalize pool.getD a.provider 0 = candidate at hmember
        simp [hmember]
      rw [← hoffered]
      simp only [asked, List.getElem?_map, hsame, Option.map_some]
    · have hmodel := congrArg StageAssignment.modelBytes heq
      have hcache := congrArg StageAssignment.kvBytes heq
      exact StageAssignment.mk.injEq .. |>.mpr ⟨rfl, rfl, rfl, hmodel, hcache⟩
  · cases hindex : pool.idxOf? head with
    | none => exact absurd (hhead head hmem) (List.idxOf?_eq_none_iff.mp hindex)
    | some i =>
      obtain ⟨hlt, hget, -⟩ := List.idxOf?_eq_some_iff.mp hindex
      have hcase : r.head = some head := hmem
      have hled : (pooled m candidates r pool).head = some i := by
        simp [pooled, hcase, hindex]
      obtain ⟨a, hfirst, hprovider⟩ := Option.map_eq_some_iff.mp (h.head i hled)
      rw [List.head?_map, hfirst]
      simp [hprovider, hlt, hget]

/-- `search_plan` returns only plans that are possible: their stages tile the layers, fit on
different candidates and begin with the head, their number is in its bounds, and no more orders are
evaluated than the budget allows. -/
theorem searchPlan_spec {result : SearchResult D}
    (hkv : kvBytes m 0 m.layers.toNat r.context r.sessions ≠ 0)
    (h : searchPlan L m candidates r = .ok result) :
    (asked m candidates r).Valid result.plan ∧ r.minimumStages ≤ result.plan.length ∧
      result.plan.length ≤ r.maximumStages ∧ result.evaluated ≤ r.workBudget := by
  unfold searchPlan at h
  split_ifs at h with hcompatible hinvalid
  simp only [not_or, Bool.not_eq_true] at hinvalid
  obtain ⟨-, -, -, hminimum, -, hhead⟩ := hinvalid
  obtain ⟨hpool, hled, -⟩ : PoolOk candidates (searchPool candidates r) ∧ _ ∧ _ := searchPool_spec
  split at h
  next => contradiction
  next s hs =>
    have hsizes := sizesOf_spec (one_lt_layers hcompatible) hs
    have hmember : ∀ head ∈ r.head, head ∈ searchPool candidates r := by
      intro head hmem
      refine hled head hmem ?_
      have hcase : r.head = some head := hmem
      simpa [hcase] using hhead
    dsimp only at h
    generalize hlargest : min r.maximumStages (min (searchPool candidates r).length s.layers) =
      largest at h
    have hmost : largest ≤ r.maximumStages := hlargest ▸ Nat.min_le_left _ _
    generalize hbest : tryCounts L m s candidates r (searchPool candidates r) _ _ = best at h
    have hok : BestOk m candidates r best := by
      rw [← hbest]
      refine bestOk_tryCounts hsizes hkv hpool.1 hpool.2 (fun count hcount => ?_)
        ⟨.inl rfl, Nat.zero_le _⟩
      rw [List.mem_range'_1] at hcount
      omega
    suffices hgoal : Answers m candidates r result.plan ∧ result.evaluated ≤ r.workBudget by
      exact ⟨hgoal.1.1, hgoal.1.2.1, hgoal.1.2.2, hgoal.2⟩
    split at h
    next =>
      split_ifs at h with hempty
      obtain rfl := Except.ok.inj h
      exact ⟨hok.1.resolve_left hempty, hok.2⟩
    next plan hreuse =>
      split_ifs at h with htaken
      · obtain rfl := Except.ok.inj h
        obtain ⟨cachedPlan, hcached, rfl⟩ := Option.map_eq_some_iff.mp hreuse
        obtain ⟨hvalid, hleast, hlength⟩ := Request.valid_of_planFromCache hcached
        refine ⟨⟨valid_of_pooled hpool hmember hvalid, ?_, ?_⟩, hok.2⟩
        · rw [List.length_map]
          exact hleast
        · rw [List.length_map]
          exact hlength.trans hmost
      · obtain rfl := Except.ok.inj h
        exact ⟨hok.1.resolve_left fun hempty => htaken (.inl hempty), hok.2⟩

end

/-! ### A search -/

inductive Time where
  | finite (value : Rat)
  | infinite
  deriving DecidableEq, Repr

/-- An operation on times that is infinite where one of them is. -/
def Time.lift (f : Rat → Rat → Rat) : Time → Time → Time
  | .finite a, .finite b => .finite (f a b)
  | _, _ => .infinite

/-- A comparison of times, infinity being the longest. -/
def Time.less : Time → Time → Bool
  | .finite a, .finite b => a < b
  | .finite _, .infinite => true
  | .infinite, _ => false

instance : Arithmetic Time where
  add := Time.lift (· + ·)
  sub := Time.lift (· - ·)
  mul := Time.lift (· * ·)
  div := Time.lift (· / ·)
  neg := Time.lift (· - ·) (.finite 0)
  ofNat n := .finite n
  decimal n k := .finite (n / 10 ^ k)
  infinite := .infinite
  lt := Time.less
  le a b := !Time.less b a
  eq a b := a = b
  eq_infinite := by decide

/-- A candidate that offers 4 GiB. -/
def tinyCandidate (key : String) (speed : Nat) : SearchCandidate Time :=
  ⟨4096, ofNat speed, ofNat 10, false, ofNat 0, [], key, []⟩

/-- Two stages, of which the second candidate has to be the first. -/
def tinySearch : SearchRequest Time where
  context := 256
  sessions := 1
  minimumStages := 2
  maximumStages := 5
  head := some 1
  workBudget := 4000
  poolLimit := 12
  cachedTolerance := decimal 10 2
  relayPenaltyMs := ofNat 25
  promptRows := 0
  chunkRows := 512
  rowBytes := 0
  firstTokenLimitMs := ofNat 0

theorem searchPlan_tiny :
    ∃ result, searchPlan Time Request.tinyModel [tinyCandidate "a" 1000,
      tinyCandidate "b" 2000] tinySearch =
        .ok result ∧
      (asked Request.tinyModel [tinyCandidate "a" 1000, tinyCandidate "b" 2000] tinySearch).Valid
        result.plan ∧
      2 ≤ result.plan.length ∧ result.plan.length ≤ 5 ∧ result.evaluated ≤ 4000 := by
  have hsome : (searchPlan Time Request.tinyModel [tinyCandidate "a" 1000, tinyCandidate "b" 2000]
      tinySearch).isOk := by
    decide +kernel
  have hkv :
      kvBytes Request.tinyModel 0 Request.tinyModel.layers.toNat tinySearch.context
        tinySearch.sessions ≠ 0 := by
    decide +kernel
  cases hresult : searchPlan Time Request.tinyModel [tinyCandidate "a" 1000, tinyCandidate "b" 2000]
      tinySearch with
  | error reason =>
    rw [hresult] at hsome
    exact absurd hsome Bool.false_ne_true
  | ok result => exact ⟨result, rfl, searchPlan_spec hkv hresult⟩

end ProviderOwned.Planner
