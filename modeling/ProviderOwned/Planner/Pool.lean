import Mathlib.Data.Finset.Max
import Mathlib.Data.List.TakeWhile
import Mathlib.Data.Prod.Lex
import Mathlib.Data.String.Basic
import ProviderOwned.Planner.Numbers

/-!
# The pool of candidates

`search_pool` draws from four rankings in turn. Its loops, with the position `next` in each ranking
(`drawRounds`), end after as many rounds as there is room for candidates, since a round takes at
least one, and draw what `searchPool` has. In the first round every ranking gives its first
candidate, or has it in the pool already.
-/

namespace ProviderOwned.Planner

open Arithmetic

/-! ### The loops of `search_pool` -/

/-- One round over what is left of each ranking from its position on. -/
def drawRound (limit : Nat) : List (List Nat) → List Nat → List (List Nat) × List Nat
  | [], pool => ([], pool)
  | list :: rest, pool =>
    if pool.length < limit then
      match list.dropWhile (· ∈ pool) with
      | [] => ([] :: (drawRound limit rest pool).1, (drawRound limit rest pool).2)
      | candidate :: later =>
        ((candidate :: later) :: (drawRound limit rest (pool ++ [candidate])).1,
          (drawRound limit rest (pool ++ [candidate])).2)
    else (list :: rest, pool)

/-- At most `n` rounds. -/
def drawRounds (limit : Nat) : Nat → List (List Nat) → List Nat → List Nat
  | 0, _, pool => pool
  | n + 1, lists, pool =>
    if pool.length < limit then
      drawRounds limit n (drawRound limit lists pool).1 (drawRound limit lists pool).2
    else pool

/-- Every candidate before the positions is taken. -/
def Passed (pool : List Nat) (lists rests : List (List Nat)) : Prop :=
  List.Forall₂ (fun list rest => ∃ passed, list = passed ++ rest ∧ passed ⊆ pool) lists rests

variable {pool more : List Nat} {lists rests : List (List Nat)} {limit n : Nat}

lemma Passed.mono (h : Passed pool lists rests) (hmore : pool ⊆ more) : Passed more lists rests :=
  h.imp fun _ _ ⟨passed, hlist, hpassed⟩ => ⟨passed, hlist, List.Subset.trans hpassed hmore⟩

lemma find?_eq_head?_dropWhile (pool list : List Nat) :
    list.find? (· ∉ pool) = (list.dropWhile (· ∈ pool)).head? := by
  induction list with
  | nil => rfl
  | cons candidate list ih =>
    by_cases hmem : candidate ∈ pool
    · rw [List.find?_cons_of_neg (by simp [hmem]), List.dropWhile_cons_of_pos (by simp [hmem]), ih]
    · rw [List.find?_cons_of_pos (by simp [hmem]), List.dropWhile_cons_of_neg (by simp [hmem])]
      rfl

/-- The next candidate from the position on is the next one of the ranking. -/
lemma find?_passed {passed rest : List Nat} (h : passed ⊆ pool) :
    (passed ++ rest).find? (· ∉ pool) = (rest.dropWhile (· ∈ pool)).head? := by
  have hnone : passed.find? (· ∉ pool) = none := by
    apply List.find?_eq_none.mpr
    intro candidate hcandidate
    simp [h hcandidate]
  rw [List.find?_append, hnone, Option.none_or, find?_eq_head?_dropWhile]

lemma prefix_poolRound (limit : Nat) (lists : List (List Nat)) (pool : List Nat) :
    pool <+: poolRound limit lists pool := by
  induction lists generalizing pool with
  | nil => exact List.prefix_rfl
  | cons list lists ih =>
    rw [poolRound]
    split_ifs
    · cases list.find? (· ∉ pool) with
      | none => exact ih pool
      | some candidate => exact (List.prefix_append pool [candidate]).trans (ih _)
    · exact ih pool

/-- A round that begins with a full pool changes nothing. -/
lemma poolRound_of_full (h : limit ≤ pool.length) (lists : List (List Nat)) :
    poolRound limit lists pool = pool := by
  induction lists with
  | nil => rfl
  | cons list lists ih => rw [poolRound, if_neg (Nat.not_lt.mpr h), ih]

/-- A round with positions takes what `poolRound` takes. -/
lemma drawRound_eq (limit : Nat) (h : Passed pool lists rests) :
    (drawRound limit rests pool).2 = poolRound limit lists pool ∧
      Passed (poolRound limit lists pool) lists (drawRound limit rests pool).1 := by
  induction lists generalizing pool rests with
  | nil =>
    cases h
    exact ⟨rfl, .nil⟩
  | cons list lists ih =>
    cases h with
    | cons hhead htail =>
      rename_i rest rests
      obtain ⟨passed, rfl, hpassed⟩ := hhead
      by_cases hroom : pool.length < limit
      · rw [poolRound, if_pos hroom, drawRound, if_pos hroom, find?_passed hpassed]
        have hsplit := List.takeWhile_append_dropWhile (p := (· ∈ pool)) (l := rest)
        have htaken : rest.takeWhile (· ∈ pool) ⊆ pool := fun candidate hcandidate => by
          simpa using List.mem_takeWhile_imp hcandidate
        cases hdrop : rest.dropWhile (· ∈ pool) with
        | nil =>
          obtain ⟨hpool, hrests⟩ := ih htail
          rw [hdrop, List.append_nil] at hsplit
          refine ⟨hpool, .cons ⟨passed ++ rest, by simp, ?_⟩ hrests⟩
          rw [hsplit] at htaken
          exact List.Subset.trans (List.append_subset.mpr ⟨hpassed, htaken⟩)
            (prefix_poolRound limit lists pool).subset
        | cons candidate later =>
          have hmore := List.subset_append_left pool [candidate]
          obtain ⟨hpool, hrests⟩ := ih (Passed.mono htail hmore)
          refine ⟨hpool, .cons ⟨passed ++ rest.takeWhile (· ∈ pool), ?_, ?_⟩ hrests⟩
          · rw [List.append_assoc, ← hdrop, hsplit]
          · exact List.Subset.trans (List.append_subset.mpr ⟨hpassed, htaken⟩)
              (List.Subset.trans hmore (prefix_poolRound limit lists _).subset)
      · have hfull := poolRound_of_full (Nat.not_lt.mp hroom)
        rw [hfull, drawRound, if_neg hroom]
        exact ⟨rfl, .cons ⟨passed, rfl, hpassed⟩ htail⟩

/-- The rounds with positions draw what `poolRounds` draws. -/
lemma drawRounds_eq (h : Passed pool lists rests) :
    drawRounds limit n rests pool = poolRounds limit lists n pool := by
  induction n generalizing pool rests with
  | zero => rfl
  | succ n ih =>
    rw [drawRounds, poolRounds]
    split_ifs
    · obtain ⟨hpool, hrests⟩ := drawRound_eq limit h
      rw [← hpool] at hrests ⊢
      exact ih hrests
    · rfl

lemma passed_self (pool : List Nat) (lists : List (List Nat)) : Passed pool lists lists :=
  List.forall₂_same.mpr fun _ _ => ⟨[], rfl, List.nil_subset pool⟩

/-! ### How many rounds there are -/

section

variable {D : Type} {candidates : List (SearchCandidate D)} {r : SearchRequest D}

/-- More rounds than there is room for candidates change nothing. -/
lemma poolRounds_eq {m : Nat} (hlists : ∀ list ∈ lists, list.Perm (List.range candidates.length))
    (hne : lists ≠ []) (h : PoolOk candidates pool) (hlimit : limit ≤ candidates.length)
    (hn : limit ≤ pool.length + n) (hm : limit ≤ pool.length + m) :
    poolRounds limit lists n pool = poolRounds limit lists m pool := by
  induction n generalizing pool m with
  | zero =>
    cases m with
    | zero => rfl
    | succ m => exact (if_neg (Nat.not_lt.mpr hn)).symm
  | succ n ih =>
    cases m with
    | zero => exact if_neg (Nat.not_lt.mpr hm)
    | succ m =>
      rw [poolRounds, poolRounds]
      split_ifs with hroom
      · have hmore := length_lt_poolRound hlists hne h hroom hlimit
        exact ih (poolRound_spec limit hlists h).1 (by omega) (by omega)
      · rfl

lemma length_poolRound_le (h : pool.length ≤ limit) (lists : List (List Nat)) :
    (poolRound limit lists pool).length ≤ limit := by
  induction lists generalizing pool with
  | nil => exact h
  | cons list lists ih =>
    rw [poolRound]
    split_ifs with hroom
    · cases list.find? (· ∉ pool) with
      | none => exact ih h
      | some candidate =>
        apply ih
        rw [List.length_append, List.length_singleton]
        exact hroom
    · exact ih h

lemma length_poolRounds_le (limit n : Nat) (lists : List (List Nat)) (pool : List Nat) :
    (poolRounds limit lists n pool).length ≤ max limit pool.length := by
  induction n generalizing pool with
  | zero => exact Nat.le_max_right _ _
  | succ n ih =>
    rw [poolRounds]
    split_ifs with hroom
    · have hround := length_poolRound_le hroom.le lists
      exact (ih _).trans (max_le (Nat.le_max_left _ _) (hround.trans (Nat.le_max_left _ _)))
    · exact Nat.le_max_right _ _

/-! ### The first of a ranking -/

/-- With room for one candidate of each list, the first one of each is in the pool after a round. -/
lemma mem_poolRound {list : List Nat} {candidate : Nat} (hroom : pool.length + lists.length ≤ limit)
    (hlist : list ∈ lists) (hfirst : list.head? = some candidate) :
    candidate ∈ poolRound limit lists pool := by
  induction lists generalizing pool with
  | nil => cases hlist
  | cons other lists ih =>
    rw [List.length_cons] at hroom
    rw [poolRound, if_pos (by omega)]
    cases hfound : other.find? (· ∉ pool) with
    | none =>
      rcases List.mem_cons.mp hlist with rfl | hlist
      · have hmem := List.find?_eq_none.mp hfound candidate (List.mem_of_mem_head? hfirst)
        exact (prefix_poolRound limit lists pool).subset (by simpa using hmem)
      · exact ih (by omega) hlist
    | some next =>
      rcases List.mem_cons.mp hlist with rfl | hlist
      · apply (prefix_poolRound limit lists (pool ++ [next])).subset
        obtain ⟨later, rfl⟩ := List.head?_eq_some_iff.mp hfirst
        by_cases hmem : candidate ∈ pool
        · exact List.mem_append_left _ hmem
        · rw [List.find?_cons_of_pos (by simpa using hmem)] at hfound
          rw [Option.some.inj hfound]
          exact List.mem_append_right _ (List.mem_singleton_self _)
      · apply ih _ hlist
        rw [List.length_append, List.length_singleton]
        omega

/-- An element that stands before all that follow it, and before which none of the earlier ones
stands, is sorted to the front. -/
lemma insertionSort_append {rel : Nat → Nat → Prop} [DecidableRel rel] {before after : List Nat}
    {first : Nat} (hafter : ∀ x ∈ after, rel first x) (hbefore : ∀ x ∈ before, ¬ rel x first) :
    ((before ++ first :: after).insertionSort rel).head? = some first := by
  induction before with
  | nil =>
    rw [List.nil_append, List.insertionSort_cons_of_forall_rel _ hafter]
    rfl
  | cons x before ih =>
    obtain ⟨hx, hbefore⟩ := List.forall_mem_cons.mp hbefore
    obtain ⟨sorted, hsorted⟩ := List.head?_eq_some_iff.mp (ih hbefore)
    rw [List.cons_append, List.insertionSort_cons, hsorted, List.orderedInsert_of_not_le _ _ hx]
    rfl

end

section

variable {D : Type} [Arithmetic D] {candidates : List (SearchCandidate D)} {r : SearchRequest D}
  {better : SearchCandidate D → D}

/-- The comparison of `ranked`. -/
def ranksBefore (candidates : List (SearchCandidate D)) (better : SearchCandidate D → D)
    (left right : Nat) : Bool :=
  let a := candidates.getD left default
  let b := candidates.getD right default
  if !eq (better a) (better b) then lt (better a) (better b) else a.key < b.key

/-- The best candidate of a ranking: none is before it, and those that are not behind it come
later. -/
def IsBest (candidates : List (SearchCandidate D)) (better : SearchCandidate D → D) (best : Nat) :
    Prop :=
  best < candidates.length ∧ ∀ other < candidates.length,
    ¬ ranksBefore candidates better other best ∧
      (ranksBefore candidates better best other ∨ best ≤ other)

lemma head?_ranked {best : Nat} (h : IsBest candidates better best) :
    (ranked candidates better).head? = some best := by
  obtain ⟨before, after, hsplit⟩ := List.append_of_mem (List.mem_range.mpr h.1)
  have hpairs := List.pairwise_lt_range (n := candidates.length)
  have hmem : ∀ x ∈ before ++ best :: after, x < candidates.length := fun x hx =>
    List.mem_range.mp (hsplit ▸ hx)
  rw [hsplit, List.pairwise_append] at hpairs
  change ((List.range candidates.length).insertionSort
    fun left right => !ranksBefore candidates better right left).head? = _
  rw [hsplit]
  apply insertionSort_append
  · intro x hx
    have := (h.2 x (hmem x (by simp [hx]))).1
    simpa using this
  · intro x hx
    have hlt := hpairs.2.2 x hx best List.mem_cons_self
    rcases (h.2 x (hmem x (by simp [hx]))).2 with hbefore | hle
    · simp [hbefore]
    · exact absurd hle (Nat.not_le.mpr hlt)

def rankings (r : SearchRequest D) : List (SearchCandidate D → D) :=
  [(rttOf · r), fun c => -ofNat c.offeredMib.toNat, speedOf,
    fun c => if c.cached.isEmpty then ofNat 1 else ofNat 0]

def required (candidates : List (SearchCandidate D)) (r : SearchRequest D) : List Nat :=
  r.head.toList.filter (· < candidates.length)

lemma searchPool_eq (candidates : List (SearchCandidate D)) (r : SearchRequest D) :
    searchPool candidates r =
      poolRounds (min r.poolLimit candidates.length) ((rankings r).map (ranked candidates))
        (min r.poolLimit candidates.length) (required candidates r) := rfl

omit [Arithmetic D] in
lemma poolOk_required (candidates : List (SearchCandidate D)) (r : SearchRequest D) :
    PoolOk candidates (required candidates r) := by
  refine ⟨List.Nodup.filter _ (Option.toList_nodup r.head), fun candidate hcandidate => ?_⟩
  simpa using (List.mem_filter.mp hcandidate).2

omit [Arithmetic D] in
lemma length_required_le (candidates : List (SearchCandidate D)) (r : SearchRequest D) :
    (required candidates r).length ≤ 1 := by
  refine (List.length_filter_le _ _).trans ?_
  cases r.head with
  | none => exact Nat.zero_le 1
  | some head => exact le_rfl

lemma perm_of_mem_rankings (candidates : List (SearchCandidate D)) (r : SearchRequest D) :
    ∀ list ∈ (rankings r).map (ranked candidates), list.Perm (List.range candidates.length) := by
  intro list hlist
  obtain ⟨better, -, rfl⟩ := List.mem_map.mp hlist
  exact perm_ranked better

lemma required_begins (candidates : List (SearchCandidate D)) (r : SearchRequest D) :
    required candidates r <+: searchPool candidates r :=
  (poolRounds_spec _ _ (perm_of_mem_rankings candidates r) (poolOk_required candidates r)).2

lemma length_searchPool (candidates : List (SearchCandidate D)) (r : SearchRequest D) :
    (searchPool candidates r).length =
      if r.poolLimit = 0 ∧ required candidates r ≠ [] then 1
      else min r.poolLimit candidates.length := by
  obtain ⟨-, -, hle⟩ : PoolOk candidates (searchPool candidates r) ∧ _ ∧ _ := searchPool_spec
  have hprefix := (required_begins candidates r).length_le
  have hmax := length_poolRounds_le (min r.poolLimit candidates.length)
    (min r.poolLimit candidates.length) ((rankings r).map (ranked candidates))
      (required candidates r)
  rw [← searchPool_eq] at hmax
  have hone := length_required_le candidates r
  by_cases hempty : required candidates r = []
  · rw [hempty, List.length_nil, Nat.max_zero] at hmax
    rw [if_neg (by simp [hempty])]
    exact le_antisymm hmax hle
  · have hpos := List.length_pos_iff.mpr hempty
    obtain ⟨head, hhead⟩ := List.exists_mem_of_ne_nil _ hempty
    have hknown := (poolOk_required candidates r).2 head hhead
    split_ifs with hzero
    · rw [hzero.1, Nat.zero_min] at hmax
      omega
    · have hlimit : 0 < r.poolLimit := Nat.pos_of_ne_zero fun h => hzero ⟨h, hempty⟩
      omega

/-- With room for four the first round has the best of each ranking, and a pool of all candidates
has everyone. -/
lemma mem_searchPool_of_isBest (hbetter : better ∈ rankings r)
    (hroom : (required candidates r).length + 4 ≤ r.poolLimit) {best : Nat}
    (hbest : IsBest candidates better best) : best ∈ searchPool candidates r := by
  obtain ⟨hpool, -, hle⟩ : PoolOk candidates (searchPool candidates r) ∧ _ ∧ _ := searchPool_spec
  rcases Nat.le_total candidates.length r.poolLimit with hall | hsome
  · rw [min_eq_right hall] at hle
    by_contra hnew
    have hnodup : (best :: searchPool candidates r).Nodup := List.nodup_cons.mpr ⟨hnew, hpool.1⟩
    have hknown : best :: searchPool candidates r ⊆ List.range candidates.length := by
      intro i hi
      rcases List.mem_cons.mp hi with rfl | hi
      · exact List.mem_range.mpr hbest.1
      · exact List.mem_range.mpr (hpool.2 i hi)
    have := (hnodup.subperm hknown).length_le
    rw [List.length_cons, List.length_range] at this
    omega
  · rw [searchPool_eq, min_eq_left hsome]
    obtain ⟨n, hn⟩ := Nat.exists_eq_succ_of_ne_zero (show r.poolLimit ≠ 0 by omega)
    have hround := poolRound_spec r.poolLimit (perm_of_mem_rankings candidates r)
      (poolOk_required candidates r)
    have hfirst : best ∈ poolRound r.poolLimit ((rankings r).map (ranked candidates))
        (required candidates r) :=
      mem_poolRound hroom (List.mem_map_of_mem hbetter) (head?_ranked hbest)
    rw [hn, poolRounds, if_pos (by omega), ← hn]
    exact (poolRounds_spec _ n (perm_of_mem_rankings candidates r) hround.1).2.subset hfirst

end

/-! ### Finite times -/

open Numbers (value)

class Signed (D : Type) extends Rounded D where
  value_neg {a : D} : (value a).isSome → (value (-a)).isSome

instance : Signed Time where
  value_neg _ := rfl

instance : Signed Binary64.Double where
  value_neg {a} h := by
    cases a with
    | nan => cases h
    | infinite negative => rfl
    | finite negative m => rfl

section

variable {D : Type} [Signed D] {candidates : List (SearchCandidate D)} {r : SearchRequest D}
  {better : SearchCandidate D → D}

/-- Neither infinite nor not a number. -/
def IsFinite (a : D) : Prop := ∃ x : ℚ, value a = some ((x : WithTop ℚ) : WithBot (WithTop ℚ))

/-- Candidates with finite speeds and round trips. -/
structure FiniteTimes (candidates : List (SearchCandidate D)) (r : SearchRequest D) : Prop where
  speed : ∀ c ∈ candidates, IsFinite c.usPerGib
  rtt : ∀ c ∈ candidates, IsFinite c.rttMs
  penalty : IsFinite r.relayPenaltyMs

lemma isSome_ofNat (n : ℕ) : (value (ofNat n : D)).isSome := by
  rw [Rounded.value_ofNat]
  rfl

lemma isSome_add {a b : D} (ha : IsFinite a) (hb : IsFinite b) : (value (a + b)).isSome := by
  obtain ⟨x, hx⟩ := ha
  obtain ⟨y, hy⟩ := hb
  rw [Rounded.value_add hx hy]
  rfl

lemma isFinite_zero : IsFinite (ofNat 0 : D) := ⟨0, Numbers.value_zero⟩

/-- The rankings go by numbers. -/
lemma isSome_of_mem_rankings (h : FiniteTimes candidates r) (hbetter : better ∈ rankings r)
    {c : SearchCandidate D} (hc : c ∈ candidates) : (value (better c)).isSome := by
  simp only [rankings, List.mem_cons, List.not_mem_nil, or_false] at hbetter
  rcases hbetter with rfl | rfl | rfl | rfl
  · apply isSome_add (h.rtt c hc)
    split_ifs
    · exact h.penalty
    · exact isFinite_zero
  · exact Signed.value_neg (isSome_ofNat _)
  · unfold speedOf
    split_ifs
    · obtain ⟨x, hx⟩ := h.speed c hc
      rw [hx]
      rfl
    · exact isSome_ofNat _
  · change (value (if c.cached.isEmpty then ofNat 1 else ofNat 0 : D)).isSome
    split_ifs
    · exact isSome_ofNat _
    · exact isSome_ofNat _

/-- What a ranking compares: the number, then the key. -/
def rankKey (candidates : List (SearchCandidate D)) (better : SearchCandidate D → D) (i : Nat) :
    WithBot (WithTop ℚ) ×ₗ String :=
  toLex ((value (better (candidates.getD i default))).getD 0, (candidates.getD i default).key)

lemma ranksBefore_iff (h : ∀ c ∈ candidates, (value (better c)).isSome) {i j : Nat}
    (hi : i < candidates.length) (hj : j < candidates.length) :
    ranksBefore candidates better i j ↔
      rankKey candidates better i < rankKey candidates better j := by
  have hmem : ∀ k < candidates.length, candidates.getD k default ∈ candidates := fun k hk => by
    rw [List.getD_eq_getElem?_getD, List.getElem?_eq_getElem hk]
    exact List.getElem_mem hk
  obtain ⟨x, hx⟩ := Option.isSome_iff_exists.mp (h _ (hmem i hi))
  obtain ⟨y, hy⟩ := Option.isSome_iff_exists.mp (h _ (hmem j hj))
  rw [ranksBefore, rankKey, rankKey, hx, hy, Prod.Lex.toLex_lt_toLex]
  generalize candidates.getD i default = a at hx
  generalize candidates.getD j default = b at hy
  have heq : eq (better a) (better b) ↔ x = y := by
    rw [Numbers.eq_iff, hx, hy]
    simp [eq_comm]
  have hlt : lt (better a) (better b) ↔ x < y := by
    rw [Numbers.lt_iff, hx, hy]
    simp
  by_cases hxy : x = y
  · simp [heq.mpr hxy, hxy]
  · have hne : eq (better a) (better b) = false := Bool.eq_false_iff.mpr fun h => hxy (heq.mp h)
    simp [hne, hxy, hlt]

/-- Where all are numbers one candidate is the best. -/
lemma existsUnique_isBest (h : ∀ c ∈ candidates, (value (better c)).isSome)
    (hne : candidates ≠ []) :
    ∃! best, IsBest candidates better best := by
  have hpos := List.length_pos_iff.mpr hne
  obtain ⟨best, hbest, hleast⟩ := Finset.exists_min_image (Finset.range candidates.length)
    (fun i => toLex (rankKey candidates better i, i)) ⟨0, Finset.mem_range.mpr hpos⟩
  rw [Finset.mem_range] at hbest
  refine ⟨best, ⟨hbest, fun other hother => ?_⟩, fun other hother => ?_⟩
  · have hle := Prod.Lex.toLex_le_toLex.mp (hleast other (Finset.mem_range.mpr hother))
    rw [ranksBefore_iff h hother hbest, ranksBefore_iff h hbest hother]
    rcases hle with hlt | ⟨heq, hle⟩
    · exact ⟨hlt.not_gt, .inl hlt⟩
    · exact ⟨heq.not_gt, .inr hle⟩
  · have hle := Prod.Lex.toLex_le_toLex.mp (hleast other (Finset.mem_range.mpr hother.1))
    have hnone := (hother.2 best hbest).1
    rw [ranksBefore_iff h hbest hother.1] at hnone
    rcases hle with hlt | ⟨heq, hle⟩
    · exact absurd hlt hnone
    · rcases (hother.2 best hbest).2 with hbefore | hle'
      · rw [ranksBefore_iff h hother.1 hbest] at hbefore
        exact absurd heq hbefore.ne'
      · exact le_antisymm hle' hle

/-! ### The pool -/

/-- **`search_pool` ends with as many different candidates as there is room for.** Its loops end,
however often they may run; the required head comes first, and with room for four more candidates
the best one of each ranking is in the pool. -/
theorem searchPool_complete (h : FiniteTimes candidates r) :
    (∀ n, min r.poolLimit candidates.length ≤ n →
      drawRounds (min r.poolLimit candidates.length) n ((rankings r).map (ranked candidates))
        (required candidates r) = searchPool candidates r) ∧
    (searchPool candidates r).Nodup ∧
    (∀ i ∈ searchPool candidates r, i < candidates.length) ∧
    (searchPool candidates r).length =
      (if r.poolLimit = 0 ∧ required candidates r ≠ [] then 1
        else min r.poolLimit candidates.length) ∧
    (∀ head ∈ r.head, head < candidates.length → (searchPool candidates r).head? = some head) ∧
    ∀ better ∈ rankings r, (candidates ≠ [] → ∃! best, IsBest candidates better best) ∧
      ((required candidates r).length + 4 ≤ r.poolLimit →
        ∀ best, IsBest candidates better best → best ∈ searchPool candidates r) := by
  have hperm := perm_of_mem_rankings candidates r
  have hne : (rankings r).map (ranked candidates) ≠ [] := by simp [rankings]
  have hstart := poolOk_required candidates r
  obtain ⟨hpool, -, -⟩ : PoolOk candidates (searchPool candidates r) ∧ _ ∧ _ := searchPool_spec
  refine ⟨fun n hn => ?_, hpool.1, hpool.2, ?_, fun head hhead hknown => ?_,
    fun better hbetter => ⟨?_, ?_⟩⟩
  · rw [drawRounds_eq (passed_self _ _), searchPool_eq]
    exact poolRounds_eq hperm hne hstart (Nat.min_le_right _ _) (hn.trans (Nat.le_add_left _ _))
      (Nat.le_add_left _ _)
  · exact length_searchPool candidates r
  · have hrequired : required candidates r = [head] := by
      rw [required, Option.mem_def.mp hhead]
      simp [hknown]
    obtain ⟨more, hmore⟩ := required_begins candidates r
    rw [← hmore, hrequired]
    rfl
  · exact existsUnique_isBest fun c hc => isSome_of_mem_rankings h hbetter hc
  · intro hroom best hbest
    exact mem_searchPool_of_isBest hbetter hroom hbest

end

/-- Six candidates, of which the fourth one is required. -/
def sixCandidates : List (SearchCandidate Time) :=
  ["a", "b", "c", "d", "e", "f"].map fun key => tinyCandidate key (2000 + key.length)

/-- The pool has room for four besides the required candidate. -/
def requiredSearch : SearchRequest Time := { tinySearch with head := some 3, poolLimit := 5 }

lemma finiteTimes_sixCandidates : FiniteTimes sixCandidates requiredSearch where
  speed c hc := by
    obtain ⟨key, -, rfl⟩ := List.mem_map.mp hc
    exact ⟨_, rfl⟩
  rtt c hc := by
    obtain ⟨key, -, rfl⟩ := List.mem_map.mp hc
    exact ⟨_, rfl⟩
  penalty := ⟨_, rfl⟩

/-- Five are drawn, the required one first. -/
theorem searchPool_sixCandidates :
    (searchPool sixCandidates requiredSearch).Nodup ∧
      (searchPool sixCandidates requiredSearch).length = 5 ∧
      (searchPool sixCandidates requiredSearch).head? = some 3 ∧
      ∀ best, IsBest sixCandidates speedOf best →
        best ∈ searchPool sixCandidates requiredSearch := by
  obtain ⟨-, hnodup, -, hlength, hhead, hbest⟩ := searchPool_complete finiteTimes_sixCandidates
  refine ⟨hnodup, hlength, hhead 3 rfl (by decide), (hbest speedOf (by simp [rankings])).2 ?_⟩
  decide

end ProviderOwned.Planner
