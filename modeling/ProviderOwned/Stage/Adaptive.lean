import ProviderOwned.Lib.Bursts
import ProviderOwned.Planner.Search
import ProviderOwned.Protocol

/-!
# The width of a round

`AdaptiveDraftWidth` of `speculation.hpp`: the widths 1, 2, 4 and so on are tried for four rounds
each, and the last one that was worth its cost is held. Whatever the rounds cost, a session stays at
width 1 for 20 rounds in a row at most: 16 that hold it and the four with which the next search
begins.
-/

namespace ProviderOwned

open Planner Arithmetic

/-- `AdaptiveDraftWidth`, over a type of doubles. -/
structure AdaptiveDraftWidth (D : Type) where
  limit : Nat
  width : Nat := 1
  best : Nat := 1
  rounds : Nat := 0
  heldBlocks : Nat := 0
  committed : Nat := 0
  elapsed : D
  baseline : D
  bestCost : D
  searching : Bool := true

/-- What `observe` is told of a round: its width, what it has committed and its nanoseconds. -/
structure RoundCost where
  width : Nat
  committed : Nat
  elapsed : Nat

namespace AdaptiveDraftWidth

variable {D : Type}

section

variable [Arithmetic D]

def new (limit : Nat) : AdaptiveDraftWidth D where
  limit := max 1 (min limit maxSpeculativeWidth)
  elapsed := ofNat 0
  baseline := ofNat 0
  bestCost := ofNat 0

/-- A round that `observe` counts. -/
def counts (p : AdaptiveDraftWidth D) (o : RoundCost) : Bool :=
  !(p.limit = 1 || o.width ≠ p.width || o.committed = 0 || o.width < o.committed || o.elapsed = 0)

/-- The part of `observe` after the fourth round of a block. -/
def endBlock (p : AdaptiveDraftWidth D) : AdaptiveDraftWidth D :=
  let cost := p.elapsed / ofNat p.committed
  let p := { p with rounds := 0, elapsed := ofNat 0, committed := 0 }
  if p.searching then
    if p.width = 1 then { p with baseline := cost, bestCost := cost, best := 1, width := 2 }
    else if lt cost (p.bestCost * decimal 95 2) then
      if p.width < p.limit then
        { p with best := p.width, bestCost := cost, width := min p.limit (p.width * 2) }
      else { p with best := p.width, bestCost := cost, searching := false }
    else { p with width := p.best, searching := false }
  else if 1 < p.width ∧ lt (p.baseline * decimal 105 2) cost then
    { p with width := 1, searching := true, heldBlocks := 0 }
  else if p.heldBlocks + 1 = 4 then { p with width := 1, searching := true, heldBlocks := 0 }
  else { p with heldBlocks := p.heldBlocks + 1 }

/-- The policy with one more round in its block. -/
def withRound (p : AdaptiveDraftWidth D) (o : RoundCost) : AdaptiveDraftWidth D :=
  { p with
    elapsed := p.elapsed + ofNat o.elapsed, committed := p.committed + o.committed,
      rounds := p.rounds + 1 }

def observe (p : AdaptiveDraftWidth D) (o : RoundCost) : AdaptiveDraftWidth D :=
  if !p.counts o then p
  else if (p.withRound o).rounds ≠ 4 then p.withRound o
  else (p.withRound o).endBlock

/-- The width at a round, if it is counted. -/
def counted (p : AdaptiveDraftWidth D) (o : RoundCost) : Option Nat :=
  if p.counts o then some p.width else none

def after (p : AdaptiveDraftWidth D) (costs : List RoundCost) : AdaptiveDraftWidth D :=
  costs.foldl observe p

/-- The widths at the rounds of a list that are counted. -/
def widths (p : AdaptiveDraftWidth D) (costs : List RoundCost) : List Nat :=
  Bursts.outputs observe counted p costs

end

/-! ### The rounds at width 1 -/

/-- The counted rounds that are still to come at width 1, before another width is tried. -/
def left (p : AdaptiveDraftWidth D) : Nat :=
  if p.width ≠ 1 then 0
  else if p.searching then 4 - p.rounds
  else 20 - 4 * p.heldBlocks - p.rounds

lemma left_le (p : AdaptiveDraftWidth D) : p.left ≤ 20 := by
  rw [left]
  split_ifs
  all_goals omega

section

variable {p : AdaptiveDraftWidth D}

lemma left_eq_zero (h : p.width ≠ 1) : p.left = 0 := if_pos h

lemma left_of_searching (hwidth : p.width = 1) (h : p.searching = true) :
    p.left = 4 - p.rounds := by
  rw [left, if_neg (not_not_intro hwidth), if_pos h]

lemma left_of_held (hwidth : p.width = 1) (h : p.searching = false) :
    p.left = 20 - 4 * p.heldBlocks - p.rounds := by
  rw [left, if_neg (not_not_intro hwidth), h]
  exact if_neg (by decide)

end

/-! ### The width stays in range -/

/-- What holds of a policy with this limit after any rounds. -/
structure Sound (limit : Nat) (p : AdaptiveDraftWidth D) : Prop where
  limit_eq : p.limit = limit
  width : p.width ∈ Set.Icc 1 limit
  best : p.best ∈ Set.Icc 1 limit
  rounds : p.rounds < 4
  heldBlocks : p.heldBlocks < 4
  searching : p.searching = true → p.heldBlocks = 0

variable [Arithmetic D] {limit : Nat} {p : AdaptiveDraftWidth D} {o : RoundCost}

lemma sound_new (hlimit : 1 ≤ limit) (hmax : limit ≤ maxSpeculativeWidth) :
    (new limit : AdaptiveDraftWidth D).Sound limit := by
  have hclamp : (new limit : AdaptiveDraftWidth D).limit = limit := by
    rw [new, min_eq_left hmax, max_eq_right hlimit]
  exact ⟨hclamp, ⟨le_rfl, hlimit⟩, ⟨le_rfl, hlimit⟩, four_pos, four_pos, fun _ => rfl⟩

/-- At the end of a block the width stays in range. -/
lemma Sound.endBlock (h : p.Sound limit) (hlimit : 2 ≤ limit) {q : AdaptiveDraftWidth D}
    (hq : q = { p with elapsed := q.elapsed, committed := q.committed, rounds := q.rounds }) :
    q.endBlock.Sound limit := by
  obtain ⟨hwidth, hbest⟩ : (1 ≤ p.width ∧ p.width ≤ limit) ∧ 1 ≤ p.best ∧ p.best ≤ limit :=
    ⟨h.width, h.best⟩
  have hone : 1 ∈ Set.Icc 1 limit := ⟨le_rfl, by omega⟩
  rw [hq, AdaptiveDraftWidth.endBlock]
  dsimp only
  split_ifs with hsearching hplain hbetter hroom hslow hheld
  · exact ⟨h.limit_eq, ⟨one_le_two, hlimit⟩, hone, four_pos, h.heldBlocks, h.searching⟩
  · have hnext : min p.limit (p.width * 2) ∈ Set.Icc 1 limit := by
      rw [h.limit_eq]
      exact ⟨le_min (by omega) (by omega), min_le_left _ _⟩
    exact ⟨h.limit_eq, hnext, hwidth, four_pos, h.heldBlocks, h.searching⟩
  · exact ⟨h.limit_eq, hwidth, hwidth, four_pos, h.heldBlocks, by simp⟩
  · exact ⟨h.limit_eq, hbest, hbest, four_pos, h.heldBlocks, by simp⟩
  · exact ⟨h.limit_eq, hone, hbest, four_pos, four_pos, fun _ => rfl⟩
  · exact ⟨h.limit_eq, hone, hbest, four_pos, four_pos, fun _ => rfl⟩
  · have hmore : p.heldBlocks + 1 < 4 := by
      have hle := h.heldBlocks
      omega
    exact ⟨h.limit_eq, hwidth, hbest, four_pos, hmore, fun hyes => absurd hyes hsearching⟩

lemma Sound.observe (h : p.Sound limit) (hlimit : 2 ≤ limit) (o : RoundCost) :
    (p.observe o).Sound limit := by
  rw [AdaptiveDraftWidth.observe]
  split_ifs with hcounts hrounds
  · exact h
  · have hmore : p.rounds + 1 < 4 := by
      have hle := h.rounds
      have hne : p.rounds + 1 ≠ 4 := hrounds
      omega
    exact ⟨h.limit_eq, h.width, h.best, hmore, h.heldBlocks, h.searching⟩
  · exact h.endBlock hlimit rfl

omit [Arithmetic D] in
lemma counts_iff : p.counts o = true ↔
    p.limit ≠ 1 ∧ o.width = p.width ∧ o.committed ≠ 0 ∧ o.committed ≤ o.width ∧ o.elapsed ≠ 0 := by
  simp only [counts, Bool.not_eq_true', Bool.or_eq_false_iff, decide_eq_false_iff_not, not_not,
    not_lt, and_assoc, ne_eq]

lemma observe_of_not_counts (h : p.counts o = false) : p.observe o = p := by
  rw [observe, h]
  exact if_pos rfl

/-- A search goes on from width 1 to width 2. -/
lemma endBlock_searching (hwidth : p.width = 1) (h : p.searching = true) :
    p.endBlock.width = 2 := by
  simp only [endBlock, h, hwidth, if_true]

/-- Width 1 is held, or the next search begins there. -/
lemma endBlock_held (hwidth : p.width = 1) (h : p.searching = false) :
    p.endBlock.left = if p.heldBlocks + 1 = 4 then 4 else 20 - 4 * (p.heldBlocks + 1) := by
  have hplain : ¬ (1 < p.width ∧
      lt (p.baseline * decimal 105 2) (p.elapsed / ofNat p.committed) = true) := by
    rw [hwidth]
    exact fun hslow => absurd hslow.1 (lt_irrefl 1)
  simp only [endBlock, h, hplain, Bool.false_eq_true, if_false]
  split_ifs with hfourth
  · exact left_of_searching rfl rfl
  · exact left_of_held hwidth rfl

omit [Arithmetic D] in
lemma Sound.left_pos (h : p.Sound limit) (hwidth : p.width = 1) : 0 < p.left := by
  have hrounds := h.rounds
  have hheld := h.heldBlocks
  cases hsearching : p.searching with
  | true =>
    rw [left_of_searching hwidth hsearching]
    omega
  | false =>
    rw [left_of_held hwidth hsearching]
    omega

/-- A counted round at width 1 is one of those that were to come. -/
lemma Sound.left_observe (h : p.Sound limit) (hcounts : p.counts o = true) (hwidth : p.width = 1) :
    (p.observe o).left + 1 = p.left := by
  have hrounds := h.rounds
  have hheld := h.heldBlocks
  have hwidth' : (p.withRound o).width = 1 := hwidth
  rw [AdaptiveDraftWidth.observe, hcounts]
  simp only [Bool.not_true, Bool.false_eq_true, if_false]
  cases hsearching : p.searching with
  | true =>
    have hsearching' : (p.withRound o).searching = true := hsearching
    rw [left_of_searching hwidth hsearching]
    split_ifs with hblock
    · rw [left_of_searching hwidth' hsearching']
      change 4 - (p.rounds + 1) + 1 = 4 - p.rounds
      omega
    · have hlast : p.rounds + 1 = 4 := not_not.mp hblock
      rw [left_eq_zero (by rw [endBlock_searching hwidth' hsearching']; decide)]
      omega
  | false =>
    have hsearching' : (p.withRound o).searching = false := hsearching
    rw [left_of_held hwidth hsearching]
    split_ifs with hblock
    · have hmore : p.rounds + 1 ≠ 4 := hblock
      rw [left_of_held hwidth' hsearching']
      change 20 - 4 * p.heldBlocks - (p.rounds + 1) + 1 = 20 - 4 * p.heldBlocks - p.rounds
      omega
    · have hlast : p.rounds + 1 = 4 := not_not.mp hblock
      rw [endBlock_held hwidth' hsearching']
      change (if p.heldBlocks + 1 = 4 then 4 else 20 - 4 * (p.heldBlocks + 1)) + 1 =
        20 - 4 * p.heldBlocks - p.rounds
      split_ifs
      all_goals omega

lemma Sound.after (h : p.Sound limit) (hlimit : 2 ≤ limit) (costs : List RoundCost) :
    (p.after costs).Sound limit := by
  induction costs generalizing p with
  | nil => exact h
  | cons o costs ih => exact ih (h.observe hlimit o)

/-- No more than 20 rounds in a row of those that count are at width 1. -/
lemma Sound.widths_burst (h : p.Sound limit) (hlimit : 2 ≤ limit) {n : Nat} {costs : List RoundCost}
    (hburst : List.replicate n 1 <:+: p.widths costs) : n ≤ 20 := by
  have hkept : ∀ (p : AdaptiveDraftWidth D) o, p.Sound limit → (p.observe o).Sound limit :=
    fun p o h =>
    h.observe hlimit o
  have hnone : ∀ (p : AdaptiveDraftWidth D) o, p.Sound limit → p.counted o = none →
      (p.observe o).left = p.left := by
    intro p o _ hnone
    rw [counted] at hnone
    split_ifs at hnone with hcounts
    rw [observe_of_not_counts (Bool.not_eq_true _ ▸ hcounts)]
  have hsome : ∀ (p : AdaptiveDraftWidth D) o b, p.Sound limit → p.counted o = some b → b = 1 →
      (p.observe o).left + 1 ≤ p.left := by
    intro p o b h hsome hb
    rw [counted] at hsome
    split_ifs at hsome with hcounts
    exact (h.left_observe hcounts ((Option.some.inj hsome).trans hb)).le
  have hlength := Bursts.length_le_of_isInfix hkept hnone hsome (fun p _ => p.left_le)
    (fun _ hb => List.eq_of_mem_replicate hb) h hburst
  rwa [List.length_replicate] at hlength

end AdaptiveDraftWidth

end ProviderOwned
