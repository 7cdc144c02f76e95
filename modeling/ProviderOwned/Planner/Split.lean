import Mathlib.Algebra.BigOperators.Group.List.Basic
import Mathlib.Data.UInt
import Mathlib.Order.WithBot
import Mathlib.Tactic.Ring
import ProviderOwned.Lib.Improve
import ProviderOwned.Planner.Folding

/-!
# The best split of an order

`best_split` goes through the stages of an order and keeps, for each layer a stage may end at, the
least cost of the stages so far. A stage that begins at one layer is tried with later and later ends
until one does not fit any more; the last stage has one end only.

So it looks at the divisions that are `Gapless`: those whose stages, but for the last, still fit
when they are shortened. Among these it finds the best one. That is the best of all divisions if
every other one is matched by one of them (`findsBest_iff`), and none is skipped if there is no
other one (`bestSplit_optimal_iff`). So it is where the KV cache of all layers but one fits in 64
bits (`gapless_of_lt`); where it does not, the cache of a longer range can wrap around and fit
again, which the early break does not see (`bestSplit_not_optimal`).

Costs are rational here, those of the search are any numbers that do not overflow (`InTime`).
-/

namespace ProviderOwned.Planner

open Arithmetic Improve

variable {D : Type} {s : Sizes} {candidates : List (SearchCandidate D)} {c : SearchCandidate D}
  {order done : List Nat} {rows : List (Nat × Row D)} {plan front : List StageAssignment}
  {a : StageAssignment} {provider first last stage count : Nat} {final : Bool}

/-! ### Divisions -/

def offerOf (candidates : List (SearchCandidate D)) (provider : Nat) : UInt64 :=
  (candidates[provider]?.map SearchCandidate.offeredMib).getD 0

/-- The stage of a provider, with the bytes that `best_split` writes down. -/
def Sizes.assignment (s : Sizes) (provider first last : Nat) : StageAssignment :=
  ⟨provider, first, last, (s.model first last).toNat, (s.kv first last).toNat⟩

/-- A division of the layers `[0, last)` into ranges of the providers of an order, each of which
fits. -/
structure Division (s : Sizes) (candidates : List (SearchCandidate D)) (order : List Nat)
    (last : Nat) (plan : List StageAssignment) : Prop where
  tiles : Request.Tiles 0 last plan
  order : plan.map StageAssignment.provider = order
  sized : ∀ a ∈ plan, a = s.assignment a.provider a.first a.last
  fits : ∀ a ∈ plan, s.fits (offerOf candidates a.provider) a.first a.last

/-- A stage that still fits when it is shortened. -/
def Stays (s : Sizes) (candidates : List (SearchCandidate D)) (a : StageAssignment) : Prop :=
  ∀ last, a.first < last → last < a.last → s.fits (offerOf candidates a.provider) a.first last

/-- All stages but that of the last provider still fit when they are shortened. -/
def GaplessTo (s : Sizes) (candidates : List (SearchCandidate D)) (count : Nat)
    (plan : List StageAssignment) : Prop :=
  ∀ a ∈ plan.take (count - 1), Stays s candidates a

lemma division_nil : Division s candidates [] last plan ↔ last = 0 ∧ plan = [] := by
  constructor
  · rintro ⟨htiles, horder, -, -⟩
    obtain rfl := List.map_eq_nil_iff.mp horder
    exact ⟨Eq.symm htiles, rfl⟩
  · rintro ⟨rfl, rfl⟩
    exact ⟨rfl, rfl, by simp, by simp⟩

/-- A division by one more provider is one with one more stage. -/
lemma division_concat_iff :
    Division s candidates (order ++ [provider]) last plan ↔
      ∃ first front, plan = front ++ [s.assignment provider first last] ∧ first < last ∧
        s.fits (offerOf candidates provider) first last ∧
        Division s candidates order first front := by
  constructor
  · rintro ⟨htiles, horder, hsized, hfits⟩
    obtain ⟨front, tail, rfl, hfront, htail⟩ := List.map_eq_append_iff.mp horder
    obtain ⟨a, rfl, rfl⟩ := List.map_eq_singleton_iff.mp htail
    obtain ⟨hrest, hlt, rfl⟩ := Request.tiles_concat_iff.mp htiles
    obtain ⟨hsized, ha⟩ := List.forall_mem_append.mp hsized
    obtain ⟨hfits, hlast⟩ := List.forall_mem_append.mp hfits
    rw [List.forall_mem_singleton] at ha hlast
    exact ⟨a.first, front, by rw [← ha], hlt, hlast, hrest, hfront, hsized, hfits⟩
  · rintro ⟨first, front, rfl, hlt, hlast, htiles, hfront, hsized, hfits⟩
    refine ⟨Request.tiles_concat_iff.mpr ⟨htiles, hlt, rfl⟩, ?_, ?_, ?_⟩
    · rw [List.map_append, hfront]
      rfl
    · exact List.forall_mem_append.mpr ⟨hsized, List.forall_mem_singleton.mpr rfl⟩
    · exact List.forall_mem_append.mpr ⟨hfits, List.forall_mem_singleton.mpr hlast⟩

lemma Division.length (h : Division s candidates order last plan) : plan.length = order.length := by
  rw [← h.order, List.length_map]

lemma Division.length_le (h : Division s candidates order last plan) : order.length ≤ last := by
  have := h.tiles.length_le
  rw [h.length] at this
  omega

lemma gaplessTo_concat_iff (h : front.length < count) :
    GaplessTo s candidates count (front ++ [a]) ↔
      GaplessTo s candidates count front ∧ (front.length + 1 ≠ count → Stays s candidates a) := by
  unfold GaplessTo
  rw [List.take_append, List.forall_mem_append]
  refine and_congr_right fun _ => ?_
  by_cases hfinal : front.length + 1 = count
  · have hnone : count - 1 - front.length = 0 := by omega
    simp [hnone, hfinal]
  · obtain ⟨n, hn⟩ : ∃ n, count - 1 - front.length = n + 1 := ⟨count - 2 - front.length, by omega⟩
    simp [hn, hfinal]

/-! ### What one stage tries -/

/-- The ends that are tried for a stage that begins at `first`. -/
def tried (s : Sizes) (c : SearchCandidate D) (final : Bool) (first : Nat) : List Nat → List Nat
  | [] => []
  | last :: rest =>
    if final ∧ last ≠ s.layers then tried s c final first rest
    else if !s.fits c.offeredMib first last then []
    else last :: tried s c final first rest

/-- An end is tried if the stage fits up to it and no end before it stops the loop. -/
lemma mem_tried_iff {start n : Nat} :
    last ∈ tried s c final first (List.range' start n) ↔
      (start ≤ last ∧ last < start + n) ∧ s.fits c.offeredMib first last ∧
      (final → last = s.layers) ∧
        ∀ other, start ≤ other → other < last →
          (final ∧ other ≠ s.layers) ∨ s.fits c.offeredMib first other := by
  induction n generalizing start with
  | zero =>
    simp only [List.range'_zero, tried, List.not_mem_nil, false_iff]
    omega
  | succ n ih =>
    rw [List.range'_succ, tried]
    split_ifs with hskip hfits
    · rw [ih]
      constructor
      · rintro ⟨hrange, hlast, hfinal, hothers⟩
        refine ⟨by omega, hlast, hfinal, fun other hother hlt => ?_⟩
        rcases Nat.eq_or_lt_of_le hother with rfl | hmore
        · exact .inl hskip
        · exact hothers other hmore hlt
      · rintro ⟨hrange, hlast, hfinal, hothers⟩
        have hne : last ≠ start := fun heq => hskip.2 (heq ▸ hfinal hskip.1)
        exact ⟨by omega, hlast, hfinal, fun other hother hlt => hothers other (by omega) hlt⟩
    · simp only [Bool.not_eq_true', Bool.eq_false_iff] at hfits
      simp only [List.not_mem_nil, false_iff]
      rintro ⟨hrange, hlast, -, hothers⟩
      rcases Nat.eq_or_lt_of_le hrange.1 with rfl | hmore
      · exact hfits hlast
      · exact (hothers start (Nat.le_refl _) hmore).elim hskip hfits
    · simp only [Bool.not_eq_true', Bool.not_eq_false] at hfits
      rw [List.mem_cons, ih]
      constructor
      · rintro (rfl | ⟨hrange, hlast, hfinal, hothers⟩)
        · refine ⟨by omega, hfits, fun hfinal => ?_, by omega⟩
          by_contra hne
          exact hskip ⟨hfinal, hne⟩
        · refine ⟨by omega, hlast, hfinal, fun other hother hlt => ?_⟩
          rcases Nat.eq_or_lt_of_le hother with rfl | hmore
          · exact .inr hfits
          · exact hothers other hmore hlt
      · rintro ⟨hrange, hlast, hfinal, hothers⟩
        refine or_iff_not_imp_left.mpr fun hne => ?_
        exact ⟨by omega, hlast, hfinal, fun other hother hlt => hothers other (by omega) hlt⟩

/-- A stage may end where it fits: the last one at the last layer only, the others where they fit
when they are shortened, too. -/
def Open (s : Sizes) (c : SearchCandidate D) (final : Bool) (first last : Nat) : Prop :=
  s.fits c.offeredMib first last ∧
    if final then last = s.layers else ∀ other, first < other → other < last →
      s.fits c.offeredMib first other

lemma backtrack_append (plan : List StageAssignment) :
    backtrack s rows last plan = backtrack s rows last [] ++ plan := by
  induction rows generalizing last plan with
  | nil => rfl
  | cons entry earlier ih =>
    rw [backtrack, backtrack, ih, ih [_], List.append_assoc]
    rfl

variable [Arithmetic D]

lemma offerOf_eq : (candidates.getD provider default).offeredMib = offerOf candidates provider := by
  rw [offerOf, List.getD_eq_getElem?_getD]
  cases candidates[provider]? with
  | none => rfl
  | some c => rfl

/-- The cost of a stage on top of those before it. -/
def costAfter (s : Sizes) (c : SearchCandidate D) (first last : Nat) (cost : D) : D :=
  cost + computeMs s c first last + decimal 1 9 * computeMs s c first last *
    computeMs s c first last

/-- The cost of stages, in the order in which it is added up. -/
def costOf (s : Sizes) (candidates : List (SearchCandidate D)) (plan : List StageAssignment) : D :=
  plan.foldl (fun cost a => costAfter s (candidates.getD a.provider default) a.first a.last cost)
    (ofNat 0)

lemma costOf_concat :
    costOf s candidates (front ++ [a]) =
      costAfter s (candidates.getD a.provider default) a.first a.last
        (costOf s candidates front) := by
  rw [costOf, List.foldl_append]
  rfl

/-- The cells that are tried for one stage, by where it ends. -/
def cells (s : Sizes) (c : SearchCandidate D) (stage count : Nat) (previous : Row D) :
    List (Nat × Cell D) :=
  let lastEnd := s.layers - (count - stage - 1)
  (List.range' stage (lastEnd - stage)).flatMap fun first =>
    if eq (previous first).cost infinite then []
    else (tried s c (stage + 1 = count) first (List.range' (first + 1) (lastEnd - first))).map
        fun last =>
      (last, ⟨costAfter s c first last (previous first).cost, some first⟩)

def Cell.less (a b : Cell D) : Bool := lt a.cost b.cost

lemma relax_eq {cost : D} {lasts : List Nat} {row : Row D} :
    relax s c final cost first lasts row =
      improve Cell.less ((tried s c final first lasts).map fun last =>
        (last, ⟨costAfter s c first last cost, some first⟩)) row := by
  induction lasts generalizing row with
  | nil => rfl
  | cons last rest ih =>
    rw [relax, tried]
    split_ifs with hskip hfits
    · exact ih
    · rfl
    · rw [ih, List.map_cons, improve_cons]
      rfl

/-- The row of a stage is what trying its cells makes of an empty row. -/
lemma stageRow_eq {previous : Row D} :
    stageRow s c stage count previous =
      improve Cell.less (cells s c stage count previous) unreached := by
  unfold stageRow cells
  dsimp only
  generalize s.layers - (count - stage - 1) = lastEnd
  generalize (unreached : Row D) = row
  generalize List.range' stage (lastEnd - stage) = firsts
  induction firsts generalizing row with
  | nil => rfl
  | cons first rest ih =>
    rw [List.foldl_cons, ih, List.flatMap_cons, improve_append]
    congr 1
    split_ifs
    · rfl
    · exact relax_eq

lemma mem_cells_iff {previous : Row D} {cell : Cell D} (hcount : stage < count) :
    (last, cell) ∈ cells s c stage count previous ↔
      ∃ first, stage ≤ first ∧ first < last ∧ last + (count - stage - 1) ≤ s.layers ∧
        ¬ eq (previous first).cost infinite ∧ Open s c (stage + 1 = count) first last ∧
        cell = ⟨costAfter s c first last (previous first).cost, some first⟩ := by
  unfold cells
  simp only [List.mem_flatMap, List.mem_range'_1]
  refine exists_congr fun first => ?_
  split_ifs with hcost
  · simp [hcost]
  · simp only [List.mem_map, mem_tried_iff, Prod.mk.injEq, Open, decide_eq_true_eq]
    constructor
    · rintro ⟨hfirst, last, ⟨hrange, hfits, hfinal, hothers⟩, rfl, rfl⟩
      refine ⟨hfirst.1, by omega, by omega, hcost, ⟨hfits, ?_⟩, rfl⟩
      split_ifs with hlast
      · exact hfinal hlast
      · exact fun other hother hlt => (hothers other hother hlt).resolve_left
          fun hskip => hlast hskip.1
    · rintro ⟨hfirst, hlt, hend, -, ⟨hfits, hopen⟩, rfl⟩
      refine ⟨by omega, last, ⟨by omega, hfits, fun hlast => ?_, fun other hother hbefore => ?_⟩,
        rfl, rfl⟩
      · rwa [if_pos hlast] at hopen
      · split_ifs at hopen with hlast
        · exact .inl ⟨hlast, by omega⟩
        · exact .inr (hopen other hother hbefore)

/-! ### The rows -/

/-- The row of the last stage so far. -/
def topRow (rows : List (Nat × Row D)) : Row D := (rows.head?.map Prod.snd).getD atStart

/-- What each further row preserves holds of all rows. -/
lemma stageRows_induction (done : List Nat) {P : List Nat → List (Nat × Row D) → Prop}
    (hstep : ∀ done rows provider, done.length < count → P done rows →
      P (done ++ [provider])
        ((provider,
          stageRow s (candidates.getD provider default) done.length count (topRow rows)) :: rows))
    (hcount : done.length + order.length = count) (h : P done rows) :
    P (done ++ order) (stageRows s candidates count done.length order rows) := by
  induction order generalizing done rows with
  | nil => rwa [List.append_nil]
  | cons provider rest ih =>
    rw [List.length_cons] at hcount
    have hlength : (done ++ [provider]).length = done.length + 1 := by simp
    have hnext := ih _ (by rw [hlength]; omega) (hstep done rows provider (by omega) h)
    rwa [List.append_assoc, List.singleton_append, hlength] at hnext

/-- Each cell with a cost leads back to a division of that cost. -/
def Led (s : Sizes) (candidates : List (SearchCandidate D)) (count : Nat) (done : List Nat)
    (rows : List (Nat × Row D)) : Prop :=
  ∀ last, eq (topRow rows last).cost infinite ∨
    Division s candidates done last (backtrack s rows last []) ∧
      GaplessTo s candidates count (backtrack s rows last []) ∧
      (topRow rows last).cost = costOf s candidates (backtrack s rows last [])

lemma led_nil : Led s candidates count [] [] := by
  intro last
  by_cases hzero : last = 0
  · subst hzero
    right
    exact ⟨division_nil.mpr ⟨rfl, rfl⟩, by simp [GaplessTo, backtrack], rfl⟩
  · left
    have hcell : (topRow [] last : Cell D) = ⟨infinite, none⟩ := Function.update_of_ne hzero _ _
    rw [hcell]
    exact eq_infinite

lemma led_stageRow (hcount : done.length < count) (h : Led s candidates count done rows) :
    Led s candidates count (done ++ [provider])
      ((provider, stageRow s (candidates.getD provider default) done.length count (topRow rows)) ::
        rows) := by
  intro last
  have htop : topRow ((provider, stageRow s (candidates.getD provider default) done.length count
      (topRow rows)) :: rows) =
        improve Cell.less (cells s (candidates.getD provider default) done.length
        count (topRow rows)) unreached := stageRow_eq
  rcases improve_mem Cell.less
    (cells s (candidates.getD provider default) done.length count (topRow rows)) unreached last with
      hnone | hcell
  · left
    rw [htop, hnone]
    exact eq_infinite
  · right
    obtain ⟨first, hfirst, hlt, hend, hcost, ⟨hfits, hopen⟩, hcell⟩ :=
      (mem_cells_iff hcount).mp hcell
    obtain ⟨hdivision, hgapless, hsum⟩ := (h first).resolve_left hcost
    rw [offerOf_eq] at hfits hopen
    have hback :
        backtrack s ((provider, stageRow s (candidates.getD provider default) done.length count
        (topRow rows)) :: rows) last [] =
          backtrack s rows first [] ++ [s.assignment provider first last] := by
      rw [backtrack, stageRow_eq, hcell, backtrack_append]
      rfl
    have hlength := hdivision.length
    rw [hback]
    refine ⟨division_concat_iff.mpr ⟨first, _, rfl, hlt, hfits, hdivision⟩, ?_, ?_⟩
    · refine (gaplessTo_concat_iff (by omega)).mpr ⟨hgapless, fun hmore other hother hbefore => ?_⟩
      rw [if_neg (by simpa [hlength] using hmore)] at hopen
      exact hopen other hother hbefore
    · rw [htop, hcell, costOf_concat, ← hsum]
      rfl

/-! ### Times that do not overflow -/

/-- The costs of stages that fit stay within `F`, whose numbers are all less than infinity. -/
structure InTime (s : Sizes) (candidates : List (SearchCandidate D)) (F : D → Prop) : Prop where
  zero : F (ofNat 0)
  lt_infinite : ∀ x, F x → lt x infinite ∧ ¬ eq x infinite
  costAfter : ∀ x provider first last, F x → first < last → last ≤ s.layers →
    s.fits (offerOf candidates provider) first last →
    F (costAfter s (candidates.getD provider default) first last x)
  computeMs : ∀ x provider first last, F x → first < last → last ≤ s.layers →
    s.fits (offerOf candidates provider) first last →
    F (x + computeMs s (candidates.getD provider default) first last)

/-- The later stages can each have a layer after this one, and none is left after the last stage. -/
def Possible (s : Sizes) (count stage last : Nat) : Prop :=
  last + (count - stage) ≤ s.layers ∧ (stage = count → last = s.layers)

/-- Every gapless division has a cell whose cost does not overflow. -/
structure Reaches (s : Sizes) (candidates : List (SearchCandidate D)) (F : D → Prop) (count : Nat)
    (done : List Nat) (rows : List (Nat × Row D)) : Prop where
  fine : ∀ last, eq (topRow rows last).cost infinite ∨ F (topRow rows last).cost
  live : ∀ last plan, Division s candidates done last plan → GaplessTo s candidates count plan →
    Possible s count done.length last → F (topRow rows last).cost

/-- A gapless division is one before its last stage, and the last stage is tried. -/
lemma exists_front (hcount : done.length < count)
    (hdivision : Division s candidates (done ++ [provider]) last plan)
    (hgapless : GaplessTo s candidates count plan)
    (hpossible : Possible s count (done.length + 1) last) :
    ∃ first front, plan = front ++ [s.assignment provider first last] ∧ first < last ∧
      Division s candidates done first front ∧ GaplessTo s candidates count front ∧
      Possible s count done.length first ∧ done.length ≤ first ∧
      Open s (candidates.getD provider default) (done.length + 1 = count) first last := by
  obtain ⟨first, front, rfl, hlt, hfits, hfront⟩ := division_concat_iff.mp hdivision
  have hlength := hfront.length
  obtain ⟨hgapless, hstays⟩ := (gaplessTo_concat_iff (by omega)).mp hgapless
  obtain ⟨hroom, hlast⟩ := hpossible
  refine ⟨first, front, rfl, hlt, hfront, hgapless, ⟨by omega, by omega⟩, hfront.length_le, ?_, ?_⟩
  · rwa [offerOf_eq]
  · rw [offerOf_eq]
    split_ifs with hfinal
    · exact hlast (by simpa using hfinal)
    · exact hstays (by simpa [hlength] using hfinal)

variable {F : D → Prop}

lemma reaches_nil (hF : InTime s candidates F) : Reaches s candidates F count [] [] := by
  constructor
  · intro last
    by_cases hzero : last = 0
    · subst hzero
      exact .inr hF.zero
    · left
      have hcell : (topRow [] last : Cell D) = ⟨infinite, none⟩ := Function.update_of_ne hzero _ _
      rw [hcell]
      exact eq_infinite
  · intro last plan hdivision _ _
    obtain ⟨rfl, -⟩ := division_nil.mp hdivision
    exact hF.zero

lemma reaches_stageRow (hF : InTime s candidates F) (hcount : done.length < count)
    (h : Reaches s candidates F count done rows) :
    Reaches s candidates F count (done ++ [provider])
      ((provider, stageRow s (candidates.getD provider default) done.length count (topRow rows)) ::
        rows) := by
  have htop : topRow ((provider, stageRow s (candidates.getD provider default) done.length count
      (topRow rows)) :: rows) =
        improve Cell.less (cells s (candidates.getD provider default) done.length
        count (topRow rows)) unreached := stageRow_eq
  have hcells :
      ∀ entry ∈ cells s (candidates.getD provider default) done.length count (topRow rows),
      F entry.2.cost := by
    rintro ⟨last, cell⟩ hcell
    obtain ⟨first, -, hlt, hend, hcost, ⟨hfits, -⟩, rfl⟩ := (mem_cells_iff hcount).mp hcell
    rw [offerOf_eq] at hfits
    exact hF.costAfter _ _ _ _ ((h.fine first).resolve_left hcost) hlt (by omega) hfits
  constructor
  · intro last
    rw [htop]
    rcases improve_mem Cell.less
      (cells s (candidates.getD provider default) done.length count (topRow rows)) unreached last
        with hnone | hcell
    · left
      rw [hnone]
      exact eq_infinite
    · exact .inr (hcells _ hcell)
  · intro last plan hdivision hgapless hpossible
    obtain ⟨first, front, rfl, hlt, hfront, hgapless, hroom, hstage, hopen⟩ :=
      exists_front hcount hdivision hgapless (by simpa using hpossible)
    have hcost := h.live first front hfront hgapless hroom
    rw [htop]
    refine improve_live (P := fun cell : Cell D => F cell.cost)
      (fun _ cell hcell => (hF.lt_infinite _ hcell).1)
      hcells (.inr ((mem_cells_iff hcount).mpr ⟨first, hstage, hlt, ?_, (hF.lt_infinite _ hcost).2,
        hopen, rfl⟩))
    have := hpossible.1
    rw [List.length_append, List.length_singleton] at this
    omega

def totalMs (s : Sizes) (candidates : List (SearchCandidate D)) (plan : List StageAssignment) : D :=
  plan.foldl
    (fun total a => total + computeMs s (candidates.getD a.provider default) a.first a.last)
    (ofNat 0)

lemma bestSplit_eq : bestSplit s candidates order =
    if eq (topRow (stageRows s candidates order.length 0 order []) s.layers).cost infinite
      then (infinite, [])
    else (totalMs s candidates
      (backtrack s (stageRows s candidates order.length 0 order []) s.layers []),
      backtrack s (stageRows s candidates order.length 0 order []) s.layers []) := rfl

lemma led_stageRows :
    Led s candidates order.length order (stageRows s candidates order.length 0 order []) :=
  stageRows_induction [] (fun _ _ _ => led_stageRow) (by simp) led_nil

/-- What `best_split` finds is a gapless division, with its time and of the cost in the last
cell. -/
lemma bestSplit_spec (h : ¬ eq (bestSplit s candidates order).1 infinite) :
    Division s candidates order s.layers (bestSplit s candidates order).2 ∧
      GaplessTo s candidates order.length (bestSplit s candidates order).2 ∧
      (topRow (stageRows s candidates order.length 0 order []) s.layers).cost =
        costOf s candidates (bestSplit s candidates order).2 ∧
      (bestSplit s candidates order).1 = totalMs s candidates (bestSplit s candidates order).2 := by
  rw [bestSplit_eq] at h ⊢
  split_ifs at h ⊢ with hcost
  · exact absurd eq_infinite h
  · obtain ⟨hdivision, hgapless, hsum⟩ := (led_stageRows s.layers).resolve_left hcost
    exact ⟨hdivision, hgapless, hsum, rfl⟩

/-- The time of a division does not overflow. -/
lemma Division.inTime (hF : InTime s candidates F) (h : Division s candidates order s.layers plan) :
    F (totalMs s candidates plan) := by
  have htotal : ∀ {plan : List StageAssignment} {x : D} {first : Nat}, F x →
      Request.Tiles first s.layers plan →
      (∀ a ∈ plan, s.fits (offerOf candidates a.provider) a.first a.last) →
      F (plan.foldl (fun total a =>
        total + computeMs s (candidates.getD a.provider default) a.first a.last) x) := by
    intro plan
    induction plan with
    | nil => exact fun hx _ _ => hx
    | cons a rest ih =>
      intro x first hx htiles hfits
      obtain ⟨rfl, hlt, htiles⟩ := htiles
      obtain ⟨ha, hrest⟩ := List.forall_mem_cons.mp hfits
      have hle := htiles.length_le
      exact ih (hF.computeMs _ _ _ _ hx hlt (by omega) ha) htiles hrest
  exact htotal hF.zero h.tiles h.fits

/-- Where no time overflows, `best_split` finds a division if there is a gapless one. -/
lemma ne_infinite_of_gapless (hF : InTime s candidates F)
    (hdivision : Division s candidates order s.layers plan)
    (hgapless : GaplessTo s candidates order.length plan) :
    ¬ eq (bestSplit s candidates order).1 infinite := by
  have hreaches :
      Reaches s candidates F order.length order (stageRows s candidates order.length 0 order []) :=
    stageRows_induction [] (fun _ _ _ => reaches_stageRow hF) (by simp) (reaches_nil hF)
  have hcost :
      ¬ eq (topRow (stageRows s candidates order.length 0 order []) s.layers).cost infinite :=
    (hF.lt_infinite _ (hreaches.live _ plan hdivision hgapless ⟨by omega, fun _ => rfl⟩)).2
  have hback := ((led_stageRows s.layers).resolve_left hcost).1
  rw [bestSplit_eq, if_neg hcost]
  exact (hF.lt_infinite _ (hback.inTime hF)).2

/-! ### Exact times -/

section

variable {E : Type}

def Link.map (f : D → E) (link : Link D) : Link E :=
  ⟨link.peer, f link.rttMs, link.relayed, f link.mibPerS⟩

def SearchCandidate.map (f : D → E) (c : SearchCandidate D) : SearchCandidate E where
  offeredMib := c.offeredMib
  usPerGib := f c.usPerGib
  rttMs := f c.rttMs
  relayed := c.relayed
  prefillUsPerGib := f c.prefillUsPerGib
  cached := c.cached
  key := c.key
  links := c.links.map (Link.map f)

def SearchRequest.map (f : D → E) (r : SearchRequest D) : SearchRequest E where
  context := r.context
  sessions := r.sessions
  minimumStages := r.minimumStages
  maximumStages := r.maximumStages
  head := r.head
  workBudget := r.workBudget
  poolLimit := r.poolLimit
  cachedTolerance := f r.cachedTolerance
  relayPenaltyMs := f r.relayPenaltyMs
  promptRows := r.promptRows
  chunkRows := r.chunkRows
  rowBytes := r.rowBytes
  firstTokenLimitMs := f r.firstTokenLimitMs

/-- Candidates whose numbers are rational, as `best_split` gets them. -/
def exact (candidates : List (SearchCandidate ℚ)) : List (SearchCandidate Time) :=
  candidates.map (SearchCandidate.map Time.finite)

/-- The time of a provider for a GiB, in microseconds. -/
def speedAt (candidates : List (SearchCandidate ℚ)) (provider : Nat) : ℚ :=
  (candidates[provider]?.map fun c => if 0 < c.usPerGib then c.usPerGib else 4000).getD 4000

def stageMs (s : Sizes) (candidates : List (SearchCandidate ℚ)) (a : StageAssignment) : ℚ :=
  (s.decode a.first a.last).toNat / 2 ^ 30 * speedAt candidates a.provider / 1000

/-- The cost of a plan: the times of its stages and a billionth of their squares. -/
def splitCost (s : Sizes) (candidates : List (SearchCandidate ℚ)) (plan : List StageAssignment) :
    ℚ :=
  (plan.map fun a => stageMs s candidates a + stageMs s candidates a ^ 2 / 10 ^ 9).sum

end

variable {exacts : List (SearchCandidate ℚ)} {x y : ℚ}

lemma finite_add : (.finite x + .finite y : Time) = .finite (x + y) := rfl

lemma finite_sub : (.finite x - .finite y : Time) = .finite (x - y) := rfl

lemma finite_mul : (.finite x * .finite y : Time) = .finite (x * y) := rfl

lemma finite_div : (.finite x / .finite y : Time) = .finite (x / y) := rfl

lemma ofNat_eq (n : Nat) : (ofNat n : Time) = .finite n := rfl

lemma eq_infinite_iff {time : Time} : eq time infinite ↔ time = .infinite := by
  simp [eq, infinite]

lemma offerOf_exact : offerOf (exact exacts) provider = offerOf exacts provider := by
  unfold offerOf exact
  rw [List.getElem?_map]
  cases exacts[provider]? with
  | none => rfl
  | some c => rfl

lemma speedOf_exact : speedOf ((exact exacts).getD provider default) =
    .finite (speedAt exacts provider) := by
  unfold exact speedAt
  rw [List.getD_eq_getElem?_getD, List.getElem?_map]
  cases exacts[provider]? with
  | none => decide
  | some c =>
    simp only [Option.map_some, Option.getD_some, speedOf, SearchCandidate.map, ofNat_eq, lt,
      Time.less, Nat.cast_zero, decide_eq_true_eq]
    split_ifs
    · rfl
    · rfl

lemma computeMs_exact : computeMs s ((exact exacts).getD provider default) first last =
    .finite (stageMs s exacts (s.assignment provider first last)) := by
  unfold computeMs stageMs
  rw [speedOf_exact, gib, ofNat_eq, ofNat_eq, ofNat_eq, finite_div, finite_mul, finite_div]
  norm_num [Sizes.assignment]

lemma costAfter_exact : costAfter s ((exact exacts).getD provider default) first last (.finite x) =
    .finite (x + (stageMs s exacts (s.assignment provider first last) +
      stageMs s exacts (s.assignment provider first last) ^ 2 / 10 ^ 9)) := by
  unfold costAfter
  rw [computeMs_exact, show (decimal 1 9 : Time) = .finite (1 / 10 ^ 9) from rfl, finite_mul,
    finite_mul, finite_add, finite_add]
  congr 1
  ring

lemma splitCost_concat : splitCost s exacts (front ++ [a]) =
    splitCost s exacts front + (stageMs s exacts a + stageMs s exacts a ^ 2 / 10 ^ 9) := by
  simp [splitCost]

lemma costOf_exact : costOf s (exact exacts) plan = .finite (splitCost s exacts plan) := by
  induction plan using List.reverseRecOn with
  | nil => rfl
  | append_singleton front a ih =>
    rw [costOf_concat, ih, costAfter_exact, splitCost_concat]
    rfl

lemma division_exact : Division s (exact exacts) order last plan ↔
    Division s exacts order last plan := by
  constructor
  · rintro ⟨htiles, horder, hsized, hfits⟩
    exact ⟨htiles, horder, hsized, by simpa only [offerOf_exact] using hfits⟩
  · rintro ⟨htiles, horder, hsized, hfits⟩
    exact ⟨htiles, horder, hsized, by simpa only [offerOf_exact] using hfits⟩

lemma gaplessTo_exact : GaplessTo s (exact exacts) count plan ↔ GaplessTo s exacts count plan := by
  simp only [GaplessTo, Stays, offerOf_exact]

/-- Exact times do not overflow. -/
lemma inTime_exact : InTime s (exact exacts) fun x => ∃ q, x = .finite q where
  zero := ⟨0, rfl⟩
  lt_infinite := by
    rintro x ⟨q, rfl⟩
    exact ⟨rfl, by simp [eq_infinite_iff]⟩
  costAfter := by
    rintro x provider first last ⟨q, rfl⟩ - - -
    exact ⟨_, costAfter_exact⟩
  computeMs := by
    rintro x provider first last ⟨q, rfl⟩ - - -
    exact ⟨_, by rw [computeMs_exact, finite_add]⟩

def Time.value : Time → WithTop ℚ
  | .finite x => x
  | .infinite => ⊤

lemma less_iff (a b : Cell Time) : Cell.less a b ↔ a.cost.value < b.cost.value := by
  obtain ⟨x, hx⟩ := a
  obtain ⟨y, hy⟩ := b
  cases x with
  | finite x =>
    cases y with
    | finite y => simp [Cell.less, lt, Time.less, Time.value]
    | infinite => simp [Cell.less, lt, Time.less, Time.value]
  | infinite => simp [Cell.less, lt, Time.less, Time.value]

/-- No gapless division costs less than its cell says. -/
def Least (s : Sizes) (exacts : List (SearchCandidate ℚ)) (count : Nat) (done : List Nat)
    (rows : List (Nat × Row Time)) : Prop :=
  ∀ last plan, Division s exacts done last plan → GaplessTo s exacts count plan →
    Possible s count done.length last → (topRow rows last).cost.value ≤ splitCost s exacts plan

lemma least_nil : Least s exacts count [] [] := by
  intro last plan hdivision _ _
  obtain ⟨rfl, rfl⟩ := division_nil.mp hdivision
  exact le_rfl

lemma least_stageRow {rows : List (Nat × Row Time)} (hcount : done.length < count)
    (h : Least s exacts count done rows) :
    Least s exacts count (done ++ [provider]) ((provider,
      stageRow s ((exact exacts).getD provider default) done.length count (topRow rows)) ::
        rows) := by
  intro last plan hdivision hgapless hpossible
  rw [List.length_append, List.length_singleton] at hpossible
  obtain ⟨first, front, rfl, hlt, hfront, hgapless, hroom, hstage, hopen⟩ :=
    exists_front hcount (division_exact.mpr hdivision) (gaplessTo_exact.mpr hgapless) hpossible
  have hcost := h first front (division_exact.mp hfront) (gaplessTo_exact.mp hgapless) hroom
  have hend := hpossible.1
  obtain ⟨x, hx⟩ : ∃ x, (topRow rows first).cost = .finite x := by
    cases hcell : (topRow rows first).cost with
    | finite x => exact ⟨x, rfl⟩
    | infinite => simp [hcell, Time.value] at hcost
  have hne : ¬ eq (topRow rows first).cost infinite := by simp [hx, eq_infinite_iff]
  have hcell : (last,
      ⟨costAfter s ((exact exacts).getD provider default) first last (topRow rows first).cost,
      some first⟩) ∈ cells s ((exact exacts).getD provider default) done.length count
          (topRow rows) :=
    (mem_cells_iff hcount).mpr ⟨first, hstage, hlt, by omega, hne, hopen, rfl⟩
  have hle := improve_le_of_mem less_iff unreached hcell
  rw [← stageRow_eq] at hle
  refine hle.trans ?_
  rw [hx] at hcost ⊢
  rw [costAfter_exact, splitCost_concat]
  exact WithTop.coe_le_coe.mpr (by simpa using WithTop.coe_le_coe.mp hcost)

/-! ### The best division -/

/-- The stages but the last still fit when they are shortened. -/
def Gapless (s : Sizes) (candidates : List (SearchCandidate D)) (plan : List StageAssignment) :
    Prop :=
  ∀ a ∈ plan.dropLast, Stays s candidates a

/-- `best_split` finds no division only if there is none, and none that costs more than another. -/
structure FindsBest (s : Sizes) (exacts : List (SearchCandidate ℚ)) (order : List Nat) : Prop where
  infeasible : (bestSplit s (exact exacts) order).1 = .infinite ↔
    ¬ ∃ plan, Division s exacts order s.layers plan
  least : (bestSplit s (exact exacts) order).1 ≠ .infinite →
    Division s exacts order s.layers (bestSplit s (exact exacts) order).2 ∧
      ∀ plan, Division s exacts order s.layers plan →
        splitCost s exacts (bestSplit s (exact exacts) order).2 ≤ splitCost s exacts plan

/-- Its loop over the ends gets to every stage of a division. -/
def SkipsNone (s : Sizes) (exacts : List (SearchCandidate ℚ)) (order : List Nat) : Prop :=
  ∀ front a rest, Division s exacts order s.layers (front ++ a :: rest) →
    a.last ∈ tried s ((exact exacts).getD a.provider default) (rest = []) a.first
      (List.range' (a.first + 1) (s.layers - rest.length - a.first))

/-- Every division is matched by a gapless one that costs no more. -/
def Matched (s : Sizes) (exacts : List (SearchCandidate ℚ)) (order : List Nat) : Prop :=
  ∀ plan, Division s exacts order s.layers plan →
    ∃ better, Division s exacts order s.layers better ∧ Gapless s exacts better ∧
      splitCost s exacts better ≤ splitCost s exacts plan

omit [Arithmetic D] in
lemma Division.gaplessTo_iff (h : Division s candidates order last plan) :
    GaplessTo s candidates order.length plan ↔ Gapless s candidates plan := by
  rw [GaplessTo, Gapless, List.dropLast_eq_take, h.length]

/-- Among the gapless divisions `best_split` finds the best. -/
lemma best_of_gapless (hdivision : Division s exacts order s.layers plan)
    (hgapless : Gapless s exacts plan) :
    (bestSplit s (exact exacts) order).1 ≠ .infinite ∧
      splitCost s exacts (bestSplit s (exact exacts) order).2 ≤ splitCost s exacts plan := by
  have hgaplessTo := hdivision.gaplessTo_iff.mpr hgapless
  have hne := ne_infinite_of_gapless inTime_exact (division_exact.mpr hdivision)
    (gaplessTo_exact.mpr hgaplessTo)
  obtain ⟨-, -, hcost, -⟩ := bestSplit_spec hne
  have hleast :
      Least s exacts order.length order (stageRows s (exact exacts) order.length 0 order []) :=
    stageRows_induction [] (fun _ _ _ => least_stageRow) (by simp) least_nil
  have hle := hleast s.layers plan hdivision hgaplessTo ⟨by omega, fun _ => rfl⟩
  rw [hcost, costOf_exact] at hle
  exact ⟨mt eq_infinite_iff.mpr hne, WithTop.coe_le_coe.mp hle⟩

/-- `best_split` finds the best division of all exactly if each is matched by a gapless one. -/
theorem findsBest_iff : FindsBest s exacts order ↔ Matched s exacts order := by
  have hfound : (bestSplit s (exact exacts) order).1 ≠ .infinite →
      Division s exacts order s.layers (bestSplit s (exact exacts) order).2 ∧
        Gapless s exacts (bestSplit s (exact exacts) order).2 := by
    intro hne
    obtain ⟨hdivision, hgapless, -⟩ := bestSplit_spec (mt eq_infinite_iff.mp hne)
    have hdivision := division_exact.mp hdivision
    exact ⟨hdivision, hdivision.gaplessTo_iff.mp (gaplessTo_exact.mp hgapless)⟩
  constructor
  · rintro ⟨hinfeasible, hleast⟩ plan hplan
    have hne : (bestSplit s (exact exacts) order).1 ≠ .infinite :=
      fun heq => hinfeasible.mp heq ⟨plan, hplan⟩
    exact ⟨_, (hfound hne).1, (hfound hne).2, (hleast hne).2 plan hplan⟩
  · intro hmatched
    constructor
    · constructor
      · rintro heq ⟨plan, hplan⟩
        obtain ⟨better, hbetter, hgapless, -⟩ := hmatched plan hplan
        exact (best_of_gapless hbetter hgapless).1 heq
      · intro hnone
        by_contra hne
        exact hnone ⟨_, (hfound hne).1⟩
    · intro hne
      refine ⟨(hfound hne).1, fun plan hplan => ?_⟩
      obtain ⟨better, hbetter, hgapless, hle⟩ := hmatched plan hplan
      exact (best_of_gapless hbetter hgapless).2.trans hle

lemma tiles_append_iff {rest : List StageAssignment} {first last : Nat} :
    Request.Tiles first last (front ++ rest) ↔
      ∃ middle, Request.Tiles first middle front ∧ Request.Tiles middle last rest := by
  induction front generalizing first with
  | nil => simp [Request.Tiles]
  | cons b front ih => simp only [List.cons_append, Request.Tiles, ih, exists_and_left, and_assoc]

omit [Arithmetic D] in
/-- A stage of a division is in its range. -/
lemma Division.range {rest : List StageAssignment}
    (h : Division s candidates order last (front ++ a :: rest)) :
    a.first < a.last ∧ a.last + rest.length ≤ last ∧ (rest = [] → a.last = last) ∧
      s.fits (offerOf candidates a.provider) a.first a.last := by
  obtain ⟨middle, -, rfl, hlt, hrest⟩ := tiles_append_iff.mp h.tiles
  refine ⟨hlt, hrest.length_le, ?_, h.fits a (by simp)⟩
  rintro rfl
  exact hrest

lemma mem_dropLast_iff : a ∈ plan.dropLast ↔ ∃ front rest, plan = front ++ a :: rest ∧
    rest ≠ [] := by
  constructor
  · intro ha
    obtain ⟨front, rest, heq⟩ := List.append_of_mem ha
    have hne : plan ≠ [] := by
      rintro rfl
      exact List.not_mem_nil ha
    refine ⟨front, rest ++ [plan.getLast hne], ?_, by simp⟩
    rw [← List.cons_append, ← List.append_assoc, ← heq, List.dropLast_append_getLast]
  · rintro ⟨front, rest, rfl, hne⟩
    rw [List.dropLast_append_of_ne_nil (by simp), List.dropLast_cons_of_ne_nil hne]
    simp

/-- The loop gets to every stage exactly if every division is gapless. -/
lemma skipsNone_iff :
    SkipsNone s exacts order ↔ ∀ plan, Division s exacts order s.layers plan →
      Gapless s exacts plan := by
  constructor
  · intro hskips plan hplan a ha other hother hlt
    obtain ⟨front, rest, rfl, hne⟩ := mem_dropLast_iff.mp ha
    obtain ⟨-, -, -, hothers⟩ := mem_tried_iff.mp (hskips front a rest hplan)
    have hfits := (hothers other hother hlt).resolve_left fun hskip => hne (by simpa using hskip.1)
    rwa [offerOf_eq, offerOf_exact] at hfits
  · intro hgapless front a rest hplan
    obtain ⟨hlt, hroom, hlast, hfits⟩ := hplan.range
    refine mem_tried_iff.mpr ⟨by omega, ?_, by simpa using hlast, fun other hother hbefore => ?_⟩
    · rwa [offerOf_eq, offerOf_exact]
    · by_cases hrest : rest = []
      · have := hlast hrest
        exact .inl ⟨by simpa using hrest, by omega⟩
      · right
        rw [offerOf_eq, offerOf_exact]
        exact hgapless _ hplan a (mem_dropLast_iff.mpr ⟨front, rest, rfl, hrest⟩) other hother
          hbefore

/-- `best_split` finds the best division of all and skips none exactly if the stages of every
division, but for the last of each, still fit when they are shortened. -/
theorem bestSplit_optimal_iff :
    FindsBest s exacts order ∧ SkipsNone s exacts order ↔
      ∀ plan, Division s exacts order s.layers plan → Gapless s exacts plan := by
  rw [skipsNone_iff, findsBest_iff]
  refine and_iff_right_of_imp fun hgapless plan hplan => ?_
  exact ⟨plan, hplan, hgapless plan hplan, le_rfl⟩

/-! ### Sizes of a model -/

variable {m : ModelIndex} {context sessions : UInt32} {other : Nat}

lemma ownedBytes_mono (hother : first < other) (hlast : other ≤ last)
    (hlayers : last ≤ m.layers.toNat) :
    ownedBytes m first other ≤ ownedBytes m first last := by
  rcases Nat.eq_or_lt_of_le hlast with rfl | hlt
  · exact le_rfl
  · by_cases hwhole : first = 0 ∧ last = m.layers.toNat
    · obtain ⟨rfl, rfl⟩ := hwhole
      exact ownedBytes_le_whole hlast
    · rw [ownedBytes_cut hother hlt hlayers hwhole]
      exact Nat.le_add_right _ _

/-- A stage whose cache does not wrap around still fits when it is shortened. -/
lemma SizesOf.fits_of_le {offeredMib : UInt64} (h : SizesOf m context sessions s)
    (hcache : CacheOf m context sessions s) (hother : first < other) (hlast : other ≤ last)
    (hlayers : last ≤ m.layers.toNat) (hlt : kvUnit m context sessions * (last - first) < 2 ^ 64)
    (hfits : s.fits offeredMib first last) : s.fits offeredMib first other := by
  obtain ⟨hmodel, hne⟩ := h.model_eq (Nat.lt_of_lt_of_le hother hlast) hlayers
  obtain ⟨hmodelOther, hneOther⟩ := h.model_eq hother (hlast.trans hlayers)
  have hkv : kvUnit m context sessions * (other - first) ≤
      kvUnit m context sessions * (last - first) :=
    Nat.mul_le_mul_left _ (by omega)
  have howned := ownedBytes_mono hother hlast hlayers
  rw [Sizes.fits_iff (hmodel ▸ hne), hmodel, hcache.kv_eq_mod, Nat.mod_eq_of_lt hlt,
    (stageModelBytes_ne_zero hne).2] at hfits
  rw [Sizes.fits_iff (hmodelOther ▸ hneOther), hmodelOther, hcache.kv_eq_mod,
    Nat.mod_eq_of_lt (Nat.lt_of_le_of_lt hkv hlt), (stageModelBytes_ne_zero hneOther).2]
  omega

omit [Arithmetic D] in
/-- Where the KV cache of all layers but one fits in 64 bits, every division is gapless. -/
theorem gapless_of_lt (hcompatible : compatible m) (hs : sizesOf m context sessions = some s)
    (hkv : kvUnit m context sessions * (m.layers.toNat - 1) < 2 ^ 64)
    (hdivision : Division s candidates order s.layers plan) : Gapless s candidates plan := by
  have hsizes := sizesOf_spec (one_lt_layers hcompatible) hs
  intro a ha other hother hlt
  obtain ⟨front, rest, rfl, hne⟩ := mem_dropLast_iff.mp ha
  obtain ⟨-, hroom, -, hfits⟩ := hdivision.range
  have hrest := List.length_pos_iff.mpr hne
  have hlayers := hsizes.layers
  refine hsizes.fits_of_le (sizesOf_cache hs) hother hlt.le (by omega) ?_ hfits
  exact Nat.lt_of_le_of_lt (Nat.mul_le_mul_left _ (by omega)) hkv

/-- A model of four layers whose KV cache for one session of `2 ^ 31` positions is `2 ^ 63` bytes a
layer. -/
def wideHeads : ModelIndex :=
  { hugeHeads with
    layers := 4
    tensors := hugeHeads.tensors ++ [⟨"blk.2.attn_q.weight".toList, 300, [], 0⟩,
      ⟨"blk.3.attn_q.weight".toList, 300, [], 0⟩] }

/-- Two candidates that offer 4 GiB each. -/
def twoOffers : List (SearchCandidate ℚ) :=
  [⟨4096, 1000, 10, false, 0, [], "a", []⟩, ⟨4096, 1000, 10, false, 0, [], "b", []⟩]

/-- The cache of one layer does not fit, that of two wraps around to nothing: the loop stops before
the only division. -/
theorem bestSplit_not_optimal :
    ∃ s, compatible wideHeads ∧ sizesOf wideHeads (2 ^ 31) 1 = some s ∧
      (bestSplit s (exact twoOffers) [0, 1]).1 = .infinite ∧
      Division s twoOffers [0, 1] s.layers [s.assignment 0 0 2, s.assignment 1 2 4] ∧
      ¬ (FindsBest s twoOffers [0, 1] ∧ SkipsNone s twoOffers [0, 1]) := by
  have hsome : (sizesOf wideHeads (2 ^ 31) 1).isSome := by decide +kernel
  have hinfinite :
      (bestSplit ((sizesOf wideHeads (2 ^ 31) 1).get hsome) (exact twoOffers) [0, 1]).1 =
      .infinite := by
    decide +kernel +revert
  have hfits : ((sizesOf wideHeads (2 ^ 31) 1).get hsome).fits 4096 0 2 ∧
      ((sizesOf wideHeads (2 ^ 31) 1).get hsome).fits 4096 2 4 := by
    decide +kernel +revert
  have hlayers : ((sizesOf wideHeads (2 ^ 31) 1).get hsome).layers = 4 := by decide +kernel +revert
  generalize hs : (sizesOf wideHeads (2 ^ 31) 1).get hsome = s at hinfinite hfits hlayers
  have hdivision : Division s twoOffers [0, 1] s.layers [s.assignment 0 0 2,
      s.assignment 1 2 4] := by
    refine ⟨⟨rfl, Nat.zero_lt_two, rfl, Nat.lt_add_of_pos_right Nat.zero_lt_two, hlayers.symm⟩, rfl,
      ?_, ?_⟩
    · simp [Sizes.assignment]
    · exact List.forall_mem_cons.mpr ⟨hfits.1, List.forall_mem_singleton.mpr hfits.2⟩
  refine ⟨s, ?_, ?_, hinfinite, hdivision, fun h => ?_⟩
  · decide +kernel
  · rw [← hs, Option.some_get]
  · exact h.1.infeasible.mp hinfinite ⟨_, hdivision⟩

end ProviderOwned.Planner
