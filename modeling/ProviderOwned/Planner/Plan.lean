import Mathlib.Data.Bool.AllAny
import Mathlib.Data.List.Sort
import ProviderOwned.Lib.TopSum
import ProviderOwned.Planner.Model

/-!
# The planner

`plan_stages` and `plan_from_cache` of `planner.cpp`, against the plans that are possible at all
(`Valid`). `plan_stages` tries stage counts from the least one up, for each the orders of providers
and for each order the cut points; where it looks for a cut point first is a matter of `long double`
arithmetic and is left open (`cut`).
-/

namespace ProviderOwned.Planner

/-- What both planners are given. -/
structure Request where
  model : ModelIndex
  offered : List UInt64
  context : UInt32
  sessions : UInt32
  minimum : Nat := 1
  head : Option Nat := none

namespace Request

def layers (q : Request) : Nat := q.model.layers.toNat

/-- `fits`: the assignment of the layers `[first, last)` to a provider that can hold them. -/
def fits (q : Request) (provider first last : Nat) : Option StageAssignment :=
  (q.offered[provider]?).bind fun offeredMib =>
    (stageFits q.model offeredMib first last q.context q.sessions).map ({ · with provider })

/-! ### Possible plans -/

/-- The stages follow one another from `first` to `last`, each with at least one layer. -/
def Tiles : Nat → Nat → List StageAssignment → Prop
  | first, last, [] => first = last
  | first, last, a :: rest => a.first = first ∧ first < a.last ∧ Tiles a.last last rest

/-- A plan: its stages tile the layers, fit on different providers, and the head is the first. -/
structure Valid (q : Request) (plan : List StageAssignment) : Prop where
  tiles : Tiles 0 q.layers plan
  distinct : (plan.map StageAssignment.provider).Nodup
  fits : ∀ a ∈ plan, q.fits a.provider a.first a.last = some a
  head : ∀ h ∈ q.head, plan.head?.map StageAssignment.provider = some h

/-- The plan has a stage count that was asked for. -/
def InBounds (q : Request) (plan : List StageAssignment) : Prop :=
  q.minimum ≤ plan.length ∧ plan.length ≤ min q.offered.length q.layers

/-! ### `plan_stages` -/

/-- The cut points after `first` in the order they are tried. -/
def ends (first last : Nat) (cut : Int) : List Nat :=
  let wanted := max (first + 1 : Int) (min (first + cut) last)
  (List.range' (first + 1) (last - first)).mergeSort fun left right =>
    (left - wanted).natAbs ≤ (right - wanted).natAbs

/-- `split`, for the providers from this slot on. -/
def split (q : Request) (cut : List Nat → Nat → Int) :
    List Nat → Nat → Option (List StageAssignment)
  | [], _ => none
  | [provider], first => (q.fits provider first q.layers).map ([·])
  | provider :: next :: rest, first =>
    (ends first (q.layers - (rest.length + 1)) (cut (provider :: next :: rest) first)).findSome?
      fun last => (q.fits provider first last).bind fun a =>
        (split q cut (next :: rest) last).map (a :: ·)

/-- `choose`, with the number of providers still to choose. -/
def choose (q : Request) (cut : List Nat → Nat → Int) :
    Nat → List Nat → Option (List StageAssignment)
  | 0, order => q.split cut order 0
  | n + 1, order => (List.range q.offered.length).findSome? fun index =>
    if index ∈ order ∨ (order = [] ∧ ∃ h ∈ q.head, index ≠ h) then none
    else choose q cut n (order ++ [index])

/-- The sum of `count_is_hopeless`, given up once it passes 64 bits. -/
def checkedCapacity : Nat → List Nat → Option Nat
  | capacity, [] => some capacity
  | capacity, u :: rest => if capacity > maxU64 - u then none
    else checkedCapacity (capacity + u) rest

def countIsHopeless (q : Request) (count : Nat) : Bool :=
  let wholeModel := stageModelBytes q.model 0 q.layers
  let wholeKv := kvBytes q.model 0 q.layers q.context q.sessions
  if wholeModel = 0 ∨ wholeKv = 0 then false
  else
    match checkedCapacity 0 (((q.offered.map usableBytes).mergeSort (· ≥ ·)).take count) with
    | none => false
    | some capacity =>
      let headers := q.model.headerBytes.toNat * (count - 1) % 2 ^ 64
      if wholeModel > maxU64 - wholeKv ∨ wholeModel + wholeKv > maxU64 - headers then false
      else capacity < wholeModel + wholeKv + headers

/-- The stage counts `plan_stages` tries. -/
def counts (q : Request) : List Nat :=
  List.range' q.minimum (min q.offered.length q.layers + 1 - q.minimum)

/-- What `plan_stages` makes of one count. -/
def tried (q : Request) (cut : List Nat → Nat → Int) (count : Nat) :
    Option (List StageAssignment) :=
  if q.countIsHopeless count then none else q.choose cut count []

/-- What `plan_stages` refuses at once. -/
def refused (q : Request) : Bool :=
  !compatible q.model || q.offered.isEmpty || 8 < q.offered.length || q.context = 0 ||
    q.sessions = 0 || q.minimum = 0 || q.offered.length < q.minimum ||
    q.head.any (q.offered.length ≤ ·)

def planStages (q : Request) (cut : List Nat → Nat → Int) : Option (List StageAssignment) :=
  if q.refused then none
  else q.counts.findSome? (q.tried cut)

/-! ### Stages that fit -/

variable {q : Request} {cut : List Nat → Nat → Int} {plan : List StageAssignment}
  {first last provider : Nat} {a : StageAssignment}

lemma fits_eq_some_iff :
    q.fits provider first last = some a ↔
      ∃ offeredMib, q.offered[provider]? = some offeredMib ∧
        a = ⟨provider, first, last, stageModelBytes q.model first last,
          kvBytes q.model first last q.context q.sessions⟩ ∧
        stageModelBytes q.model first last ≠ 0 ∧
        kvBytes q.model first last q.context q.sessions ≠ 0 ∧
        stageModelBytes q.model first last + kvBytes q.model first last q.context q.sessions ≤
          usableBytes offeredMib := by
  simp only [fits, Option.bind_eq_some_iff, Option.map_eq_some_iff, stageFits_eq_some_iff]
  constructor
  · rintro ⟨offeredMib, hoffered, b, ⟨rfl, hfits⟩, rfl⟩
    exact ⟨offeredMib, hoffered, rfl, hfits⟩
  · rintro ⟨offeredMib, hoffered, rfl, hfits⟩
    exact ⟨offeredMib, hoffered, _, ⟨rfl, hfits⟩, rfl⟩

/-- What fits is an assignment of what was asked for. -/
lemma fits_eq (h : q.fits provider first last = some a) :
    a.provider = provider ∧ a.first = first ∧ a.last = last ∧ provider < q.offered.length ∧
      first < last := by
  obtain ⟨offeredMib, hoffered, rfl, hweights, -⟩ := fits_eq_some_iff.mp h
  exact ⟨rfl, rfl, rfl, (List.getElem?_eq_some_iff.mp hoffered).1,
    (stageModelBytes_ne_zero hweights).1.1⟩

lemma Tiles.length_le (h : Tiles first last plan) : first + plan.length ≤ last := by
  induction plan generalizing first with
  | nil => exact Nat.le_of_eq h
  | cons a rest ih =>
    obtain ⟨-, hlt, hrest⟩ := h
    have := ih hrest
    rw [List.length_cons]
    omega

/-- Distinct providers and non-empty ranges bound the number of stages. -/
lemma Valid.length_le (h : q.Valid plan) : plan.length ≤ min q.offered.length q.layers := by
  refine Nat.le_min.mpr ⟨?_, by simpa using h.tiles.length_le⟩
  have hsub : (plan.map StageAssignment.provider).Subperm (List.range q.offered.length) := by
    refine h.distinct.subperm fun provider hprovider => ?_
    obtain ⟨a, ha, rfl⟩ := List.mem_map.mp hprovider
    exact List.mem_range.mpr (fits_eq (h.fits a ha)).2.2.2.1
  simpa using hsub.length_le

/-! ### The cut points of one order -/

/-- The stages of one order of providers, from `first` on. -/
structure Splits (q : Request) (order : List Nat) (first : Nat) (plan : List StageAssignment) :
    Prop where
  tiles : Tiles first q.layers plan
  order : plan.map StageAssignment.provider = order
  fits : ∀ a ∈ plan, q.fits a.provider a.first a.last = some a

lemma mem_ends {e : Nat} {c : Int} : e ∈ ends first last c ↔ first < e ∧ e ≤ last := by
  simp only [ends, List.mem_mergeSort, List.mem_range'_1]
  omega

/-- What `split` finds is a split. -/
lemma splits_of_split {order : List Nat} (h : q.split cut order first = some plan) :
    q.Splits order first plan := by
  induction order generalizing first plan with
  | nil => simp [split] at h
  | cons provider order ih =>
    cases order with
    | nil =>
      obtain ⟨a, ha, rfl⟩ := Option.map_eq_some_iff.mp h
      obtain ⟨hprovider, hfirst, hlast, -, hlt⟩ := fits_eq ha
      refine ⟨⟨hfirst, hlast ▸ hlt, hlast⟩, by simp [hprovider], ?_⟩
      rw [List.forall_mem_singleton, hprovider, hfirst, hlast]
      exact ha
    | cons next rest =>
      obtain ⟨last, -, hlast⟩ := List.exists_of_findSome?_eq_some h
      obtain ⟨a, ha, hrest⟩ := Option.bind_eq_some_iff.mp hlast
      obtain ⟨plan, hplan, rfl⟩ := Option.map_eq_some_iff.mp hrest
      obtain ⟨htiles, horder, hfits⟩ := ih hplan
      obtain ⟨hprovider, hfirst, hlast, -, hlt⟩ := fits_eq ha
      refine ⟨⟨hfirst, hlast ▸ hlt, hlast ▸ htiles⟩, by simp [hprovider, horder], ?_⟩
      refine List.forall_mem_cons.mpr ⟨?_, hfits⟩
      rw [hprovider, hfirst, hlast]
      exact ha

/-- `split` finds one if there is one. -/
lemma split_isSome {order : List Nat} (horder : order ≠ []) (h : q.Splits order first plan) :
    (q.split cut order first).isSome := by
  induction order generalizing first plan with
  | nil => exact absurd rfl horder
  | cons provider order ih =>
    obtain ⟨htiles, hproviders, hfits⟩ := h
    match plan with
    | [] => simp at hproviders
    | a :: rest =>
      obtain ⟨hfirst, hlt, hrest⟩ := htiles
      obtain ⟨hprovider, horder⟩ := List.cons.inj hproviders
      obtain ⟨ha, hfitsRest⟩ := List.forall_mem_cons.mp hfits
      rw [hprovider, hfirst] at ha
      cases order with
      | nil =>
        obtain rfl := List.map_eq_nil_iff.mp horder
        rw [show a.last = q.layers from hrest] at ha
        simp [split, ha]
      | cons next others =>
        have hlength := hrest.length_le
        rw [← List.length_map (f := StageAssignment.provider), horder] at hlength
        obtain ⟨found, hfound⟩ := Option.isSome_iff_exists.mp
          (ih (by simp) ⟨hrest, horder, hfitsRest⟩)
        rw [split, List.findSome?_isSome_iff]
        refine ⟨a.last, mem_ends.mpr ⟨hlt, ?_⟩, by simp [ha, hfound]⟩
        rw [List.length_cons] at hlength
        omega

/-! ### The orders of providers -/

/-- An order of providers, or the start of one, that `choose` may build: different ones, the head
first. -/
structure Order (q : Request) (order : List Nat) : Prop where
  nodup : order.Nodup
  known : ∀ provider ∈ order, provider < q.offered.length
  head : order ≠ [] → ∀ h ∈ q.head, order.head? = some h

lemma Order.concat {order : List Nat} {index : Nat} (h : q.Order order)
    (hindex : index < q.offered.length)
    (hnew : ¬ (index ∈ order ∨ (order = [] ∧ ∃ h ∈ q.head, index ≠ h))) :
    q.Order (order ++ [index]) := by
  rw [not_or] at hnew
  refine ⟨List.nodup_append.mpr ⟨h.nodup, by simp, ?_⟩, ?_, fun _ head hhead => ?_⟩
  · simp only [List.mem_singleton, forall_eq]
    exact fun a ha heq => hnew.1 (heq ▸ ha)
  · simpa [or_imp, forall_and, hindex] using h.known
  · cases order with
    | nil =>
      by_contra hne
      exact hnew.2 ⟨rfl, head, hhead, fun heq => hne (by simp [heq])⟩
    | cons first rest => simpa using h.head (by simp) head hhead

/-- What `choose` finds is a split of an order that goes on from this one. -/
lemma splits_of_choose {n : Nat} {order : List Nat} (horder : q.Order order)
    (hne : order ≠ [] ∨ n ≠ 0) (h : q.choose cut n order = some plan) :
    ∃ full, full ≠ [] ∧ q.Order full ∧ full.length = order.length + n ∧ q.Splits full 0 plan := by
  induction n generalizing order with
  | zero => exact ⟨order, hne.resolve_right (by simp), horder, rfl, splits_of_split h⟩
  | succ n ih =>
    obtain ⟨index, hindex, hfound⟩ := List.exists_of_findSome?_eq_some h
    split_ifs at hfound with hskip
    obtain ⟨full, hcons, hfull, hlength, hsplits⟩ :=
      ih (horder.concat (List.mem_range.mp hindex) hskip) (.inl (by simp)) hfound
    refine ⟨full, hcons, hfull, ?_, hsplits⟩
    rw [hlength, List.length_append, List.length_singleton]
    omega

/-- `choose` finds one if some order that goes on from this one has a split. -/
lemma choose_isSome {n : Nat} {order rest : List Nat} (hfull : q.Order (order ++ rest))
    (hlength : rest.length = n) (hne : order ++ rest ≠ [])
    (hsplits : q.Splits (order ++ rest) 0 plan) :
    (q.choose cut n order).isSome := by
  induction n generalizing order rest with
  | zero =>
    obtain rfl := List.eq_nil_of_length_eq_zero hlength
    rw [List.append_nil] at hsplits hne
    exact split_isSome hne hsplits
  | succ n ih =>
    match rest with
    | [] => simp at hlength
    | index :: rest =>
      rw [← List.singleton_append, ← List.append_assoc] at hfull hne hsplits
      have hstep := ih hfull (by simpa using hlength) hne hsplits
      have hindex : index < q.offered.length := hfull.known index (by simp)
      rw [choose, List.findSome?_isSome_iff]
      refine ⟨index, List.mem_range.mpr hindex, ?_⟩
      rw [if_neg]
      · exact hstep
      · rintro (hmem | ⟨rfl, h, hhead, hother⟩)
        · have hnodup := hfull.nodup
          simp only [List.append_assoc, List.singleton_append, List.nodup_append, List.mem_cons,
            ne_eq, forall_eq_or_imp] at hnodup
          exact (hnodup.2.2 index hmem).1 rfl
        · have hfirst := hfull.head hne h hhead
          simp only [List.nil_append, List.singleton_append, List.head?_cons, Option.some.injEq]
            at hfirst
          exact hother hfirst

/-! ### Hopeless counts -/

/-- A tensor of a stage is in one of the two stages that the stage is cut into. -/
lemma owns_cut {m : ModelIndex} {t : ModelTensor} (cut : Nat) (h : m.owns first last t) :
    m.owns first cut t ∨ m.owns cut last t := by
  unfold ModelIndex.owns ownedTensor at *
  cases hlayer : blockLayer t.name with
  | some layer =>
    simp only [hlayer, Bool.and_eq_true, decide_eq_true_eq] at h ⊢
    omega
  | none =>
    simp only [hlayer] at h ⊢
    split_ifs at h ⊢
    · simp only [Bool.or_eq_true, Bool.and_eq_true, decide_eq_true_eq] at h ⊢
      tauto
    · exact .inr h

lemma ownedBytes_cut_le (m : ModelIndex) (first cut last : Nat) :
    ownedBytes m first last ≤ ownedBytes m first cut + ownedBytes m cut last := by
  simp only [ownedBytes_eq, ← List.sum_map_add]
  refine List.sum_le_sum fun t _ => ?_
  by_cases howns : m.owns first last t
  · rw [if_pos howns]
    rcases owns_cut cut howns with hleft | hright
    · simp [hleft]
    · simp [hright]
  · simp [howns]

/-- What a stage that fits needs. -/
lemma fits_needs (h : q.fits a.provider a.first a.last = some a) :
    a.modelBytes = q.model.headerBytes.toNat + ownedBytes q.model a.first a.last ∧
      a.kvBytes = kvUnit q.model q.context q.sessions * (a.last - a.first) := by
  obtain ⟨-, -, heq, hweights, hkv, -⟩ := fits_eq_some_iff.mp h
  have hmodel := congrArg StageAssignment.modelBytes heq
  have hcache := congrArg StageAssignment.kvBytes heq
  exact ⟨hmodel.trans (stageModelBytes_ne_zero hweights).2, hcache.trans (kvBytes_ne_zero hkv).2⟩

/-- The stages of a plan need at least what one stage with all their layers would, and a header
each. -/
lemma needed_le (htiles : Tiles first q.layers plan) (hplan : plan ≠ [])
    (hfits : ∀ a ∈ plan, q.fits a.provider a.first a.last = some a) :
    q.model.headerBytes.toNat * plan.length + ownedBytes q.model first q.layers +
        kvUnit q.model q.context q.sessions * (q.layers - first) ≤
      (plan.map fun a => a.modelBytes + a.kvBytes).sum := by
  induction plan generalizing first with
  | nil => exact absurd rfl hplan
  | cons a rest ih =>
    obtain ⟨rfl, hlt, hrest⟩ := htiles
    obtain ⟨ha, hfitsRest⟩ := List.forall_mem_cons.mp hfits
    obtain ⟨hmodel, hkv⟩ := fits_needs ha
    rw [List.map_cons, List.sum_cons, hmodel, hkv, List.length_cons]
    by_cases hnil : rest = []
    · subst hnil
      rw [show a.last = q.layers from hrest]
      simp
    · have hothers := ih hrest hnil hfitsRest
      have hbytes := ownedBytes_cut_le q.model a.first a.last q.layers
      have hlayers : q.layers - a.first = (a.last - a.first) + (q.layers - a.last) := by
        have := hrest.length_le
        omega
      rw [hlayers, Nat.mul_add, Nat.mul_add]
      omega

def usableOf (q : Request) (provider : Nat) : Nat := (q.offered.map usableBytes)[provider]?.getD 0

lemma map_usableOf : (List.range q.offered.length).map q.usableOf = q.offered.map usableBytes := by
  refine List.ext_getElem (by simp) fun i hi hi' => ?_
  rw [List.length_map] at hi'
  simp [usableOf, hi']

/-- What the stages of a plan need, the roomiest providers have. -/
lemma needed_le_usable (h : q.Valid plan) :
    (plan.map fun a => a.modelBytes + a.kvBytes).sum ≤
      (((q.offered.map usableBytes).mergeSort (· ≥ ·)).take plan.length).sum := by
  have hown : (plan.map fun a => a.modelBytes + a.kvBytes).sum ≤
      ((plan.map StageAssignment.provider).map q.usableOf).sum := by
    rw [List.map_map]
    refine List.sum_le_sum fun a ha => ?_
    obtain ⟨offeredMib, hoffered, heq, -, -, hle⟩ := fits_eq_some_iff.mp (h.fits a ha)
    have husable : q.usableOf a.provider = usableBytes offeredMib := by simp [usableOf, hoffered]
    have hmodel := congrArg StageAssignment.modelBytes heq
    have hkv := congrArg StageAssignment.kvBytes heq
    rw [Function.comp_apply, husable, hmodel, hkv]
    exact hle
  have hsub : ((plan.map StageAssignment.provider).map q.usableOf).Subperm
      ((q.offered.map usableBytes).mergeSort (· ≥ ·)) := by
    have hproviders :
        (plan.map StageAssignment.provider).Subperm (List.range q.offered.length) := by
      refine h.distinct.subperm fun provider hprovider => ?_
      obtain ⟨a, ha, rfl⟩ := List.mem_map.mp hprovider
      exact List.mem_range.mpr (fits_eq (h.fits a ha)).2.2.2.1
    obtain ⟨chosen, hperm, hsub⟩ := hproviders
    have hmapped := hsub.map q.usableOf
    rw [map_usableOf] at hmapped
    have hchosen : ((plan.map StageAssignment.provider).map q.usableOf).Subperm
        (q.offered.map usableBytes) := ⟨chosen.map q.usableOf, hperm.map q.usableOf, hmapped⟩
    exact hchosen.trans (List.mergeSort_perm _ _).symm.subperm
  have hsorted : ((q.offered.map usableBytes).mergeSort (· ≥ ·)).Pairwise (· ≥ ·) := by
    have hpairs : ((q.offered.map usableBytes).mergeSort (· ≥ ·)).Pairwise
        (fun a b => decide (a ≥ b)) := by
      refine List.pairwise_mergeSort (fun a b c hab hbc => ?_) (fun a b => ?_) _
      · simp only [decide_eq_true_eq] at hab hbc ⊢
        exact Nat.le_trans hbc hab
      · simpa using Nat.le_total b a
    simpa using hpairs
  have htop := TopSum.sum_le_sum_take hsub hsorted
  rw [List.length_map, List.length_map] at htop
  exact hown.trans htop

lemma checkedCapacity_eq {capacity sum : Nat} {l : List Nat}
    (h : checkedCapacity capacity l = some sum) : sum = capacity + l.sum := by
  induction l generalizing capacity with
  | nil => simpa [checkedCapacity, eq_comm] using h
  | cons u rest ih =>
    rw [checkedCapacity] at h
    split_ifs at h
    rw [ih h, List.sum_cons, Nat.add_assoc]

/-- No count that a plan has is given up as hopeless. -/
lemma not_countIsHopeless (h : q.Valid plan) (hplan : plan ≠ []) :
    q.countIsHopeless plan.length = false := by
  have hneeded := (needed_le h.tiles hplan h.fits).trans (needed_le_usable h)
  unfold countIsHopeless
  dsimp only
  by_cases hunknown : stageModelBytes q.model 0 q.layers = 0 ∨
      kvBytes q.model 0 q.layers q.context q.sessions = 0
  · rw [if_pos hunknown]
  · rw [if_neg hunknown]
    rw [not_or] at hunknown
    cases hcapacity : checkedCapacity 0
        (((q.offered.map usableBytes).mergeSort (· ≥ ·)).take plan.length) with
    | none => rfl
    | some capacity =>
      dsimp only
      split_ifs with hover
      · rfl
      · -- the headers that were added may have wrapped around, which only makes them smaller
        have hwrapped := Nat.mod_le (q.model.headerBytes.toNat * (plan.length - 1)) (2 ^ 64)
        have hheaders : q.model.headerBytes.toNat * plan.length =
            q.model.headerBytes.toNat + q.model.headerBytes.toNat * (plan.length - 1) := by
          obtain ⟨n, hn⟩ := Nat.exists_eq_succ_of_ne_zero (List.length_pos_iff.mpr hplan).ne'
          rw [hn, Nat.succ_sub_one, Nat.mul_succ, Nat.add_comm]
        have hsum := checkedCapacity_eq hcapacity
        have hmodel := (stageModelBytes_ne_zero hunknown.1).2
        have hkv := (kvBytes_ne_zero hunknown.2).2
        rw [Nat.sub_zero] at hneeded hkv
        rw [decide_eq_false_iff_not]
        omega

/-! ### `plan_stages` -/

lemma valid_of_splits {order : List Nat} (horder : q.Order order) (hne : order ≠ [])
    (h : q.Splits order 0 plan) : q.Valid plan := by
  refine ⟨h.tiles, h.order ▸ horder.nodup, h.fits, fun head hhead => ?_⟩
  rw [← List.head?_map, h.order]
  exact horder.head hne head hhead

lemma Valid.order (h : q.Valid plan) : q.Order (plan.map StageAssignment.provider) := by
  refine ⟨h.distinct, fun provider hprovider => ?_, fun _ head hhead => ?_⟩
  · obtain ⟨a, ha, rfl⟩ := List.mem_map.mp hprovider
    exact (fits_eq (h.fits a ha)).2.2.2.1
  · rw [List.head?_map]
    exact h.head head hhead

lemma valid_of_tried {count : Nat} (hcount : count ≠ 0) (h : q.tried cut count = some plan) :
    q.Valid plan ∧ plan.length = count := by
  unfold tried at h
  split_ifs at h
  obtain ⟨order, hne, horder, hlength, hsplits⟩ :=
    splits_of_choose ⟨List.nodup_nil, by simp, by simp⟩ (.inr hcount) h
  refine ⟨valid_of_splits horder hne hsplits, ?_⟩
  rw [← List.length_map (f := StageAssignment.provider), hsplits.order, hlength]
  simp

lemma tried_isSome (h : q.Valid plan) (hplan : plan ≠ []) : (q.tried cut plan.length).isSome := by
  rw [tried, not_countIsHopeless h hplan, if_neg Bool.false_ne_true]
  have hsplits : q.Splits ([] ++ plan.map StageAssignment.provider) 0 plan := ⟨h.tiles, rfl, h.fits⟩
  exact choose_isSome h.order (by simp) (by simpa) hsplits

/-- A request that has a plan asks for a context and sessions, and for a head that is there. -/
lemma Valid.accepted (h : q.Valid plan) (hne : plan ≠ []) :
    q.context ≠ 0 ∧ q.sessions ≠ 0 ∧ ∀ h ∈ q.head, h < q.offered.length := by
  obtain ⟨a, rest, rfl⟩ := List.exists_cons_of_ne_nil hne
  obtain ⟨-, -, -, -, hkv, -⟩ := fits_eq_some_iff.mp (h.fits a List.mem_cons_self)
  refine ⟨fun hzero => hkv ?_, fun hzero => hkv ?_, fun head hhead => ?_⟩
  · simp [kvBytes, allocatedPositions, hzero]
  · simp [kvBytes, allocatedPositions, hzero]
  · have hfirst := h.head head hhead
    simp only [List.head?_cons, Option.map_some, Option.some.injEq] at hfirst
    exact hfirst ▸ (fits_eq (h.fits a List.mem_cons_self)).2.2.2.1

/-- Where `plan_stages` gives up at once there is no plan, except for a minimum of 0. -/
lemma not_refused (hmodel : compatible q.model) (hoffers : q.offered.length ≤ 8)
    (hminimum : q.minimum ≠ 0) (h : q.Valid plan) (hbounds : q.InBounds plan) :
    q.refused = false := by
  obtain ⟨hleast, hmost⟩ := hbounds
  rw [Nat.le_min] at hmost
  have hne : plan ≠ [] := by
    rintro rfl
    exact hminimum (Nat.le_zero.mp hleast)
  obtain ⟨hcontext, hsessions, hhead⟩ := h.accepted hne
  have hlength : 0 < q.offered.length := by
    have := List.length_pos_of_ne_nil hne
    omega
  have hany : q.head.any (q.offered.length ≤ ·) = false := by
    cases hcase : q.head with
    | none => rfl
    | some head => simpa using hhead head hcase
  simp only [refused, hmodel, hcontext, hsessions, hminimum, hany, Bool.not_true, decide_false,
    Bool.or_false, Bool.false_or, Bool.or_eq_false_iff, decide_eq_false_iff_not,
    List.isEmpty_eq_false_iff]
  refine ⟨⟨List.ne_nil_of_length_pos hlength, by omega⟩, by omega⟩

lemma mem_counts {count : Nat} :
    count ∈ q.counts ↔ q.minimum ≤ count ∧ count ≤ min q.offered.length q.layers := by
  simp only [counts, List.mem_range'_1]
  omega

/-- The counts are tried from the least one up. -/
lemma tried_of_findSome {counts : List Nat} (hsorted : counts.Pairwise (· < ·))
    (h : counts.findSome? (q.tried cut) = some plan) :
    ∃ count ∈ counts, q.tried cut count = some plan ∧
      ∀ other ∈ counts, other < count → q.tried cut other = none := by
  induction counts with
  | nil => simp at h
  | cons count counts ih =>
    obtain ⟨hless, hrest⟩ := List.pairwise_cons.mp hsorted
    rw [List.findSome?_cons] at h
    cases hcount : q.tried cut count with
    | some found =>
      rw [hcount] at h
      refine ⟨count, List.mem_cons_self, by rw [hcount]; exact h, fun other hother hlt => ?_⟩
      rcases List.mem_cons.mp hother with rfl | hother
      · exact absurd hlt (Nat.lt_irrefl _)
      · exact absurd (hless other hother) (Nat.lt_asymm hlt)
    | none =>
      rw [hcount] at h
      obtain ⟨found, hfound, htried, hleast⟩ := ih hrest h
      refine ⟨found, List.mem_cons_of_mem _ hfound, htried, fun other hother hlt => ?_⟩
      rcases List.mem_cons.mp hother with rfl | hother
      · exact hcount
      · exact hleast other hother hlt

/-- For a model that can be staged and a least stage count of at least 1, `plan_stages` returns a
plan exactly if there is one, it is a valid one with the fewest stages, and no count that has a plan
is given up. -/
theorem planStages_spec (hmodel : compatible q.model) (hoffers : q.offered.length ≤ 8)
    (hminimum : q.minimum ≠ 0) :
    ((q.planStages cut).isSome ↔ ∃ plan, q.Valid plan ∧ q.InBounds plan) ∧
      (∀ plan, q.planStages cut = some plan → q.Valid plan ∧ q.InBounds plan ∧
        ∀ other, q.Valid other → q.InBounds other → plan.length ≤ other.length) ∧
      ∀ plan, q.Valid plan → q.InBounds plan → q.countIsHopeless plan.length = false := by
  have hne : ∀ {plan : List StageAssignment}, q.InBounds plan → plan ≠ [] := by
    rintro _ hbounds rfl
    exact hminimum (Nat.le_zero.mp hbounds.1)
  have hfound : ∀ plan, q.planStages cut = some plan → q.Valid plan ∧ q.InBounds plan ∧
      ∀ other, q.Valid other → q.InBounds other → plan.length ≤ other.length := by
    intro plan h
    unfold planStages at h
    split_ifs at h
    obtain ⟨count, hcount, htried, hleast⟩ := tried_of_findSome List.pairwise_lt_range' h
    have hbounds := mem_counts.mp hcount
    obtain ⟨hvalid, rfl⟩ := valid_of_tried (by omega) htried
    refine ⟨hvalid, hbounds, fun other hother hotherBounds => ?_⟩
    by_contra hlt
    have hnone := hleast other.length (mem_counts.mpr hotherBounds) (Nat.not_le.mp hlt)
    have hsome : (q.tried cut other.length).isSome := tried_isSome hother (hne hotherBounds)
    rw [hnone] at hsome
    contradiction
  refine ⟨⟨fun h => ?_, ?_⟩, hfound, fun plan hvalid hbounds => ?_⟩
  · obtain ⟨plan, hplan⟩ := Option.isSome_iff_exists.mp h
    exact ⟨plan, (hfound plan hplan).1, (hfound plan hplan).2.1⟩
  · rintro ⟨plan, hvalid, hbounds⟩
    rw [planStages, not_refused hmodel hoffers hminimum hvalid hbounds, if_neg Bool.false_ne_true,
      List.findSome?_isSome_iff]
    exact ⟨plan.length, mem_counts.mpr hbounds, tried_isSome hvalid (hne hbounds)⟩
  · exact not_countIsHopeless hvalid (hne hbounds)

def tinyModel : ModelIndex where
  architecture := "qwen2"
  layers := 2
  hidden := 64
  heads := 2
  kvHeads := 1
  headerBytes := 1000
  tensors := [⟨"token_embd.weight".toList, 500, [], 0⟩, ⟨"blk.0.attn_q.weight".toList, 300, [], 0⟩,
    ⟨"blk.1.attn_q.weight".toList, 300, [], 0⟩, ⟨"output_norm.weight".toList, 10, [], 0⟩]

/-- Two workers that offer 4 GiB each; the second has to be the head. -/
def tinyRequest (minimum : Nat) : Request where
  model := tinyModel
  offered := [4096, 4096]
  context := 256
  sessions := 1
  minimum := minimum
  head := some 1

def tinyPlan : List StageAssignment := [⟨1, 0, 1, 1800, 32768⟩, ⟨0, 1, 2, 1810, 32768⟩]

lemma tinyPlan_valid (minimum : Nat) : (tinyRequest minimum).Valid tinyPlan where
  tiles := ⟨rfl, by decide, rfl, by decide, rfl⟩
  distinct := by decide
  fits := by
    have hfits : ∀ a ∈ tinyPlan, (tinyRequest 1).fits a.provider a.first a.last = some a := by
      decide +kernel
    exact hfits
  head := by
    rintro h ⟨⟩
    rfl

theorem planStages_tiny :
    compatible tinyModel ∧ ((tinyRequest 2).planStages fun _ _ => 0).isSome := by
  have hmodel : compatible (tinyRequest 2).model := by decide +kernel
  exact ⟨hmodel, (planStages_spec hmodel (by decide) (by decide)).1.mpr
    ⟨tinyPlan, tinyPlan_valid 2, by decide, by decide⟩⟩

/-- With a minimum of 0 stages `plan_stages` returns nothing, whatever would fit. -/
theorem planStages_minimum_zero :
    ¬ ∀ (q : Request) (cut : List Nat → Nat → Int), compatible q.model → q.offered.length ≤ 8 →
      (∀ offeredMib ∈ q.offered, offeredMib ≠ 0) →
      ((q.planStages cut).isSome ↔ ∃ plan, q.Valid plan ∧ q.InBounds plan) := by
  intro h
  have hmodel : compatible (tinyRequest 0).model := by decide +kernel
  have hoffered : ∀ offeredMib ∈ (tinyRequest 0).offered, offeredMib ≠ 0 :=
    List.all_iff_forall_prop.mp (by decide)
  have hsome := (h (tinyRequest 0) (fun _ _ => 0) hmodel (by decide) hoffered).mpr
    ⟨tinyPlan, tinyPlan_valid 0, by decide, by decide⟩
  have hrefused : (tinyRequest 0).refused = true := by simp [refused, tinyRequest]
  rw [planStages, hrefused, if_pos rfl] at hsome
  cases hsome

/-! ### `plan_from_cache` -/

/-- The ranges that are cached from `first` on by providers that are still free, longest first. -/
def cachedOptions (q : Request) (cached : List (List (Int × Int))) (stages : List StageAssignment)
    (first : Nat) : List (Nat × Nat) :=
  let free := (List.range cached.length).filter fun index =>
    index ∉ stages.map StageAssignment.provider ∧ ¬ (first = 0 ∧ ∃ h ∈ q.head, index ≠ h)
  let options := free.flatMap fun index =>
    ((cached[index]?.getD []).filter fun (a, b) => a = first ∧ (first : Int) < b ∧ b ≤ q.layers).map
      fun (_, b) => (b.toNat, index)
  options.insertionSort fun left right =>
    right.1 < left.1 ∨ (right.1 = left.1 ∧ right.2 ≤ left.2)

/-- `extend`, with the number of stages that may still be added. -/
def extend (q : Request) (cached : List (List (Int × Int))) :
    Nat → List StageAssignment → Nat → Option (List StageAssignment)
  | left, stages, first =>
    if first = q.layers then if q.minimum ≤ stages.length then some stages else none
    else match left with
      | 0 => none
      | left + 1 => (q.cachedOptions cached stages first).findSome? fun (last, index) =>
        (q.fits index first last).bind fun a => extend q cached left (stages ++ [a]) last

def planFromCache (q : Request) (cached : List (List (Int × Int))) (stageLimit : Nat) :
    Option (List StageAssignment) :=
  if q.offered.length ≠ cached.length ∨ q.minimum = 0 ∨ stageLimit = 0 ∨ q.context = 0 ∨
      q.sessions = 0 ∨ ¬ compatible q.model ∨ ∃ h ∈ q.head, q.offered.length ≤ h then none
  else q.extend cached stageLimit [] 0

/-- What is tried next: the cached ranges from `first` on, of providers that have no stage yet. -/
lemma mem_cachedOptions_iff {cached : List (List (Int × Int))} {stages : List StageAssignment}
    {index : Nat} :
    (last, index) ∈ q.cachedOptions cached stages first ↔
      index ∉ stages.map StageAssignment.provider ∧ (first = 0 → ∀ h ∈ q.head, index = h) ∧
        ((first : Int), (last : Int)) ∈ cached[index]?.getD [] ∧ first < last ∧
        last ≤ q.layers := by
  simp only [cachedOptions, List.mem_insertionSort, List.mem_flatMap, List.mem_filter,
    List.mem_range, List.mem_map, decide_eq_true_eq, Prod.exists, Prod.mk.injEq]
  constructor
  · rintro ⟨index, ⟨-, hfree, hhead⟩, a, b, ⟨hmem, rfl, hlt, hle⟩, rfl, rfl⟩
    refine ⟨hfree, fun hfirst h hmem => ?_, ?_, by omega, by omega⟩
    · by_contra hne
      exact hhead ⟨hfirst, h, hmem, hne⟩
    · rwa [Int.toNat_of_nonneg (by omega)]
  · rintro ⟨hfree, hhead, hmem, hlt, hle⟩
    have hindex : index < cached.length := by
      by_contra hno
      rw [List.getElem?_eq_none (Nat.not_lt.mp hno)] at hmem
      simp at hmem
    refine ⟨index, ⟨hindex, hfree, ?_⟩, first, last, ⟨hmem, rfl, by omega, by omega⟩, by simp, rfl⟩
    rintro ⟨hfirst, h, hmem, hne⟩
    exact hne (hhead hfirst h hmem)

lemma tiles_concat_iff {front : List StageAssignment} :
    Tiles first last (front ++ [a]) ↔ Tiles first a.first front ∧ a.first < a.last ∧
      a.last = last := by
  induction front generalizing first with
  | nil =>
    simp only [List.nil_append, Tiles]
    constructor
    · rintro ⟨rfl, hlt, hlast⟩
      exact ⟨rfl, hlt, hlast⟩
    · rintro ⟨rfl, hlt, hlast⟩
      exact ⟨rfl, hlt, hlast⟩
  | cons b front ih => simp only [List.cons_append, Tiles, ih, and_assoc]

structure Started (q : Request) (stages : List StageAssignment) (first : Nat) : Prop where
  tiles : Tiles 0 first stages
  distinct : (stages.map StageAssignment.provider).Nodup
  fits : ∀ a ∈ stages, q.fits a.provider a.first a.last = some a
  head : stages ≠ [] → ∀ h ∈ q.head, stages.head?.map StageAssignment.provider = some h

lemma Started.concat {stages : List StageAssignment} (h : q.Started stages first)
    (hfits : q.fits provider first last = some a)
    (hnew : provider ∉ stages.map StageAssignment.provider)
    (hhead : first = 0 → ∀ h ∈ q.head, provider = h) : q.Started (stages ++ [a]) last := by
  obtain ⟨hprovider, hfirst, hlast, -, hlt⟩ := fits_eq hfits
  refine ⟨tiles_concat_iff.mpr ⟨hfirst ▸ h.tiles, ?_, hlast⟩, ?_, ?_, fun _ head hmem => ?_⟩
  · rwa [hfirst, hlast]
  · rw [List.map_append, List.map_singleton, hprovider]
    refine List.nodup_append.mpr ⟨h.distinct, by simp, fun b hb c hc => ?_⟩
    rw [List.mem_singleton.mp hc]
    rintro rfl
    exact hnew hb
  · refine List.forall_mem_append.mpr ⟨h.fits, List.forall_mem_singleton.mpr ?_⟩
    rw [hprovider, hfirst, hlast]
    exact hfits
  · by_cases hstages : stages = []
    · subst hstages
      have hzero : first = 0 := h.tiles.symm
      simp [hprovider, hhead hzero head hmem]
    · rw [List.head?_append_of_ne_nil _ hstages]
      exact h.head hstages head hmem

lemma valid_of_extend {cached : List (List (Int × Int))} {left : Nat}
    {stages : List StageAssignment} (hminimum : q.minimum ≠ 0) (hstarted : q.Started stages first)
    (h : q.extend cached left stages first = some plan) :
    q.Valid plan ∧ q.minimum ≤ plan.length ∧ plan.length ≤ stages.length + left := by
  induction left generalizing stages first with
  | zero =>
    unfold extend at h
    split_ifs at h with hend hleast
    obtain rfl := Option.some.inj h
    have hne : stages ≠ [] := by
      rintro rfl
      exact hminimum (Nat.le_zero.mp hleast)
    exact ⟨⟨hend ▸ hstarted.tiles, hstarted.distinct, hstarted.fits, hstarted.head hne⟩, hleast,
      Nat.le_refl _⟩
  | succ left ih =>
    unfold extend at h
    split_ifs at h with hend hleast
    · obtain rfl := Option.some.inj h
      have hne : stages ≠ [] := by
        rintro rfl
        exact hminimum (Nat.le_zero.mp hleast)
      exact ⟨⟨hend ▸ hstarted.tiles, hstarted.distinct, hstarted.fits, hstarted.head hne⟩, hleast,
        Nat.le_add_right _ _⟩
    · obtain ⟨⟨last, index⟩, hoption, hfound⟩ := List.exists_of_findSome?_eq_some h
      obtain ⟨a, ha, hrest⟩ := Option.bind_eq_some_iff.mp hfound
      obtain ⟨hnew, hhead, -⟩ := mem_cachedOptions_iff.mp hoption
      obtain ⟨hvalid, hleast, hmost⟩ := ih (hstarted.concat ha hnew hhead) hrest
      refine ⟨hvalid, hleast, hmost.trans ?_⟩
      rw [List.length_append, List.length_singleton]
      omega

/-- A plan from the cache is a plan, with a stage count in its bounds. -/
lemma valid_of_planFromCache {cached : List (List (Int × Int))} {stageLimit : Nat}
    (h : q.planFromCache cached stageLimit = some plan) :
    q.Valid plan ∧ q.minimum ≤ plan.length ∧ plan.length ≤ stageLimit := by
  unfold planFromCache at h
  split_ifs at h with hrefused
  simp only [not_or] at hrefused
  have hempty : q.Started [] 0 := ⟨rfl, List.nodup_nil, by simp, by simp⟩
  simpa using valid_of_extend hrefused.2.1 hempty h

end Request

end ProviderOwned.Planner
