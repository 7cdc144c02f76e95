import Mathlib.Algebra.BigOperators.Ring.Finset
import Mathlib.Tactic.Linarith
import ProviderOwned.Planner.Split

/-!
# When the search tries everything

The search leaves out a group whose memory does not add up and one that a bound says cannot beat the
best plan, and of a large group it tries three orders only. What it has to answer for at the end is
stated as a property `Good` of an order and the best plan so far (`Accounts`): it holds after the
order was tried, whatever is tried later keeps it, and it holds where the bound leaves the group
out. Then it holds at the end for every order of every group with enough memory, if the work budget
has lasted and the groups were small or the search still calls itself exhaustive
(`covers_tryCounts`).

So a search that reports that there is no plan is right (`no_plan`), unless the memory bound has
left out a group that has just enough.
-/

namespace ProviderOwned.Planner

open Arithmetic

variable {D L : Type} {m : ModelIndex} {s : Sizes} {candidates : List (SearchCandidate D)}
  {r : SearchRequest D} {order group pool : List Nat} {plan : List StageAssignment}
    {first last : Nat}

/-! ### The orders of a group -/

/-- Every order of the members is one of the permutations. -/
lemma mem_nextPermutations {n : Nat} {members : List Nat} (hn : members.length = n)
    (h : order.Perm members) : order ∈ nextPermutations n members := by
  induction n generalizing members order with
  | zero =>
    rw [List.length_eq_zero_iff.mp hn] at h
    simp [nextPermutations, h.eq_nil]
  | succ n ih =>
    match order with
    | [] =>
      rw [h.symm.eq_nil] at hn
      simp at hn
    | x :: tail =>
      obtain ⟨hx, htail⟩ := List.cons_perm_iff_perm_erase.mp h
      have hlength : (members.erase x).length = n := by
        rw [List.length_erase_of_mem hx, hn, Nat.succ_sub_one]
      simp only [nextPermutations, List.mem_flatMap, List.mem_map]
      exact ⟨x, hx, tail, ih hlength htail, rfl⟩

/-- An order of a group, the head first. -/
structure OrderOf (r : SearchRequest D) (group order : List Nat) : Prop where
  perm : order.Perm group
  led : ∃ rest, order = r.head.toList ++ rest ∧ rest.Perm (group.filter (r.head ≠ some ·))

/-- The order is one of a group of the pool. -/
lemma exists_group (hpool : PoolOk candidates pool) (hall : ∀ i < candidates.length, i ∈ pool)
    (horder : (asked m candidates r).Order order) (hne : order ≠ []) :
    ∃ group, group.Sublist pool ∧ group.Perm order ∧ (∀ head ∈ r.head, head ∈ group) ∧
      OrderOf r group order := by
  have hmem : ∀ i, i ∈ pool.filter (· ∈ order) ↔ i ∈ order := by
    intro i
    simp only [List.mem_filter, decide_eq_true_eq, and_iff_right_iff_imp]
    intro hi
    exact hall i (by simpa [asked] using horder.known i hi)
  have hperm : (pool.filter (· ∈ order)).Perm order :=
    (List.perm_ext_iff_of_nodup (hpool.1.filter _) horder.nodup).mpr hmem
  refine ⟨_, List.filter_sublist, hperm, fun head hhead => ?_, hperm.symm, ?_⟩
  · apply (hmem head).mpr
    exact List.mem_of_mem_head? (horder.head hne head hhead)
  · cases hcase : r.head with
    | none => exact ⟨order, rfl, by simpa using hperm.symm⟩
    | some head =>
      cases order with
      | nil => exact absurd rfl hne
      | cons first rest =>
        obtain rfl : first = head := by simpa using horder.head hne head hcase
        have hnew : first ∉ rest := (List.nodup_cons.mp horder.nodup).1
        refine ⟨rest, rfl, ?_⟩
        have hfilter := (hperm.filter (some first ≠ some ·)).symm
        rw [List.filter_cons_of_neg (by simp)] at hfilter
        rwa [List.filter_eq_self.mpr fun i hi => ?_] at hfilter
        simp only [ne_eq, Option.some_inj, decide_eq_true_eq]
        rintro rfl
        exact hnew hi

/-! ### Memory -/

/-- The members of a group have enough memory in total, by the rule for a stage. -/
def Enough (s : Sizes) (candidates : List (SearchCandidate D)) (group : List Nat) : Prop :=
  (s.model 0 s.layers - s.header).toNat + s.header.toNat * group.length + (s.kv 0 s.layers).toNat ≤
    (group.map fun member => usableBytes (offerOf candidates member)).sum

lemma Enough.perm {other : List Nat} (h : Enough s candidates group) (hperm : group.Perm other) :
    Enough s candidates other := by
  unfold Enough at *
  rwa [← hperm.length_eq, ← (hperm.map _).sum_eq]

variable {context sessions : UInt32}

/-- What the stages of a tiling need, at least, fits in the memory of their providers. -/
lemma le_usable_of_tiles {offers : Nat → UInt64} (hsizes : SizesOf m context sessions s)
    (hcache : CacheOf m context sessions s) (htiles : Request.Tiles first m.layers.toNat plan)
    (hne : plan ≠ []) (hfits : ∀ a ∈ plan, s.fits (offers a.provider) a.first a.last) :
    ownedBytes m first m.layers.toNat + m.headerBytes.toNat * plan.length +
        kvUnit m context sessions * (m.layers.toNat - first) % 2 ^ 64 ≤
      (plan.map fun a => usableBytes (offers a.provider)).sum := by
  induction plan generalizing first with
  | nil => exact absurd rfl hne
  | cons a rest ih =>
    obtain ⟨rfl, hlt, hrest⟩ := htiles
    obtain ⟨ha, hothers⟩ := List.forall_mem_cons.mp hfits
    have hlayers : a.last ≤ m.layers.toNat := (Nat.le_add_right _ _).trans hrest.length_le
    obtain ⟨hmodel, hneModel⟩ := hsizes.model_eq hlt hlayers
    rw [Sizes.fits_iff (hmodel ▸ hneModel), hmodel, (stageModelBytes_ne_zero hneModel).2,
      hcache.kv_eq_mod] at ha
    rw [List.length_cons, List.map_cons, List.sum_cons, Nat.mul_succ]
    by_cases hlast : rest = []
    · subst hlast
      have hend : a.last = m.layers.toNat := hrest
      rw [hend] at ha
      simpa using by omega
    · have hmore := ih hrest hlast hothers
      have howned := Request.ownedBytes_cut_le m a.first a.last m.layers.toNat
      have hkv : kvUnit m context sessions * (m.layers.toNat - a.first) % 2 ^ 64 ≤
          kvUnit m context sessions * (a.last - a.first) % 2 ^ 64 +
            kvUnit m context sessions * (m.layers.toNat - a.last) % 2 ^ 64 := by
        rw [show m.layers.toNat - a.first = (a.last - a.first) + (m.layers.toNat - a.last) by omega,
          Nat.mul_add, Nat.add_mod]
        exact Nat.mod_le _ _
      omega

/-- The memory of a group that a model can be divided among is enough. -/
lemma Division.enough (hsizes : SizesOf m context sessions s)
    (hcache : CacheOf m context sessions s)
    (hlayers : 0 < m.layers.toNat) (h : Division s candidates order s.layers plan) :
    Enough s candidates order := by
  have htiles := h.tiles
  rw [hsizes.layers] at htiles
  have hne : plan ≠ [] := by
    rintro rfl
    exact hlayers.ne htiles
  have hle := le_usable_of_tiles hsizes hcache htiles hne h.fits
  obtain ⟨hmodel, hneModel⟩ := hsizes.model_eq hlayers (Nat.le_refl _)
  have hwhole := (stageModelBytes_ne_zero hneModel).2
  have howned : (s.model 0 m.layers.toNat - m.headerBytes).toNat =
      ownedBytes m 0 m.layers.toNat := by
    rw [UInt64.toNat_sub_of_le]
    · omega
    · exact UInt64.le_iff_toNat_le.mpr (by omega)
  unfold Enough
  rw [hsizes.layers, hsizes.header, howned, hcache.kv_eq_mod, ← h.length]
  rw [← h.order, List.map_map]
  exact hle

/-! ### What is accounted for -/

variable [Arithmetic D] [Arithmetic L]

/-- The rank of the best plan so far is that of its first token; without a plan it is below all
ranks. -/
def Ranked (r : SearchRequest D) (best : Best D) : Prop :=
  (best.plan = [] ∧ best.rank = -1) ∨
    (best.plan ≠ [] ∧ best.rank = firstTokenRank best.firstTokenMs r)

lemma firstTokenRank_nonneg (firstTokenMs : D) : 0 ≤ firstTokenRank firstTokenMs r := by
  unfold firstTokenRank
  split_ifs <;> simp

lemma Ranked.ne_nil {best : Best D} (h : Ranked r best) (hrank : 0 ≤ best.rank) :
    best.plan ≠ [] := by
  rcases h with ⟨-, hnone⟩ | ⟨hsome, -⟩
  · omega
  · exact hsome

/-- A property of an order that the search establishes and keeps. -/
structure Accounts (m : ModelIndex) (s : Sizes) (candidates : List (SearchCandidate D))
    (r : SearchRequest D) (Good : List Nat → Best D → Prop) : Prop where
  same : ∀ order best evaluated exhaustive, Good order best →
    Good order { best with evaluated, exhaustive }
  kept : ∀ order other best, Ranked r best → Good order best →
    Good order (tryOrder m s candidates r other best)
  tried : ∀ order best, Ranked r best → Good order (tryOrder m s candidates r order best)
  beaten : ∀ group order best, Ranked r best → group ≠ [] → OrderOf r group order →
    beaten s candidates r group.length group best → Good order best

/-- What holds of the best plan after further groups. -/
structure After (r : SearchRequest D) (Good : List Nat → Best D → Prop) (best next : Best D) :
    Prop where
  ranked : Ranked r next
  good : ∀ order, Good order best → Good order next
  exhaustive : next.exhaustive → best.exhaustive
  evaluated : best.evaluated ≤ next.evaluated

variable {Good : List Nat → Best D → Prop} {best next other : Best D}

lemma After.refl (h : Ranked r best) : After r Good best best :=
  ⟨h, fun _ => id, id, Nat.le_refl _⟩

lemma After.trans (h : After r Good best next) (h' : After r Good next other) :
    After r Good best other where
  ranked := h'.ranked
  good order hgood := h'.good order (h.good order hgood)
  exhaustive hother := h.exhaustive (h'.exhaustive hother)
  evaluated := h.evaluated.trans h'.evaluated

/-- The best plan so far when the orders of a group are tried: a large group is not tried in
full. -/
def groupStart (r : SearchRequest D) (group : List Nat) (best : Best D) : Best D :=
  { best with exhaustive := best.exhaustive && (group.filter (r.head ≠ some ·)).length ≤ 4 }

/-- The orders of a group are accounted for, if it has the head and enough memory, and is small or
the search calls itself exhaustive. -/
def Covers (L : Type) [Arithmetic L] (s : Sizes) (candidates : List (SearchCandidate D))
    (r : SearchRequest D) (Good : List Nat → Best D → Prop) (best : Best D) (group : List Nat) :
    Prop :=
  (∀ head ∈ r.head, head ∈ group) → group ≠ [] → roomy L s candidates group.length group →
    (best.exhaustive ∨ (group.filter (r.head ≠ some ·)).length ≤ 4) →
    ∀ order, OrderOf r group order → Good order best

lemma After.covers (h : After r Good best next)
    (hcovers : Covers L s candidates r Good best group) :
    Covers L s candidates r Good next group := by
  intro hhead hne hroomy hsmall order horder
  exact h.good order (hcovers hhead hne hroomy (hsmall.imp_left h.exhaustive) order horder)

section

variable (hgood : Accounts m s candidates r Good) (hlayers : s.layers ≠ 0)

/-- What is found for an order has stages. -/
lemma bestSplit_ne_nil (hlayers : s.layers ≠ 0)
    (h : ¬ eq (bestSplit s candidates order).1 infinite) :
    (bestSplit s candidates order).2 ≠ [] := by
  intro hnil
  have htiles := (bestSplit_spec h).1.tiles
  rw [hnil] at htiles
  exact hlayers (Eq.symm htiles)

lemma ranked_tryOrder (m : ModelIndex) (candidates : List (SearchCandidate D)) (order : List Nat)
    (hlayers : s.layers ≠ 0) (h : Ranked r best) :
    Ranked r (tryOrder m s candidates r order best) := by
  unfold tryOrder
  dsimp only
  split_ifs with hlinks hcompute hbetter
  · exact h
  · exact h
  · exact .inr ⟨bestSplit_ne_nil hlayers hcompute, rfl⟩
  · exact h

lemma evaluated_tryOrder (m : ModelIndex) (s : Sizes) (candidates : List (SearchCandidate D))
    (r : SearchRequest D) (order : List Nat) (best : Best D) :
    (tryOrder m s candidates r order best).evaluated = best.evaluated ∧
      (tryOrder m s candidates r order best).exhaustive = best.exhaustive := by
  unfold tryOrder
  dsimp only
  split_ifs <;> exact ⟨rfl, rfl⟩

include hgood hlayers

lemma after_tryOrder (order : List Nat) (h : Ranked r best) :
    After r Good best
      (tryOrder m s candidates r order { best with evaluated := best.evaluated + 1 }) := by
  have hnext : Ranked r { best with evaluated := best.evaluated + 1 } := h
  obtain ⟨hevaluated, hexhaustive⟩ :=
    evaluated_tryOrder m s candidates r order { best with evaluated := best.evaluated + 1 }
  constructor
  · exact ranked_tryOrder m candidates order hlayers hnext
  · intro other hother
    exact hgood.kept other order _ hnext (hgood.same other best _ _ hother)
  · rw [hexhaustive]
    exact id
  · rw [hevaluated]
    exact Nat.le_succ _

lemma after_tryOrders {orders : List (List Nat)} (h : Ranked r best) :
    After r Good best (tryOrders m s candidates r orders best).1 := by
  induction orders generalizing best with
  | nil => exact .refl h
  | cons order rest ih =>
    rw [tryOrders]
    split_ifs with hbudget
    · exact ⟨h, fun other hother => hgood.same other best _ _ hother, by simp, Nat.le_refl _⟩
    · have hstep := after_tryOrder hgood hlayers order h
      exact hstep.trans (ih hstep.ranked)

/-- If the budget lasts, every order that is to be tried is accounted for. -/
lemma covers_tryOrders {orders : List (List Nat)} (h : Ranked r best)
    (hbudget : (tryOrders m s candidates r orders best).1.evaluated < r.workBudget) :
    (tryOrders m s candidates r orders best).2 ∧
      ∀ order ∈ orders, Good order (tryOrders m s candidates r orders best).1 := by
  induction orders generalizing best with
  | nil => simp [tryOrders]
  | cons order rest ih =>
    rw [tryOrders] at hbudget ⊢
    split_ifs at hbudget ⊢ with hspent
    · exact absurd hspent (Nat.not_le.mpr hbudget)
    · have hnext : Ranked r { best with evaluated := best.evaluated + 1 } := h
      have hranked := ranked_tryOrder m candidates order hlayers hnext
      obtain ⟨hdone, hrest⟩ := ih hranked hbudget
      refine ⟨hdone, List.forall_mem_cons.mpr ⟨?_, hrest⟩⟩
      apply (after_tryOrders hgood hlayers hranked).good
      exact hgood.tried order _ hnext

omit hlayers in
lemma after_groupStart (group : List Nat) (h : Ranked r best) :
    After r Good best (groupStart r group best) where
  ranked := h
  good order hgoodOrder := hgood.same order best _ _ hgoodOrder
  exhaustive hstart := (Bool.and_eq_true_iff.mp hstart).1
  evaluated := Nat.le_refl _

lemma after_tryGroup (count : Nat) (group : List Nat) (h : Ranked r best) :
    After r Good best (tryGroup L m s candidates r count group best).1 := by
  unfold tryGroup
  split_ifs
  · exact .refl h
  · exact .refl h
  · exact .refl h
  · have hstart := after_groupStart hgood group h
    exact hstart.trans (after_tryOrders hgood hlayers hstart.ranked)

/-- If the budget lasts, a group is covered. -/
lemma covers_tryGroup (group : List Nat) (h : Ranked r best)
    (hbudget : (tryGroup L m s candidates r group.length group best).1.evaluated < r.workBudget) :
    (tryGroup L m s candidates r group.length group best).2 ∧
      Covers L s candidates r Good (tryGroup L m s candidates r group.length group best).1
        group := by
  unfold tryGroup at hbudget ⊢
  split_ifs at hbudget ⊢ with hhead hroomy hbeaten
  · refine ⟨rfl, fun hmember => ?_⟩
    cases hcase : r.head with
    | none => simp [hcase] at hhead
    | some head =>
      have hin := hmember head hcase
      simp [hcase, hin] at hhead
  · refine ⟨rfl, fun _ _ hroom => ?_⟩
    rw [hroom] at hroomy
    exact absurd hroomy (by decide)
  · exact ⟨rfl, fun _ hne _ _ order horder => hgood.beaten group order best h hne horder hbeaten⟩
  · have hstart := (after_groupStart hgood group h).ranked
    obtain ⟨hdone, hcovers⟩ := covers_tryOrders hgood hlayers hstart hbudget
    refine ⟨hdone, fun _ _ _ hsmall order horder => hcovers order ?_⟩
    have hfew : (group.filter (r.head ≠ some ·)).length ≤ 4 := by
      refine hsmall.elim (fun hexhaustive => ?_) id
      have hboth := (after_tryOrders hgood hlayers hstart).exhaustive hexhaustive
      simpa using (Bool.and_eq_true_iff.mp hboth).2
    obtain ⟨-, rest, rfl, hrest⟩ := horder
    refine List.mem_map.mpr ⟨rest, ?_, rfl⟩
    rw [ordersOf, if_pos hfew]
    have hsorted := (List.perm_insertionSort (· ≤ ·) (group.filter (r.head ≠ some ·))).symm
    exact mem_nextPermutations hsorted.length_eq.symm (hrest.trans hsorted)

lemma after_tryGroups (count : Nat) (groups : List (List Nat)) (h : Ranked r best) :
    After r Good best (tryGroups L m s candidates r count groups best) := by
  induction groups generalizing best with
  | nil => exact .refl h
  | cons group rest ih =>
    have hstep := after_tryGroup (L := L) hgood hlayers count group h
    rw [tryGroups]
    split
    next next heq =>
      rw [heq] at hstep
      exact hstep.trans (ih hstep.ranked)
    next next heq =>
      rw [heq] at hstep
      exact hstep

lemma covers_tryGroups {count : Nat} {groups : List (List Nat)} (h : Ranked r best)
    (hgroups : ∀ group ∈ groups, group.length = count)
    (hbudget : (tryGroups L m s candidates r count groups best).evaluated < r.workBudget) :
    ∀ group ∈ groups,
      Covers L s candidates r Good (tryGroups L m s candidates r count groups best) group := by
  induction groups generalizing best with
  | nil => exact fun group hgroup => absurd hgroup List.not_mem_nil
  | cons group rest ih =>
    obtain ⟨rfl, hrest⟩ := List.forall_mem_cons.mp hgroups
    have hstep := after_tryGroup (L := L) hgood hlayers group.length group h
    have hcovers := covers_tryGroup (L := L) hgood hlayers group h
    rw [tryGroups] at hbudget ⊢
    split at hbudget
    next next heq =>
      rw [heq] at hstep hcovers
      have hmore := after_tryGroups (L := L) hgood hlayers group.length rest hstep.ranked
      have hearlier := hcovers (Nat.lt_of_le_of_lt hmore.evaluated hbudget)
      exact List.forall_mem_cons.mpr ⟨hmore.covers hearlier.2, ih hstep.ranked hrest hbudget⟩
    next next heq =>
      -- a group that ends the search has spent the budget
      rw [heq] at hcovers
      exact absurd (hcovers hbudget).1 Bool.false_ne_true

lemma after_tryCounts {counts : List Nat} (h : Ranked r best) :
    After r Good best (tryCounts L m s candidates r pool counts best) := by
  induction counts generalizing best with
  | nil => exact .refl h
  | cons count rest ih =>
    have hstep := after_tryGroups (L := L) hgood hlayers count (pool.sublistsLen count).reverse h
    rw [tryCounts]
    split_ifs with hbudget
    · exact hstep
    · exact hstep.trans (ih hstep.ranked)

/-- If the budget lasts, every group of a size that is tried is covered. -/
lemma covers_tryCounts {counts : List Nat} (h : Ranked r best)
    (hbudget : (tryCounts L m s candidates r pool counts best).evaluated < r.workBudget)
    (hgroup : group.Sublist pool) (hcount : group.length ∈ counts) :
    Covers L s candidates r Good (tryCounts L m s candidates r pool counts best) group := by
  induction counts generalizing best with
  | nil => exact absurd hcount List.not_mem_nil
  | cons count rest ih =>
    have hstep := after_tryGroups (L := L) hgood hlayers count (pool.sublistsLen count).reverse h
    rw [tryCounts] at hbudget ⊢
    split_ifs at hbudget ⊢ with hspent
    · exact absurd hspent (Nat.not_le.mpr hbudget)
    · rcases List.mem_cons.mp hcount with rfl | hmore
      · refine (after_tryCounts hgood hlayers hstep.ranked).covers ?_
        refine covers_tryGroups hgood hlayers h
          (fun group hgroup => ?_) (Nat.not_le.mp hspent) group ?_
        · exact (List.mem_sublistsLen.mp (List.mem_reverse.mp hgroup)).2
        · exact List.mem_reverse.mpr (List.mem_sublistsLen.mpr ⟨hgroup, rfl⟩)
      · exact ih hstep.ranked hbudget hmore

end

/-! ### The whole search -/

variable (L m s candidates r) in
/-- The best plan of the groups of all sizes. -/
def bestOf : Best D :=
  tryCounts L m s candidates r (searchPool candidates r)
    (List.range' r.minimumStages
      (min r.maximumStages (min (searchPool candidates r).length s.layers) + 1 - r.minimumStages))
    ⟨[], infinite, ofNat 0, -1, 0, (searchPool candidates r).length = candidates.length⟩

/-- A search that fails on a request with sizes has found no plan; if it does not say otherwise, the
budget has lasted. -/
lemma bestOf_of_error {reason : String} (hcompatible : compatible m)
    (hs : sizesOf m r.context r.sessions = some s)
    (hvalid : ¬ (candidates = [] ∨ r.context = 0 ∨ r.sessions = 0 ∨ r.minimumStages = 0 ∨
      r.maximumStages < r.minimumStages ∨ r.head.any (candidates.length ≤ ·)))
    (h : searchPlan L m candidates r = .error reason)
    (hreason : reason ≠ "no plan found within the search budget") :
    (bestOf L m s candidates r).plan = [] ∧
    (bestOf L m s candidates r).evaluated < r.workBudget := by
  unfold searchPlan at h
  rw [if_neg (not_not.mpr hcompatible), if_neg hvalid] at h
  simp only [hs] at h
  rw [← bestOf] at h
  split at h
  next =>
    split_ifs at h with hempty hspent
    · exact absurd (Except.error.inj h).symm hreason
    · exact ⟨hempty, Nat.not_le.mp hspent⟩
  next =>
    split_ifs at h with htaken hempty hspent
    · exact absurd (Except.error.inj h).symm hreason
    · exact ⟨hempty, Nat.not_le.mp hspent⟩

/-- A plan that is not from the ranges on disk is the best one of the groups. -/
lemma bestOf_of_ok {result : SearchResult D} (hs : sizesOf m r.context r.sessions = some s)
    (h : searchPlan L m candidates r = .ok result) (hcache : result.fromCache = false) :
    result.plan = (bestOf L m s candidates r).plan ∧ result.plan ≠ [] ∧
      result.tokenMs = (bestOf L m s candidates r).tokenMs ∧
      result.firstTokenMs = (bestOf L m s candidates r).firstTokenMs ∧
      (result.complete → (bestOf L m s candidates r).exhaustive ∧
        (bestOf L m s candidates r).evaluated < r.workBudget) := by
  unfold searchPlan at h
  split_ifs at h with hcompatible hinvalid
  simp only [hs] at h
  rw [← bestOf] at h
  split at h
  next =>
    split_ifs at h with hempty
    obtain rfl := Except.ok.inj h
    exact ⟨rfl, hempty, rfl, rfl, by simp⟩
  next =>
    split_ifs at h with htaken hempty
    · obtain rfl := Except.ok.inj h
      exact absurd hcache (by simp)
    · obtain rfl := Except.ok.inj h
      exact ⟨rfl, hempty, rfl, rfl, by simp⟩

lemma ranked_start (exhaustive : Bool) :
    Ranked r (⟨[], infinite, ofNat 0, -1, 0, exhaustive⟩ : Best D) := .inl ⟨rfl, rfl⟩

variable (s candidates r) in
/-- A group that the search forms: its members are in the pool and their number is allowed. -/
structure Formed (group : List Nat) : Prop where
  sub : group.Sublist (searchPool candidates r)
  least : r.minimumStages ≤ group.length
  most : group.length ≤ r.maximumStages
  short : group.length ≤ s.layers

variable (s candidates r) in
/-- An order, the head first, of a group that the search forms, for which there is a plan. -/
structure Splits (group order : List Nat) : Prop where
  formed : Formed s candidates r group
  led : OrderOf r group order
  found : ¬ eq (bestSplit s candidates order).1 infinite

variable (L s candidates r) in
/-- The memory bound leaves out no group that has a plan in some order. -/
def Admits : Prop :=
  ∀ group order, Splits s candidates r group order → roomy L s candidates group.length group

omit [Arithmetic L] in
/-- An order of an allowed number of candidates is one of a group that the search forms. -/
lemma exists_formed (hall : ∀ i < candidates.length, i ∈ searchPool candidates r)
    (horder : (asked m candidates r).Order order) (hne : order ≠ [])
    (hleast : r.minimumStages ≤ order.length) (hmost : order.length ≤ r.maximumStages)
    (hlength : order.length ≤ s.layers) :
    ∃ group, Formed s candidates r group ∧ OrderOf r group order := by
  obtain ⟨group, hsub, hperm, -, hof⟩ := exists_group searchPool_spec.1 hall horder hne
  have hcount := hperm.length_eq
  exact ⟨group, ⟨hsub, hcount ▸ hleast, hcount ▸ hmost, hcount ▸ hlength⟩, hof⟩

omit [Arithmetic D] in
/-- The head is in a group that has an order. -/
lemma OrderOf.head_mem (h : OrderOf r group order) : ∀ head ∈ r.head, head ∈ group := by
  obtain ⟨hperm, rest, rfl, -⟩ := h
  intro head hhead
  refine hperm.subset (List.mem_append_left _ ?_)
  exact Option.mem_toList.mpr hhead

omit [Arithmetic L] in
/-- An order of a group that the search forms is one of an allowed number of candidates. -/
lemma Splits.asked_order (h : Splits s candidates r group order) :
    (asked m candidates r).Order order ∧ order.length = group.length := by
  obtain ⟨⟨hsub, -, -, -⟩, ⟨hperm, rest, rfl, -⟩, -⟩ := h
  have hpool : PoolOk candidates (searchPool candidates r) := searchPool_spec.1
  refine ⟨⟨hperm.nodup_iff.mpr (hpool.1.sublist hsub), fun member hmember => ?_,
    fun _ head hhead => ?_⟩, hperm.length_eq⟩
  · simpa [asked] using hpool.2 member (hsub.subset (hperm.subset hmember))
  · have hcase : r.head = some head := hhead
    simp [hcase]

/-- If the budget lasts, every order is accounted for of a group that the search forms and the
memory bound lets through, and that is small or the search calls itself exhaustive. -/
lemma good_bestOf (hgood : Accounts m s candidates r Good) (hlayers : s.layers ≠ 0)
    (hbudget : (bestOf L m s candidates r).evaluated < r.workBudget)
    (hformed : Formed s candidates r group)
    (hroomy : roomy L s candidates group.length group) (horder : OrderOf r group order)
    (hne : group ≠ [])
    (hsmall : (bestOf L m s candidates r).exhaustive ∨ group.length ≤ 4 + r.head.toList.length) :
    Good order (bestOf L m s candidates r) := by
  obtain ⟨hsub, hleast, hmost, hshort⟩ := hformed
  have hpool := hsub.length_le
  have hcovers : Covers L s candidates r Good (bestOf L m s candidates r) group := by
    apply covers_tryCounts hgood hlayers (ranked_start _) hbudget hsub
    rw [List.mem_range'_1]
    omega
  refine hcovers horder.head_mem hne hroomy (hsmall.imp_right fun hfew => ?_) order horder
  obtain ⟨hperm, rest, rfl, hrest⟩ := horder
  rw [← hperm.length_eq, List.length_append] at hfew
  rw [← hrest.length_eq]
  omega

/-! ### A plan that is found -/

omit [Arithmetic D] in
/-- A plan is a division that is gapless: no cache of it wraps around. -/
lemma division_of_valid (hsizes : SizesOf m r.context r.sessions s)
    (hcache : CacheOf m r.context r.sessions s) (h : (asked m candidates r).Valid plan) :
    Division s candidates (plan.map StageAssignment.provider) s.layers plan ∧
      Gapless s candidates plan := by
  have hstage : ∀ a ∈ plan, a = s.assignment a.provider a.first a.last ∧
      kvUnit m r.context r.sessions * (a.last - a.first) < 2 ^ 64 ∧ a.last ≤ m.layers.toNat ∧
      s.fits (offerOf candidates a.provider) a.first a.last := by
    intro a ha
    have hfits := h.fits a ha
    obtain ⟨-, -, -, -, hlt⟩ := Request.fits_eq hfits
    obtain ⟨offeredMib, hoffered, heq, hmodel, hkv, hle⟩ := Request.fits_eq_some_iff.mp hfits
    simp only [asked, List.getElem?_map, Option.map_eq_some_iff] at hoffered heq hmodel hkv hle
    obtain ⟨c, hc, rfl⟩ := hoffered
    have hlayers : a.last ≤ m.layers.toNat := (stageModelBytes_ne_zero hmodel).1.2.1
    have hwrap : kvUnit m r.context r.sessions * (a.last - a.first) < 2 ^ 64 := by
      by_contra hnot
      exact hkv (hcache.kvBytes_of_le (Nat.not_lt.mp hnot))
    have hfolded := (hsizes.model_eq hlt hlayers).1
    have hwhole := hcache.kv_eq_of_lt hwrap
    have hoffer : offerOf candidates a.provider = c.offeredMib := by simp [offerOf, hc]
    refine ⟨?_, hwrap, hlayers, ?_⟩
    · rw [Sizes.assignment, hfolded, hwhole]
      exact heq
    · rw [hoffer, Sizes.fits_iff (hfolded ▸ hmodel), hfolded, hwhole]
      exact hle
  have hdivision : Division s candidates (plan.map StageAssignment.provider) s.layers plan :=
    ⟨hsizes.layers ▸ h.tiles, rfl, fun a ha => (hstage a ha).1, fun a ha => (hstage a ha).2.2.2⟩
  refine ⟨hdivision, fun a ha other hother hlt => ?_⟩
  obtain ⟨-, hwrap, hlayers, hfits⟩ := hstage a (List.mem_of_mem_dropLast ha)
  exact hsizes.fits_of_le hcache hother hlt.le hlayers hwrap hfits

/-- Once an order has a split, there is a plan. -/
lemma accounts_found (hlayers : s.layers ≠ 0) :
    Accounts m s candidates r fun order best =>
      eq (bestSplit s candidates order).1 infinite ∨ best.plan ≠ [] where
  same _ _ _ _ h := h
  kept order other best hranked h := by
    refine h.imp_right fun hplan => ?_
    unfold tryOrder
    dsimp only
    split_ifs with hlinks hcompute hbetter
    · exact hplan
    · exact hplan
    · exact bestSplit_ne_nil hlayers hcompute
    · exact hplan
  tried order best hranked := by
    refine or_iff_not_imp_left.mpr fun hsplit => ?_
    have hrank := firstTokenRank_nonneg (r := r)
      (searchFirstTokenMs m candidates r (bestSplit s candidates order).2)
    unfold tryOrder
    dsimp only
    split_ifs with hlinks hbetter
    · exact hranked.ne_nil (by omega)
    · exact bestSplit_ne_nil hlayers hsplit
    · rw [not_or] at hbetter
      exact hranked.ne_nil (by omega)
  beaten group order best hranked _ _ hbeaten := by
    right
    unfold beaten at hbeaten
    simp only [Bool.and_eq_true, decide_eq_true_eq] at hbeaten
    exact hranked.ne_nil (by omega)

omit [Arithmetic D] in
/-- A request that has an answer of one stage at least is not refused at once. -/
lemma request_ok (hkv : 0 < kvUnit m r.context r.sessions) (hminimum : r.minimumStages ≠ 0)
    (h : Answers m candidates r plan) :
    ¬ (candidates = [] ∨ r.context = 0 ∨ r.sessions = 0 ∨ r.minimumStages = 0 ∨
      r.maximumStages < r.minimumStages ∨ r.head.any (candidates.length ≤ ·)) := by
  obtain ⟨hvalid, hleast, hmost⟩ := h
  have hlength := hvalid.length_le
  have hsome : plan.map StageAssignment.provider ≠ [] := by
    rw [← List.length_pos_iff, List.length_map]
    omega
  have hmany : plan.length ≤ candidates.length := by simpa [asked] using (Nat.le_min.mp hlength).1
  rintro (hempty | hcontext | hsessions | hzero | hbounds | hhead)
  · rw [hempty, List.length_nil] at hmany
    omega
  · simp [kvUnit, allocatedPositions, hcontext] at hkv
  · simp [kvUnit, hsessions] at hkv
  · exact hminimum hzero
  · omega
  · obtain ⟨head, hmem, hle⟩ := (Option.any_eq_true _ _).mp hhead
    have hfirst := List.mem_of_mem_head? (hvalid.order.head hsome head hmem)
    have hlt := hvalid.order.known head hfirst
    simp only [asked, List.length_map, decide_eq_true_eq] at hlt hle
    omega

/-- A search that is asked for one stage at least, of a model with sizes, and that has every
candidate in its pool, groups small enough to try every order and budget left, is right when it
finds no plan: if only the memory bound has left out no group that has enough by the rule for a
stage. -/
theorem no_plan_of_error {reason : String} (hcompatible : compatible m)
    (hs : sizesOf m r.context r.sessions = some s) (hminimum : r.minimumStages ≠ 0)
    (hpool : ∀ i < candidates.length, i ∈ searchPool candidates r)
    (hsmall : min r.maximumStages (min candidates.length s.layers) ≤ 4 + r.head.toList.length)
    (hadmits : Admits L s candidates r) (htime : ∃ F, InTime s candidates F)
    (h : searchPlan L m candidates r = .error reason)
    (hreason : reason ≠ "no plan found within the search budget") :
    ¬ ∃ plan, Answers m candidates r plan := by
  rintro ⟨plan, hanswers⟩
  obtain ⟨hvalid, hleast, hmost⟩ := hanswers
  have hlayers := one_lt_layers hcompatible
  have hsizes := sizesOf_spec hlayers hs
  have hcache := sizesOf_cache hs
  have hrequest := request_ok hcache.pos hminimum ⟨hvalid, hleast, hmost⟩
  obtain ⟨hnil, hbudget⟩ := bestOf_of_error hcompatible hs hrequest h hreason
  obtain ⟨hdivision, hgapless⟩ := division_of_valid hsizes hcache hvalid
  have hlength := hvalid.length_le
  have horder := hvalid.order
  generalize plan.map StageAssignment.provider = order at hdivision horder
  rw [hdivision.length] at hleast hmost hlength
  simp only [asked, Request.layers, List.length_map, ← hsizes.layers] at hlength
  have hne : s.layers ≠ 0 := by
    rw [hsizes.layers]
    omega
  have hsome : order ≠ [] := by
    rw [← List.length_pos_iff]
    omega
  obtain ⟨F, hF⟩ := htime
  have hfound := ne_infinite_of_gapless hF hdivision (hdivision.gaplessTo_iff.mpr hgapless)
  obtain ⟨group, hformed, hof⟩ := exists_formed (s := s) hpool horder hsome hleast hmost (by omega)
  have hcount := hof.perm.length_eq
  have hgood : eq (bestSplit s candidates order).1 infinite ∨
      (bestOf L m s candidates r).plan ≠ [] := by
    apply good_bestOf (L := L) (accounts_found hne) hne hbudget hformed _ hof
    · rintro rfl
      exact hsome hof.perm.eq_nil
    · right
      omega
    · exact hadmits group order ⟨hformed, hof, hfound⟩
  exact hgood.elim hfound fun hplan => hplan hnil

/-! ### The memory bound with exact numbers -/

/-- What the memory bound takes for the usable bytes of an offer. -/
def usableAt (offeredMib : UInt64) : ℚ :=
  let offered : ℚ := (offeredMib.toNat * mib : ℕ)
  max 0 (offered - max ((1024 * mib : ℕ) : ℚ) (offered * (15 / 10 ^ 2)))

lemma maxOf_finite (x y : ℚ) : maxOf (.finite x) (.finite y) = (.finite (max x y) : Time) := by
  unfold maxOf
  simp only [lt, Time.less, decide_eq_true_eq]
  split_ifs with hlt
  · rw [max_eq_right hlt.le]
  · rw [max_eq_left (not_lt.mp hlt)]

/-- The term of the memory bound for one member. -/
lemma usableAt_exact (offeredMib : UInt64) :
    maxOf (ofNat 0) (ofNat offeredMib.toNat * ofNat mib -
      maxOf (ofNat 1024 * ofNat mib) (ofNat offeredMib.toNat * ofNat mib * decimal 15 2)) =
        (.finite (usableAt offeredMib) : Time) := by
  have hmul : ∀ a b : Nat, (ofNat a * ofNat b : Time) = .finite (a * b : ℕ) := by
    intro a b
    rw [ofNat_eq, ofNat_eq, finite_mul, Nat.cast_mul]
  have hdecimal : (decimal 15 2 : Time) = .finite (15 / 10 ^ 2) := rfl
  rw [hmul, hmul, hdecimal, finite_mul, maxOf_finite, finite_sub, ofNat_eq, maxOf_finite]
  rw [usableAt, Nat.cast_zero]

lemma roomy_exact {exacts : List (SearchCandidate ℚ)} {count : Nat} :
    roomy Time s (exact exacts) count group ↔
      ((s.model 0 s.layers - s.header).toNat + s.header.toNat * count +
        (s.kv 0 s.layers).toNat : ℚ) ≤
        (group.map fun member => usableAt (offerOf exacts member)).sum := by
  have hsum : ∀ (x : ℚ) (start : Time), start = .finite x → group.foldl (fun usable member =>
      usable + maxOf (ofNat 0) (ofNat ((exact exacts).getD member default).offeredMib.toNat *
        ofNat mib -
        maxOf (ofNat 1024 * ofNat mib)
          (ofNat ((exact exacts).getD member default).offeredMib.toNat * ofNat mib * decimal 15 2)))
            start =
      .finite (x + (group.map fun member => usableAt (offerOf exacts member)).sum) := by
    induction group with
    | nil => simp
    | cons member rest ih =>
      rintro x start rfl
      have hstep : (.finite x : Time) + maxOf (ofNat 0)
          (ofNat ((exact exacts).getD member default).offeredMib.toNat * ofNat mib -
            maxOf (ofNat 1024 * ofNat mib)
              (ofNat ((exact exacts).getD member default).offeredMib.toNat * ofNat mib *
                decimal 15 2)) =
          .finite (x + usableAt (offerOf exacts member)) := by
        rw [usableAt_exact, finite_add, offerOf_eq, offerOf_exact]
      rw [List.foldl_cons, ih _ _ hstep, List.map_cons, List.sum_cons, add_assoc]
  unfold roomy
  dsimp only
  rw [hsum 0 (ofNat 0) rfl, zero_add]
  simp only [ofNat_eq, finite_mul, finite_add, lt, Time.less, Bool.not_eq_true',
    decide_eq_false_iff_not, not_lt]

/-- An offer of which 15% is no more than the least reserve, or a whole number of bytes. -/
def WholeReserve (offeredMib : UInt64) : Prop :=
  offeredMib.toNat ≤ 6826 ∨ (5 ∣ offeredMib.toNat ∧ offeredMib.toNat * mib * 15 < 2 ^ 64)

/-- There the memory bound agrees with the rule for a stage. -/
lemma usableAt_eq {offeredMib : UInt64} (h : WholeReserve offeredMib) :
    usableAt offeredMib = usableBytes offeredMib := by
  have hlimit : offeredMib.toNat * mib * 15 < 2 ^ 64 := by
    unfold mib at *
    rcases h with hsmall | ⟨-, hlt⟩
    · omega
    · exact hlt
  have hreserve : max ((1024 * mib : ℕ) : ℚ) ((offeredMib.toNat * mib : ℕ) * (15 / 10 ^ 2)) =
      (max (1024 * mib) (offeredMib.toNat * mib * 15 / 100) : ℕ) := by
    rcases h with hsmall | ⟨⟨k, hk⟩, -⟩
    · have hle : offeredMib.toNat * mib * 15 / 100 ≤ 1024 * mib := by
        unfold mib
        omega
      rw [max_eq_left hle, max_eq_left]
      have hnat : offeredMib.toNat * mib * 15 ≤ 1024 * mib * 100 := by
        unfold mib
        omega
      have hcast : ((offeredMib.toNat * mib : ℕ) : ℚ) * 15 ≤ (1024 * mib : ℕ) * 100 := by
        exact_mod_cast hnat
      linarith
    · have hdvd : offeredMib.toNat * mib * 15 / 100 * 100 = offeredMib.toNat * mib * 15 := by
        rw [hk]
        unfold mib
        omega
      have hcast : ((offeredMib.toNat * mib * 15 / 100 : ℕ) : ℚ) * 100 =
          (offeredMib.toNat * mib : ℕ) * 15 := by
        exact_mod_cast hdvd
      rw [Nat.cast_max]
      congr 1
      linarith
  unfold usableAt usableBytes
  dsimp only
  rw [if_neg, hreserve]
  · rw [Nat.mod_eq_of_lt hlimit]
    generalize max (1024 * mib) (offeredMib.toNat * mib * 15 / 100) = reserve
    generalize offeredMib.toNat * mib = offered
    split_ifs with hroom
    · rw [max_eq_right (by simpa using hroom.le), Nat.cast_sub hroom.le]
    · rw [max_eq_left (by simpa using Nat.not_lt.mp hroom), Nat.cast_zero]
  · unfold mib at hlimit ⊢
    unfold maxU64
    omega

/-- Where the reserves of all offers are whole, the exact memory bound leaves out no group that has
enough. -/
lemma roomy_of_enough {exacts : List (SearchCandidate ℚ)}
    (hwhole : ∀ c ∈ exacts, WholeReserve c.offeredMib)
    (hknown : ∀ member ∈ group, member < exacts.length) (henough : Enough s (exact exacts) group) :
    roomy Time s (exact exacts) group.length group := by
  rw [roomy_exact]
  have hsum : (group.map fun member => usableAt (offerOf exacts member)).sum =
      ((group.map fun member => usableBytes (offerOf exacts member)).sum : ℕ) := by
    rw [Nat.cast_list_sum, List.map_map]
    congr 1
    refine List.map_congr_left fun member hmember => usableAt_eq ?_
    have hlt := hknown member hmember
    have hoffer : offerOf exacts member = exacts[member].offeredMib := by simp [offerOf, hlt]
    rw [hoffer]
    exact hwhole _ (List.getElem_mem hlt)
  rw [hsum]
  simp only [Enough, offerOf_exact] at henough
  exact_mod_cast henough

lemma admits_exact {exacts : List (SearchCandidate ℚ)} {r : SearchRequest Time}
    (hcompatible : compatible m) (hs : sizesOf m r.context r.sessions = some s)
    (hwhole : ∀ c ∈ exacts, WholeReserve c.offeredMib) :
    Admits Time s (exact exacts) r := by
  have hlayers := one_lt_layers hcompatible
  rintro group order ⟨hformed, horder, hfound⟩
  have hdivision := (bestSplit_spec hfound).1
  have hpool : PoolOk (exact exacts) (searchPool (exact exacts) r) := searchPool_spec.1
  refine roomy_of_enough hwhole (fun member hmember => ?_) ?_
  · simpa [exact] using hpool.2 member (hformed.sub.subset hmember)
  · exact (hdivision.enough (sizesOf_spec hlayers hs) (sizesOf_cache hs) (by omega)).perm
      horder.perm

/-- Two workers that are too small for any stage. -/
def smallOffers : List (SearchCandidate ℚ) :=
  [⟨1024, 1000, 10, false, 0, [], "a", []⟩, ⟨1000, 1000, 10, false, 0, [], "b", []⟩]

/-- The reason why there is no plan, if there is none. -/
def reasonOf (result : Except String (SearchResult D)) : Option String :=
  match result with
  | .error reason => some reason
  | .ok _ => none

theorem no_plan_of_error_small :
    ∃ reason, searchPlan Time Request.tinyModel (exact smallOffers) tinySearch = .error reason ∧
      ¬ ∃ plan, Answers Request.tinyModel (exact smallOffers) tinySearch plan := by
  have hsome : (sizesOf Request.tinyModel tinySearch.context tinySearch.sessions).isSome := by
    decide +kernel
  have hlayers : ((sizesOf Request.tinyModel tinySearch.context tinySearch.sessions).get
      hsome).layers = 2 := by
    decide +kernel +revert
  have hsizes : sizesOf Request.tinyModel tinySearch.context tinySearch.sessions =
      some ((sizesOf Request.tinyModel tinySearch.context tinySearch.sessions).get hsome) :=
    (Option.some_get hsome).symm
  have hreason : reasonOf (searchPlan Time Request.tinyModel (exact smallOffers) tinySearch) = some
      "no group of up to 2 candidates holds the model with this context and session count" := by
    decide +kernel
  cases herror : searchPlan Time Request.tinyModel (exact smallOffers) tinySearch with
  | ok result =>
    rw [herror] at hreason
    contradiction
  | error reason =>
    rw [herror] at hreason
    obtain rfl := Option.some.inj hreason
    refine ⟨_, rfl, no_plan_of_error (L := Time) (by decide +kernel) hsizes (by decide) ?_ ?_
      (admits_exact (by decide +kernel) hsizes ?_) ⟨_, inTime_exact⟩ herror (by decide)⟩
    · decide +kernel
    · rw [hlayers]
      decide
    · simp [smallOffers, WholeReserve]

/-- A search for a plan of any number of stages, none included. -/
def anySearch : SearchRequest Time := { tinySearch with minimumStages := 0, head := none }

/-- A search that is asked for no stages at least finds no plan, although there is one. -/
theorem error_with_plan :
    searchPlan Time Request.tinyModel [tinyCandidate "a" 1000] anySearch =
      .error "invalid search request" ∧
      searchPool [tinyCandidate "a" 1000] anySearch = [0] ∧
      Answers Request.tinyModel [tinyCandidate "a" 1000] anySearch [⟨0, 0, 2, 2110, 65536⟩] := by
  have hcompatible : compatible Request.tinyModel := by decide +kernel
  refine ⟨?_, ?_, ⟨⟨rfl, by decide, rfl⟩, by decide, ?_, ?_⟩, by decide, by decide⟩
  · unfold searchPlan
    rw [if_neg (not_not.mpr hcompatible), if_pos (by simp [anySearch])]
  · decide +kernel
  · decide +kernel
  · rintro h ⟨⟩

end ProviderOwned.Planner
