import Mathlib.Data.List.Chain
import ProviderOwned.Lib.Pick
import ProviderOwned.Planner.Numbers

/-!
# Giving way to a better replica

When an idle replica dissolves for a better one (`upgrade.hpp`): for a higher tier, or for the same
model measured faster by a margin, and only where a peer is won. Each replica of a run of upgrades
is better than all before it, so none comes back. After failures the next attempt waits twice as
long, up to a maximum.
-/

namespace ProviderOwned.Upgrade

open Pick Planner Arithmetic

structure UpgradeRules (D : Type) where
  idleMs : Int
  speedMargin : D
  firstBackoffMs : Int
  maxBackoffMs : Int

structure CurrentReplica (D : Type) where
  qualityTier : Int
  modelSha256 : String
  measuredMs : D
  members : List String

structure UpgradeOption (D : Type) where
  qualityTier : Int
  modelSha256 : String
  tokenMs : D
  measured : Bool
  peers : List String
  deriving DecidableEq

structure UpgradeState where
  idleSinceMs : Int
  openSessions : Nat
  queued : Nat
  notBeforeMs : Int

section

variable {D : Type} [Arithmetic D]

/-- `adds_gpu`: the plan uses a peer outside the replica. -/
def addsGpu (current : CurrentReplica D) (option : UpgradeOption D) : Bool :=
  option.peers.any fun peer => !current.members.contains peer

def higherTier (current : CurrentReplica D) (option : UpgradeOption D) : Bool :=
  current.qualityTier < option.qualityTier

/-- `faster`: the same model, and measured to be. -/
def faster (rules : UpgradeRules D) (current : CurrentReplica D) (option : UpgradeOption D) :
    Bool :=
  option.qualityTier = current.qualityTier && option.modelSha256 =
    current.modelSha256 && option.measured &&
    lt (ofNat 0) current.measuredMs && lt (ofNat 0) option.tokenMs &&
    lt (option.tokenMs * (ofNat 1 + rules.speedMargin)) current.measuredMs

/-- An option that `upgrade_choice` does not pass over. -/
def admissible (rules : UpgradeRules D) (current : CurrentReplica D) (option : UpgradeOption D) :
    Bool :=
  addsGpu current option && (higherTier current option || faster rules current option)

/-- Higher in tier, or faster at the same tier. -/
def ahead (option best : UpgradeOption D) : Bool :=
  best.qualityTier < option.qualityTier ||
    (option.qualityTier = best.qualityTier && lt option.tokenMs best.tokenMs)

/-- No work, quiet for long enough, and not backing off. -/
def idle (rules : UpgradeRules D) (state : UpgradeState) (now : Int) : Prop :=
  state.openSessions = 0 ∧ state.queued = 0 ∧ state.notBeforeMs ≤ now ∧
    rules.idleMs ≤ now - state.idleSinceMs

instance (rules : UpgradeRules D) (state : UpgradeState) (now : Int) :
    Decidable (idle rules state now) :=
  inferInstanceAs (Decidable (_ ∧ _))

def upgradeChoice (current : CurrentReplica D) (options : List (UpgradeOption D))
    (state : UpgradeState) (now : Int) (rules : UpgradeRules D) : Option (UpgradeOption D) :=
  if idle rules state now then
    options.foldl (fun best option => if admissible rules current option then keep ahead best option
      else best)
      none
  else none

/-- `next_backoff_ms`, the doubling in 64 bits. -/
def nextBackoffMs (previous : Int) (upgraded : Bool) (rules : UpgradeRules D) : Int :=
  if upgraded then 0
  else if previous = 0 then rules.firstBackoffMs
  else min ((previous * 2).bmod (2 ^ 64)) rules.maxBackoffMs

/-- The backoff after upgrades that happened or not. -/
def backoffMs (rules : UpgradeRules D) (outcomes : List Bool) : Int :=
  outcomes.foldl (fun previous upgraded => nextBackoffMs previous upgraded rules) 0

end

section

variable {D : Type} [Planner.Rounded D] {rules : UpgradeRules D} {current : CurrentReplica D}
  {options : List (UpgradeOption D)} {option : UpgradeOption D} {state : UpgradeState} {now : Int}

/-! ### One choice -/

lemma ahead_iff {a b : UpgradeOption D} :
    ahead a b ↔ b.qualityTier < a.qualityTier ∨
      (a.qualityTier = b.qualityTier ∧ lt a.tokenMs b.tokenMs) := by
  simp [ahead]

lemma ahead_irrefl (a : UpgradeOption D) : ¬ ahead a a := by
  rw [ahead_iff]
  rintro (hlt | ⟨-, hlt⟩)
  · exact lt_irrefl _ hlt
  · exact Numbers.lt_irrefl hlt

lemma ahead_trans (a b c : UpgradeOption D) (hab : ahead a b) (hbc : ahead b c) : ahead a c := by
  rw [ahead_iff] at hab hbc ⊢
  rcases hab with hab | ⟨hab, hless⟩ <;> rcases hbc with hbc | ⟨hbc, hless'⟩
  · exact .inl (hbc.trans hab)
  · exact .inl (hbc ▸ hab)
  · exact .inl (hab ▸ hbc)
  · exact .inr ⟨hab.trans hbc, Numbers.lt_trans hless hless'⟩

/-- The choice of an idle replica is the best of the admissible options. -/
lemma upgradeChoice_eq (h : idle rules state now) :
    upgradeChoice current options state now rules =
      pick ahead (options.filter (admissible rules current)) := by
  rw [upgradeChoice, if_pos h]
  exact foldl_if_keep _ _

lemma idle_of_upgradeChoice (h : upgradeChoice current options state now rules = some option) :
    idle rules state now := by
  by_contra hbusy
  rw [upgradeChoice, if_neg hbusy] at h
  cases h

def Gains (rules : UpgradeRules D) (current : CurrentReplica D) (option : UpgradeOption D) : Prop :=
  current.qualityTier < option.qualityTier ∨
    (option.qualityTier = current.qualityTier ∧ option.modelSha256 = current.modelSha256 ∧
      option.measured ∧
      lt (ofNat 0) current.measuredMs ∧ lt (ofNat 0) option.tokenMs ∧
      lt (option.tokenMs * (ofNat 1 + rules.speedMargin)) current.measuredMs)

lemma admissible_iff :
    admissible rules current option ↔
      (∃ peer ∈ option.peers, peer ∉ current.members) ∧ Gains rules current option := by
  simp [admissible, addsGpu, higherTier, faster, Gains, and_assoc]

/-- What `upgrade_choice` promises of an option it returns. -/
structure WorthGivingWay (rules : UpgradeRules D) (current : CurrentReplica D)
    (options : List (UpgradeOption D)) (option : UpgradeOption D) : Prop where
  mem : option ∈ options
  addsPeer : ∃ peer ∈ option.peers, peer ∉ current.members
  gains : Gains rules current option
  highest : ∀ other ∈ options, admissible rules current other →
    other.qualityTier ≤ option.qualityTier
  least : ∀ other ∈ options, admissible rules current other →
    other.qualityTier = option.qualityTier →
    ¬ lt other.tokenMs option.tokenMs

lemma worthGivingWay (h : upgradeChoice current options state now rules = some option) :
    WorthGivingWay rules current options option := by
  rw [upgradeChoice_eq (idle_of_upgradeChoice h)] at h
  obtain ⟨hmem, hadmissible⟩ := List.mem_filter.mp (pick_mem h)
  have hbest : ∀ other ∈ options, admissible rules current other → ¬ ahead other option := by
    intro other hother hadmitted
    exact not_better_of_pick ahead_irrefl ahead_trans h (List.mem_filter.mpr ⟨hother, hadmitted⟩)
  simp only [ahead_iff, not_or, not_lt, not_and] at hbest
  exact
    { mem := hmem
      addsPeer := (admissible_iff.mp hadmissible).1
      gains := (admissible_iff.mp hadmissible).2
      highest := fun other hother hadmitted => (hbest other hother hadmitted).1
      least := fun other hother hadmitted => (hbest other hother hadmitted).2 }

lemma upgradeChoice_isSome :
    (upgradeChoice current options state now rules).isSome ↔
      idle rules state now ∧ ∃ option ∈ options, admissible rules current option := by
  by_cases hidle : idle rules state now
  · rw [upgradeChoice_eq hidle, pick_isSome, ne_eq, List.filter_eq_nil_iff]
    simp [hidle]
  · simp [upgradeChoice, hidle]

/-! ### Runs of upgrades -/

/-- The next replica has the tier, the model and the time of the option chosen. -/
def Upgrades (rules : UpgradeRules D) (current next : CurrentReplica D) : Prop :=
  ∃ options state now, ∃ option ∈ upgradeChoice current options state now rules,
    next.qualityTier = option.qualityTier ∧ next.modelSha256 = option.modelSha256 ∧
      next.measuredMs = option.tokenMs

/-- Better: higher in tier, or the same model in less time. -/
def Better (next current : CurrentReplica D) : Prop :=
  current.qualityTier < next.qualityTier ∨
    (next.qualityTier = current.qualityTier ∧ next.modelSha256 = current.modelSha256 ∧
      lt next.measuredMs current.measuredMs)

/-- A replica that is no different: the same tier, the same model and an equal time. -/
def SameAs (next current : CurrentReplica D) : Prop :=
  next.qualityTier = current.qualityTier ∧ next.modelSha256 = current.modelSha256 ∧
    (next.measuredMs = current.measuredMs ∨ eq next.measuredMs current.measuredMs)

lemma Better.trans {a b c : CurrentReplica D} (hab : Better a b) (hbc : Better b c) :
    Better a c := by
  rcases hab with hab | ⟨hab, hmodel, hless⟩ <;> rcases hbc with hbc | ⟨hbc, hmodel', hless'⟩
  · exact .inl (hbc.trans hab)
  · exact .inl (hbc ▸ hab)
  · exact .inl (hab ▸ hbc)
  · exact .inr ⟨hab.trans hbc, hmodel.trans hmodel', Numbers.lt_trans hless hless'⟩

lemma Better.not_sameAs {a b : CurrentReplica D} (h : Better a b) : ¬ SameAs a b := by
  rintro ⟨htier, -, htime⟩
  rcases h with h | ⟨-, -, hless⟩
  · exact h.ne htier.symm
  · rcases htime with htime | htime
    · rw [htime] at hless
      exact Numbers.lt_irrefl hless
    · exact Numbers.not_lt_of_eq htime hless

/-- One upgrade makes the replica better, where the margin is not negative. -/
lemma Upgrades.better (hmargin : le (ofNat 0) rules.speedMargin) {next : CurrentReplica D}
    (h : Upgrades rules current next) : Better next current := by
  obtain ⟨options, state, now, option, hchoice, htier, hmodel, htime⟩ := h
  rw [Better, htier, hmodel, htime]
  rcases (worthGivingWay hchoice).gains with hhigher | ⟨hsame, hsamemodel, -, -, hpos, hfaster⟩
  · exact .inl hhigher
  · exact .inr ⟨hsame, hsamemodel, Planner.Rounded.lt_of_mul_lt hpos hmargin hfaster⟩

/-- Every replica of a run is better than all before it. -/
lemma pairwise_better (hmargin : le (ofNat 0) rules.speedMargin) {run : List (CurrentReplica D)}
    (h : run.IsChain (Upgrades rules)) : run.Pairwise
      fun earlier later => Better later earlier := by
  have : Trans (fun earlier later : CurrentReplica D => Better later earlier)
      (fun earlier later => Better later earlier) (fun earlier later => Better later earlier) :=
    ⟨fun hab hbc => hbc.trans hab⟩
  exact (h.imp fun _ _ hupgrade => hupgrade.better hmargin).pairwise

end

/-! ### Backoff -/

section

variable {D : Type} {rules : UpgradeRules D}

/-- One more failure doubles the backoff up to the maximum. -/
lemma nextBackoffMs_false (hfirst : 0 ≤ rules.firstBackoffMs)
    (hle : rules.firstBackoffMs ≤ rules.maxBackoffMs)
    (hmax : rules.maxBackoffMs < 2 ^ 62) (n : Nat) :
    nextBackoffMs (min (rules.firstBackoffMs * 2 ^ n) rules.maxBackoffMs) false rules =
      min (rules.firstBackoffMs * 2 ^ (n + 1)) rules.maxBackoffMs := by
  have hpow : rules.firstBackoffMs ≤ rules.firstBackoffMs * 2 ^ n :=
    le_mul_of_one_le_right hfirst (one_le_pow₀ one_le_two)
  have hdouble : rules.firstBackoffMs * 2 ^ (n + 1) = rules.firstBackoffMs * 2 ^ n * 2 := by
    rw [pow_succ, mul_assoc]
  rw [nextBackoffMs, if_neg Bool.false_ne_true, hdouble]
  split_ifs with hzero
  · omega
  · rw [Int.bmod_eq_of_le (by omega) (by omega)]
    omega

/-- The backoff after failures that nothing succeeded before. -/
lemma foldl_nextBackoffMs (hfirst : 0 ≤ rules.firstBackoffMs)
    (hle : rules.firstBackoffMs ≤ rules.maxBackoffMs) (hmax : rules.maxBackoffMs < 2 ^ 62)
    (n : Nat) :
    (List.replicate (n + 1) false).foldl
      (fun previous upgraded => nextBackoffMs previous upgraded rules) 0 =
      min (rules.firstBackoffMs * 2 ^ n) rules.maxBackoffMs := by
  induction n with
  | zero =>
    rw [pow_zero, mul_one, min_eq_left hle]
    rfl
  | succ n ih => rw [List.replicate_succ', List.foldl_concat, ih,
      nextBackoffMs_false hfirst hle hmax]

/-- The backoff after a success and a run of failures is that of the failures. -/
lemma backoffMs_after_success (earlier : List Bool) (failures : Nat) :
    backoffMs rules (earlier ++ true :: List.replicate failures false) =
      backoffMs rules (List.replicate failures false) := by
  rw [backoffMs, List.foldl_append]
  rfl

/-- The backoff never exceeds the maximum. -/
lemma backoffMs_le (hfirst : 0 ≤ rules.firstBackoffMs)
    (hle : rules.firstBackoffMs ≤ rules.maxBackoffMs)
    (outcomes : List Bool) : backoffMs rules outcomes ≤ rules.maxBackoffMs := by
  induction outcomes using List.reverseRecOn with
  | nil => exact hfirst.trans hle
  | append_singleton outcomes upgraded ih =>
    rw [backoffMs, List.foldl_concat, nextBackoffMs]
    split_ifs
    · exact hfirst.trans hle
    · exact hle
    · exact min_le_right _ _

end

/-! ### Upgrades never oscillate -/

/-- An upgrade gains, no replica of a run comes back, and failures double the backoff up to its
maximum. -/
theorem upgrades_never_oscillate {D : Type} [Planner.Rounded D] (rules : UpgradeRules D) :
    (∀ current options state now,
      (∀ option ∈ upgradeChoice current options state now rules,
        idle rules state now ∧ WorthGivingWay rules current options option) ∧
      ((upgradeChoice current options state now rules).isSome ↔
        idle rules state now ∧ ∃ option ∈ options, admissible rules current option)) ∧
    (le (ofNat 0) rules.speedMargin → ∀ run : List (CurrentReplica D),
      run.IsChain (Upgrades rules) →
      run.Pairwise fun earlier later => ¬ SameAs later earlier) ∧
    (0 ≤ rules.firstBackoffMs → rules.firstBackoffMs ≤ rules.maxBackoffMs →
      rules.maxBackoffMs < 2 ^ 62 →
      ∀ (earlier : List Bool) (failures : Nat),
      backoffMs rules (List.replicate (failures + 1) false) =
        min (rules.firstBackoffMs * 2 ^ failures) rules.maxBackoffMs ∧
      backoffMs rules (earlier ++ true :: List.replicate (failures + 1) false) =
        min (rules.firstBackoffMs * 2 ^ failures) rules.maxBackoffMs ∧
      backoffMs rules earlier ≤ rules.maxBackoffMs) := by
  refine ⟨fun current options state now => ⟨fun option hoption => ?_, upgradeChoice_isSome⟩,
    fun hmargin run hrun => ?_, fun hfirst hle hmax earlier failures => ?_⟩
  · exact ⟨idle_of_upgradeChoice hoption, worthGivingWay hoption⟩
  · exact (pairwise_better hmargin hrun).imp fun hbetter => hbetter.not_sameAs
  · have hfailures := foldl_nextBackoffMs hfirst hle hmax failures
    exact ⟨hfailures, (backoffMs_after_success earlier _).trans hfailures,
      backoffMs_le hfirst hle earlier⟩

/-- The default rules with another margin and other backoffs. -/
def rulesWith (margin : Time) (first max : Int) : UpgradeRules Time := ⟨120000, margin, first, max⟩

def replicaAt (ms : Nat) : CurrentReplica Time := ⟨10, "7b", ofNat ms, ["self"]⟩

def optionAt (ms : Nat) : UpgradeOption Time := ⟨10, "7b", ofNat ms, true, ["peer"]⟩

def quiet : UpgradeState := ⟨0, 0, 0, 0⟩

lemma upgrades_optionAt {margin : Time} {first max : Int} {ms ms' : Nat}
    (h : upgradeChoice (replicaAt ms) [optionAt ms'] quiet 120000 (rulesWith margin first max) =
      some (optionAt ms')) : Upgrades (rulesWith margin first max) (replicaAt ms) (replicaAt ms') :=
  ⟨_, _, _, optionAt ms', h, rfl, rfl, rfl⟩

theorem upgrades_never_oscillate_default :
    ¬ SameAs (replicaAt 70) (replicaAt 100) ∧
      backoffMs (rulesWith (decimal 25 2) 600000 14400000) [false, true, false, false] =
        1200000 := by
  obtain ⟨-, hrun, hbackoff⟩ := upgrades_never_oscillate (rulesWith (decimal 25 2) 600000 14400000)
  have hupgrade :
      Upgrades (rulesWith (decimal 25 2) 600000 14400000) (replicaAt 100) (replicaAt 70) :=
    upgrades_optionAt (by decide +kernel)
  refine ⟨?_, (hbackoff (by decide) (by decide) (by decide) [false] 1).2.1⟩
  exact List.pairwise_pair.mp
    (hrun (by decide +kernel) [replicaAt 100, replicaAt 70] (List.isChain_pair.mpr hupgrade))

/-- With a negative margin two speeds follow each other. A maximum from `2 ^ 62` on and a negative
backoff are overrun. -/
theorem upgrades_oscillate :
    Upgrades (rulesWith (-decimal 5 1) 1 1) (replicaAt 100) (replicaAt 150) ∧
      Upgrades (rulesWith (-decimal 5 1) 1 1) (replicaAt 150) (replicaAt 100) ∧
      SameAs (replicaAt 100) (replicaAt 100) ∧
      backoffMs (rulesWith (decimal 25 2) 1 (2 ^ 63 - 1)) (List.replicate 64 false) = -2 ^ 63 ∧
      backoffMs (rulesWith (decimal 25 2) (-1) 1) (List.replicate 65 false) = 0 := by
  exact ⟨upgrades_optionAt (by decide +kernel), upgrades_optionAt (by decide +kernel),
    ⟨rfl, rfl, .inl rfl⟩, by decide +kernel, by decide +kernel⟩

end ProviderOwned.Upgrade
