import ProviderOwned.Lib.Pick
import ProviderOwned.Planner.Numbers
import ProviderOwned.Worker.Capability

/-!
# The table of measured speeds

`SpeedTable` of `measurement.hpp`: a mean for each configuration, older evidence counting for no
more than `confident_samples`, and the oldest entry given up where the table is full. Means are
rounded, and stay in the range that observations are admitted from.
-/

namespace ProviderOwned.Greeting

open Pick Planner Arithmetic

section

variable {D : Type} [Arithmetic D]

/-- A speed that `observe` takes: a number above zero and at most `max_us_per_gib`. -/
def admitted (usPerGib : D) : Bool := lt (ofNat 0) usPerGib && !lt (ofNat maxUsPerGib) usPerGib

def SpeedRecord.fold (found : SpeedRecord D) (usPerGib : D) (samples : UInt32) (now : Int) :
    SpeedRecord D :=
  let oldWeight : D := ofNat (min found.samples.toNat confidentSamples.toNat)
  { found with
    usPerGib := (found.usPerGib * oldWeight + usPerGib * ofNat samples.toNat) /
      (oldWeight + ofNat samples.toNat)
    samples := if 0xFFFFFFFF - samples < found.samples then 0xFFFFFFFF else found.samples + samples
    updatedUnixS := now }

/-- `std::min_element`: the position of the first of the entries that were updated longest ago. -/
def oldest (records : List (SpeedRecord D)) : Option (SpeedRecord D × Nat) :=
  pick (fun left right => left.1.updatedUnixS < right.1.updatedUnixS) records.zipIdx

def eraseOldest (records : List (SpeedRecord D)) : List (SpeedRecord D) :=
  ((oldest records).map fun found => records.eraseIdx found.2).getD records

def observe (records : List (SpeedRecord D)) (key : SpeedKey) (usPerGib : D) (samples : UInt32)
    (now : Int) :
    List (SpeedRecord D) :=
  if !admitted usPerGib || samples = 0 then records
  else
    match records.findIdx? (·.key = key) with
    | none =>
      (if maxSpeedRecords ≤ records.length then eraseOldest records else records) ++
        [⟨key, usPerGib, samples, now⟩]
    | some index => records.modify index (·.fold usPerGib samples now)

def add (records : List (SpeedRecord D)) (record : SpeedRecord D) : List (SpeedRecord D) :=
  observe records record.key record.usPerGib record.samples record.updatedUnixS

/-- The table after observations, each as a record of its own. -/
def observed (observations : List (SpeedRecord D)) : List (SpeedRecord D) :=
  observations.foldl add []

end

section

variable {D : Type} [Planner.Rounded D] {records : List (SpeedRecord D)}
  {record found : SpeedRecord D} {key : SpeedKey}
  {usPerGib : D} {samples : UInt32} {now : Int}

/-! ### Speeds in range -/

lemma value_maxUsPerGib : Numbers.value (ofNat maxUsPerGib : D) =
    some (((10 ^ 9 : ℚ) : WithTop ℚ) : WithBot (WithTop ℚ)) := by
  rw [Planner.Rounded.value_ofNat, Planner.Rounded.rounded_natCast (by decide), maxUsPerGib]
  norm_num

lemma admitted_iff : admitted usPerGib ↔
    ∃ x : ℚ, Numbers.value usPerGib = some ((x : WithTop ℚ) : WithBot (WithTop ℚ)) ∧ 0 < x ∧
      x ≤ 10 ^ 9 := by
  rw [admitted, Bool.and_eq_true, Bool.not_eq_true', ← Bool.not_eq_true, Numbers.lt_iff,
    Numbers.lt_iff, Numbers.value_zero, value_maxUsPerGib]
  constructor
  · rintro ⟨⟨x, hx, y, hy, hpos⟩, hle⟩
    obtain rfl := Option.some.inj hx
    have hmax : y ≤ ((10 ^ 9 : ℚ) : WithTop ℚ) := by
      by_contra hlt
      exact hle ⟨_, rfl, y, hy, not_le.mp hlt⟩
    rcases top_or_coe_of_nonneg hpos.le with rfl | ⟨q, rfl, -⟩
    · have htop : ((10 ^ 9 : ℚ) : WithTop ℚ) = ⊤ := WithBot.coe_injective (top_le_iff.mp hmax)
      exact absurd htop WithTop.coe_ne_top
    · exact ⟨q, hy, WithTop.coe_lt_coe.mp (WithBot.coe_lt_coe.mp hpos),
        WithTop.coe_le_coe.mp (WithBot.coe_le_coe.mp hmax)⟩
  · rintro ⟨x, hx, hpos, hmax⟩
    refine ⟨⟨_, rfl, _, hx, WithBot.coe_lt_coe.mpr (WithTop.coe_lt_coe.mpr hpos)⟩, ?_⟩
    rintro ⟨y, hy, z, hz, hlt⟩
    obtain rfl := Option.some.inj hy
    obtain rfl := Option.some.inj (hx.symm.trans hz)
    exact absurd hmax (not_le.mpr (WithTop.coe_lt_coe.mp (WithBot.coe_lt_coe.mp hlt)))

lemma rounded_mul_max {k : ℕ} (h : k ≤ 32 + 2 ^ 32) :
    Planner.Rounded.rounded (D := D) (k * 10 ^ 9) = ((k * 10 ^ 9 : ℚ) : WithTop ℚ) := by
  have hscaled : (k * 10 ^ 9 : ℚ) = ((1953125 * k : ℕ) : ℚ) * 2 ^ 9 := by
    push_cast
    ring
  rw [hscaled]
  exact Planner.Rounded.rounded_scaled _ _ (by omega) (by norm_num)

lemma toNat_pos {n : UInt32} (h : n ≠ 0) : 0 < n.toNat :=
  UInt32.lt_iff_toNat_lt.mp (UInt32.pos_iff_ne_zero.mpr h)

/-- The mean of speeds in range is in range, rounded as it is. -/
lemma admitted_fold (hfound : admitted found.usPerGib) (hcount : found.samples ≠ 0)
    (hspeed : admitted usPerGib) : admitted (found.fold usPerGib samples now).usPerGib := by
  obtain ⟨x, hx, hxpos, hxmax⟩ := admitted_iff.mp hfound
  obtain ⟨y, hy, hypos, hymax⟩ := admitted_iff.mp hspeed
  obtain ⟨g, hg, hgx, hgy, hgrain⟩ : ∃ g : ℚ, 0 < g ∧ g ≤ x ∧ g ≤ y ∧
      ∀ n : ℕ, n < 2 ^ 53 →
          Planner.Rounded.rounded (D := D) (n * g) = ((n * g : ℚ) : WithTop ℚ) := by
    rcases le_total x y with hle | hle
    · obtain ⟨g, hg, hle', hgrain⟩ := Planner.Rounded.grain hx hxpos
      exact ⟨g, hg, hle', hle'.trans hle, hgrain⟩
    · obtain ⟨g, hg, hle', hgrain⟩ := Planner.Rounded.grain hy hypos
      exact ⟨g, hg, hle'.trans hle, hle', hgrain⟩
  have hpos : 0 < min found.samples.toNat confidentSamples.toNat :=
    lt_min (toNat_pos hcount) (by decide)
  have hweight : min found.samples.toNat confidentSamples.toNat ≤ 32 := min_le_right _ _
  have hsamples := samples.toNat_lt
  obtain ⟨z, hz, hgz, hzmax⟩ :=
    Planner.Rounded.mean_between (m := min found.samples.toNat confidentSamples.toNat)
    (n := samples.toNat) (by omega) (by omega) (fun k hk => hgrain k (by omega))
    (fun k hk => rounded_mul_max (by omega)) hx hy ⟨hgx, hxmax⟩ ⟨hgy, hymax⟩
  exact admitted_iff.mpr ⟨z, hz, hg.trans_le hgz, hzmax⟩

omit [Planner.Rounded D] in
lemma fold_samples_ne_zero [Arithmetic D] (hcount : found.samples ≠ 0) :
    (found.fold usPerGib samples now).samples ≠ 0 := by
  have hpos := toNat_pos hcount
  have hlt := samples.toNat_lt
  simp only [SpeedRecord.fold]
  split_ifs with hlarge
  · exact fun hmax => absurd (congrArg UInt32.toNat hmax) (by decide)
  · intro hzero
    have hle : samples ≤ 0xFFFFFFFF := UInt32.le_iff_toNat_le.mpr (Nat.le_of_lt_succ hlt)
    have hsum := congrArg UInt32.toNat hzero
    rw [UInt32.lt_iff_toNat_lt, UInt32.toNat_sub_of_le _ _ hle, not_lt] at hlarge
    rw [UInt32.toNat_add] at hsum
    change found.samples.toNat ≤ 4294967295 - samples.toNat at hlarge
    change (found.samples.toNat + samples.toNat) % 2 ^ 32 = 0 at hsum
    omega

/-! ### One observation -/

omit [Planner.Rounded D] in
lemma oldest_spec {records : List (SpeedRecord D)} {found : SpeedRecord D × Nat}
    (h : oldest records = some found) :
    records[found.2]? = some found.1 ∧ ∀ record ∈ records, found.1.updatedUnixS ≤
      record.updatedUnixS := by
  refine ⟨List.mem_zipIdx_iff_getElem?.mp (pick_mem h), fun record hrecord => ?_⟩
  obtain ⟨index, hindex⟩ := List.mem_iff_getElem?.mp hrecord
  have hirrefl : ∀ a : SpeedRecord D × Nat, ¬ decide (a.1.updatedUnixS < a.1.updatedUnixS) := by
    simp
  have htrans : ∀ a b c : SpeedRecord D × Nat, decide (a.1.updatedUnixS < b.1.updatedUnixS) →
      decide (b.1.updatedUnixS < c.1.updatedUnixS) →
          decide (a.1.updatedUnixS < c.1.updatedUnixS) := by
    simp only [decide_eq_true_eq]
    exact fun _ _ _ => lt_trans
  have hnot := not_better_of_pick hirrefl htrans h (b := (record, index))
    (List.mem_zipIdx_iff_getElem?.mpr hindex)
  simpa using hnot

omit [Planner.Rounded D] in
lemma exists_oldest {records : List (SpeedRecord D)} (h : records ≠ []) :
    ∃ found, oldest records = some found := by
  refine Option.isSome_iff_exists.mp (pick_isSome.mpr fun hnil => h ?_)
  exact List.zipIdx_eq_nil_iff.mp hnil

/-- What an observation does to the table. -/
inductive Observes [Arithmetic D] (records : List (SpeedRecord D)) (record : SpeedRecord D) :
    List (SpeedRecord D) → Prop
  | rejected : Observes records record records
  | folded (index : Nat) (found : SpeedRecord D) : records[index]? = some found →
      found.key = record.key →
      admitted record.usPerGib → record.samples ≠ 0 →
      Observes records record
        (records.modify index (·.fold record.usPerGib record.samples record.updatedUnixS))
  | appended : (∀ other ∈ records, other.key ≠ record.key) → admitted record.usPerGib →
      record.samples ≠ 0 →
      records.length < maxSpeedRecords → Observes records record (records ++ [record])
  | evicted (index : Nat) (found : SpeedRecord D) : (∀ other ∈ records, other.key ≠ record.key) →
      admitted record.usPerGib → record.samples ≠ 0 → maxSpeedRecords ≤ records.length →
      records[index]? = some found → (∀ other ∈ records, found.updatedUnixS ≤ other.updatedUnixS) →
      Observes records record (records.eraseIdx index ++ [record])

omit [Planner.Rounded D] in
lemma observes_add [Arithmetic D] (records : List (SpeedRecord D)) (record : SpeedRecord D) :
    Observes records record (add records record) := by
  rw [add, observe]
  by_cases hrejected : !admitted record.usPerGib || record.samples = 0
  · rw [if_pos hrejected]
    exact .rejected
  · rw [if_neg hrejected]
    simp only [Bool.or_eq_true, Bool.not_eq_true', decide_eq_true_eq, not_or, Bool.not_eq_false]
      at hrejected
    obtain ⟨hadmitted, hcount⟩ := hrejected
    cases hfound : records.findIdx? (·.key = record.key) with
    | none =>
      have hnew : ∀ other ∈ records, other.key ≠ record.key := by
        simpa using List.findIdx?_eq_none_iff.mp hfound
      by_cases hfull : maxSpeedRecords ≤ records.length
      · have hnonempty : records ≠ [] := by
          rintro rfl
          exact absurd hfull (show ¬ maxSpeedRecords ≤ 0 by decide)
        obtain ⟨found, hfound⟩ := exists_oldest hnonempty
        obtain ⟨hindex, hleast⟩ := oldest_spec hfound
        dsimp only
        rw [if_pos hfull, eraseOldest, hfound]
        exact .evicted _ _ hnew hadmitted hcount hfull hindex hleast
      · dsimp only
        rw [if_neg hfull]
        exact .appended hnew hadmitted hcount (not_le.mp hfull)
    | some index =>
      obtain ⟨hlt, hkey, -⟩ := List.findIdx?_eq_some_iff_getElem.mp hfound
      exact .folded index records[index] (List.getElem?_eq_getElem hlt)
        (by simpa using hkey) hadmitted hcount

/-! ### The table -/

/-- What holds of the table at any time. -/
structure Bounded (records : List (SpeedRecord D)) : Prop where
  length_le : records.length ≤ maxSpeedRecords
  nodup_keys : (records.map (·.key)).Nodup
  admitted : ∀ record ∈ records, admitted record.usPerGib
  samples_ne_zero : ∀ record ∈ records, record.samples ≠ 0

omit [Planner.Rounded D] in
lemma map_key_modify [Arithmetic D] (records : List (SpeedRecord D)) (index : Nat) (usPerGib : D)
    (samples : UInt32) (now : Int) :
    (records.modify index (·.fold usPerGib samples now)).map (·.key) = records.map (·.key) := by
  refine List.ext_getElem? fun i => ?_
  rw [List.getElem?_map, List.getElem?_map, List.getElem?_modify]
  cases records[i]? with
  | none => rfl
  | some record =>
    by_cases hindex : index = i
    · simp [hindex, SpeedRecord.fold]
    · simp [hindex]

omit [Planner.Rounded D] in
lemma mem_modify {f : SpeedRecord D → SpeedRecord D} {index : Nat}
    (h : record ∈ records.modify index f)
    (hfound : records[index]? = some found) : record ∈ records ∨ record = f found := by
  obtain ⟨i, hi⟩ := List.mem_iff_getElem?.mp h
  rw [List.getElem?_modify] at hi
  obtain ⟨other, hother, heq⟩ := Option.map_eq_some_iff.mp hi
  by_cases hindex : index = i
  · rw [← hindex, hfound] at hother
    rw [if_pos hindex, ← Option.some.inj hother] at heq
    exact .inr heq.symm
  · rw [if_neg hindex] at heq
    exact .inl (List.mem_iff_getElem?.mpr ⟨i, hother.trans (congrArg some heq)⟩)

lemma Bounded.eraseIdx (h : Bounded records) (index : Nat) : Bounded (records.eraseIdx index) where
  length_le := (List.length_eraseIdx_le records index).trans h.length_le
  nodup_keys := h.nodup_keys.sublist ((List.eraseIdx_sublist records index).map _)
  admitted record hrecord := h.admitted record (List.mem_of_mem_eraseIdx hrecord)
  samples_ne_zero record hrecord := h.samples_ne_zero record (List.mem_of_mem_eraseIdx hrecord)

lemma Bounded.append (h : Bounded records) (hnew : ∀ other ∈ records, other.key ≠ record.key)
    (hroom : records.length < maxSpeedRecords) (hadmitted : Greeting.admitted record.usPerGib)
    (hcount : record.samples ≠ 0) : Bounded (records ++ [record]) where
  length_le := by
    rw [List.length_append, List.length_singleton]
    exact hroom
  nodup_keys := by
    rw [List.map_append, List.map_singleton, List.nodup_append]
    refine ⟨h.nodup_keys, List.nodup_singleton _, ?_⟩
    rintro key hkey other hother rfl
    obtain ⟨found, hfound, rfl⟩ := List.mem_map.mp hkey
    exact hnew found hfound (List.mem_singleton.mp hother)
  admitted other hother := by
    rcases List.mem_append.mp hother with hother | hother
    · exact h.admitted other hother
    · exact List.mem_singleton.mp hother ▸ hadmitted
  samples_ne_zero other hother := by
    rcases List.mem_append.mp hother with hother | hother
    · exact h.samples_ne_zero other hother
    · exact List.mem_singleton.mp hother ▸ hcount

/-- One observation keeps what holds of the table. -/
lemma Bounded.observes (h : Bounded records) {records' : List (SpeedRecord D)}
    (hstep : Observes records record records') : Bounded records' := by
  cases hstep with
  | rejected => exact h
  | folded index found hfound hkey hadmitted hcount =>
    have hmem := List.mem_iff_getElem?.mpr ⟨index, hfound⟩
    refine ⟨?_, ?_, fun other hother => ?_, fun other hother => ?_⟩
    · rw [List.length_modify]
      exact h.length_le
    · rw [map_key_modify]
      exact h.nodup_keys
    · rcases mem_modify hother hfound with hother | rfl
      · exact h.admitted other hother
      · exact admitted_fold (h.admitted found hmem) (h.samples_ne_zero found hmem) hadmitted
    · rcases mem_modify hother hfound with hother | rfl
      · exact h.samples_ne_zero other hother
      · exact fold_samples_ne_zero (h.samples_ne_zero found hmem)
  | appended hnew hadmitted hcount hroom => exact h.append hnew hroom hadmitted hcount
  | evicted index found hnew hadmitted hcount hfull hfound hleast =>
    obtain ⟨hlt, -⟩ := List.getElem?_eq_some_iff.mp hfound
    refine (h.eraseIdx index).append
      (fun other hother => hnew other (List.mem_of_mem_eraseIdx hother)) ?_
      hadmitted hcount
    rw [List.length_eraseIdx_of_lt hlt]
    have := h.length_le
    omega

/-- A whole run of observations keeps it. -/
lemma bounded_observed (observations : List (SpeedRecord D)) : Bounded (observed observations) := by
  induction observations using List.reverseRecOn with
  | nil => exact ⟨Nat.zero_le _, List.nodup_nil, by simp [observed], by simp [observed]⟩
  | append_singleton observations record ih =>
    rw [observed, List.foldl_concat]
    exact ih.observes (observes_add _ record)

/-- An entry whose key is no longer there was the oldest of a full table. -/
lemma Observes.evicts {records' : List (SpeedRecord D)} (hstep : Observes records record records')
    (hfound : found ∈ records) (hgone : found.key ∉ records'.map (·.key)) :
    maxSpeedRecords ≤ records.length ∧ ∀ other ∈ records, found.updatedUnixS ≤
      other.updatedUnixS := by
  have hkey : found.key ∈ records.map (·.key) := List.mem_map.mpr ⟨found, hfound, rfl⟩
  cases hstep with
  | rejected => exact absurd hkey hgone
  | folded index first hfirst =>
    rw [map_key_modify] at hgone
    exact absurd hkey hgone
  | appended =>
    rw [List.map_append] at hgone
    exact absurd (List.mem_append_left _ hkey) hgone
  | evicted index oldest hnew hadmitted hcount hfull holdest hleast =>
    refine ⟨hfull, ?_⟩
    obtain ⟨i, hi⟩ := List.mem_iff_getElem?.mp hfound
    by_cases hindex : i = index
    · rw [hindex, holdest] at hi
      exact Option.some.inj hi ▸ hleast
    · refine absurd (List.mem_map.mpr ⟨found, List.mem_append_left _ ?_, rfl⟩) hgone
      exact List.mem_eraseIdx_iff_getElem?.mpr ⟨i, hindex, hi⟩

/-- At most one entry is given up, for a new one. -/
lemma Observes.length_le {records' : List (SpeedRecord D)}
    (hstep : Observes records record records') :
    records.length ≤ records'.length := by
  cases hstep with
  | rejected => exact le_rfl
  | folded => rw [List.length_modify]
  | appended => exact (List.sublist_append_left _ _).length_le
  | evicted index oldest hnew hadmitted hcount hfull holdest =>
    obtain ⟨hlt, -⟩ := List.getElem?_eq_some_iff.mp holdest
    rw [List.length_append, List.length_eraseIdx_of_lt hlt, List.length_singleton]
    omega

/-- What has another key is left as it was. -/
lemma Observes.mem_of_ne {records' : List (SpeedRecord D)}
    (hstep : Observes records record records')
    (hfound : found ∈ records') (hne : found.key ≠ record.key) : found ∈ records := by
  cases hstep with
  | rejected => exact hfound
  | folded index first hfirst hkey =>
    rcases mem_modify hfound hfirst with hmem | rfl
    · exact hmem
    · exact absurd hkey hne
  | appended =>
    rcases List.mem_append.mp hfound with hmem | hmem
    · exact hmem
    · exact absurd (congrArg _ (List.mem_singleton.mp hmem)) hne
  | evicted =>
    rcases List.mem_append.mp hfound with hmem | hmem
    · exact List.mem_of_mem_eraseIdx hmem
    · exact absurd (congrArg _ (List.mem_singleton.mp hmem)) hne

/-! ### Estimates -/

omit [Planner.Rounded D] in
lemma estimateSpeed_eq (records : List (SpeedRecord D)) (wanted : SpeedKey) (now : Int)
    (fallback : D) :
    estimateSpeed records wanted now fallback =
      (pick SpeedRecord.lighter (records.filter (·.comparable wanted now))).elim ⟨fallback, false⟩
        fun record => ⟨record.usPerGib, true⟩ := by
  have hkeep : (fun (best : Option (SpeedRecord D)) record => if best.all record.lighter
      then some record else best) =
      keep SpeedRecord.lighter := by
    funext best record
    cases best with
    | none => rfl
    | some best => rfl
  rw [estimateSpeed, hkeep]
  rfl

omit [Planner.Rounded D] in
lemma comparable_iff {wanted : SpeedKey} :
    record.comparable wanted now ↔ record.key.modelSha256 = wanted.modelSha256 ∧
      record.key.phase = wanted.phase ∧
      wanted.context ≤ record.key.context ∧ wanted.sessions ≤ record.key.sessions ∧
      confidentSamples ≤ record.samples ∧ now - record.updatedUnixS ≤ speedMaxAgeS := by
  simp [SpeedRecord.comparable, and_assoc]

omit [Planner.Rounded D] in
lemma lighter_iff : record.lighter found ↔ record.key.context < found.key.context ∨
    (record.key.context = found.key.context ∧ record.key.sessions < found.key.sessions) := by
  simp [SpeedRecord.lighter]

omit [Planner.Rounded D] in
lemma lighter_irrefl (record : SpeedRecord D) : ¬ record.lighter record := by
  rw [lighter_iff]
  rintro (hlt | ⟨-, hlt⟩)
  · exact UInt32.lt_irrefl _ hlt
  · exact UInt32.lt_irrefl _ hlt

omit [Planner.Rounded D] in
lemma lighter_trans (a b c : SpeedRecord D) (hab : a.lighter b) (hbc : b.lighter c) :
    a.lighter c := by
  rw [lighter_iff] at hab hbc ⊢
  rcases hab with hab | ⟨hab, hless⟩ <;> rcases hbc with hbc | ⟨hbc, hless'⟩
  · exact .inl (UInt32.lt_trans hab hbc)
  · exact .inl (hbc ▸ hab)
  · exact .inl (hab ▸ hbc)
  · exact .inr ⟨hab.trans hbc, UInt32.lt_trans hless hless'⟩

/-- What `estimate_speed` promises. -/
structure Conservative (records : List (SpeedRecord D)) (wanted : SpeedKey) (now : Int)
    (fallback : D) (estimate : SpeedEstimate D) : Prop where
  measured_iff : estimate.measured ↔ ∃ record ∈ records, record.comparable wanted now
  /-- The speed of the least context, and within it of the fewest sessions, that dominate the wanted
  ones. -/
  measured : estimate.measured → ∃ record ∈ records, estimate.usPerGib = record.usPerGib ∧
    record.key.modelSha256 = wanted.modelSha256 ∧ record.key.phase = wanted.phase ∧
    wanted.context ≤ record.key.context ∧ wanted.sessions ≤ record.key.sessions ∧
    confidentSamples ≤ record.samples ∧ now - record.updatedUnixS ≤ speedMaxAgeS ∧
    ∀ other ∈ records, other.comparable wanted now → record.key.context < other.key.context ∨
      (record.key.context = other.key.context ∧ record.key.sessions ≤ other.key.sessions)
  unmeasured : ¬ estimate.measured → estimate.usPerGib = fallback

omit [Planner.Rounded D] in
lemma conservative_estimateSpeed (records : List (SpeedRecord D)) (wanted : SpeedKey) (now : Int)
    (fallback : D) :
    Conservative records wanted now fallback (estimateSpeed records wanted now fallback) := by
  rw [estimateSpeed_eq]
  cases hbest : pick SpeedRecord.lighter (records.filter (·.comparable wanted now)) with
  | none =>
    have hnone := List.filter_eq_nil_iff.mp (pick_eq_none.mp hbest)
    refine ⟨⟨fun h => absurd h Bool.false_ne_true, ?_⟩, fun h => absurd h Bool.false_ne_true,
      fun _ => rfl⟩
    rintro ⟨record, hrecord, hcomparable⟩
    exact absurd hcomparable (hnone record hrecord)
  | some record =>
    obtain ⟨hrecord, hcomparable⟩ := List.mem_filter.mp (pick_mem hbest)
    obtain ⟨hmodel, hphase, hcontext, hsessions, hsamples, hage⟩ := comparable_iff.mp hcomparable
    refine ⟨⟨fun _ => ⟨record, hrecord, hcomparable⟩, fun _ => rfl⟩, fun _ => ?_,
      fun h => absurd rfl h⟩
    refine ⟨record, hrecord, rfl, hmodel, hphase, hcontext, hsessions, hsamples, hage,
      fun other hother hcomp => ?_⟩
    have hnot :=
      not_better_of_pick lighter_irrefl lighter_trans hbest (List.mem_filter.mpr ⟨hother, hcomp⟩)
    rw [lighter_iff, not_or, not_and, UInt32.not_lt, UInt32.not_lt] at hnot
    rcases UInt32.lt_or_eq_of_le hnot.1 with hlt | heq
    · exact .inl hlt
    · exact .inr ⟨heq, hnot.2 heq.symm⟩

/-! ### Bounded and conservative -/

/-- After any observations the table is bounded, the next one gives up the oldest entry of a full
table at most, and estimates are those of entries that can stand in. -/
theorem speeds_bounded_conservative (observations : List (SpeedRecord D)) :
    Bounded (observed observations) ∧
    (∀ record, (∀ found ∈
      observed observations, found.key ∉ (add (observed observations) record).map (·.key) →
        maxSpeedRecords ≤ (observed observations).length ∧
          ∀ other ∈ observed observations, found.updatedUnixS ≤ other.updatedUnixS) ∧
      (observed observations).length ≤ (add (observed observations) record).length ∧
      ∀ kept ∈ add (observed observations) record, kept.key ≠ record.key →
        kept ∈ observed observations) ∧
    ∀ (records : List (SpeedRecord D)) wanted now fallback, Conservative records wanted now fallback
      (estimateSpeed records wanted now fallback) := by
  refine ⟨bounded_observed observations, fun record => ⟨fun found => ?_, ?_, fun kept => ?_⟩,
    conservative_estimateSpeed⟩
  · exact (observes_add _ record).evicts
  · exact (observes_add _ record).length_le
  · exact (observes_add _ record).mem_of_ne

end

end ProviderOwned.Greeting
