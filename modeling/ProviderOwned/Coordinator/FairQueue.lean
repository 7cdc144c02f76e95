import ProviderOwned.Lib.Keyed

/-!
# The fair queue

`FairQueue` of `fair_queue.hpp`: a line of values for each key, and the keys with a line in the
order in which they are served. Every function is one critical section.

What an operation does to the values that are queued is said of `items`, all the lines together:
every operation adds one value or takes values out, and keeps the rest.
-/

namespace ProviderOwned

/-- `class FairQueue`. The map of the lines is a list, each line with its key, in the order in which
the map is iterated. -/
structure FairQueue (α : Type*) where
  capacity : Nat
  queues : List (Nat × List α) := []
  ready : List Nat := []
  size : Nat := 0
  closed : Bool := false

namespace FairQueue

variable {α : Type*}

def line (queues : List (Nat × List α)) (key : Nat) : List α :=
  ((queues.find? (·.1 = key)).map Prod.snd).getD []

/-- Puts the line of a key into the map. A line that is empty is erased. -/
def setLine (queues : List (Nat × List α)) (key : Nat) (values : List α) : List (Nat × List α) :=
  if values.isEmpty then queues.filter (·.1 ≠ key)
  else if queues.any (·.1 = key) then queues.map fun e => if e.1 = key then (e.1, values) else e
  else queues ++ [(key, values)]

def push (q : FairQueue α) (key : Nat) (value : α) : Option (FairQueue α) :=
  if q.closed ∨ q.capacity ≤ q.size then none
  else some { q with
    queues := setLine q.queues key (line q.queues key ++ [value])
    ready := if (line q.queues key).isEmpty then q.ready ++ [key] else q.ready
    size := q.size + 1 }

/-- The loop of `pop_locked`, with the keys that are still ready. -/
def popFrom (q : FairQueue α) : List Nat → Option α × FairQueue α
  | [] => (none, { q with ready := [] })
  | key :: ready =>
    match line q.queues key with
    | [] => q.popFrom ready
    | value :: rest => (some value, { q with
        queues := setLine q.queues key rest
        ready := if rest.isEmpty then ready else ready ++ [key]
        size := q.size - 1 })

def popLocked (q : FairQueue α) : Option α × FairQueue α := q.popFrom q.ready

def removeIf (q : FairQueue α) (predicate : α → Bool) : Option α × FairQueue α :=
  match q.queues.find? (·.2.any predicate) with
  | none => (none, q)
  | some (key, values) =>
    let rest := values.eraseP predicate
    (values.find? predicate, { q with
      queues := setLine q.queues key rest
      ready := if rest.isEmpty then q.ready.filter (· ≠ key) else q.ready
      size := q.size - 1 })

def drain (q : FairQueue α) : List α × FairQueue α :=
  (q.queues.flatMap Prod.snd, { q with queues := [], ready := [], size := 0 })

def close (q : FairQueue α) : List α × FairQueue α := { q with closed := true }.drain

/-! ### What is queued -/

def items (q : FairQueue α) : List α := q.queues.flatMap Prod.snd

/-- What every operation keeps. -/
structure Valid (q : FairQueue α) : Prop where
  keys : (q.queues.map Prod.fst).Nodup
  lines : ∀ e ∈ q.queues, e.2 ≠ []
  nodup : q.ready.Nodup
  ready : ∀ key, key ∈ q.ready ↔ line q.queues key ≠ []
  size : q.size = q.items.length
  bound : q.size ≤ q.capacity
  closed : q.closed → q.items = []

variable {q q' : FairQueue α} {queues : List (Nat × List α)} {key : Nat} {value : α}
  {values : List α}

/-- Erasing the value that is found. -/
lemma perm_eraseP {predicate : α → Bool} (h : values.find? predicate = some value) :
    values.Perm (value :: values.eraseP predicate) := by
  induction values with
  | nil => simp at h
  | cons first rest ih =>
    by_cases hp : predicate first
    · rw [List.find?_cons_of_pos hp] at h
      obtain rfl := Option.some.inj h
      rw [List.eraseP_cons_of_pos hp]
    · rw [List.find?_cons_of_neg hp] at h
      rw [List.eraseP_cons_of_neg hp]
      exact ((ih h).cons first).trans (List.Perm.swap value first _)

lemma line_eq_of_mem (hkeys : (queues.map Prod.fst).Nodup) (he : (key, values) ∈ queues) :
    line queues key = values := by
  rw [line, @Keyed.find?_eq _ _ _ Prod.fst _ _ hkeys he]
  rfl

lemma line_eq_nil (hkey : key ∉ queues.map Prod.fst) : line queues key = [] := by
  rw [line, List.find?_eq_none.mpr ?_]
  · rfl
  · intro e he
    simp only [decide_eq_true_eq]
    rintro rfl
    exact hkey (List.mem_map_of_mem he)

/-- The lines are the line of a key and the others. -/
lemma flatMap_perm (hkeys : (queues.map Prod.fst).Nodup) (key : Nat) :
    (queues.flatMap Prod.snd).Perm
      (line queues key ++ (queues.filter (·.1 ≠ key)).flatMap Prod.snd) := by
  by_cases hkey : key ∈ queues.map Prod.fst
  · obtain ⟨⟨k, values⟩, he, rfl⟩ := List.mem_map.mp hkey
    rw [line_eq_of_mem hkeys he]
    exact (@Keyed.perm_erase _ _ _ Prod.fst _ _ hkeys he).flatMap_right Prod.snd
  · have hsame : queues.filter (·.1 ≠ key) = queues := by
      refine List.filter_eq_self.mpr fun e he => ?_
      simp only [decide_eq_true_eq]
      rintro rfl
      exact hkey (List.mem_map_of_mem he)
    rw [line_eq_nil hkey, hsame, List.nil_append]

lemma setLine_perm (hkeys : (queues.map Prod.fst).Nodup) (key : Nat) (values : List α) :
    (setLine queues key values).Perm
      ((if values.isEmpty then [] else [(key, values)]) ++ queues.filter (·.1 ≠ key)) := by
  unfold setLine
  by_cases hempty : values.isEmpty
  · rw [if_pos hempty, if_pos hempty, List.nil_append]
  · rw [if_neg hempty, if_neg hempty, List.singleton_append]
    by_cases hany : queues.any (·.1 = key)
    · rw [if_pos hany]
      obtain ⟨⟨k, old⟩, he, hk⟩ := List.any_eq_true.mp hany
      obtain rfl : k = key := by simpa using hk
      exact @Keyed.perm_modify _ _ _ Prod.fst _ _ hkeys he fun e => (e.1, values)
    · have hsame : queues.filter (·.1 ≠ key) = queues := by
        refine List.filter_eq_self.mpr fun e he => ?_
        simp only [decide_eq_true_eq]
        intro heq
        exact hany (List.any_eq_true.mpr ⟨e, he, by simpa using heq⟩)
      rw [if_neg hany, hsame]
      exact List.perm_append_singleton _ _

lemma setLine_keys (hkeys : (queues.map Prod.fst).Nodup) (key : Nat) (values : List α) :
    ((setLine queues key values).map Prod.fst).Nodup := by
  have hothers : ((queues.filter (·.1 ≠ key)).map Prod.fst).Nodup := Keyed.nodup_filter hkeys _
  refine ((setLine_perm hkeys key values).map Prod.fst).nodup_iff.mpr ?_
  split_ifs
  · exact hothers
  · refine List.nodup_cons.mpr ⟨?_, hothers⟩
    simp

lemma setLine_items (hkeys : (queues.map Prod.fst).Nodup) (key : Nat) (values : List α) :
    ((setLine queues key values).flatMap Prod.snd).Perm
      (values ++ (queues.filter (·.1 ≠ key)).flatMap Prod.snd) := by
  refine ((setLine_perm hkeys key values).flatMap_right Prod.snd).trans (List.Perm.of_eq ?_)
  cases values <;> simp

lemma line_setLine (hkeys : (queues.map Prod.fst).Nodup) (k : Nat) :
    line (setLine queues key values) k = if k = key then values else line queues k := by
  have hperm := setLine_perm hkeys key values
  have hkeys' := setLine_keys hkeys key values
  by_cases hk : k = key
  · subst hk
    rw [if_pos rfl]
    cases values with
    | nil =>
      refine line_eq_nil fun hmem => ?_
      simpa using ((hperm.map Prod.fst).mem_iff.mp hmem)
    | cons value rest =>
      exact line_eq_of_mem hkeys' (hperm.mem_iff.mpr (by simp))
  · rw [if_neg hk]
    by_cases hmem : k ∈ queues.map Prod.fst
    · obtain ⟨⟨k, old⟩, he, rfl⟩ := List.mem_map.mp hmem
      rw [line_eq_of_mem hkeys he]
      refine line_eq_of_mem hkeys' (hperm.mem_iff.mpr (List.mem_append_right _ ?_))
      exact List.mem_filter.mpr ⟨he, by simpa using hk⟩
    · rw [line_eq_nil hmem]
      refine line_eq_nil fun hmem' => hmem ?_
      obtain ⟨e, he, rfl⟩ := List.mem_map.mp hmem'
      rcases List.mem_append.mp (hperm.mem_iff.mp he) with hnew | hold
      · split_ifs at hnew
        · simp at hnew
        · exact absurd (congrArg Prod.fst (List.mem_singleton.mp hnew)) hk
      · exact List.mem_map_of_mem (List.mem_filter.mp hold).1

/-- A line of a queue changes. -/
lemma Valid.setLine {ready : List Nat} {size : Nat} (h : q.Valid) (hnodup : ready.Nodup)
    (hready : ∀ k, k ∈ ready ↔ if k = key then values ≠ [] else k ∈ q.ready)
    (hsize : size + (line q.queues key).length = q.size + values.length)
    (hbound : size ≤ q.capacity)
    (hclosed : q.closed = false ∨ values.length ≤ (line q.queues key).length) :
    Valid { q with queues := setLine q.queues key values, ready, size } := by
  have hitems := setLine_items h.keys key values
  have hold := flatMap_perm h.keys key
  constructor
  · exact setLine_keys h.keys key values
  · intro e he
    rcases List.mem_append.mp ((setLine_perm h.keys key values).mem_iff.mp he) with hnew | hrest
    · split_ifs at hnew with hempty
      · simp at hnew
      · rw [List.mem_singleton.mp hnew]
        simpa using hempty
    · exact h.lines e (List.mem_filter.mp hrest).1
  · exact hnodup
  · intro k
    rw [hready k, line_setLine h.keys k]
    split_ifs
    · rfl
    · exact h.ready k
  · have hlength := hitems.length_eq
    have hlength' := hold.length_eq
    have := h.size
    simp only [List.length_append] at hlength hlength'
    simp only [items] at this ⊢
    omega
  · exact hbound
  · intro hq
    have hempty := h.closed hq
    have hlength' := hold.length_eq
    have hlength := hitems.length_eq
    rcases hclosed with hopen | hle
    · rw [hopen] at hq
      contradiction
    · rw [List.length_append] at hlength hlength'
      simp only [items] at hempty ⊢
      rw [hempty, List.length_nil] at hlength'
      refine List.eq_nil_of_length_eq_zero ?_
      omega

lemma push_spec (h : q.Valid) (hpush : q.push key value = some q') :
    q'.Valid ∧ q'.items.Perm (value :: q.items) := by
  unfold push at hpush
  by_cases hrefused : q.closed ∨ q.capacity ≤ q.size
  · simp [hrefused] at hpush
  rw [if_neg hrefused] at hpush
  obtain rfl := Option.some.inj hpush
  simp only [not_or, Bool.not_eq_true] at hrefused
  refine ⟨h.setLine ?_ ?_ ?_ (Nat.lt_of_not_le hrefused.2) (.inl hrefused.1), ?_⟩
  · split_ifs with hempty
    · refine List.nodup_append.mpr ⟨h.nodup, by simp, fun k hk k' hk' => ?_⟩
      rw [List.mem_singleton.mp hk']
      rintro rfl
      exact (h.ready k).mp hk (by simpa using hempty)
    · exact h.nodup
  · intro k
    by_cases hk : k = key
    · subst hk
      rw [if_pos rfl]
      split_ifs with hempty
      · simp
      · simpa [h.ready k] using hempty
    · rw [if_neg hk]
      split_ifs <;> simp [hk]
  · simp only [List.length_append, List.length_singleton]
    omega
  · refine (setLine_items h.keys _ _).trans ?_
    refine List.Perm.trans ?_ ((flatMap_perm h.keys key).symm.cons value)
    rw [List.append_assoc]
    exact List.perm_middle

lemma pop_none (h : q.Valid) (hpop : q.popLocked = (none, q')) :
    q'.Valid ∧ q.items = [] ∧ q'.items = [] := by
  unfold popLocked at hpop
  cases hready : q.ready with
  | nil =>
    have hnil : q.queues = [] := by
      refine List.eq_nil_iff_forall_not_mem.mpr fun e he => ?_
      have hline := line_eq_of_mem h.keys (show (e.1, e.2) ∈ q.queues from he)
      have hmem := (h.ready e.1).mpr (hline ▸ h.lines e he)
      simp [hready] at hmem
    rw [hready, popFrom] at hpop
    obtain rfl := (Prod.mk.inj hpop).2
    have hitems : q.items = [] := by simp [items, hnil]
    refine ⟨⟨h.keys, h.lines, List.nodup_nil, fun k => ?_, h.size, h.bound, h.closed⟩, hitems,
      hitems⟩
    rw [← hready]
    exact h.ready k
  | cons key ready =>
    have hline := (h.ready key).mp (by simp [hready])
    rw [hready, popFrom] at hpop
    cases hcase : line q.queues key with
    | nil => exact absurd hcase hline
    | cons value rest => simp [hcase] at hpop

lemma pop_some (h : q.Valid) (hpop : q.popLocked = (some value, q')) :
    q'.Valid ∧ q.items.Perm (value :: q'.items) := by
  unfold popLocked at hpop
  cases hready : q.ready with
  | nil => simp [hready, popFrom] at hpop
  | cons key ready =>
    have hnodup := h.nodup
    rw [hready] at hnodup
    obtain ⟨hnot, hnodup⟩ := List.nodup_cons.mp hnodup
    rw [hready, popFrom] at hpop
    cases hcase : line q.queues key with
    | nil => exact absurd hcase ((h.ready key).mp (by simp [hready]))
    | cons first rest =>
      simp only [hcase] at hpop
      obtain ⟨hvalue, rfl⟩ := Prod.mk.inj hpop
      obtain rfl := Option.some.inj hvalue
      have hitems :
          q.items.Perm (first :: (rest ++ (q.queues.filter (·.1 ≠ key)).flatMap Prod.snd)) := by
        have hperm := flatMap_perm h.keys key
        rw [hcase] at hperm
        exact hperm
      have hpos := hitems.length_eq
      have hsize := h.size
      simp only [List.length_cons] at hpos
      refine ⟨h.setLine ?_ ?_ ?_ ?_ (.inr ?_), ?_⟩
      · split_ifs
        · exact hnodup
        · refine List.nodup_append.mpr ⟨hnodup, by simp, fun k hk k' hk' => ?_⟩
          rw [List.mem_singleton.mp hk']
          rintro rfl
          exact hnot hk
      · intro k
        rw [hready]
        by_cases hk : k = key
        · subst hk
          rw [if_pos rfl]
          cases rest <;> simp [hnot]
        · rw [if_neg hk]
          split_ifs <;> simp [hk]
      · simp only [hcase, List.length_cons]
        omega
      · have := h.bound
        omega
      · simp [hcase]
      · exact hitems.trans ((setLine_items h.keys _ _).symm.cons first)

lemma removeIf_none {predicate : α → Bool} (hremove : q.removeIf predicate = (none, q')) :
    q' = q ∧ ∀ value ∈ q.items, predicate value = false := by
  unfold removeIf at hremove
  cases hfind : q.queues.find? (·.2.any predicate) with
  | none =>
    rw [hfind] at hremove
    refine ⟨(Prod.mk.inj hremove).2.symm, fun value hvalue => ?_⟩
    obtain ⟨e, he, hmem⟩ := List.mem_flatMap.mp hvalue
    have hnot := List.find?_eq_none.mp hfind e he
    simp only [List.any_eq_true, not_exists, not_and, Bool.not_eq_true] at hnot
    exact hnot value hmem
  | some e =>
    obtain ⟨key, values⟩ := e
    rw [hfind] at hremove
    have hany := List.find?_some hfind
    obtain ⟨value, hvalue, hp⟩ := List.any_eq_true.mp hany
    exact absurd hp (List.find?_eq_none.mp (Prod.mk.inj hremove).1 value hvalue)

lemma removeIf_some {predicate : α → Bool} (h : q.Valid)
    (hremove : q.removeIf predicate = (some value, q')) :
    q'.Valid ∧ predicate value ∧ q.items.Perm (value :: q'.items) := by
  unfold removeIf at hremove
  cases hfind : q.queues.find? (·.2.any predicate) with
  | none => simp [hfind] at hremove
  | some e =>
    obtain ⟨key, values⟩ := e
    rw [hfind] at hremove
    obtain ⟨hvalue, rfl⟩ := Prod.mk.inj hremove
    have hline := line_eq_of_mem h.keys (List.mem_of_find?_eq_some hfind)
    have hp := List.find?_some hvalue
    have hmem := List.mem_of_find?_eq_some hvalue
    have hperm := perm_eraseP hvalue
    have hlength := hperm.length_eq
    have hitems := flatMap_perm h.keys key
    rw [hline] at hitems
    have hpos := hitems.length_eq
    have hsize := h.size
    simp only [List.length_cons, List.length_append] at hpos hlength
    refine ⟨h.setLine ?_ ?_ ?_ ?_ (.inr ?_), hp, ?_⟩
    · split_ifs
      · exact h.nodup.filter _
      · exact h.nodup
    · intro k
      by_cases hk : k = key
      · subst hk
        rw [if_pos rfl]
        have hne : values ≠ [] := List.ne_nil_of_mem hmem
        cases hrest : values.eraseP predicate <;> simp [h.ready k, hline, hne]
      · rw [if_neg hk]
        split_ifs <;> simp [hk]
    · rw [hline]
      simp only [items] at hsize
      omega
    · have := h.bound
      omega
    · rw [hline]
      omega
    · refine hitems.trans ?_
      refine (hperm.append_right _).trans ?_
      exact (setLine_items h.keys _ _).symm.cons value

lemma drain_spec : q.drain.2.Valid ∧ q.drain.1 = q.items ∧ q.drain.2.items = [] := by
  refine ⟨?_, rfl, rfl⟩
  constructor <;> simp [drain, line, items]

lemma close_spec :
    q.close.2.Valid ∧ q.close.1 = q.items ∧ q.close.2.items = [] ∧ q.close.2.closed = true := by
  refine ⟨?_, rfl, rfl, rfl⟩
  constructor <;> simp [close, drain, line, items]

lemma push_closed (hpush : q.push key value = some q') : q'.closed = q.closed := by
  unfold push at hpush
  split_ifs at hpush
  all_goals
    obtain rfl := Option.some.inj hpush
    rfl

lemma pop_closed : q.popLocked.2.closed = q.closed := by
  unfold popLocked
  generalize q.ready = ready
  induction ready with
  | nil => rfl
  | cons key ready ih =>
    rw [popFrom]
    split
    · exact ih
    · rfl

lemma removeIf_closed {predicate : α → Bool} : (q.removeIf predicate).2.closed = q.closed := by
  unfold removeIf
  split <;> rfl

lemma push_capacity (hpush : q.push key value = some q') : q'.capacity = q.capacity := by
  unfold push at hpush
  split_ifs at hpush
  all_goals
    obtain rfl := Option.some.inj hpush
    rfl

lemma pop_capacity : q.popLocked.2.capacity = q.capacity := by
  unfold popLocked
  generalize q.ready = ready
  induction ready with
  | nil => rfl
  | cons key ready ih =>
    rw [popFrom]
    split
    · exact ih
    · rfl

lemma removeIf_capacity {predicate : α → Bool} :
    (q.removeIf predicate).2.capacity = q.capacity := by
  unfold removeIf
  split <;> rfl

end FairQueue

end ProviderOwned
