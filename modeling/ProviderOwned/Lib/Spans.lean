import Mathlib.Algebra.BigOperators.Group.List.Basic
import Mathlib.Algebra.GroupWithZero.Nat
import Mathlib.Tactic.Common

/-!
# Spans of positions

Lists of half-open spans of natural numbers: the positions they cover, their total length, and what
it means that they are in order and disjoint (`Ordered`) or in order and not even touching
(`Apart`). Joining touching neighbours (`coalesce`) and cutting into pieces of a limited size
(`chunks`) change neither the positions nor the total.
-/

namespace Spans

/-- The positions from `start` on, `size` of them. -/
structure Span where
  start : Nat
  size : Nat
  deriving DecidableEq, Repr

def Span.finish (s : Span) : Nat := s.start + s.size

/-- The position is in one of the spans. -/
def Covers (l : List Span) (x : Nat) : Prop := ∃ s ∈ l, s.start ≤ x ∧ x < s.finish

def total (l : List Span) : Nat := (l.map Span.size).sum

/-- No span is empty and each begins where the one before it ends, or later. -/
def Ordered (l : List Span) : Prop :=
  l.Pairwise (fun a b => a.finish ≤ b.start) ∧ ∀ s ∈ l, 0 < s.size

/-- No span is empty and each begins after the one before it ends, with a gap between them. -/
def Apart (l : List Span) : Prop :=
  l.Pairwise (fun a b => a.finish < b.start) ∧ ∀ s ∈ l, 0 < s.size

variable {s t : Span} {l : List Span} {x limit : Nat}

lemma Apart.ordered (h : Apart l) : Ordered l :=
  ⟨h.1.imp Nat.le_of_lt, h.2⟩

lemma ordered_nil : Ordered [] := ⟨List.Pairwise.nil, fun _ h => absurd h List.not_mem_nil⟩

lemma ordered_cons : Ordered (s :: l) ↔ (∀ t ∈ l, s.finish ≤ t.start) ∧ 0 < s.size ∧ Ordered l := by
  simp only [Ordered, List.pairwise_cons, List.forall_mem_cons]
  tauto

lemma apart_cons : Apart (s :: l) ↔ (∀ t ∈ l, s.finish < t.start) ∧ 0 < s.size ∧ Apart l := by
  simp only [Apart, List.pairwise_cons, List.forall_mem_cons]
  tauto

lemma Ordered.sublist {l' : List Span} (h : Ordered l) (hsub : l'.Sublist l) : Ordered l' :=
  ⟨h.1.sublist hsub, fun s hs => h.2 s (hsub.subset hs)⟩

lemma ordered_append {l' : List Span} (hl : Ordered l) (hl' : Ordered l')
    (h : ∀ a ∈ l, ∀ b ∈ l', a.finish ≤ b.start) : Ordered (l ++ l') :=
  ⟨List.pairwise_append.mpr ⟨hl.1, hl'.1, h⟩,
    fun s hs => (List.mem_append.mp hs).elim (hl.2 s) (hl'.2 s)⟩

@[simp] lemma not_covers_nil : ¬ Covers [] x := by simp [Covers]

@[simp] lemma covers_cons : Covers (s :: l) x ↔ (s.start ≤ x ∧ x < s.finish) ∨ Covers l x := by
  simp [Covers]

@[simp] lemma covers_append {l' : List Span} : Covers (l ++ l') x ↔ Covers l x ∨ Covers l' x := by
  simp only [Covers, List.mem_append]
  constructor
  · rintro ⟨s, hs | hs, hx⟩
    · exact .inl ⟨s, hs, hx⟩
    · exact .inr ⟨s, hs, hx⟩
  · rintro (⟨s, hs, hx⟩ | ⟨s, hs, hx⟩)
    · exact ⟨s, .inl hs, hx⟩
    · exact ⟨s, .inr hs, hx⟩

@[simp] lemma total_nil : total [] = 0 := rfl

@[simp] lemma total_cons : total (s :: l) = s.size + total l := by simp [total]

/-- Disjoint spans between two positions are no longer than what lies between. -/
lemma Ordered.total_le {a b : Nat} (h : Ordered l) (hab : a ≤ b)
    (hin : ∀ s ∈ l, a ≤ s.start ∧ s.finish ≤ b) : total l ≤ b - a := by
  induction l generalizing a with
  | nil => exact Nat.zero_le _
  | cons s l ih =>
    obtain ⟨hafter, -, hl⟩ := ordered_cons.mp h
    obtain ⟨hs, hrest⟩ := List.forall_mem_cons.mp hin
    have htotal := ih hl hs.2 fun t ht => ⟨hafter t ht, (hrest t ht).2⟩
    rw [total_cons]
    simp only [Span.finish] at hs htotal
    omega

/-! ### Joining neighbours -/

/-- `s` and the spans after it, where a span that begins at the end of the last one is joined to
it. -/
def coalesce (s : Span) : List Span → List Span
  | [] => [s]
  | t :: l => if s.finish = t.start then coalesce ⟨s.start, s.size + t.size⟩ l
    else s :: coalesce t l

lemma Ordered.join (h : Ordered (s :: t :: l)) (htouch : s.finish = t.start) :
    Ordered (⟨s.start, s.size + t.size⟩ :: l) := by
  obtain ⟨-, hs, ht⟩ := ordered_cons.mp h
  obtain ⟨hafter, htpos, hl⟩ := ordered_cons.mp ht
  refine ordered_cons.mpr ⟨fun u hu => ?_, Nat.add_pos_left hs _, hl⟩
  have hle : t.finish ≤ u.start := hafter u hu
  simp only [Span.finish] at htouch hle ⊢
  omega

lemma start_le_of_mem_coalesce (h : Ordered (s :: l)) :
    ∀ u ∈ coalesce s l, s.start ≤ u.start := by
  induction l generalizing s with
  | nil =>
    intro u hu
    exact Nat.le_of_eq (congrArg Span.start (List.mem_singleton.mp hu).symm)
  | cons t l ih =>
    rw [coalesce]
    split_ifs with htouch
    · exact ih (h.join htouch)
    · intro u hu
      obtain ⟨hafter, -, ht⟩ := ordered_cons.mp h
      rcases List.mem_cons.mp hu with rfl | hu
      · exact Nat.le_refl _
      · have hle : s.finish ≤ t.start := hafter t List.mem_cons_self
        exact Nat.le_trans (Nat.le_add_right _ _) (Nat.le_trans hle (ih ht u hu))

/-- Spans in order are apart once neighbours are joined. -/
lemma apart_coalesce (h : Ordered (s :: l)) : Apart (coalesce s l) := by
  induction l generalizing s with
  | nil =>
    refine apart_cons.mpr ⟨fun t ht => absurd ht List.not_mem_nil, (ordered_cons.mp h).2.1, ?_⟩
    exact ⟨List.Pairwise.nil, fun _ ht => absurd ht List.not_mem_nil⟩
  | cons t l ih =>
    rw [coalesce]
    split_ifs with htouch
    · exact ih (h.join htouch)
    · obtain ⟨hafter, hs, ht⟩ := ordered_cons.mp h
      refine apart_cons.mpr ⟨fun u hu => ?_, hs, ih ht⟩
      have hlt : s.finish < t.start := Nat.lt_of_le_of_ne (hafter t List.mem_cons_self) htouch
      exact Nat.lt_of_lt_of_le hlt (start_le_of_mem_coalesce ht u hu)

@[simp] lemma covers_coalesce : Covers (coalesce s l) x ↔ Covers (s :: l) x := by
  induction l generalizing s with
  | nil => rfl
  | cons t l ih =>
    rw [coalesce]
    split_ifs with htouch
    · rw [ih]
      simp only [covers_cons, Span.finish] at htouch ⊢
      constructor
      · rintro (hx | hx)
        · by_cases hbefore : x < s.start + s.size
          · exact .inl ⟨hx.1, hbefore⟩
          · exact .inr (.inl (by omega))
        · exact .inr (.inr hx)
      · rintro (hx | hx | hx)
        · exact .inl (by omega)
        · exact .inl (by omega)
        · exact .inr hx
    · simp only [covers_cons, ih]

@[simp] lemma total_coalesce : total (coalesce s l) = total (s :: l) := by
  induction l generalizing s with
  | nil => rfl
  | cons t l ih =>
    rw [coalesce]
    split_ifs
    · rw [ih]
      simp only [total_cons]
      omega
    · simp only [total_cons, ih]

/-! ### Cutting into pieces -/

/-- Pieces of `limit` positions, the last of what is left; `fuel` bounds their number. -/
def chunksFrom (limit : Nat) : Nat → Nat → Nat → List Span
  | 0, _, _ => []
  | fuel + 1, start, size =>
    if size = 0 then []
    else ⟨start, min limit size⟩ ::
      chunksFrom limit fuel (start + min limit size) (size - min limit size)

def chunks (limit : Nat) (s : Span) : List Span := chunksFrom limit s.size s.start s.size

/-- The pieces are in order, of limited size, within the span, and cover all of it. -/
structure Cuts (limit : Nat) (s : Span) (pieces : List Span) : Prop where
  ordered : Ordered pieces
  inside : ∀ p ∈ pieces, s.start ≤ p.start ∧ p.finish ≤ s.finish
  limited : ∀ p ∈ pieces, p.size ≤ limit
  total : total pieces = s.size
  covers : ∀ x, Covers pieces x ↔ s.start ≤ x ∧ x < s.finish

lemma chunksFrom_cuts (hlimit : 0 < limit) {fuel start size : Nat} (hfuel : size ≤ fuel) :
    Cuts limit ⟨start, size⟩ (chunksFrom limit fuel start size) := by
  induction fuel generalizing start size with
  | zero =>
    obtain rfl := Nat.le_zero.mp hfuel
    constructor
    · exact ordered_nil
    · exact fun p hp => absurd hp List.not_mem_nil
    · exact fun p hp => absurd hp List.not_mem_nil
    · rfl
    · intro x
      simp only [chunksFrom, not_covers_nil, Span.finish, false_iff]
      omega
  | succ fuel ih =>
    rw [chunksFrom]
    split_ifs with hempty
    · subst hempty
      constructor
      · exact ordered_nil
      · exact fun p hp => absurd hp List.not_mem_nil
      · exact fun p hp => absurd hp List.not_mem_nil
      · rfl
      · intro x
        simp only [not_covers_nil, Span.finish, false_iff]
        omega
    · have hrest := @ih (start + min limit size) (size - min limit size) (by omega)
      have hinside := hrest.inside
      simp only [Span.finish] at hinside
      constructor
      · refine ordered_cons.mpr ⟨fun p hp => (hinside p hp).1, ?_, hrest.ordered⟩
        simp only
        omega
      · refine List.forall_mem_cons.mpr ⟨?_, fun p hp => ?_⟩
        · simp only [Span.finish]
          omega
        · have hp' := hinside p hp
          simp only [Span.finish]
          omega
      · exact List.forall_mem_cons.mpr ⟨Nat.min_le_left _ _, hrest.limited⟩
      · rw [total_cons, hrest.total]
        simp only
        omega
      · intro x
        rw [covers_cons, hrest.covers]
        simp only [Span.finish]
        omega

lemma chunks_cuts (hlimit : 0 < limit) (s : Span) : Cuts limit s (chunks limit s) :=
  chunksFrom_cuts hlimit (Nat.le_refl _)

/-- Cutting every span of a list. -/
lemma covers_flatMap_chunks (hlimit : 0 < limit) :
    Covers (l.flatMap (chunks limit)) x ↔ Covers l x := by
  induction l with
  | nil => rfl
  | cons s l ih => rw [List.flatMap_cons, covers_append, ih, (chunks_cuts hlimit s).covers,
      covers_cons]

lemma ordered_flatMap_chunks (hlimit : 0 < limit) (h : Ordered l) :
    Ordered (l.flatMap (chunks limit)) := by
  induction l with
  | nil => exact ordered_nil
  | cons s l ih =>
    obtain ⟨hafter, -, hl⟩ := ordered_cons.mp h
    refine ordered_append (chunks_cuts hlimit s).ordered (ih hl) fun p hp q hq => ?_
    obtain ⟨t, ht, hqt⟩ := List.mem_flatMap.mp hq
    calc p.finish ≤ s.finish := ((chunks_cuts hlimit s).inside p hp).2
      _ ≤ t.start := hafter t ht
      _ ≤ q.start := ((chunks_cuts hlimit t).inside q hqt).1

end Spans
