import Mathlib.Data.List.Basic
import Mathlib.Tactic.Common

/-!
# Streams that arrive in segments

A stream of values as the segments in which it arrives. A read takes what it may of the next segment
(`read`), so reads come back short wherever a segment ends; a reader that goes on until it has what
it asked for (`readUpTo`) sees the stream and not its segments.
-/

namespace Segments

variable {α : Type*} {limit most fuel size : Nat} {segments : List (List α)}

/-- One read of at most `limit` values. It gives nothing only where the stream has ended. -/
def read (limit : Nat) : List (List α) → List α × List (List α)
  | [] => ([], [])
  | [] :: segments => read limit segments
  | (a :: segment) :: segments => ((a :: segment).take limit, (a :: segment).drop limit :: segments)

/-- Reads of at most `most` values each until there are `size` of them or the stream ends. -/
def readUpTo (most : Nat) : Nat → Nat → List (List α) → List α × List (List α)
  | 0, _, segments => ([], segments)
  | fuel + 1, size, segments =>
    if size = 0 then ([], segments)
    else match read (min size most) segments with
      | ([], rest) => ([], rest)
      | (values, rest) =>
        let (more, left) := readUpTo most fuel (size - values.length) rest
        (values ++ more, left)

lemma read_flatten (limit : Nat) (segments : List (List α)) :
    (read limit segments).1 ++ (read limit segments).2.flatten = segments.flatten := by
  induction segments with
  | nil => rfl
  | cons segment segments ih =>
    cases segment with
    | nil => exact ih
    | cons a segment =>
      rw [read, List.flatten_cons, List.flatten_cons, ← List.append_assoc, List.take_append_drop]

lemma length_read_le (limit : Nat) (segments : List (List α)) :
    (read limit segments).1.length ≤ limit := by
  induction segments with
  | nil => exact Nat.zero_le _
  | cons segment segments ih =>
    cases segment with
    | nil => exact ih
    | cons a segment => exact List.length_take_le _ _

lemma flatten_eq_nil_of_read (hlimit : 0 < limit) (h : (read limit segments).1 = []) :
    segments.flatten = [] := by
  induction segments with
  | nil => rfl
  | cons segment segments ih =>
    cases segment with
    | nil => exact ih h
    | cons a segment =>
      rw [read, List.take_eq_nil_iff] at h
      rcases h with h | h
      · omega
      · cases h

/-- Read until it is there, the next part of a stream does not depend on its segments. -/
lemma readUpTo_spec (hmost : 0 < most) (hfuel : size ≤ fuel) (segments : List (List α)) :
    (readUpTo most fuel size segments).1 = segments.flatten.take size ∧
      (readUpTo most fuel size segments).2.flatten = segments.flatten.drop size := by
  induction fuel generalizing size segments with
  | zero =>
    obtain rfl : size = 0 := Nat.le_zero.mp hfuel
    exact ⟨rfl, rfl⟩
  | succ fuel ih =>
    rw [readUpTo]
    split
    · rename_i hzero
      rw [hzero]
      exact ⟨rfl, rfl⟩
    · rename_i hsize
      have hlimit : 0 < min size most := Nat.lt_min.mpr ⟨Nat.pos_of_ne_zero hsize, hmost⟩
      have hflatten := read_flatten (min size most) segments
      have hlength := length_read_le (min size most) segments
      split
      · rename_i rest hread
        have hend : segments.flatten = [] := flatten_eq_nil_of_read hlimit (by rw [hread])
        rw [hread, hend] at hflatten
        rw [hend, List.take_nil, List.drop_nil]
        exact ⟨rfl, hflatten⟩
      · rename_i values rest hnil hread
        rw [hread] at hflatten hlength
        have hpos : 0 < values.length := List.length_pos_iff.mpr hnil
        have hsmall : values.length ≤ size := Nat.le_trans hlength (Nat.min_le_left _ _)
        have hless : size - values.length ≤ fuel := by omega
        obtain ⟨hmore, hleft⟩ := ih hless rest
        rw [← hflatten]
        constructor
        · show values ++ _ = _
          rw [hmore, List.take_append, List.take_of_length_le hsmall]
        · show List.flatten _ = _
          rw [hleft, List.drop_append, List.drop_eq_nil_of_le hsmall, List.nil_append]

end Segments
