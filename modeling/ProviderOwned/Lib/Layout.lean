import Mathlib.Algebra.BigOperators.Group.List.Basic
import Mathlib.Algebra.GroupWithZero.Nat
import Mathlib.Data.List.Induction
import Mathlib.Tactic.Common

/-!
# Layouts of big-endian fields

A number in a field of fixed width, the highest byte first (`put`, `get`), and records that are a
row of such fields, each at the offset where the widths before it end (`layout`, `fields`).
-/

namespace Layout

/-- The last `width` bytes of a number, the highest first. -/
def put : Nat → Nat → List UInt8
  | 0, _ => []
  | width + 1, value => put width (value >>> 8) ++ [UInt8.ofNat value]

/-- The number whose bytes are given, the highest first. -/
def get (bytes : List UInt8) : Nat := bytes.foldl (fun value byte => value <<< 8 ||| byte.toNat) 0

/-- The number in the field of `width` bytes at `offset`. -/
def field (bytes : List UInt8) (offset width : Nat) : Nat := get ((bytes.drop offset).take width)

variable {width value : Nat} {bytes rest : List UInt8}

@[simp] lemma length_put (width value : Nat) : (put width value).length = width := by
  induction width generalizing value with
  | zero => rfl
  | succ width ih => rw [put, List.length_append, ih, List.length_singleton]

lemma get_concat (bytes : List UInt8) (byte : UInt8) :
    get (bytes ++ [byte]) = 256 * get bytes + byte.toNat := by
  rw [get, List.foldl_append, List.foldl_cons, List.foldl_nil, ← get,
    ← Nat.shiftLeft_add_eq_or_of_lt byte.toNat_lt, Nat.shiftLeft_eq, Nat.mul_comm]

lemma get_put (h : value < 256 ^ width) : get (put width value) = value := by
  induction width generalizing value with
  | zero =>
    rw [Nat.pow_zero, Nat.lt_one_iff] at h
    exact h.symm
  | succ width ih =>
    have hhigh : value >>> 8 < 256 ^ width := by
      rw [Nat.shiftRight_eq_div_pow, Nat.div_lt_iff_lt_mul (by decide)]
      exact h
    rw [put, get_concat, ih hhigh, Nat.shiftRight_eq_div_pow, UInt8.toNat_ofNat']
    exact Nat.div_add_mod value 256

lemma put_get (bytes : List UInt8) : put bytes.length (get bytes) = bytes := by
  induction bytes using List.reverseRecOn with
  | nil => rfl
  | append_singleton bytes byte ih =>
    have hlt : byte.toNat < 256 := byte.toNat_lt
    have hhigh : (256 * get bytes + byte.toNat) >>> 8 = get bytes := by
      rw [Nat.shiftRight_eq_div_pow]
      omega
    have hlow : UInt8.ofNat (256 * get bytes + byte.toNat) = byte := by
      apply UInt8.toNat.inj
      rw [UInt8.toNat_ofNat']
      omega
    rw [List.length_append, List.length_singleton, put, get_concat, hhigh, hlow, ih]

lemma get_lt (bytes : List UInt8) : get bytes < 256 ^ bytes.length := by
  induction bytes using List.reverseRecOn with
  | nil => exact Nat.one_pos
  | append_singleton bytes byte ih =>
    have hlt : byte.toNat < 256 := byte.toNat_lt
    rw [get_concat, List.length_append, List.length_singleton, Nat.pow_succ]
    omega

/-! ### Records -/

/-- A row of fields: the width of each and its number. -/
def layout (row : List (Nat × Nat)) : List UInt8 :=
  row.flatMap fun (width, value) => put width value

/-- The numbers of the fields with the given widths, one after the other. -/
def fields : List Nat → List UInt8 → List (Nat × Nat)
  | [], _ => []
  | width :: widths, bytes => (width, get (bytes.take width)) :: fields widths (bytes.drop width)

lemma layout_cons (row : List (Nat × Nat)) :
    layout ((width, value) :: row) = put width value ++ layout row :=
  List.flatMap_cons

@[simp] lemma length_layout (row : List (Nat × Nat)) :
    (layout row).length = (row.map Prod.fst).sum := by
  induction row with
  | nil => rfl
  | cons entry row ih =>
    obtain ⟨width, value⟩ := entry
    rw [layout_cons, List.length_append, length_put, ih, List.map_cons, List.sum_cons]

/-- A field is found at the offset where the fields before it end. -/
lemma field_layout (before after : List (Nat × Nat)) (h : value < 256 ^ width) :
    field (layout (before ++ (width, value) :: after)) (before.map Prod.fst).sum width = value := by
  have hrow : layout (before ++ (width, value) :: after) =
      layout before ++ (put width value ++ layout after) := by
    rw [layout, List.flatMap_append]
    rfl
  rw [hrow, field, ← length_layout before, List.drop_left, List.take_left' (length_put _ _),
    get_put h]

/-- Each field of a record reads its number. -/
lemma field_getElem (row : List (Nat × Nat)) (n : Nat) (hn : n < row.length)
    (h : row[n].2 < 256 ^ row[n].1) :
    field (layout row) ((row.take n).map Prod.fst).sum row[n].1 = row[n].2 := by
  have hsplit : row.take n ++ (row[n].1, row[n].2) :: row.drop (n + 1) = row := by
    rw [← List.drop_eq_getElem_cons hn, List.take_append_drop]
  have hfield := field_layout (row.take n) (row.drop (n + 1)) h
  rwa [hsplit] at hfield

/-- Reading the fields of a record and laying them out again gives the record. -/
lemma layout_fields {widths : List Nat} (h : bytes.length = widths.sum) :
    layout (fields widths bytes) = bytes := by
  induction widths generalizing bytes with
  | nil =>
    rw [List.length_eq_zero_iff.mp h]
    rfl
  | cons width widths ih =>
    rw [List.sum_cons] at h
    have htake : (bytes.take width).length = width := by
      rw [List.length_take]
      omega
    have hdrop : (bytes.drop width).length = widths.sum := by
      rw [List.length_drop]
      omega
    have hput := put_get (bytes.take width)
    rw [htake] at hput
    rw [fields, layout_cons, hput, ih hdrop, List.take_append_drop]

lemma field_lt (bytes : List UInt8) (offset width : Nat) : field bytes offset width < 256 ^ width :=
  Nat.lt_of_lt_of_le (get_lt _) (Nat.pow_le_pow_right (by decide) (List.length_take_le _ _))

end Layout
