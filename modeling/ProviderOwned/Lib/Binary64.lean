import Mathlib.Algebra.Order.AbsoluteValue.Basic
import Mathlib.Order.WithBot
import ProviderOwned.Lib.Nearest

/-!
# Double precision

The numbers of binary64 with their operations: the exact result, rounded to the nearest number of
the format, and infinite where it would reach `2 ^ 1024`. Zero has a sign, which only a division by
it shows.
-/

namespace Binary64

open Nearest

/-- Rational, infinite or minus infinite. -/
abbrev Extended := WithBot (WithTop ℚ)

/-- 53 digits, none finer than `2 ^ -1074`. -/
def binary64 : Format := ⟨53, -1074, by decide⟩

/-- The first power of two that is too large. -/
@[irreducible] def limit : ℚ := 2 ^ 1024

structure Magnitude where
  size : ℚ
  nonneg : 0 ≤ size
  round_size : binary64.round size = size
  lt_limit : size < limit

def Magnitude.signed (negative : Bool) (m : Magnitude) : ℚ := if negative then -m.size else m.size

lemma limit_pos : 0 < limit := by
  rw [limit]
  exact pow_pos two_pos 1024

/-- `double`, with one value that is not a number. -/
inductive Double
  | nan
  | infinite (negative : Bool)
  | finite (negative : Bool) (magnitude : Magnitude)

namespace Double

/-! ### Values -/

def signed (negative : Bool) : WithTop ℚ → Extended
  | ⊤ => if negative then ⊥ else ((⊤ : WithTop ℚ) : Extended)
  | (q : ℚ) => (((if negative then -q else q : ℚ) : WithTop ℚ) : Extended)

def value : Double → Option Extended
  | nan => none
  | infinite negative => some (signed negative ⊤)
  | finite negative m => some (signed negative m.size)

def roundSize (q : ℚ) : WithTop ℚ := if binary64.round q < limit then (binary64.round q : WithTop ℚ)
  else ⊤

def rounded (q : ℚ) : Extended := signed (q < 0) (roundSize |q|)

def ofSize (negative : Bool) (q : ℚ) : Double :=
  if h : binary64.round |q| < limit then
    finite negative ⟨binary64.round |q|, Format.round_nonneg (abs_nonneg q),
      Format.round_round (abs_nonneg q), h⟩
  else infinite negative

def ofRat (q : ℚ) : Double := ofSize (q < 0) q

variable {x y q : ℚ} {a b : Double}

lemma roundSize_mono (hx : 0 ≤ x) (h : x ≤ y) : roundSize x ≤ roundSize y := by
  have hround := Format.round_mono (f := binary64) hx h
  rw [roundSize, roundSize]
  split_ifs with hxlimit hylimit hylimit
  · exact WithTop.coe_le_coe.mpr hround
  · exact le_top
  · exact absurd (hround.trans_lt hylimit) hxlimit
  · exact le_rfl

lemma roundSize_of_representable (h : binary64.Representable q) (hlt : q < limit) :
    roundSize q = q := by
  have hround := Format.round_of_representable h
  rw [roundSize, hround, if_pos hlt]

lemma roundSize_zero : roundSize 0 = (0 : ℚ) := by
  have hround := Format.round_zero (f := binary64)
  rw [roundSize, hround]
  exact if_pos limit_pos

lemma value_ofSize (negative : Bool) (q : ℚ) :
    (ofSize negative q).value = some (signed negative (roundSize |q|)) := by
  unfold ofSize roundSize
  split_ifs
  · rfl
  · rfl

lemma value_ofRat (q : ℚ) : (ofRat q).value = some (rounded q) := by
  rw [ofRat, value_ofSize, rounded]

@[simp] lemma signed_coe (negative : Bool) (q : ℚ) :
    signed negative (q : WithTop ℚ) = (((if negative then -q else q : ℚ) : WithTop ℚ) : Extended) :=
      rfl

lemma signed_zero (negative : Bool) :
    signed negative ((0 : ℚ) : WithTop ℚ) = ((0 : ℚ) : WithTop ℚ) := by
  rw [signed_coe, neg_zero, ite_self]

/-- The sign of a rounded size is that of what is rounded, unless it is nothing. -/
lemma signed_roundSize (negative : Bool) (h : 0 ≤ q) :
    signed negative (roundSize q) = rounded (if negative then -q else q) := by
  rcases h.eq_or_lt with rfl | hpos
  · rw [neg_zero, ite_self, rounded, abs_zero, roundSize_zero, signed_zero, signed_zero]
  · cases negative
    · rw [if_neg Bool.false_ne_true, rounded, abs_of_pos hpos, decide_eq_false (not_lt.mpr h)]
    · rw [if_pos rfl, rounded, abs_neg, abs_of_pos hpos, decide_eq_true (neg_lt_zero.mpr hpos)]

lemma roundSize_nonneg (h : 0 ≤ q) : 0 ≤ roundSize q := by
  rw [roundSize]
  split_ifs
  · exact WithTop.coe_le_coe.mpr (Format.round_nonneg h)
  · exact le_top

lemma signed_le_top (s : WithTop ℚ) : signed false s ≤ signed false ⊤ := by
  cases s with
  | top => exact le_rfl
  | coe s => exact WithBot.coe_le_coe.mpr (le_top (α := WithTop ℚ))

lemma signed_mono {s t : WithTop ℚ} (h : s ≤ t) : signed false s ≤ signed false t := by
  cases t with
  | top => exact signed_le_top s
  | coe t =>
    cases s with
    | top => exact absurd h (by simp)
    | coe s => exact WithBot.coe_le_coe.mpr h

lemma signed_anti {s t : WithTop ℚ} (h : s ≤ t) : signed true t ≤ signed true s := by
  cases t with
  | top => exact bot_le
  | coe t =>
    cases s with
    | top => exact absurd h (by simp)
    | coe s =>
      have hst : s ≤ t := WithTop.coe_le_coe.mp h
      exact WithBot.coe_le_coe.mpr (WithTop.coe_le_coe.mpr (neg_le_neg hst))

/-- Rounding is monotone. -/
lemma rounded_mono : Monotone rounded := by
  intro x y h
  rcases lt_or_ge x 0 with hx | hx <;> rcases lt_or_ge y 0 with hy | hy
  · rw [rounded, rounded, decide_eq_true hx, decide_eq_true hy, abs_of_neg hx, abs_of_neg hy]
    exact signed_anti (roundSize_mono (neg_nonneg.mpr hy.le) (neg_le_neg h))
  · rw [rounded, rounded, decide_eq_true hx, decide_eq_false (not_lt.mpr hy)]
    calc signed true (roundSize |x|) ≤ signed true ((0 : ℚ) : WithTop ℚ) :=
          signed_anti (roundSize_nonneg (abs_nonneg x))
      _ = signed false ((0 : ℚ) : WithTop ℚ) := by rw [signed_zero, signed_zero]
      _ ≤ signed false (roundSize |y|) := signed_mono (roundSize_nonneg (abs_nonneg y))
  · exact absurd (h.trans_lt hy) (not_lt.mpr hx)
  · rw [rounded, rounded, decide_eq_false (not_lt.mpr hx), decide_eq_false (not_lt.mpr hy),
      abs_of_nonneg hx, abs_of_nonneg hy]
    exact signed_mono (roundSize_mono hx h)

/-- Rounding keeps what is of the format. -/
lemma rounded_of_representable (h : binary64.Representable q) (hlt : q < limit) (hq : 0 ≤ q) :
    rounded q = ((q : WithTop ℚ) : Extended) := by
  rw [rounded, abs_of_nonneg hq, decide_eq_false (not_lt.mpr hq), roundSize_of_representable h hlt,
    signed_coe, if_neg Bool.false_ne_true]

/-- A number is what its value is rounded to. -/
lemma rounded_value (h : a.value = some ((q : WithTop ℚ) : Extended)) :
    rounded q = ((q : WithTop ℚ) : Extended) := by
  cases a with
  | nan => cases h
  | infinite negative =>
    cases negative
    · exact absurd (Option.some.inj h) (by simp [signed])
    · exact absurd (Option.some.inj h) (by simp [signed])
  | finite negative m =>
    have hq : (if negative then -m.size else m.size) = q :=
      WithTop.coe_inj.mp (WithBot.coe_inj.mp (Option.some.inj h))
    have hround : roundSize m.size = m.size := by rw [roundSize, m.round_size, if_pos m.lt_limit]
    rw [← hq, ← signed_roundSize negative m.nonneg, hround, signed_coe]

/-! ### Operations -/

def zero (negative : Bool) : Double := finite negative ⟨0, le_rfl, Format.round_zero, limit_pos⟩

protected def neg : Double → Double
  | nan => nan
  | infinite negative => infinite !negative
  | finite negative m => finite (!negative) m

protected def add : Double → Double → Double
  | finite s m, finite t n =>
    let sum := Magnitude.signed s m + Magnitude.signed t n
    if sum = 0 then zero (s && t) else ofRat sum
  | infinite s, infinite t => if s = t then infinite s else nan
  | infinite s, finite .. => infinite s
  | finite .., infinite t => infinite t
  | nan, _ => nan
  | _, nan => nan

protected def mul : Double → Double → Double
  | finite s m, finite t n => ofSize (s != t) (m.size * n.size)
  | infinite s, infinite t => infinite (s != t)
  | infinite s, finite t m => if m.size = 0 then nan else infinite (s != t)
  | finite s m, infinite t => if m.size = 0 then nan else infinite (s != t)
  | nan, _ => nan
  | _, nan => nan

protected def div : Double → Double → Double
  | finite s m, finite t n =>
    if n.size = 0 then (if m.size = 0 then nan else infinite (s != t))
      else ofSize (s != t) (m.size / n.size)
  | infinite s, finite t _ => infinite (s != t)
  | finite s _, infinite t => zero (s != t)
  | infinite _, infinite _ => nan
  | nan, _ => nan
  | _, nan => nan

instance : Neg Double := ⟨Double.neg⟩
instance : Add Double := ⟨Double.add⟩
instance : Sub Double := ⟨fun a b => a + -b⟩
instance : Mul Double := ⟨Double.mul⟩
instance : Div Double := ⟨Double.div⟩

lemma rounded_zero : rounded 0 = ((0 : ℚ) : WithTop ℚ) := by
  rw [rounded, abs_zero, roundSize_zero, signed_zero]

lemma value_eq_coe (h : a.value = some ((q : WithTop ℚ) : Extended)) :
    ∃ negative m, a = finite negative m ∧ m.signed negative = q := by
  cases a with
  | nan => cases h
  | infinite negative =>
    cases negative
    · exact absurd (Option.some.inj h) (by simp [signed])
    · exact absurd (Option.some.inj h) (by simp [signed])
  | finite negative m =>
    exact ⟨negative, m, rfl, WithTop.coe_inj.mp (WithBot.coe_inj.mp (Option.some.inj h))⟩

lemma value_eq_top (h : a.value = some ((⊤ : WithTop ℚ) : Extended)) : a = infinite false := by
  cases a with
  | nan => cases h
  | infinite negative =>
    cases negative
    · rfl
    · exact absurd (Option.some.inj h) (by simp [signed])
  | finite negative m => exact absurd (Option.some.inj h) (by simp [signed, -WithBot.coe_top])

/-- A sum is the exact one, rounded. -/
lemma value_add (ha : a.value = some ((x : WithTop ℚ) : Extended))
    (hb : b.value = some ((y : WithTop ℚ) : Extended)) : (a + b).value =
      some (rounded (x + y)) := by
  obtain ⟨s, m, rfl, rfl⟩ := value_eq_coe ha
  obtain ⟨t, n, rfl, rfl⟩ := value_eq_coe hb
  change (if m.signed s + n.signed t = 0 then zero (s && t)
    else ofRat (m.signed s + n.signed t)).value = _
  split_ifs with hsum
  · rw [hsum, rounded_zero]
    exact congrArg some (signed_zero _)
  · exact value_ofRat _

/-- A product is the exact one, rounded. -/
lemma value_mul (ha : a.value = some ((x : WithTop ℚ) : Extended))
    (hb : b.value = some ((y : WithTop ℚ) : Extended)) : (a * b).value =
      some (rounded (x * y)) := by
  obtain ⟨s, m, rfl, rfl⟩ := value_eq_coe ha
  obtain ⟨t, n, rfl, rfl⟩ := value_eq_coe hb
  have hnonneg := mul_nonneg m.nonneg n.nonneg
  change (ofSize (s != t) (m.size * n.size)).value = _
  rw [value_ofSize, abs_of_nonneg hnonneg, signed_roundSize _ hnonneg]
  congr 2
  cases s <;> cases t <;> simp [Magnitude.signed]

/-- A quotient is the exact one, rounded. -/
lemma value_div (ha : a.value = some ((x : WithTop ℚ) : Extended))
    (hb : b.value = some ((y : WithTop ℚ) : Extended)) (hy : y ≠ 0) :
    (a / b).value = some (rounded (x / y)) := by
  obtain ⟨s, m, rfl, rfl⟩ := value_eq_coe ha
  obtain ⟨t, n, rfl, rfl⟩ := value_eq_coe hb
  have hsize : n.size ≠ 0 := by
    intro hzero
    refine hy ?_
    rw [Magnitude.signed, hzero, neg_zero, ite_self]
  have hnonneg := div_nonneg m.nonneg n.nonneg
  have hdiv : finite s m / finite t n = ofSize (s != t) (m.size / n.size) := if_neg hsize
  rw [hdiv, value_ofSize, abs_of_nonneg hnonneg, signed_roundSize _ hnonneg]
  congr 2
  cases s <;> cases t <;> simp [Magnitude.signed, div_neg, neg_div]

/-- An infinite summand is kept, where there is no infinity against it. -/
lemma value_add_top {u v : Extended} (hu : 0 ≤ u) (hv : 0 ≤ v) (ha : a.value = some u)
    (hb : b.value = some v) (h : u = ⊤ ∨ v = ⊤) : (a + b).value = some ⊤ := by
  rcases h with rfl | rfl
  · obtain rfl := value_eq_top ha
    cases b with
    | nan => cases hb
    | infinite negative =>
      cases negative
      · rfl
      · obtain rfl := Option.some.inj hb
        exact absurd hv (by simp [signed])
    | finite negative m => rfl
  · obtain rfl := value_eq_top hb
    cases a with
    | nan => cases ha
    | infinite negative =>
      cases negative
      · rfl
      · obtain rfl := Option.some.inj ha
        exact absurd hu (by simp [signed])
    | finite negative m => rfl

lemma signed_pos {negative : Bool} {s : WithTop ℚ} (hs : 0 ≤ s) (h : 0 < signed negative s) :
    negative = false ∧ s ≠ 0 := by
  cases negative
  · refine ⟨rfl, ?_⟩
    rintro rfl
    exact absurd h (by rw [show signed false 0 = 0 from signed_zero false]; exact lt_irrefl _)
  · exact absurd (signed_anti hs) (not_le.mpr ((signed_zero true).trans_lt h))

/-- An infinite factor is kept, where the other one is positive. -/
lemma value_mul_top {u v : Extended} (hu : 0 < u) (hv : 0 < v) (ha : a.value = some u)
    (hb : b.value = some v) (h : u = ⊤ ∨ v = ⊤) : (a * b).value = some ⊤ := by
  rcases h with rfl | rfl
  · obtain rfl := value_eq_top ha
    cases b with
    | nan => cases hb
    | infinite negative =>
      obtain rfl := Option.some.inj hb
      obtain ⟨rfl, -⟩ := signed_pos le_top hv
      rfl
    | finite negative m =>
      obtain rfl := Option.some.inj hb
      obtain ⟨rfl, hsize⟩ := signed_pos (WithTop.coe_le_coe.mpr m.nonneg) hv
      have hmul : infinite false * finite false m = infinite (false != false) :=
        if_neg fun hzero => hsize (congrArg _ hzero)
      rw [hmul]
      rfl
  · obtain rfl := value_eq_top hb
    cases a with
    | nan => cases ha
    | infinite negative =>
      obtain rfl := Option.some.inj ha
      obtain ⟨rfl, -⟩ := signed_pos le_top hu
      rfl
    | finite negative m =>
      obtain rfl := Option.some.inj ha
      obtain ⟨rfl, hsize⟩ := signed_pos (WithTop.coe_le_coe.mpr m.nonneg) hu
      have hmul : finite false m * infinite false = infinite (false != false) :=
        if_neg fun hzero => hsize (congrArg _ hzero)
      rw [hmul]
      rfl

/-! ### Numbers that are exact -/

/-- Whole multiples of a power of two, up to 53 digits. -/
lemma rounded_multiple {n : ℕ} {e : ℤ} (hn : n < 2 ^ 53) (hlow : -1074 ≤ e) (hhigh : e ≤ 900) :
    rounded (n * 2 ^ e) = ((n * 2 ^ e : ℚ) : WithTop ℚ) := by
  refine rounded_of_representable ⟨n, e, hn, hlow, rfl⟩ ?_
    (mul_nonneg n.cast_nonneg (Format.two_zpow_pos e).le)
  have hcast : (n : ℚ) < 2 ^ 53 := by exact_mod_cast hn
  calc (n : ℚ) * 2 ^ e < 2 ^ 53 * 2 ^ e := mul_lt_mul_of_pos_right hcast (Format.two_zpow_pos e)
    _ ≤ 2 ^ (53 : ℤ) * 2 ^ (900 : ℤ) := by
      refine mul_le_mul_of_nonneg_left (zpow_le_zpow_right₀ one_le_two hhigh) ?_
      positivity
    _ = 2 ^ (953 : ℤ) := (zpow_add₀ two_ne_zero 53 900).symm
    _ ≤ 2 ^ (1024 : ℤ) := zpow_le_zpow_right₀ one_le_two (by norm_num)
    _ = limit := by rw [limit]; exact zpow_natCast 2 1024

/-- No positive number is below the finest of the format. -/
lemma finest_le (h : a.value = some ((q : WithTop ℚ) : Extended)) (hq : 0 < q) :
    2 ^ (-1074 : ℤ) ≤ q := by
  obtain ⟨negative, m, rfl, rfl⟩ := value_eq_coe h
  cases negative with
  | true => exact absurd m.nonneg (not_le.mpr (neg_pos.mp hq))
  | false =>
    have hsize : m.signed false = m.size := rfl
    rw [hsize] at hq ⊢
    obtain ⟨n, e, -, he, heq⟩ := Format.representable_round (f := binary64) m.nonneg
    rw [m.round_size] at heq
    have hpos : 0 < n := by
      refine Nat.pos_of_ne_zero ?_
      rintro rfl
      rw [heq, Nat.cast_zero, zero_mul] at hq
      exact lt_irrefl _ hq
    have hone : (1 : ℚ) ≤ n := by exact_mod_cast hpos
    calc (2 : ℚ) ^ (-1074 : ℤ) ≤ 2 ^ e := zpow_le_zpow_right₀ one_le_two he
      _ ≤ n * 2 ^ e := le_mul_of_one_le_left (Format.two_zpow_pos e).le hone
      _ = m.size := heq.symm

/-! ### Comparisons and conversion -/

/-- A comparison of values, which fails where there is none. -/
def compare (r : Extended → Extended → Prop) [DecidableRel r] (a b : Double) : Bool :=
  match a.value, b.value with
  | some x, some y => decide (r x y)
  | _, _ => false

lemma compare_iff (r : Extended → Extended → Prop) [DecidableRel r] :
    compare r a b ↔ ∃ x ∈ a.value, ∃ y ∈ b.value, r x y := by
  rw [compare]
  cases a.value <;> cases b.value <;> simp

/-- `std::llround`: halves away from zero. What is out of range is the least of the integers. -/
def llround : Double → Int
  | finite negative m =>
    let n := ⌊m.size + 1 / 2⌋
    let n := if negative then -n else n
    if -2 ^ 63 ≤ n ∧ n < 2 ^ 63 then n else -2 ^ 63
  | _ => -2 ^ 63

/-- A number without its fraction, as a conversion to an integer leaves it. -/
def truncate : Double → Int
  | finite negative m => if negative then -⌊m.size⌋ else ⌊m.size⌋
  | _ => 0

def isFinite : Double → Bool
  | finite .. => true
  | _ => false

lemma truncate_eq_floor (h : a.value = some ((q : WithTop ℚ) : Extended)) (hq : 0 ≤ q) :
    a.truncate = ⌊q⌋ := by
  obtain ⟨negative, m, rfl, rfl⟩ := value_eq_coe h
  cases negative with
  | false => rfl
  | true =>
    have hzero : m.size = 0 := le_antisymm (neg_nonneg.mp hq) m.nonneg
    rw [truncate, Magnitude.signed, if_pos rfl, if_pos rfl, hzero, neg_zero, Int.floor_zero,
      neg_zero]

/-- What is not negative is rounded by its floor. -/
lemma llround_eq_floor (h : a.value = some ((q : WithTop ℚ) : Extended)) (hq : 0 ≤ q)
    (hlt : q + 1 / 2 < 2 ^ 63) :
    a.llround = ⌊q + 1 / 2⌋ := by
  obtain ⟨negative, m, rfl, rfl⟩ := value_eq_coe h
  cases negative with
  | false =>
    have hpos : 0 ≤ ⌊m.size + 1 / 2⌋ := Int.floor_nonneg.mpr (add_nonneg m.nonneg (by norm_num))
    have hfloor : ⌊m.size + 1 / 2⌋ < 2 ^ 63 := Int.floor_lt.mpr (by push_cast; exact hlt)
    exact if_pos ⟨by omega, hfloor⟩
  | true =>
    have hzero : m.size = 0 := le_antisymm (neg_nonneg.mp hq) m.nonneg
    rw [llround, Magnitude.signed, if_pos rfl, if_pos rfl, hzero]
    norm_num

/-! ### Numbers without a minus sign -/

/-- Whether it is a number without a minus sign. -/
def plain : Double → Bool
  | nan => false
  | infinite negative => !negative
  | finite negative _ => !negative

lemma plain_iff : a.plain ↔ a = infinite false ∨ ∃ m, a = finite false m := by
  cases a with
  | nan => simp [plain]
  | infinite negative => simp [plain]
  | finite negative m => simp [plain]

lemma plain_ofSize (q : ℚ) : (ofSize false q).plain := by
  unfold ofSize
  split_ifs
  · rfl
  · rfl

lemma plain_ofRat (h : 0 ≤ q) : (ofRat q).plain := by
  rw [ofRat, decide_eq_false (not_lt.mpr h)]
  exact plain_ofSize q

lemma plain_of_pos {u : Extended} (h : a.value = some u) (hu : 0 < u) : a.plain := by
  cases a with
  | nan => cases h
  | infinite negative =>
    obtain rfl := Option.some.inj h
    obtain ⟨rfl, -⟩ := signed_pos le_top hu
    rfl
  | finite negative m =>
    obtain rfl := Option.some.inj h
    obtain ⟨rfl, -⟩ := signed_pos (WithTop.coe_le_coe.mpr m.nonneg) hu
    rfl

lemma value_of_plain (h : a.plain) : ∃ u, a.value = some u ∧ 0 ≤ u := by
  rcases plain_iff.mp h with rfl | ⟨m, rfl⟩
  · exact ⟨_, rfl, le_top⟩
  · exact ⟨_, rfl, WithBot.coe_le_coe.mpr (WithTop.coe_le_coe.mpr m.nonneg)⟩

lemma plain_add (ha : a.plain) (hb : b.plain) : (a + b).plain := by
  rcases plain_iff.mp ha with rfl | ⟨m, rfl⟩ <;> rcases plain_iff.mp hb with rfl | ⟨n, rfl⟩
  · rfl
  · rfl
  · rfl
  · change (if m.size + n.size = 0 then zero (false && false) else ofRat (m.size + n.size)).plain
    split_ifs
    · rfl
    · exact plain_ofRat (add_nonneg m.nonneg n.nonneg)

lemma plain_mul (ha : a.plain) {n : Magnitude} (hn : n.size ≠ 0) : (a * finite false n).plain := by
  rcases plain_iff.mp ha with rfl | ⟨m, rfl⟩
  · have hmul : infinite false * finite false n = infinite (false != false) := if_neg hn
    rw [hmul]
    rfl
  · exact plain_ofSize _

/-- A quotient has no minus sign, if it is a number at all. -/
lemma plain_div (ha : a.plain) (hb : b.plain) (h : a / b ≠ nan) : (a / b).plain := by
  rcases plain_iff.mp ha with rfl | ⟨m, rfl⟩ <;> rcases plain_iff.mp hb with rfl | ⟨n, rfl⟩
  · exact absurd rfl h
  · rfl
  · rfl
  · have hdiv : finite false m / finite false n =
        if n.size = 0 then (if m.size = 0 then nan else infinite (false != false))
        else ofSize (false != false) (m.size / n.size) := rfl
    rw [hdiv] at h ⊢
    split_ifs at h ⊢
    · exact absurd rfl h
    · rfl
    · exact plain_ofSize _

lemma nan_div (b : Double) : nan / b = nan := by
  cases b <;> rfl

/-- A rational from a power of two up to one is kept apart from zero. -/
lemma exists_ofRat (e : ℤ) (he : -1074 ≤ e ∧ e ≤ 900) (hlow : 2 ^ e ≤ q) (hhigh : q ≤ 1) :
    ∃ m, ofRat q = finite false m ∧ m.size ≠ 0 := by
  have hexact : ∀ {e : ℤ}, -1074 ≤ e → e ≤ 900 → rounded (2 ^ e) = ((2 ^ e : ℚ) : WithTop ℚ) := by
    intro e hlow hhigh
    simpa using rounded_multiple (n := 1) (by norm_num) hlow hhigh
  have hpower := hexact he.1 he.2
  have hone : rounded 1 = ((1 : ℚ) : WithTop ℚ) := by
    simpa using hexact (e := 0) (by norm_num) (by norm_num)
  have hge : _ ≤ rounded q := rounded_mono hlow
  have hle : rounded q ≤ _ := rounded_mono hhigh
  rw [hpower] at hge
  rw [hone] at hle
  obtain ⟨r, hr⟩ : ∃ r : ℚ, rounded q = ((r : WithTop ℚ) : Extended) := by
    obtain ⟨u, hu⟩ : ∃ u : WithBot (WithTop ℚ), rounded q = u := ⟨_, rfl⟩
    rw [hu] at hge hle ⊢
    cases u with
    | bot => exact absurd hge (by simp)
    | coe r =>
      cases r with
      | top => exact absurd (top_le_iff.mp (WithBot.coe_le_coe.mp hle)) WithTop.coe_ne_top
      | coe r => exact ⟨r, rfl⟩
  rw [hr] at hge
  have hpos : 0 < r :=
    (Format.two_zpow_pos _).trans_le (WithTop.coe_le_coe.mp (WithBot.coe_le_coe.mp hge))
  obtain ⟨negative, m, hm, hsigned⟩ := value_eq_coe ((value_ofRat q).trans (congrArg some hr))
  cases negative with
  | false => exact ⟨m, hm, (hsigned.trans_ne hpos.ne')⟩
  | true =>
    have hneg : -m.size = r := hsigned
    exact absurd m.nonneg (not_le.mpr (neg_pos.mp (hneg ▸ hpos)))

end Double

end Binary64
