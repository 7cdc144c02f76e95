import Mathlib.Algebra.Order.Round
import Mathlib.Data.Int.Log
import Mathlib.Data.Rat.Floor
import Mathlib.Tactic.Linarith

/-!
# Rounding to a floating-point format

A format has a number of binary digits and a lowest exponent. A number that is not negative is
rounded to the nearest of the format, of two to the one with the even digits: rounding is monotone
and keeps what is of the format.
-/

namespace Nearest

/-! ### Whole numbers -/

/-- The nearest whole number, the even one of two. -/
def nearest (q : ℚ) : ℤ :=
  if q - ⌊q⌋ < 1 / 2 ∨ (q - ⌊q⌋ = 1 / 2 ∧ ⌊q⌋ % 2 = 0) then ⌊q⌋ else ⌊q⌋ + 1

variable {x y : ℚ}

lemma floor_le_nearest : ⌊x⌋ ≤ nearest x := by
  rw [nearest]
  split_ifs
  · exact le_rfl
  · exact (lt_add_one _).le

lemma nearest_le_floor_add_one : nearest x ≤ ⌊x⌋ + 1 := by
  rw [nearest]
  split_ifs
  · exact (lt_add_one _).le
  · exact le_rfl

lemma nearest_mono (h : x ≤ y) : nearest x ≤ nearest y := by
  rcases (Int.floor_le_floor h).lt_or_eq with hlt | heq
  · exact nearest_le_floor_add_one.trans (hlt.trans_le floor_le_nearest)
  · rw [nearest, nearest, heq]
    split_ifs with hx hy hy
    · exact le_rfl
    · exact (lt_add_one _).le
    · -- what rounds `y` down rounds the smaller `x` down
      refine absurd ?_ hx
      rcases hy with hy | ⟨hy, heven⟩
      · exact Or.inl (by linarith)
      · rcases h.lt_or_eq with hlt | rfl
        · exact Or.inl (by linarith)
        · exact Or.inr ⟨hy, heven⟩
    · exact le_rfl

lemma nearest_intCast (n : ℤ) : nearest n = n := by
  rw [nearest, Int.floor_intCast, sub_self]
  exact if_pos (Or.inl (by norm_num))

lemma nearest_le_of_le {n : ℤ} (h : x ≤ n) : nearest x ≤ n :=
  (nearest_mono h).trans_eq (nearest_intCast n)

lemma le_nearest_of_le {n : ℤ} (h : (n : ℚ) ≤ x) : n ≤ nearest x :=
  (nearest_intCast n).symm.trans_le (nearest_mono h)

/-! ### Formats -/

/-- Numbers of so many binary digits, none finer than a power of two. -/
structure Format where
  precision : ℕ
  lowest : ℤ
  precision_pos : 0 < precision

namespace Format

variable {f : Format}

def Representable (f : Format) (q : ℚ) : Prop :=
  ∃ (n : ℕ) (e : ℤ), n < 2 ^ f.precision ∧ f.lowest ≤ e ∧ q = n * 2 ^ e

/-- The exponent of the last digit of a number. -/
def last (f : Format) (q : ℚ) : ℤ := max (Int.log 2 q + 1 - f.precision) f.lowest

def round (f : Format) (q : ℚ) : ℚ := nearest (q / 2 ^ f.last q) * 2 ^ f.last q

lemma two_zpow_pos (e : ℤ) : (0 : ℚ) < 2 ^ e := zpow_pos two_pos e

lemma two_zpow_sub {e e' : ℤ} (h : e' ≤ e) :
    (2 : ℚ) ^ e = ((2 ^ (e - e').toNat : ℕ) : ℚ) * 2 ^ e' := by
  have hnat : (((e - e').toNat : ℕ) : ℤ) = e - e' := Int.toNat_of_nonneg (by linarith)
  rw [Nat.cast_pow, Nat.cast_ofNat, ← zpow_natCast, hnat, ← zpow_add₀ two_ne_zero, sub_add_cancel]

lemma lt_two_zpow_log (q : ℚ) : q < 2 ^ (Int.log 2 q + 1) := by
  simpa using Int.lt_zpow_succ_log_self (one_lt_two (α := ℕ)) q

lemma two_zpow_log_le (h : 0 < x) : (2 : ℚ) ^ Int.log 2 x ≤ x := by
  simpa using Int.zpow_log_le_self (one_lt_two (α := ℕ)) h

lemma log_lt {e : ℤ} (hx : 0 < x) (h : x < 2 ^ e) : Int.log 2 x < e :=
  (Int.lt_zpow_iff_log_lt one_lt_two hx).mp (by simpa using h)

lemma round_zero : f.round 0 = 0 := by
  rw [round, zero_div, show nearest 0 = 0 from nearest_intCast 0, Int.cast_zero, zero_mul]

/-- A multiple of the last digit's weight is kept. -/
lemma round_of_multiple {n : ℤ} {e : ℤ} (he : f.last (n * 2 ^ e) ≤ e) :
    f.round (n * 2 ^ e) = n * 2 ^ e := by
  have hdiv : ((n : ℚ) * 2 ^ e) / 2 ^ f.last (n * 2 ^ e) =
      ((n * 2 ^ (e - f.last (n * 2 ^ e)).toNat : ℤ) : ℚ) := by
    rw [div_eq_iff (two_zpow_pos _).ne', Int.cast_mul, Int.cast_pow, Int.cast_ofNat, mul_assoc]
    have hpow := two_zpow_sub he
    push_cast at hpow
    rw [← hpow]
  have hround := nearest_intCast (n * 2 ^ (e - f.last (n * 2 ^ e)).toNat)
  rw [← hdiv] at hround
  rw [round, hround, Int.cast_mul, Int.cast_pow, Int.cast_ofNat, mul_assoc]
  have hpow := two_zpow_sub he
  push_cast at hpow
  rw [← hpow]

/-- Rounding keeps the numbers of the format. -/
lemma round_of_representable (h : f.Representable x) : f.round x = x := by
  obtain ⟨n, e, hn, he, rfl⟩ := h
  rcases n.eq_zero_or_pos with rfl | hpos
  · rw [Nat.cast_zero, zero_mul, round_zero]
  · have hlt : (n : ℚ) * 2 ^ e < 2 ^ (e + f.precision) := by
      rw [zpow_add₀ two_ne_zero, zpow_natCast, mul_comm]
      exact mul_lt_mul_of_pos_left (by exact_mod_cast hn) (two_zpow_pos e)
    have hlog := log_lt (mul_pos (Nat.cast_pos.mpr hpos) (two_zpow_pos e)) hlt
    have hlast : f.last ((n : ℤ) * 2 ^ e) ≤ e := by
      refine max_le ?_ he
      rw [Int.cast_natCast]
      omega
    exact_mod_cast round_of_multiple hlast

lemma round_nonneg (h : 0 ≤ x) : 0 ≤ f.round x := by
  refine mul_nonneg (Int.cast_nonneg (le_nearest_of_le ?_)) (two_zpow_pos _).le
  rw [Int.cast_zero]
  exact div_nonneg h (two_zpow_pos _).le

lemma round_le_of_last {e : ℤ} (he : f.last x ≤ e) (h : x ≤ 2 ^ e) : f.round x ≤ 2 ^ e := by
  have hpow := two_zpow_sub he
  rw [round, hpow]
  refine mul_le_mul_of_nonneg_right ?_ (two_zpow_pos _).le
  refine (Int.cast_le.mpr (nearest_le_of_le (n := (2 ^ (e - f.last x).toNat : ℕ)) ?_)).trans_eq
    (by simp)
  rw [div_le_iff₀ (two_zpow_pos _), Int.cast_natCast, ← hpow]
  exact h

lemma le_round_of_last {e : ℤ} (he : f.last x ≤ e) (h : 2 ^ e ≤ x) : 2 ^ e ≤ f.round x := by
  have hpow := two_zpow_sub he
  rw [round, hpow]
  refine mul_le_mul_of_nonneg_right ?_ (two_zpow_pos _).le
  refine Eq.trans_le (by simp) (Int.cast_le.mpr
    (le_nearest_of_le (n := (2 ^ (e - f.last x).toNat : ℕ)) ?_))
  rw [le_div_iff₀ (two_zpow_pos _), Int.cast_natCast, ← hpow]
  exact h

lemma last_mono (hx : 0 < x) (h : x ≤ y) : f.last x ≤ f.last y :=
  max_le_max_right _ (by linarith [Int.log_mono_right (b := 2) hx h])

/-- Rounding is monotone: within one scale, and from one scale to the next over the power of two
between. -/
lemma round_mono (hx : 0 ≤ x) (h : x ≤ y) : f.round x ≤ f.round y := by
  rcases hx.eq_or_lt with rfl | hpos
  · rw [round_zero]
    exact round_nonneg h
  · rcases (last_mono (f := f) hpos h).lt_or_eq with hlt | heq
    · have hy := hpos.trans_le h
      have hprecision := f.precision_pos
      have hlast : f.last y = Int.log 2 y + 1 - f.precision := by
        rcases max_choice (Int.log 2 y + 1 - f.precision) f.lowest with hmax | hmax
        · exact hmax
        · exact absurd hlt
            (not_lt.mpr ((show f.last y = f.lowest from hmax).trans_le (le_max_right _ _)))
      have hlog : Int.log 2 x < Int.log 2 y := by
        have := le_max_left (Int.log 2 x + 1 - f.precision) f.lowest
        change Int.log 2 x + 1 - f.precision ≤ f.last x at this
        omega
      have hxy : x ≤ 2 ^ Int.log 2 y :=
        (lt_two_zpow_log x).le.trans (zpow_le_zpow_right₀ one_le_two (by omega))
      exact (round_le_of_last (by omega) hxy).trans
        (le_round_of_last (by omega) (two_zpow_log_le hy))
    · rw [round, round, heq]
      refine mul_le_mul_of_nonneg_right (Int.cast_le.mpr (nearest_mono ?_)) (two_zpow_pos _).le
      exact div_le_div_of_nonneg_right h (two_zpow_pos _).le

/-- What is rounded is of the format. -/
lemma representable_round (h : 0 ≤ x) : f.Representable (f.round x) := by
  have hlowest : f.lowest ≤ f.last x := le_max_right _ _
  obtain ⟨n, hn⟩ : ∃ n : ℕ, nearest (x / 2 ^ f.last x) = n := by
    refine Int.eq_ofNat_of_zero_le (le_nearest_of_le ?_)
    rw [Int.cast_zero]
    exact div_nonneg h (two_zpow_pos _).le
  have hround : f.round x = n * 2 ^ f.last x := by rw [round, hn, Int.cast_natCast]
  have hle : n ≤ 2 ^ f.precision := by
    have hbound : x ≤ 2 ^ (f.last x + f.precision) := by
      refine (lt_two_zpow_log x).le.trans (zpow_le_zpow_right₀ one_le_two ?_)
      have := le_max_left (Int.log 2 x + 1 - f.precision) f.lowest
      change Int.log 2 x + 1 - f.precision ≤ f.last x at this
      omega
    have hnat : ((n : ℕ) : ℤ) ≤ ((2 ^ f.precision : ℕ) : ℤ) := by
      rw [← hn]
      refine nearest_le_of_le ?_
      rw [div_le_iff₀ (two_zpow_pos _), Int.cast_natCast, Nat.cast_pow, Nat.cast_ofNat,
        ← zpow_natCast, ← zpow_add₀ two_ne_zero, add_comm]
      exact hbound
    exact_mod_cast hnat
  rcases hle.lt_or_eq with hlt | rfl
  · exact ⟨n, f.last x, hlt, hlowest, hround⟩
  · -- one digit more: the next power of two
    refine ⟨1, f.last x + f.precision, Nat.one_lt_two_pow f.precision_pos.ne', by omega, ?_⟩
    rw [hround, Nat.cast_one, one_mul, zpow_add₀ two_ne_zero, zpow_natCast, Nat.cast_pow,
      Nat.cast_ofNat, mul_comm]

lemma round_round (h : 0 ≤ x) : f.round (f.round x) = f.round x :=
  round_of_representable (representable_round h)

end Format

end Nearest
