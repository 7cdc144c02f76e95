import Mathlib.Algebra.Order.Ring.Rat
import Mathlib.Order.WithBot
import ProviderOwned.Lib.Binary64
import ProviderOwned.Planner.Search

/-!
# Floating-point numbers and their values

A `double` is not a number, infinite or a rational. Comparisons are those of the values and fail
where one side is not a number (`Numbers`). Results are rounded to the nearest value (`Rounded`).
Exact times and the numbers of binary64 are both.
-/

namespace ProviderOwned.Planner

open Arithmetic

/-- Numbers that compare as the values they stand for. -/
class Numbers (D : Type) extends Arithmetic D where
  llround : D → Int
  value : D → Option (WithBot (WithTop ℚ))
  lt_iff (a b : D) : lt a b ↔ ∃ x ∈ value a, ∃ y ∈ value b, x < y
  le_iff (a b : D) : le a b ↔ ∃ x ∈ value a, ∃ y ∈ value b, x ≤ y
  eq_iff (a b : D) : eq a b ↔ ∃ x ∈ value a, ∃ y ∈ value b, x = y
  value_zero : value (ofNat 0) = some 0
  value_infinite : value infinite = some ⊤

namespace Numbers

variable {D : Type} [Numbers D] {a b c : D}

lemma lt_irrefl : ¬ lt a a := by
  rw [lt_iff]
  rintro ⟨x, hx, y, hy, hlt⟩
  obtain rfl := Option.mem_unique hx hy
  exact (lt_self_iff_false x).mp hlt

lemma lt_trans (h : lt a b) (h' : lt b c) : lt a c := by
  rw [lt_iff] at h h' ⊢
  obtain ⟨x, hx, y, hy, hxy⟩ := h
  obtain ⟨y', hy', z, hz, hyz⟩ := h'
  obtain rfl := Option.mem_unique hy hy'
  exact ⟨x, hx, z, hz, hxy.trans hyz⟩

lemma not_lt_of_eq (h : eq a b) : ¬ lt a b := by
  rw [eq_iff] at h
  rw [lt_iff]
  obtain ⟨x, hx, y, hy, rfl⟩ := h
  rintro ⟨x', hx', y', hy', hlt⟩
  obtain rfl := Option.mem_unique hx hx'
  obtain rfl := Option.mem_unique hy hy'
  exact (lt_self_iff_false x).mp hlt

lemma value_of_lt_zero (h : lt (ofNat 0) a) : ∃ x ∈ value a, 0 < x := by
  rw [lt_iff, value_zero] at h
  obtain ⟨x, hx, y, hy, hlt⟩ := h
  obtain rfl := Option.some.inj hx
  exact ⟨y, hy, hlt⟩

lemma value_of_le_zero (h : le (ofNat 0) a) : ∃ x ∈ value a, 0 ≤ x := by
  rw [le_iff, value_zero] at h
  obtain ⟨x, hx, y, hy, hle⟩ := h
  obtain rfl := Option.some.inj hx
  exact ⟨y, hy, hle⟩

end Numbers

/-- Numbers whose operations give the exact result, rounded. -/
class Rounded (D : Type) extends Numbers D where
  rounded : ℚ → WithBot (WithTop ℚ)
  rounded_mono : Monotone rounded
  /-- A value is what it is rounded to. -/
  rounded_value {a : D} {x : ℚ} : value a = some ((x : WithTop ℚ) : WithBot (WithTop ℚ)) →
    rounded x = ((x : WithTop ℚ) : WithBot (WithTop ℚ))
  /-- Integers up to 53 digits are values, and what a power of two multiplies them to. -/
  rounded_scaled (n k : ℕ) : n < 2 ^ 53 → k ≤ 900 →
    rounded (n * 2 ^ k) = ((n * 2 ^ k : ℚ) : WithTop ℚ)
  /-- Below every positive value is one whose multiples up to 53 digits are values. -/
  grain {a : D} {x : ℚ} : value a = some ((x : WithTop ℚ) : WithBot (WithTop ℚ)) → 0 < x →
    ∃ g : ℚ, 0 < g ∧ g ≤ x ∧ ∀ n : ℕ, n < 2 ^ 53 → rounded (n * g) = ((n * g : ℚ) : WithTop ℚ)
  value_ofNat (n : ℕ) : value (ofNat n) = some (rounded n)
  value_add {a b : D} {x y : ℚ} : value a = some ((x : WithTop ℚ) : WithBot (WithTop ℚ)) →
    value b = some ((y : WithTop ℚ) : WithBot (WithTop ℚ)) → value (a + b) = some (rounded (x + y))
  value_mul {a b : D} {x y : ℚ} : value a = some ((x : WithTop ℚ) : WithBot (WithTop ℚ)) →
    value b = some ((y : WithTop ℚ) : WithBot (WithTop ℚ)) → value (a * b) = some (rounded (x * y))
  value_div {a b : D} {x y : ℚ} : value a = some ((x : WithTop ℚ) : WithBot (WithTop ℚ)) →
    value b = some ((y : WithTop ℚ) : WithBot (WithTop ℚ)) → y ≠ 0 →
      value (a / b) = some (rounded (x / y))
  value_add_top {a b : D} {x y : WithBot (WithTop ℚ)} : 0 ≤ x → 0 ≤ y → value a = some x →
    value b = some y → (x = ⊤ ∨ y = ⊤) → value (a + b) = some ⊤
  value_mul_top {a b : D} {x y : WithBot (WithTop ℚ)} : 0 < x → 0 < y → value a = some x →
    value b = some y → (x = ⊤ ∨ y = ⊤) → value (a * b) = some ⊤

lemma top_or_coe_of_nonneg {x : WithBot (WithTop ℚ)} (h : 0 ≤ x) :
    x = ⊤ ∨ ∃ q : ℚ, x = ((q : WithTop ℚ) : WithBot (WithTop ℚ)) ∧ 0 ≤ q := by
  cases x with
  | bot => exact absurd h (by simp)
  | coe x =>
    cases x with
    | top => exact .inl rfl
    | coe q => exact .inr ⟨q, rfl, WithTop.coe_le_coe.mp (WithBot.coe_le_coe.mp h)⟩

namespace Rounded

open Numbers (value)

variable {D : Type} [Rounded D] {a b c : D}

lemma rounded_natCast {n : ℕ} (h : n < 2 ^ 53) : rounded (D := D) n = ((n : ℚ) : WithTop ℚ) := by
  simpa using rounded_scaled (D := D) n 0 h (Nat.zero_le _)

lemma value_one : value (ofNat 1 : D) = some (((1 : ℚ) : WithTop ℚ) : WithBot (WithTop ℚ)) := by
  rw [value_ofNat, rounded_natCast (by norm_num), Nat.cast_one]

/-- One and a number that is not negative is at least one. -/
lemma one_le_value_add (h : le (ofNat 0) a) :
    ∃ x ∈ value (ofNat 1 + a), ((1 : ℚ) : WithTop ℚ) ≤ x := by
  obtain ⟨x, hx, hnonneg⟩ := Numbers.value_of_le_zero h
  rcases top_or_coe_of_nonneg hnonneg with htop | ⟨q, rfl, hq⟩
  · exact ⟨⊤, value_add_top zero_le_one hnonneg value_one hx (.inr htop), le_top⟩
  · refine ⟨_, value_add value_one hx, ?_⟩
    rw [← rounded_value (a := (ofNat 1 : D)) value_one]
    exact rounded_mono (by linarith)

/-- A factor of at least one makes a positive number no less. -/
lemma le_value_mul {x y : WithBot (WithTop ℚ)} (ha : value a = some x) (hx : 0 < x)
    (hb : value b = some y) (hy : ((1 : ℚ) : WithTop ℚ) ≤ y) : ∃ z ∈ value (a * b), x ≤ z := by
  have hypos : 0 < y := zero_lt_one.trans_le hy
  rcases top_or_coe_of_nonneg hx.le with htop | ⟨p, rfl, hp⟩
  · exact ⟨⊤, value_mul_top hx hypos ha hb (.inl htop), le_top⟩
  · rcases top_or_coe_of_nonneg hypos.le with htop | ⟨q, rfl, -⟩
    · exact ⟨⊤, value_mul_top hx hypos ha hb (.inr htop), le_top⟩
    · have hone : 1 ≤ q := WithTop.coe_le_coe.mp (WithBot.coe_le_coe.mp hy)
      refine ⟨_, value_mul ha hb, ?_⟩
      rw [← rounded_value ha]
      exact rounded_mono (le_mul_of_one_le_right hp hone)

/-- What is less with a margin on it is less. -/
lemma lt_of_mul_lt (hpos : lt (ofNat 0) a) (hmargin : le (ofNat 0) b)
    (h : lt (a * (ofNat 1 + b)) c) :
    lt a c := by
  obtain ⟨x, hx, hxpos⟩ := Numbers.value_of_lt_zero hpos
  obtain ⟨y, hy, hone⟩ := one_le_value_add hmargin
  obtain ⟨z, hz, hle⟩ := le_value_mul hx hxpos hy hone
  rw [Numbers.lt_iff] at h ⊢
  obtain ⟨z', hz', w, hw, hlt⟩ := h
  obtain rfl := Option.mem_unique hz hz'
  exact ⟨x, hx, w, hw, hle.trans_lt hlt⟩

/-- What lies between two values is rounded to one between them. -/
lemma rounded_between {lo hi q : ℚ} (hlo : rounded (D := D) lo = ((lo : ℚ) : WithTop ℚ))
    (hhi : rounded (D := D) hi = ((hi : ℚ) : WithTop ℚ)) (hlq : lo ≤ q) (hqh : q ≤ hi) :
    ∃ r : ℚ, rounded (D := D) q = ((r : ℚ) : WithTop ℚ) ∧ lo ≤ r ∧ r ≤ hi := by
  have hlow := rounded_mono (D := D) hlq
  have hhigh := rounded_mono (D := D) hqh
  rw [hlo] at hlow
  rw [hhi] at hhigh
  cases hr : rounded (D := D) q with
  | bot => exact absurd hlow (by rw [hr]; simp)
  | coe r =>
    rw [hr] at hlow hhigh
    cases r with
    | top => exact absurd hhigh (by simp)
    | coe r =>
      exact ⟨r, rfl, WithTop.coe_le_coe.mp (WithBot.coe_le_coe.mp hlow),
        WithTop.coe_le_coe.mp (WithBot.coe_le_coe.mp hhigh)⟩

/-- A mean weighted by `m` and `n` lies between the same bounds, if the multiples of the bounds are
values. -/
lemma mean_between {m n : ℕ} {x y lo hi : ℚ} (hn : 0 < m + n) (hlt : m + n < 2 ^ 53)
    (hlo : ∀ k ≤ m + n, rounded (D := D) (k * lo) = ((k * lo : ℚ) : WithTop ℚ))
    (hhi : ∀ k ≤ m + n, rounded (D := D) (k * hi) = ((k * hi : ℚ) : WithTop ℚ))
    (ha : value a = some ((x : WithTop ℚ) : WithBot (WithTop ℚ)))
    (hb : value b = some ((y : WithTop ℚ) : WithBot (WithTop ℚ)))
    (hx : lo ≤ x ∧ x ≤ hi) (hy : lo ≤ y ∧ y ≤ hi) :
    ∃ z : ℚ, value ((a * ofNat m + b * ofNat n) / (ofNat m + ofNat n)) =
      some ((z : WithTop ℚ) : WithBot (WithTop ℚ)) ∧ lo ≤ z ∧ z ≤ hi := by
  have hnat : ∀ k ≤ m + n, value (ofNat k : D) =
      some (((k : ℚ) : WithTop ℚ) : WithBot (WithTop ℚ)) := by
    intro k hk
    rw [value_ofNat, rounded_natCast (hk.trans_lt hlt)]
  have hproduct : ∀ k ≤ m + n, ∀ {c : D} {q : ℚ}, value c =
      some ((q : WithTop ℚ) : WithBot (WithTop ℚ)) →
      lo ≤ q → q ≤ hi → ∃ r : ℚ, value (c * ofNat k) =
        some ((r : WithTop ℚ) : WithBot (WithTop ℚ)) ∧
        k * lo ≤ r ∧ r ≤ k * hi := by
    intro k hk c q hc hlq hqh
    rw [value_mul hc (hnat k hk), mul_comm q]
    obtain ⟨r, hr, hbounds⟩ := rounded_between (hlo k hk) (hhi k hk)
      (mul_le_mul_of_nonneg_left hlq k.cast_nonneg) (mul_le_mul_of_nonneg_left hqh k.cast_nonneg)
    exact ⟨r, congrArg some hr, hbounds⟩
  obtain ⟨p, hp, hplo, hphi⟩ := hproduct m (Nat.le_add_right m n) ha hx.1 hx.2
  obtain ⟨q, hq, hqlo, hqhi⟩ := hproduct n (Nat.le_add_left n m) hb hy.1 hy.2
  have hweight : value (ofNat m + ofNat n : D) =
      some ((((m + n : ℕ) : ℚ) : WithTop ℚ) : WithBot (WithTop ℚ)) := by
    rw [value_add (hnat m (Nat.le_add_right m n)) (hnat n (Nat.le_add_left n m)), ← Nat.cast_add,
      rounded_natCast hlt]
  obtain ⟨s, hs, hslo, hshi⟩ := rounded_between (hlo _ le_rfl) (hhi _ le_rfl)
    (show ((m + n : ℕ) : ℚ) * lo ≤ p + q by push_cast; linarith)
    (show p + q ≤ ((m + n : ℕ) : ℚ) * hi by push_cast; linarith)
  have hpos : (0 : ℚ) < (m + n : ℕ) := Nat.cast_pos.mpr hn
  have hone : ∀ {c : ℚ}, (∀ k ≤ m + n, rounded (D := D) (k * c) = ((k * c : ℚ) : WithTop ℚ)) →
      rounded (D := D) c = ((c : ℚ) : WithTop ℚ) := by
    intro c hc
    simpa using hc 1 hn
  have hsum : value (a * ofNat m + b * ofNat n) = some ((s : WithTop ℚ) : WithBot (WithTop ℚ)) := by
    rw [value_add hp hq, hs]
  rw [value_div hsum hweight hpos.ne']
  have hzlo : lo ≤ s / (m + n : ℕ) := (le_div_iff₀' hpos).mpr hslo
  have hzhi : s / (m + n : ℕ) ≤ hi := (div_le_iff₀' hpos).mpr hshi
  obtain ⟨z, hz, hbounds⟩ := rounded_between (hone hlo) (hone hhi) hzlo hzhi
  exact ⟨z, congrArg some hz, hbounds⟩

end Rounded

/-! ### Exact times -/

def Time.extended : Time → WithBot (WithTop ℚ)
  | .finite q => ((q : WithTop ℚ) : WithBot (WithTop ℚ))
  | .infinite => ((⊤ : WithTop ℚ) : WithBot (WithTop ℚ))

lemma Time.less_iff {a b : Time} : a.less b ↔ a.extended < b.extended := by
  cases a <;> cases b <;> simp [Time.less, Time.extended, -WithBot.coe_top]

lemma Time.extended_injective {a b : Time} (h : a.extended = b.extended) : a = b := by
  cases a <;> cases b <;> simp_all [Time.extended, -WithBot.coe_top]

instance : Numbers Time where
  llround
    | .finite q => if 0 ≤ q then (q + 1 / 2).floor else -(1 / 2 - q).floor
    | .infinite => 0
  value a := some a.extended
  lt_iff a b := by
    simp only [Option.mem_def, Option.some.injEq, exists_eq_left']
    exact Time.less_iff
  le_iff a b := by
    simp only [Option.mem_def, Option.some.injEq, exists_eq_left']
    change !Time.less b a ↔ _
    rw [Bool.not_eq_true', ← Bool.not_eq_true, Time.less_iff, not_lt]
  eq_iff a b := by
    simp only [Option.mem_def, Option.some.injEq, exists_eq_left']
    change decide (a = b) ↔ _
    rw [decide_eq_true_eq]
    exact ⟨congrArg _, Time.extended_injective⟩
  value_zero := rfl
  value_infinite := rfl

lemma Time.finite_of_extended {a : Time} {x : ℚ}
    (h : a.extended = ((x : WithTop ℚ) : WithBot (WithTop ℚ))) : a = .finite x :=
  Time.extended_injective (h : a.extended = (Time.finite x).extended)

lemma Time.infinite_of_extended {a : Time} (h : a.extended = ⊤) : a = .infinite :=
  Time.extended_injective (h : a.extended = Time.infinite.extended)

lemma Time.lift_infinite {f : Rat → Rat → Rat} {a b : Time} {x y : WithBot (WithTop ℚ)}
    (ha : some a.extended = some x) (hb : some b.extended = some y) (h : x = ⊤ ∨ y = ⊤) :
    some (Time.lift f a b).extended = some ⊤ := by
  rcases h with rfl | rfl
  · obtain rfl := Time.infinite_of_extended (Option.some.inj ha)
    cases b <;> rfl
  · obtain rfl := Time.infinite_of_extended (Option.some.inj hb)
    cases a <;> rfl

lemma Time.lift_finite {f : Rat → Rat → Rat} {a b : Time} {x y : ℚ}
    (ha : some a.extended = some ((x : WithTop ℚ) : WithBot (WithTop ℚ)))
    (hb : some b.extended = some ((y : WithTop ℚ) : WithBot (WithTop ℚ))) :
    some (Time.lift f a b).extended = some ((f x y : WithTop ℚ) : WithBot (WithTop ℚ)) := by
  obtain rfl := Time.finite_of_extended (Option.some.inj ha)
  obtain rfl := Time.finite_of_extended (Option.some.inj hb)
  rfl

instance : Rounded Time where
  rounded x := ((x : WithTop ℚ) : WithBot (WithTop ℚ))
  rounded_mono _ _ h := WithBot.coe_le_coe.mpr (WithTop.coe_le_coe.mpr h)
  rounded_value _ := rfl
  rounded_scaled _ _ _ _ := rfl
  grain _ hx := ⟨_, hx, le_rfl, fun _ _ => rfl⟩
  value_ofNat _ := rfl
  value_add := Time.lift_finite
  value_mul := Time.lift_finite
  value_div ha hb _ := Time.lift_finite ha hb
  value_add_top _ _ := Time.lift_infinite
  value_mul_top _ _ := Time.lift_infinite

/-! ### Double precision -/

open Binary64 (Double)

instance : Arithmetic Double where
  ofNat n := Double.ofRat n
  decimal n k := Double.ofRat (n / 10 ^ k)
  infinite := .infinite false
  lt := Double.compare (· < ·)
  le := Double.compare (· ≤ ·)
  eq := Double.compare (· = ·)
  eq_infinite := by decide

instance : Numbers Double where
  llround := Double.llround
  value := Double.value
  lt_iff _ _ := Double.compare_iff _
  le_iff _ _ := Double.compare_iff _
  eq_iff _ _ := Double.compare_iff _
  value_zero := by
    refine (Double.value_ofRat 0).trans ?_
    rw [Double.rounded_zero]
    rfl
  value_infinite := rfl

instance : Rounded Double where
  rounded := Double.rounded
  rounded_mono := Double.rounded_mono
  rounded_value := Double.rounded_value
  rounded_scaled n k hn hk := by
    have hrounded := Double.rounded_multiple (e := k) hn (by omega) (by exact_mod_cast hk)
    rwa [zpow_natCast] at hrounded
  grain h hx := ⟨2 ^ (-1074 : ℤ), Nearest.Format.two_zpow_pos _, Double.finest_le h hx,
    fun n hn => Double.rounded_multiple hn le_rfl (by norm_num)⟩
  value_ofNat n := Double.value_ofRat n
  value_add := Double.value_add
  value_mul := Double.value_mul
  value_div := Double.value_div
  value_add_top := Double.value_add_top
  value_mul_top := Double.value_mul_top

end ProviderOwned.Planner
