import Mathlib.Data.Int.Log
import Mathlib.Data.Rat.Floor
import Mathlib.Tactic.Linarith
import Mathlib.Tactic.NormNum
import Mathlib.Tactic.Positivity
import Mathlib.Tactic.Ring

/-!
# Rounding to a Binary Format

The values of a binary floating-point format are `m * 2 ^ e`, where `m` has a bounded number of
digits and `e` a least value. A rational is rounded to the nearest of them, and to the one with
the even last digit when there are two. The range of a format is not bounded above here, so that
there are no infinities.

`Format.round_error`: how far off rounding is. `Format.round_mono`: it is monotone.
`Format.round_eq_self`: a value of the format is left alone. `Format.Approx`: what a number of
operations one after the other is off by.
-/

namespace Numeric

/-! ## Section 1: The nearest integer -/

/-- The nearest integer, and of two the even one. -/
def nearestEven (x : ℚ) : ℤ :=
  if x - ⌊x⌋ < 1 / 2 then ⌊x⌋
  else if 1 / 2 < x - ⌊x⌋ then ⌊x⌋ + 1
  else if ⌊x⌋ % 2 = 0 then ⌊x⌋
  else ⌊x⌋ + 1

theorem nearestEven_error (x : ℚ) : |(nearestEven x : ℚ) - x| ≤ 1 / 2 := by
  have hlow := Int.floor_le x
  have hhigh := Int.lt_floor_add_one x
  rw [nearestEven, abs_le]
  split_ifs <;> push_cast <;> constructor <;> linarith

theorem floor_le_nearestEven (x : ℚ) : ⌊x⌋ ≤ nearestEven x := by
  rw [nearestEven]
  split_ifs <;> omega

theorem nearestEven_le_floor (x : ℚ) : nearestEven x ≤ ⌊x⌋ + 1 := by
  rw [nearestEven]
  split_ifs <;> omega

@[simp] theorem nearestEven_intCast (k : ℤ) : nearestEven (k : ℚ) = k := by
  simp [nearestEven]

theorem nearestEven_mono {x y : ℚ} (hxy : x ≤ y) : nearestEven x ≤ nearestEven y := by
  rcases (Int.floor_mono hxy).lt_or_eq with hlt | heq
  · -- an integer lies between the two
    calc nearestEven x ≤ ⌊x⌋ + 1 := nearestEven_le_floor x
      _ ≤ ⌊y⌋ := hlt
      _ ≤ nearestEven y := floor_le_nearestEven y
  · rw [nearestEven, nearestEven, ← heq]
    split_ifs <;> first | omega | linarith

/-- Integers are bounds. -/
theorem nearestEven_le {x : ℚ} {k : ℤ} (h : x ≤ k) : nearestEven x ≤ k :=
  (nearestEven_mono h).trans_eq (nearestEven_intCast k)

theorem le_nearestEven {x : ℚ} {k : ℤ} (h : (k : ℚ) ≤ x) : k ≤ nearestEven x :=
  (nearestEven_intCast k).symm.trans_le (nearestEven_mono h)

/-! ## Section 2: Formats -/

/-- The digits of a significand, and the least exponent of its last digit. -/
structure Format where
  digits : Nat
  least : ℤ
  digits_pos : 0 < digits

/-- `f64`: 53 digits, and the least value is `2 ^ -1074`. -/
def binary64 : Format := ⟨53, -1074, by decide⟩

namespace Format

variable (F : Format) {x y : ℚ}

/-- The exponent of the last digit of the values around `x`. -/
def exponent (x : ℚ) : ℤ := max (Int.log 2 |x| - F.digits + 1) F.least

/-- The distance of the values around `x`. -/
def quantum (x : ℚ) : ℚ := 2 ^ F.exponent x

/-- The nearest value of the format. -/
def round (x : ℚ) : ℚ := nearestEven (x / F.quantum x) * F.quantum x

/-- A value of the format. -/
def Represents (x : ℚ) : Prop :=
  ∃ (m : ℤ) (e : ℤ), |m| ≤ 2 ^ F.digits ∧ F.least ≤ e ∧ x = m * 2 ^ e

theorem quantum_pos (x : ℚ) : 0 < F.quantum x := zpow_pos (by norm_num) _

@[simp] theorem round_zero : F.round 0 = 0 := by
  have hzero : nearestEven 0 = 0 := nearestEven_intCast 0
  rw [round, zero_div, hzero, Int.cast_zero, zero_mul]

/-- Rounding is off by half the distance of the values at most. -/
theorem round_error (x : ℚ) : |F.round x - x| ≤ F.quantum x / 2 := by
  have hpos := F.quantum_pos x
  have hsplit : F.round x - x =
      (nearestEven (x / F.quantum x) - x / F.quantum x) * F.quantum x := by
    rw [round, sub_mul, div_mul_cancel₀ _ hpos.ne']
  calc |F.round x - x|
      = |(nearestEven (x / F.quantum x) : ℚ) - x / F.quantum x| * F.quantum x := by
        rw [hsplit, abs_mul, abs_of_pos hpos]
    _ ≤ 1 / 2 * F.quantum x := mul_le_mul_of_nonneg_right (nearestEven_error _) hpos.le
    _ = F.quantum x / 2 := by ring

/-- Relative to a value that is not too small, half the distance is one digit more than the
format has. -/
theorem quantum_le (h : (2 : ℚ) ^ (F.least + F.digits - 1) ≤ |x|) :
    F.quantum x / 2 ≤ |x| * 2 ^ (-(F.digits : ℤ)) := by
  have hpos : 0 < |x| := (zpow_pos (by norm_num) _).trans_le h
  have hlog : F.least + F.digits - 1 ≤ Int.log 2 |x| :=
    (Int.zpow_le_iff_le_log (by norm_num) hpos).mp h
  have hexponent : F.exponent x = Int.log 2 |x| - F.digits + 1 := max_eq_left (by omega)
  have hle : (2 : ℚ) ^ Int.log 2 |x| ≤ |x| := Int.zpow_log_le_self (by norm_num) hpos
  calc F.quantum x / 2
      = 2 ^ Int.log 2 |x| * 2 ^ (-(F.digits : ℤ)) := by
        rw [quantum, hexponent, sub_eq_add_neg, zpow_add_one₀ (by norm_num),
          zpow_add₀ (by norm_num), mul_div_cancel_right₀ _ (by norm_num)]
    _ ≤ |x| * 2 ^ (-(F.digits : ℤ)) :=
        mul_le_mul_of_nonneg_right hle (zpow_pos (by norm_num) _).le

/-! ## Section 3: Values of the format -/

theorem abs_lt_quantum (x : ℚ) : |x / F.quantum x| < 2 ^ F.digits := by
  have hpos := F.quantum_pos x
  have hlog : Int.log 2 |x| + 1 ≤ F.digits + F.exponent x := by
    have := le_max_left (Int.log 2 |x| - F.digits + 1) F.least
    rw [exponent]
    omega
  rw [abs_div, abs_of_pos hpos, div_lt_iff₀ hpos]
  calc |x| < 2 ^ (Int.log 2 |x| + 1) := Int.lt_zpow_succ_log_self (by norm_num) _
    _ ≤ 2 ^ (F.digits + F.exponent x) := zpow_le_zpow_right₀ (by norm_num) hlog
    _ = 2 ^ F.digits * F.quantum x := by
        rw [zpow_add₀ (by norm_num), zpow_natCast, quantum]

/-- What is rounded is a value of the format. -/
theorem represents_round (x : ℚ) : F.Represents (F.round x) := by
  have hlt := abs_lt.mp (F.abs_lt_quantum x)
  refine ⟨nearestEven (x / F.quantum x), F.exponent x, abs_le.mpr ⟨?_, ?_⟩, le_max_right _ _, rfl⟩
  · exact le_nearestEven (by push_cast; exact hlt.1.le)
  · exact nearestEven_le (by push_cast; exact hlt.2.le)

theorem exists_zpow_eq {e : ℤ} (he : F.exponent x ≤ e) :
    ∃ k : Nat, (2 : ℚ) ^ e = 2 ^ k * F.quantum x := by
  obtain ⟨k, hk⟩ := Int.eq_ofNat_of_zero_le (Int.sub_nonneg.mpr he)
  refine ⟨k, ?_⟩
  rw [quantum, ← zpow_natCast, ← zpow_add₀ (by norm_num)]
  congr 1
  omega

/-- Multiples of the distance are bounds. -/
theorem round_le {m e : ℤ} (he : F.exponent x ≤ e) (h : x ≤ m * 2 ^ e) :
    F.round x ≤ m * 2 ^ e := by
  obtain ⟨k, hpow⟩ := F.exists_zpow_eq he
  have hpos := F.quantum_pos x
  have hnearest : nearestEven (x / F.quantum x) ≤ m * 2 ^ k := by
    refine nearestEven_le ?_
    push_cast
    rwa [div_le_iff₀ hpos, mul_assoc, ← hpow]
  rw [round, hpow, ← mul_assoc]
  exact mul_le_mul_of_nonneg_right (by exact_mod_cast hnearest) hpos.le

theorem le_round {m e : ℤ} (he : F.exponent x ≤ e) (h : m * 2 ^ e ≤ x) :
    m * 2 ^ e ≤ F.round x := by
  obtain ⟨k, hpow⟩ := F.exists_zpow_eq he
  have hpos := F.quantum_pos x
  have hnearest : m * 2 ^ k ≤ nearestEven (x / F.quantum x) := by
    refine le_nearestEven ?_
    push_cast
    rwa [le_div_iff₀ hpos, mul_assoc, ← hpow]
  rw [round, hpow, ← mul_assoc]
  exact mul_le_mul_of_nonneg_right (by exact_mod_cast hnearest) hpos.le

/-- A multiple of the distance is left alone. -/
theorem round_of_exponent_le {m e : ℤ} (hx : x = m * 2 ^ e) (he : F.exponent x ≤ e) :
    F.round x = x :=
  le_antisymm ((F.round_le he hx.le).trans_eq hx.symm) (hx.trans_le (F.le_round he hx.ge))

/-- A value of the format is left alone. -/
theorem round_eq_self (h : F.Represents x) : F.round x = x := by
  obtain ⟨m, e, hm, he, hx⟩ := h
  rcases eq_or_ne m 0 with rfl | hne
  · rw [hx, Int.cast_zero, zero_mul, round_zero]
  have hpos : (0 : ℚ) < |(m : ℚ)| := abs_pos.mpr (Int.cast_ne_zero.mpr hne)
  have hpow : (0 : ℚ) < 2 ^ e := zpow_pos (by norm_num) e
  have habs : |x| = |(m : ℚ)| * 2 ^ e := by rw [hx, abs_mul, abs_of_pos hpow]
  have hxpos : 0 < |x| := habs ▸ mul_pos hpos hpow
  have hdigits := F.digits_pos
  rcases hm.lt_or_eq with hlt | heq
  · -- the last digit of `x` is at `e` or above
    refine F.round_of_exponent_le hx (max_le ?_ he)
    have hlog : Int.log 2 |x| < F.digits + e := by
      refine (Int.lt_zpow_iff_log_lt (by norm_num) hxpos).mp ?_
      push_cast
      rw [habs, zpow_add₀ (by norm_num), zpow_natCast]
      exact mul_lt_mul_of_pos_right (by exact_mod_cast hlt) hpow
    omega
  · -- one digit too many, but the significand is a power of two
    have hlog : Int.log 2 |x| = F.digits + e := by
      have hlast : |x| = ((2 : Nat) : ℚ) ^ ((F.digits : ℤ) + e) := by
        rw [habs, ← Int.cast_abs, heq]
        push_cast
        rw [zpow_add₀ (by norm_num), zpow_natCast]
      rw [hlast]
      exact Int.log_zpow (by norm_num) _
    have hexponent : F.exponent x ≤ F.digits + e := by
      rw [exponent, hlog]
      exact max_le (by omega) (by omega)
    rcases abs_eq (by positivity) |>.mp heq with hm | hm
    · refine F.round_of_exponent_le (m := 1) (e := F.digits + e) ?_ hexponent
      rw [hx, hm]
      push_cast
      rw [zpow_add₀ (by norm_num), zpow_natCast, one_mul]
    · refine F.round_of_exponent_le (m := -1) (e := F.digits + e) ?_ hexponent
      rw [hx, hm]
      push_cast
      rw [zpow_add₀ (by norm_num), zpow_natCast, neg_one_mul, neg_mul]

@[simp] theorem round_round (x : ℚ) : F.round (F.round x) = F.round x :=
  F.round_eq_self (F.represents_round x)

/-- Numbers of few digits are values of the format. -/
theorem represents_natCast {n : Nat} (hn : n ≤ 2 ^ F.digits) (hleast : F.least ≤ 0) :
    F.Represents n := by
  refine ⟨n, 0, ?_, hleast, by simp⟩
  rw [abs_of_nonneg (Int.natCast_nonneg n)]
  exact_mod_cast hn

/-! ## Section 4: Rounding is monotone -/

theorem exponent_mono (hx : 0 < x) (hxy : x ≤ y) : F.exponent x ≤ F.exponent y := by
  rw [exponent, exponent, abs_of_pos hx, abs_of_pos (hx.trans_le hxy)]
  have hlog : Int.log 2 x ≤ Int.log 2 y := Int.log_mono_right hx hxy
  exact max_le_max_right _ (by omega)

theorem round_nonneg (hx : 0 ≤ x) : 0 ≤ F.round x := by
  have hnearest : 0 ≤ nearestEven (x / F.quantum x) :=
    le_nearestEven (by exact_mod_cast div_nonneg hx (F.quantum_pos x).le)
  exact mul_nonneg (by exact_mod_cast hnearest) (F.quantum_pos x).le

theorem round_mono (hx : 0 ≤ x) (hxy : x ≤ y) : F.round x ≤ F.round y := by
  rcases hx.eq_or_lt with rfl | hpos
  · rw [round_zero]
    exact F.round_nonneg hxy
  have hypos : 0 < y := hpos.trans_le hxy
  rcases (F.exponent_mono hpos hxy).eq_or_lt with heq | hlt
  · -- the values around the two have the same distance
    have hquantum : F.quantum x = F.quantum y := congrArg (fun e : ℤ => (2 : ℚ) ^ e) heq
    have hnearest : nearestEven (x / F.quantum y) ≤ nearestEven (y / F.quantum y) :=
      nearestEven_mono (div_le_div_of_nonneg_right hxy (F.quantum_pos y).le)
    rw [round, round, hquantum]
    exact mul_le_mul_of_nonneg_right (by exact_mod_cast hnearest) (F.quantum_pos y).le
  · -- the power of two at the first digit of `y` lies between them
    have hdigits := F.digits_pos
    have hlog : Int.log 2 x < Int.log 2 y := by
      rw [exponent, exponent, abs_of_pos hpos, abs_of_pos hypos] at hlt
      omega
    have hfirst : F.exponent y ≤ Int.log 2 y := by
      rw [exponent, exponent, abs_of_pos hpos, abs_of_pos hypos] at hlt
      rw [exponent, abs_of_pos hypos]
      omega
    have hxpow : x ≤ 2 ^ Int.log 2 y :=
      calc x ≤ 2 ^ (Int.log 2 x + 1) := (Int.lt_zpow_succ_log_self (by norm_num) x).le
        _ ≤ 2 ^ Int.log 2 y := zpow_le_zpow_right₀ (by norm_num) hlog
    have hpowy : (2 : ℚ) ^ Int.log 2 y ≤ y := Int.zpow_log_le_self (by norm_num) hypos
    calc F.round x
        ≤ (1 : ℤ) * 2 ^ Int.log 2 y := F.round_le (by omega) (by simpa using hxpow)
      _ ≤ F.round y := F.le_round hfirst (by simpa using hpowy)

/-! ## Section 5: Several operations -/

/-- What one operation is off by, relative to its result. -/
def unit : ℚ := 2 ^ (-(F.digits : ℤ))

theorem unit_pos : 0 < F.unit := zpow_pos (by norm_num) _

theorem unit_le_one : F.unit ≤ 1 :=
  zpow_le_one_of_nonpos₀ (by norm_num) (neg_nonpos.mpr (Int.natCast_nonneg _))

/-- `y` is `x` up to `n` roundings. -/
structure Approx (n : Nat) (x y : ℚ) : Prop where
  low : x * (1 - F.unit) ^ n ≤ y
  high : y ≤ x * (1 + F.unit) ^ n

namespace Approx

variable {F} {m n : Nat} {x' y' : ℚ}

theorem rfl : F.Approx 0 x x := ⟨by simp, by simp⟩

theorem nonneg (h : F.Approx n x y) (hx : 0 ≤ x) : 0 ≤ y :=
  (mul_nonneg hx (pow_nonneg (sub_nonneg.mpr F.unit_le_one) n)).trans h.low

/-- One rounding more, of a value that is zero or not too small. -/
theorem round (h : F.Approx n x y) (hx : 0 ≤ x)
    (hnormal : y = 0 ∨ 2 ^ (F.least + F.digits - 1) ≤ y) : F.Approx (n + 1) x (F.round y) := by
  have hy := h.nonneg hx
  have hunit := F.unit_pos
  have herror : |F.round y - y| ≤ y * F.unit := by
    rcases hnormal with rfl | hnormal
    · simp
    · have hquantum := F.quantum_le (x := y) (by rwa [abs_of_nonneg hy])
      rw [abs_of_nonneg hy] at hquantum
      exact (F.round_error y).trans hquantum
  rw [abs_le] at herror
  constructor
  · calc x * (1 - F.unit) ^ (n + 1)
        = x * (1 - F.unit) ^ n * (1 - F.unit) := by ring
      _ ≤ y * (1 - F.unit) :=
          mul_le_mul_of_nonneg_right h.low (sub_nonneg.mpr F.unit_le_one)
      _ ≤ F.round y := by linarith [herror.1]
  · calc F.round y
        ≤ y * (1 + F.unit) := by linarith [herror.2]
      _ ≤ x * (1 + F.unit) ^ n * (1 + F.unit) :=
          mul_le_mul_of_nonneg_right h.high (by linarith)
      _ = x * (1 + F.unit) ^ (n + 1) := by ring

theorem mul (h : F.Approx m x y) (h' : F.Approx n x' y') (hx : 0 ≤ x) (hx' : 0 ≤ x') :
    F.Approx (m + n) (x * x') (y * y') := by
  have hunit := F.unit_pos
  have hlow : 0 ≤ x' * (1 - F.unit) ^ n :=
    mul_nonneg hx' (pow_nonneg (sub_nonneg.mpr F.unit_le_one) n)
  have hhigh : 0 ≤ x * (1 + F.unit) ^ m := mul_nonneg hx (pow_nonneg (by linarith) m)
  constructor
  · calc x * x' * (1 - F.unit) ^ (m + n)
        = x * (1 - F.unit) ^ m * (x' * (1 - F.unit) ^ n) := by ring
      _ ≤ y * y' := mul_le_mul h.low h'.low hlow (h.nonneg hx)
  · calc y * y'
        ≤ x * (1 + F.unit) ^ m * (x' * (1 + F.unit) ^ n) :=
          mul_le_mul h.high h'.high (h'.nonneg hx') hhigh
      _ = x * x' * (1 + F.unit) ^ (m + n) := by ring

/-- What is added is not rounded. -/
theorem add (h : F.Approx n x y) {z : ℚ} (hz : 0 ≤ z) : F.Approx n (x + z) (y + z) := by
  have hunit := F.unit_pos
  have hlow : (1 - F.unit) ^ n ≤ 1 :=
    pow_le_one₀ (sub_nonneg.mpr F.unit_le_one) (by linarith)
  have hhigh : 1 ≤ (1 + F.unit) ^ n := one_le_pow₀ (by linarith)
  constructor
  · calc (x + z) * (1 - F.unit) ^ n
        = x * (1 - F.unit) ^ n + z * (1 - F.unit) ^ n := by ring
      _ ≤ y + z := add_le_add h.low (mul_le_of_le_one_right hz hlow)
  · calc y + z
        ≤ x * (1 + F.unit) ^ n + z * (1 + F.unit) ^ n :=
          add_le_add h.high (le_mul_of_one_le_right hz hhigh)
      _ = (x + z) * (1 + F.unit) ^ n := by ring

end Approx

end Format

end Numeric
