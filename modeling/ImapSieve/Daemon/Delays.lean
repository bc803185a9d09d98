import ImapSieve.Config
import ImapSieve.Daemon.Spacing
import Mathlib.Data.Rat.Floor

/-!
# The Bounds of the Delays

The backoff counts the calls of `next_delay` since the latest reset. Its arithmetic saturates
at three places, and at the first two of them nothing is lost for an admitted configuration: the
power is cut where the formula cuts it, and the product of a number of seconds and a `u32` fits
into 128 bits. So the delay before jitter is `nominal`, and the draw moves it within bounds. The
`f64` operations that follow are off by a part in 2^50 at most.
-/

namespace ImapSieve

open Effects

/-! ## Section 1: Sequences of calls -/

inductive BackoffCall where
  | nextDelay (r : ℚ)
  | reset

def BackoffCall.apply (b : Backoff) : BackoffCall → Backoff
  | .nextDelay r => (b.nextDelay r).2
  | .reset => b.reset

/-- The backoff after the calls. -/
def Backoff.after (b : Backoff) (calls : List BackoffCall) : Backoff :=
  calls.foldl BackoffCall.apply b

def BackoffCall.count (n : Nat) : BackoffCall → Nat
  | .nextDelay _ => n + 1
  | .reset => 0

/-- How often `next_delay` was called since the latest reset. -/
def callsSinceReset (calls : List BackoffCall) : Nat := calls.foldl BackoffCall.count 0

/-- The delay after `n` calls, before jitter. -/
def BackoffConfig.nominal (cfg : BackoffConfig) (n : Nat) : Nat :=
  min (cfg.initial * min (2 ^ n) (2 ^ 32 - 1)) cfg.max

namespace Backoff

theorem after_nextDelay (b : Backoff) (calls : List BackoffCall) (r : ℚ) :
    b.after (calls ++ [.nextDelay r]) = ((b.after calls).nextDelay r).2 := by
  rw [after, List.foldl_append]
  rfl

theorem after_reset (b : Backoff) (calls : List BackoffCall) :
    b.after (calls ++ [.reset]) = (b.after calls).reset := by
  rw [after, List.foldl_append]
  rfl

@[simp] theorem apply_cfg (b : Backoff) (call : BackoffCall) : (call.apply b).cfg = b.cfg := by
  cases call <;> rfl

@[simp] theorem after_cfg (b : Backoff) (calls : List BackoffCall) :
    (b.after calls).cfg = b.cfg := by
  induction calls generalizing b with
  | nil => rfl
  | cons call rest ih => exact (ih _).trans (apply_cfg b call)

/-- One call keeps count, up to the largest `u32`. -/
theorem attempt_apply {b : Backoff} {n : Nat} (h : b.attempt = min n (2 ^ 32 - 1))
    (call : BackoffCall) : (call.apply b).attempt = min (call.count n) (2 ^ 32 - 1) := by
  cases call with
  | nextDelay r =>
    rw [BackoffCall.apply, nextDelay_attempt, h, BackoffCall.count]
    omega
  | reset => rfl

theorem attempt_after (cfg : BackoffConfig) (calls : List BackoffCall) :
    ((new cfg).after calls).attempt = min (callsSinceReset calls) (2 ^ 32 - 1) := by
  -- by induction on the calls, from any count
  have hfold : ∀ (b : Backoff) (n : Nat), b.attempt = min n (2 ^ 32 - 1) →
      (b.after calls).attempt = min (calls.foldl BackoffCall.count n) (2 ^ 32 - 1) := by
    induction calls with
    | nil => exact fun b n h => h
    | cons call rest ih => exact fun b n h => ih _ _ (attempt_apply h call)
  exact hfold _ 0 rfl

/-! ## Section 2: The delay before jitter -/

/-- A counter that has stopped counting makes no difference to the power. -/
theorem factor_min (n : Nat) : factor (min n (2 ^ 32 - 1)) = min (2 ^ n) (2 ^ 32 - 1) := by
  rcases Nat.lt_or_ge n 32 with hn | hn
  · have hpow : 2 ^ n ≤ 2 ^ 31 := Nat.pow_le_pow_right (by decide) (by omega)
    rw [Nat.min_eq_left (by omega : n ≤ 2 ^ 32 - 1), factor, if_pos hn]
    omega
  · have hpow : 2 ^ 32 ≤ 2 ^ n := Nat.pow_le_pow_right (by decide) hn
    rw [factor, if_neg (by omega)]
    omega

theorem factor_lt (attempt : Nat) : factor attempt < 2 ^ 32 := by
  rw [factor]
  split
  · exact Nat.pow_lt_pow_right (by decide) ‹_›
  · decide

/-- Seconds times a `u32` are far from 2^128 milliseconds. -/
theorem product_lt {cfg : BackoffConfig} (hcfg : cfg.Admitted) (attempt : Nat) :
    cfg.initial * factor attempt < 2 ^ 128 := by
  obtain ⟨secs, hsecs⟩ := hcfg.initial
  have hinitial : cfg.initial < 2 ^ 64 * 1000 := hsecs ▸ fromSecs_lt secs
  calc cfg.initial * factor attempt
      ≤ 2 ^ 64 * 1000 * 2 ^ 32 := Nat.mul_le_mul hinitial.le (factor_lt attempt).le
    _ < 2 ^ 128 := by decide

theorem capped_after {cfg : BackoffConfig} (hcfg : cfg.Admitted) (calls : List BackoffCall) :
    ((new cfg).after calls).capped = cfg.nominal (callsSinceReset calls) := by
  -- the saturating product does not saturate
  have hproduct := product_lt hcfg (min (callsSinceReset calls) (2 ^ 32 - 1))
  rw [factor_min] at hproduct
  rw [capped, after_cfg, attempt_after, factor_min, BackoffConfig.nominal, new]
  exact congrArg (min · cfg.max) (Nat.min_eq_left (Nat.le_sub_one_of_lt hproduct))

end Backoff

/-- How the delay before jitter develops. -/
structure BackoffConfig.Grows (cfg : BackoffConfig) : Prop where
  monotone : Monotone cfg.nominal
  doubles : ∀ n < 31, cfg.nominal (n + 1) = min (2 * cfg.nominal n) cfg.max
  stays : ∀ m n, m ≤ n → cfg.nominal m = cfg.max → cfg.nominal n = cfg.max

namespace BackoffConfig

theorem nominal_le_max (cfg : BackoffConfig) (n : Nat) : cfg.nominal n ≤ cfg.max :=
  Nat.min_le_right _ _

theorem nominal_monotone (cfg : BackoffConfig) : Monotone cfg.nominal := by
  intro m n hmn
  have hpow : 2 ^ m ≤ 2 ^ n := Nat.pow_le_pow_right (by decide) hmn
  exact min_le_min_right _ (Nat.mul_le_mul_left _ (min_le_min_right _ hpow))

theorem nominal_succ (cfg : BackoffConfig) {n : Nat} (hn : n < 31) :
    cfg.nominal (n + 1) = min (2 * cfg.nominal n) cfg.max := by
  have hpow : 2 ^ (n + 1) ≤ 2 ^ 31 := Nat.pow_le_pow_right (by decide) hn
  have hcut : min (2 ^ (n + 1)) (2 ^ 32 - 1) = 2 * min (2 ^ n) (2 ^ 32 - 1) := by omega
  rw [nominal, nominal, hcut, Nat.mul_left_comm]
  omega

theorem grows (cfg : BackoffConfig) : cfg.Grows where
  monotone := cfg.nominal_monotone
  doubles _ hn := cfg.nominal_succ hn
  stays _ n hmn hmax :=
    (cfg.nominal_le_max n).antisymm (hmax ▸ cfg.nominal_monotone hmn)

end BackoffConfig

/-! ## Section 3: The delay after jitter -/

/-- No operation of `next_delay` for the draw leaves its type, and the range that is drawn from
is not empty. -/
structure Backoff.Fits (b : Backoff) (r : ℚ) : Prop where
  power : factor b.attempt < 2 ^ 32
  durations : b.cfg.initial < 2 ^ 128 ∧ b.cfg.max < 2 ^ 128
  product : b.cfg.initial * factor b.attempt < 2 ^ 128
  range : 0 ≤ b.cfg.jitter
  jitterFactor : 0 ≤ b.jitterFactor r ∧ b.jitterFactor r ≤ 2
  finite : f64 (f64 b.capped * b.jitterFactor r) < 2 ^ 1024 ∧ f64 b.cfg.max < 2 ^ 1024
  attempt : (b.nextDelay r).2.attempt < 2 ^ 32
  delay : (b.nextDelay r).1 < 2 ^ 64

/-- The delay for the draw, cut at the largest `u64`, is between the bounds that the jitter sets
around `nominal`, as if nothing were rounded. -/
def Backoff.Near (b : Backoff) (nominal : Nat) (r : ℚ) : Prop :=
  ∃ millis : Nat, (b.nextDelay r).1 = min millis (2 ^ 64 - 1) ∧
    ⌊(nominal : ℚ) * (1 - b.cfg.jitter / 2)⌋₊ ≤ millis ∧
    (millis : ℚ) ≤ min (b.cfg.max : ℚ) (nominal * (1 + b.cfg.jitter / 2))

/-- What the operations on an `f64` may be off by, relative to their result. -/
def slack : ℚ := 1 / 2 ^ 50

/-- The bounds around `nominal` with the rounding. The maximum is one up to 53 digits, and the
bounds of the jitter are missed by a millisecond at most up to 49. -/
structure BackoffConfig.Bounds (cfg : BackoffConfig) (nominal millis : Nat) : Prop where
  low : ⌊(nominal : ℚ) * (1 - cfg.jitter / 2) * (1 - slack)⌋₊ ≤ millis
  high : (millis : ℚ) ≤ nominal * (1 + cfg.jitter / 2) * (1 + slack)
  max : (millis : ℚ) ≤ f64 cfg.max
  exactMax : cfg.max ≤ 2 ^ 53 → millis ≤ cfg.max
  nearLow : nominal ≤ 2 ^ 49 → ⌊(nominal : ℚ) * (1 - cfg.jitter / 2)⌋₊ ≤ millis + 1
  nearHigh : nominal ≤ 2 ^ 49 → (millis : ℚ) ≤ nominal * (1 + cfg.jitter / 2) + 1

/-- The delay for the draw, cut at the largest `u64`, is within the bounds. -/
def Backoff.Within (b : Backoff) (nominal : Nat) (r : ℚ) : Prop :=
  ∃ millis : Nat, (b.nextDelay r).1 = min millis (2 ^ 64 - 1) ∧ b.cfg.Bounds nominal millis

namespace Backoff

variable {b : Backoff} {r : ℚ}

open Numeric (binary64)

/-- Powers of two are exact. -/
theorem f64_two_pow (k : Nat) : f64 (2 ^ k) = 2 ^ k := by
  refine Numeric.Format.round_eq_self _ ⟨1, k, by decide, ?_, by norm_num⟩
  change (-1074 : ℤ) ≤ k
  omega

theorem f64_one : f64 1 = 1 := by simpa using f64_two_pow 0

theorem f64_half : f64 (1 / 2) = 1 / 2 :=
  Numeric.Format.round_eq_self _ ⟨1, -1, by decide, by decide, by norm_num⟩

/-- Numbers around 1 are not too small for the bound on the error. -/
theorem normal_of_le {x : ℚ} (h : 1 / 2 ≤ x) :
    (2 : ℚ) ^ (binary64.least + binary64.digits - 1) ≤ x := by
  refine le_trans ?_ h
  calc (2 : ℚ) ^ (binary64.least + binary64.digits - 1)
      ≤ 2 ^ (-1 : ℤ) := zpow_le_zpow_right₀ (by norm_num) (by decide)
    _ = 1 / 2 := by norm_num

/-- Half a jitter is less than 1, and so are the distances around it. -/
theorem half_error (hjitter : 0 ≤ b.cfg.jitter) (hone : b.cfg.jitter ≤ 1) :
    |f64 (b.cfg.jitter / 2) - b.cfg.jitter / 2| ≤ 1 / 2 * binary64.unit := by
  rcases hjitter.eq_or_lt with hzero | hpos
  · rw [← hzero, zero_div, f64_zero, sub_zero, abs_zero]
    exact mul_nonneg (by norm_num) binary64.unit_pos.le
  have hhalf : 0 < b.cfg.jitter / 2 := by linarith
  have hlog : Int.log 2 |b.cfg.jitter / 2| < 0 := by
    rw [abs_of_pos hhalf]
    refine (Int.lt_zpow_iff_log_lt (by norm_num) hhalf).mp ?_
    rw [zpow_zero]
    linarith
  have hexponent : binary64.exponent (b.cfg.jitter / 2) ≤ -53 :=
    max_le (by change _ - (53 : ℤ) + 1 ≤ -53; omega) (by decide)
  calc |f64 (b.cfg.jitter / 2) - b.cfg.jitter / 2|
      ≤ binary64.quantum (b.cfg.jitter / 2) / 2 := binary64.round_error _
    _ ≤ 2 ^ (-53 : ℤ) / 2 :=
        div_le_div_of_nonneg_right (zpow_le_zpow_right₀ (by norm_num) hexponent) (by norm_num)
    _ = 1 / 2 * binary64.unit := by
        rw [Numeric.Format.unit]
        norm_num [binary64]

/-- `1.0 - (jitter / 2.0)` is at least a half. -/
theorem half_le (hjitter : 0 ≤ b.cfg.jitter) (hone : b.cfg.jitter ≤ 1) :
    1 / 2 ≤ 1 - f64 (b.cfg.jitter / 2) := by
  have hle : f64 (b.cfg.jitter / 2) ≤ f64 (1 / 2) := f64_mono (by linarith) (by linarith)
  rw [f64_half] at hle
  linarith

theorem half_le_f64 (hjitter : 0 ≤ b.cfg.jitter) (hone : b.cfg.jitter ≤ 1) :
    1 / 2 ≤ f64 (1 - f64 (b.cfg.jitter / 2)) :=
  f64_half.symm.trans_le (f64_mono (by norm_num) (half_le hjitter hone))

/-- `1.0 - (jitter / 2.0)` after two roundings. -/
theorem approx_difference (hjitter : 0 ≤ b.cfg.jitter) (hone : b.cfg.jitter ≤ 1) :
    binary64.Approx 2 (1 - b.cfg.jitter / 2) (f64 (1 - f64 (b.cfg.jitter / 2))) := by
  obtain ⟨hlow, hhigh⟩ := abs_le.mp (half_error hjitter hone)
  have hunit := binary64.unit_pos
  have hhalf : 1 / 2 * binary64.unit ≤ (1 - b.cfg.jitter / 2) * binary64.unit :=
    mul_le_mul_of_nonneg_right (by linarith) hunit.le
  have hfirst : binary64.Approx 1 (1 - b.cfg.jitter / 2) (1 - f64 (b.cfg.jitter / 2)) :=
    ⟨by linarith, by linarith⟩
  exact hfirst.round (by linarith) (.inr (normal_of_le (half_le hjitter hone)))

/-- The factor after three. -/
theorem approx_jitterFactor (hjitter : 0 ≤ b.cfg.jitter) (hone : b.cfg.jitter ≤ 1) (hr : 0 ≤ r) :
    binary64.Approx 3 (1 - b.cfg.jitter / 2 + r) (b.jitterFactor r) := by
  have hle := half_le_f64 hjitter hone
  exact ((approx_difference hjitter hone).add hr).round (by linarith)
    (.inr (normal_of_le (by linarith)))

theorem half_le_jitterFactor (hjitter : 0 ≤ b.cfg.jitter) (hone : b.cfg.jitter ≤ 1)
    (hr : 0 ≤ r) : 1 / 2 ≤ b.jitterFactor r := by
  have hle := half_le_f64 hjitter hone
  exact f64_half.symm.trans_le (f64_mono (by norm_num) (by linarith))

theorem approx_natCast (n : Nat) : binary64.Approx 1 (n : ℚ) (f64 n) := by
  refine Numeric.Format.Approx.rfl.round (Nat.cast_nonneg n) ?_
  rcases Nat.eq_zero_or_pos n with hzero | hpos
  · exact .inl (by rw [hzero, Nat.cast_zero])
  · exact .inr (normal_of_le (le_trans (by norm_num) (Nat.one_le_cast.mpr hpos)))

/-- The product after five. -/
theorem approx_product (hjitter : 0 ≤ b.cfg.jitter) (hone : b.cfg.jitter ≤ 1) (hr : 0 ≤ r) :
    binary64.Approx 5 (b.capped * (1 - b.cfg.jitter / 2 + r))
      (f64 (f64 b.capped * b.jitterFactor r)) := by
  have hfactor := half_le_jitterFactor hjitter hone hr
  have hcapped : (0 : ℚ) ≤ b.capped := Nat.cast_nonneg _
  rcases Nat.eq_zero_or_pos b.capped with hzero | hpos
  · rw [hzero, Nat.cast_zero, f64_zero, zero_mul, zero_mul, f64_zero]
    exact ⟨by simp, by simp⟩
  have hle : 1 ≤ f64 b.capped :=
    f64_one.symm.trans_le (f64_mono (by norm_num) (by exact_mod_cast hpos))
  refine ((approx_natCast b.capped).mul (approx_jitterFactor hjitter hone hr) hcapped
    (by linarith)).round (mul_nonneg hcapped (by linarith)) (.inr (normal_of_le ?_))
  calc (1 / 2 : ℚ) ≤ 1 * b.jitterFactor r := by linarith
    _ ≤ f64 b.capped * b.jitterFactor r := mul_le_mul_of_nonneg_right hle (by linarith)

theorem unit_binary64 : binary64.unit = 1 / 2 ^ 53 := by
  rw [Numeric.Format.unit]
  norm_num [binary64]

/-- Five roundings at most are within the slack. -/
theorem slack_low {n : Nat} (hn : n ≤ 5) {x y : ℚ} (hx : 0 ≤ x) (h : binary64.Approx n x y) :
    x * (1 - slack) ≤ y := by
  have hpow : (1 - binary64.unit) ^ 5 ≤ (1 - binary64.unit) ^ n :=
    pow_le_pow_of_le_one (by norm_num [unit_binary64]) (by norm_num [unit_binary64]) hn
  have hfive : 1 - slack ≤ (1 - binary64.unit) ^ 5 := by norm_num [slack, unit_binary64]
  exact (mul_le_mul_of_nonneg_left (hfive.trans hpow) hx).trans h.low

theorem slack_high {x y : ℚ} (hx : 0 ≤ x) (h : binary64.Approx 5 x y) :
    y ≤ x * (1 + slack) := by
  have hfive : (1 + binary64.unit) ^ 5 ≤ 1 + slack := by norm_num [slack, unit_binary64]
  exact h.high.trans (mul_le_mul_of_nonneg_left hfive hx)

/-- The delay is at least that of the smallest factor, and the cap is no lower. -/
theorem le_jittered (hjitter : 0 ≤ b.cfg.jitter) (hone : b.cfg.jitter ≤ 1) (hr : 0 ≤ r) :
    (b.capped : ℚ) * (1 - b.cfg.jitter / 2) * (1 - slack) ≤ b.jittered r := by
  have hcapped : (0 : ℚ) ≤ b.capped := Nat.cast_nonneg _
  have hslack : (0 : ℚ) ≤ 1 - slack := by norm_num [slack]
  have hmono : f64 b.capped ≤ f64 b.cfg.max :=
    f64_mono hcapped (Nat.cast_le.mpr b.capped_le_max)
  refine le_min ?_ (le_trans ?_ hmono)
  · calc (b.capped : ℚ) * (1 - b.cfg.jitter / 2) * (1 - slack)
        ≤ b.capped * (1 - b.cfg.jitter / 2 + r) * (1 - slack) :=
          mul_le_mul_of_nonneg_right (mul_le_mul_of_nonneg_left (by linarith) hcapped) hslack
      _ ≤ f64 (f64 b.capped * b.jitterFactor r) :=
          slack_low le_rfl (mul_nonneg hcapped (by linarith)) (approx_product hjitter hone hr)
  · calc (b.capped : ℚ) * (1 - b.cfg.jitter / 2) * (1 - slack)
        ≤ b.capped * (1 - slack) :=
          mul_le_mul_of_nonneg_right (mul_le_of_le_one_right hcapped (by linarith)) hslack
      _ ≤ f64 b.capped := slack_low (by norm_num) hcapped (approx_natCast _)

/-- The delay is at most that of the largest factor. -/
theorem jittered_le (hjitter : 0 ≤ b.cfg.jitter) (hone : b.cfg.jitter ≤ 1) (hr : 0 ≤ r)
    (hle : r ≤ b.cfg.jitter) :
    b.jittered r ≤ b.capped * (1 + b.cfg.jitter / 2) * (1 + slack) := by
  have hcapped : (0 : ℚ) ≤ b.capped := Nat.cast_nonneg _
  calc b.jittered r
      ≤ f64 (f64 b.capped * b.jitterFactor r) := min_le_left _ _
    _ ≤ b.capped * (1 - b.cfg.jitter / 2 + r) * (1 + slack) :=
        slack_high (mul_nonneg hcapped (by linarith)) (approx_product hjitter hone hr)
    _ ≤ b.capped * (1 + b.cfg.jitter / 2) * (1 + slack) :=
        mul_le_mul_of_nonneg_right (mul_le_mul_of_nonneg_left (by linarith) hcapped)
          (by norm_num [slack])

/-- Up to 49 digits the slack is less than a millisecond. -/
theorem floor_le_of_slack {x : ℚ} (hx : x ≤ 2 ^ 49) {millis : Nat}
    (h : ⌊x * (1 - slack)⌋₊ ≤ millis) : ⌊x⌋₊ ≤ millis + 1 := by
  have hslack : x - 1 ≤ x * (1 - slack) := by
    rw [slack]
    linarith
  have hfloor := (Nat.floor_mono hslack).trans h
  rw [Nat.floor_sub_one] at hfloor
  omega

theorem within_capped (hjitter : 0 ≤ b.cfg.jitter) (hone : b.cfg.jitter ≤ 1) (hr : 0 ≤ r)
    (hle : r ≤ b.cfg.jitter) : b.Within b.capped r := by
  have hcapped : (0 : ℚ) ≤ b.capped := Nat.cast_nonneg _
  have hlow := le_jittered hjitter hone hr
  have hhigh := jittered_le hjitter hone hr hle
  have hnonneg : 0 ≤ b.jittered r :=
    (mul_nonneg (mul_nonneg hcapped (by linarith)) (by norm_num [slack])).trans hlow
  have hfloor : (⌊b.jittered r⌋₊ : ℚ) ≤ b.jittered r := Nat.floor_le hnonneg
  have hmax : (⌊b.jittered r⌋₊ : ℚ) ≤ f64 b.cfg.max := hfloor.trans (min_le_right _ _)
  -- the truncation is the floor, since the delay is not negative
  refine ⟨⌊b.jittered r⌋₊, rfl, Nat.floor_mono hlow, hfloor.trans hhigh, hmax, ?_, ?_, ?_⟩
  · intro hdigits
    rw [f64_natCast hdigits] at hmax
    exact Nat.cast_le.mp hmax
  · intro hdigits
    have hcast : (b.capped : ℚ) ≤ 2 ^ 49 := by exact_mod_cast hdigits
    refine floor_le_of_slack ?_ (Nat.floor_mono hlow)
    exact (mul_le_of_le_one_right hcapped (by linarith)).trans hcast
  · intro hdigits
    have hcast : (b.capped : ℚ) ≤ 2 ^ 49 := by exact_mod_cast hdigits
    have hproduct : (b.capped : ℚ) * (1 + b.cfg.jitter / 2) ≤ 2 ^ 49 * 2 :=
      mul_le_mul hcast (by linarith) (by linarith) (by norm_num)
    calc (⌊b.jittered r⌋₊ : ℚ)
        ≤ b.capped * (1 + b.cfg.jitter / 2) * (1 + slack) := hfloor.trans hhigh
      _ ≤ b.capped * (1 + b.cfg.jitter / 2) + 1 := by
          rw [slack]
          linarith

theorem jitterFactor_le (hjitter : 0 ≤ b.cfg.jitter) (hone : b.cfg.jitter ≤ 1) (hr : 0 ≤ r)
    (hle : r ≤ b.cfg.jitter) : b.jitterFactor r ≤ 2 := by
  have htwo : f64 2 = 2 := by simpa using f64_two_pow 1
  have hhalf := half_le hjitter hone
  have hdifference : f64 (1 - f64 (b.cfg.jitter / 2)) ≤ 1 :=
    (f64_mono (by linarith) (sub_le_self _ (f64_nonneg (by linarith)))).trans_eq f64_one
  have hnonneg := half_le_f64 hjitter hone
  exact (f64_mono (by linarith) (by linarith)).trans_eq htwo

/-- A number of milliseconds that fits into 128 bits is far below the largest `f64`. -/
theorem f64_le {n : Nat} (hn : n < 2 ^ 128) : f64 n ≤ 2 ^ 128 :=
  (f64_mono (Nat.cast_nonneg n) (by exact_mod_cast hn.le)).trans_eq (f64_two_pow 128)

theorem product_le (hjitter : 0 ≤ b.cfg.jitter) (hone : b.cfg.jitter ≤ 1) (hr : 0 ≤ r)
    (hle : r ≤ b.cfg.jitter) : f64 (f64 b.capped * b.jitterFactor r) ≤ 2 ^ 129 := by
  have hcapped : b.capped < 2 ^ 128 := by
    rw [capped]
    omega
  have hfactor := half_le_jitterFactor hjitter hone hr
  have hnonneg : 0 ≤ f64 b.capped := f64_nonneg (Nat.cast_nonneg _)
  refine (f64_mono (mul_nonneg hnonneg (by linarith)) ?_).trans_eq (f64_two_pow 129)
  calc f64 b.capped * b.jitterFactor r
      ≤ 2 ^ 128 * 2 :=
        mul_le_mul (f64_le hcapped) (jitterFactor_le hjitter hone hr hle) (by linarith)
          (by norm_num)
    _ = 2 ^ 129 := by norm_num

theorem fits {cfg : BackoffConfig} (hcfg : cfg.Admitted) (hb : b.cfg = cfg) (hr : 0 ≤ r)
    (hle : r ≤ cfg.jitter) : b.Fits r := by
  subst hb
  obtain ⟨secs, hinitial⟩ := hcfg.initial
  obtain ⟨secs', hmax⟩ := hcfg.max
  obtain ⟨hjitter, hone⟩ := hcfg.jitter
  have hsecs := fromSecs_lt secs
  have hsecs' := fromSecs_lt secs'
  have hfactor := half_le_jitterFactor hjitter hone hr
  refine ⟨factor_lt _, ⟨by omega, by omega⟩, product_lt hcfg _, hjitter,
    ⟨by linarith, jitterFactor_le hjitter hone hr hle⟩, ⟨?_, ?_⟩, ?_, ?_⟩
  · exact (product_le hjitter hone hr hle).trans_lt (pow_lt_pow_right₀ (by norm_num) (by decide))
  · exact (f64_le (by omega)).trans_lt (pow_lt_pow_right₀ (by norm_num) (by decide))
  · rw [nextDelay_attempt]
    omega
  · exact Nat.lt_of_le_of_lt (Nat.min_le_right _ _) (by decide)

theorem within_after {cfg : BackoffConfig} (hcfg : cfg.Admitted) (calls : List BackoffCall)
    (hr : 0 ≤ r) (hle : r ≤ cfg.jitter) :
    ((new cfg).after calls).Within (cfg.nominal (callsSinceReset calls)) r := by
  have hb : ((new cfg).after calls).cfg.jitter = cfg.jitter := by rw [after_cfg, new]
  rw [← capped_after hcfg]
  exact within_capped (hb ▸ hcfg.jitter.1) (hb ▸ hcfg.jitter.2) hr (hb ▸ hle)

end Backoff

/-- After any calls, whatever they drew, the next one overflows nowhere and returns a delay near
the nominal one, which grows up to the maximum. -/
theorem delays_bounded (cfg : BackoffConfig) (hcfg : cfg.Admitted) :
    (∀ (calls : List BackoffCall) (r : ℚ), 0 ≤ r → r ≤ cfg.jitter →
      ((Backoff.new cfg).after calls).Fits r ∧
        ((Backoff.new cfg).after calls).Within (cfg.nominal (callsSinceReset calls)) r) ∧
      cfg.Grows := by
  refine ⟨fun calls r hr hle => ⟨?_, ?_⟩, cfg.grows⟩
  · exact Backoff.fits hcfg (Backoff.after_cfg _ _) hr hle
  · exact Backoff.within_after hcfg calls hr hle

/-- The delay before jitter of the default configuration, after two failures and a reset. -/
theorem delays_bounded_default :
    ((Backoff.new ⟨5000, 300000, 1 / 2⟩).after [.nextDelay 0, .reset, .nextDelay (1 / 3)]).Within
      10000 (1 / 4) :=
  ((delays_bounded ⟨5000, 300000, 1 / 2⟩
    ⟨⟨by norm_num, by norm_num⟩, ⟨5, rfl⟩, ⟨300, rfl⟩⟩).1
      [.nextDelay 0, .reset, .nextDelay (1 / 3)] (1 / 4) (by norm_num) (by norm_num)).2

/-- The jitter 0.37, as an `f64`. -/
def roundedDown : BackoffConfig := ⟨5000, 300000, 3332663724254167 / 2 ^ 53⟩

/-- As many milliseconds as no `f64` has. -/
def roundedUp : BackoffConfig := ⟨72057594037931000, 72057594037931000, 0⟩

/-- The first delay of the one is below the bounds of exact arithmetic, and that of the other
above them. -/
theorem not_delays_near :
    (roundedDown.Admitted ∧ ¬ (Backoff.new roundedDown).Near (roundedDown.nominal 0) 0) ∧
      roundedUp.Admitted ∧ ¬ (Backoff.new roundedUp).Near (roundedUp.nominal 0) 0 := by
  have hdown : ((Backoff.new roundedDown).nextDelay 0).1 = 4074 := by decide +kernel
  have hup : ((Backoff.new roundedUp).nextDelay 0).1 = 72057594037931008 := by decide +kernel
  refine ⟨⟨⟨by norm_num [roundedDown], ⟨5, rfl⟩, ⟨300, rfl⟩⟩, ?_⟩,
    ⟨by norm_num [roundedUp], ⟨72057594037931, rfl⟩, ⟨72057594037931, rfl⟩⟩, ?_⟩
  · rintro ⟨millis, heq, hlow, -⟩
    have hfloor : 4075 ≤
        ⌊(roundedDown.nominal 0 : ℚ) * (1 - (Backoff.new roundedDown).cfg.jitter / 2)⌋₊ := by
      refine Nat.le_floor ?_
      norm_num [BackoffConfig.nominal, Backoff.new, roundedDown]
    rw [hdown] at heq
    omega
  · rintro ⟨millis, heq, -, hhigh⟩
    have hmax : millis ≤ 72057594037931000 :=
      Nat.cast_le.mp (hhigh.trans (min_le_left _ _))
    rw [hup] at heq
    omega

/-! ## Section 4: The delays of a run -/

/-- The backoff comes from a new one by calls, and a delay that is waited for is within the
bounds around its nominal one. -/
def Stage.Follows (cfg : BackoffConfig) : Stage → Prop
  | .connecting backoff | .refused backoff | .inSession backoff =>
      ∃ calls, backoff = (Backoff.new cfg).after calls
  | .waiting delay backoff =>
      (∃ calls, backoff = (Backoff.new cfg).after calls) ∧
        ∃ calls r, delay = (((Backoff.new cfg).after calls).nextDelay r).1 ∧
          ((Backoff.new cfg).after calls).Within (cfg.nominal (callsSinceReset calls)) r
  | .leaving => True

section Runs

variable {S : Surroundings Call Reply World} {cfg : Settings} {w₀ w w' : World} {tr : History}
  {st : Stage} {c : Call} {r : Reply c}

/-- The draw for the next delay. -/
theorem follows_wait {cfg : BackoffConfig} {backoff : Backoff} {draw : ℚ} (hcfg : cfg.Admitted)
    (h : ∃ calls, backoff = (Backoff.new cfg).after calls)
    (hans : w.Answers (.genRange backoff.cfg.jitter) draw w') :
    (Stage.wait backoff draw).Follows cfg := by
  obtain ⟨calls, rfl⟩ := h
  have hjitter : ((Backoff.new cfg).after calls).cfg.jitter = cfg.jitter := by
    rw [Backoff.after_cfg, Backoff.new]
  rw [hjitter] at hans
  obtain ⟨hlow, hhigh⟩ := hans.1 hcfg.jitter.1
  exact ⟨⟨calls ++ [.nextDelay draw], (Backoff.after_nextDelay _ calls draw).symm⟩,
    calls, draw, rfl, Backoff.within_after hcfg calls hlow hhigh⟩

/-- Every call follows the backoff. -/
theorem follows_next (hcfg : cfg.backoffCfg.Admitted) (hallow : st.Allows c)
    (hans : w.Answers c r w') (h : st.Follows cfg.backoffCfg) :
    (st.next c r).Follows cfg.backoffCfg := by
  cases hallow with
  | connect backoff =>
    obtain ⟨calls, rfl⟩ := h
    rcases r with _ | e | u
    · trivial
    · exact ⟨calls, rfl⟩
    -- the connection was made: `backoff.reset()`
    · exact ⟨calls ++ [.reset], (Backoff.after_reset _ calls).symm⟩
  | retry backoff => exact follows_wait hcfg h hans
  | reconnect backoff => exact follows_wait hcfg h hans
  | sleep delay backoff =>
    rcases r with _ | u
    · trivial
    · exact h.1
  | @session backoff c hc =>
    cases c with
    | idle timeout =>
      rcases r with _ | r
      · trivial
      · exact h
    | connect => cases hc
    | sleep delay => cases hc
    | genRange jitter => cases hc
    | _ => exact h

/-- The delays that are waited for. -/
def Bounded (cfg : BackoffConfig) (_ : World) (c : Call) (_ : Reply c) (_ : History) : Prop :=
  ∀ delay, c = .sleep delay → ∃ calls r, delay = (((Backoff.new cfg).after calls).nextDelay r).1 ∧
    ((Backoff.new cfg).after calls).Within (cfg.nominal (callsSinceReset calls)) r

/-- Whatever becomes of the connections, a daemon with a valid configuration waits for delays
within the bounds only. -/
theorem sleeps_bounded (hS : Admissible S) (hcfg : cfg.backoffCfg.Admitted)
    (hx : Comes S cfg w₀ w tr) : Along (Bounded cfg.backoffCfg) tr := by
  have hstage : ∀ w tr, Comes S cfg w₀ w tr → (stageOf cfg tr).Follows cfg.backoffCfg := by
    intro w tr hx
    refine course_invariant (I := fun _ tr => (stageOf cfg tr).Follows cfg.backoffCfg) hS hx
      ⟨[], rfl⟩ ?_ (fun _ _ _ h _ => h) fun _ _ _ _ _ => ⟨[], rfl⟩
    intro w tr c r w' _ h _ hallow hans
    exact follows_next hcfg hallow (hS.answers hans) h
  refine course_invariant (I := fun _ tr => Along (Bounded cfg.backoffCfg) tr) hS hx along_nil
    ?_ (fun _ _ _ h _ => h) fun _ _ _ h _ => along_restarted h
  intro w tr c r w' hat h _ hallow _
  refine along_called ?_ h
  rintro delay rfl
  have hfollows := hstage w tr hat
  generalize stageOf cfg tr = st at hallow hfollows
  cases hallow with
  | sleep delay backoff => exact hfollows.2
  | session hc => cases hc

end Runs

end ImapSieve
