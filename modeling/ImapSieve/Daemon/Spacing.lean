import ImapSieve.Daemon.Validity
import ImapSieve.Protocol.Supervision
import Mathlib.Data.Nat.Cast.Order.Ring

/-!
# The Spacing of Connection Attempts

The backoff doubles the delay with every failed attempt, and it is reset by every connection
that is made, whatever becomes of the session on it. So failures to connect are spaced out
exponentially, and a failed session is followed by the initial delay.

Without jitter the only draw is 0, and the delay is determined by the attempts alone.
-/

namespace ImapSieve

open Effects

/-! ## Section 1: Delays -/

namespace Backoff

/-- The delay after `k` failures, in milliseconds. -/
def doubled (cfg : BackoffConfig) (k : Nat) : Nat := min (cfg.initial * 2 ^ k) cfg.max

/-- A number of milliseconds, converted to an `f64` and to a `u64`. -/
def rounded (millis : Nat) : Nat := min (f64 millis).floor.toNat (2 ^ 64 - 1)

/-- The delay after `k` failures as it is waited for. -/
def nominal (cfg : BackoffConfig) (k : Nat) : Nat := rounded (doubled cfg k)

/-- Delays of 53 digits, which are hundreds of thousands of years, are exact. -/
theorem rounded_eq {millis : Nat} (h : millis ≤ 2 ^ 53) : rounded millis = millis := by
  rw [rounded, f64_natCast h]
  change min ⌊(millis : ℚ)⌋.toNat (2 ^ 64 - 1) = millis
  rw [Int.floor_natCast, Int.toNat_natCast]
  omega

theorem rounded_mono : Monotone rounded := by
  intro m n hmn
  have hf64 : f64 m ≤ f64 n := f64_mono (Nat.cast_nonneg m) (Nat.cast_le.mpr hmn)
  exact min_le_min_right _ (Int.toNat_le_toNat (Int.floor_mono hf64))

/-- Above the largest `u64` all delays are the same. -/
theorem rounded_of_le {millis : Nat} (h : 2 ^ 64 ≤ millis) : rounded millis = 2 ^ 64 - 1 := by
  have hpow : f64 ((2 ^ 64 : Nat) : ℚ) = (2 ^ 64 : Nat) :=
    Numeric.Format.round_eq_self _ ⟨1, 64, by decide, by decide, by norm_num⟩
  have hleast : rounded (2 ^ 64) = 2 ^ 64 - 1 := by
    rw [rounded, hpow]
    change min ⌊((2 ^ 64 : Nat) : ℚ)⌋.toNat (2 ^ 64 - 1) = 2 ^ 64 - 1
    rw [Int.floor_natCast, Int.toNat_natCast]
    rfl
  exact (Nat.min_le_right _ _).antisymm (hleast.symm.trans_le (rounded_mono h))

theorem capped_le_max (b : Backoff) : b.capped ≤ b.cfg.max := Nat.min_le_right _ _

/-- Without jitter the delay is the capped one. -/
theorem nextDelay_zero {b : Backoff} (h : b.cfg.jitter = 0) :
    (b.nextDelay 0).1 = rounded b.capped := by
  have hone : f64 (1 : ℚ) = 1 := by exact_mod_cast f64_natCast (n := 1) (by decide)
  have hmax : f64 b.capped ≤ f64 b.cfg.max :=
    f64_mono (Nat.cast_nonneg _) (Nat.cast_le.mpr b.capped_le_max)
  have hfactor : b.jitterFactor 0 = 1 := by
    rw [jitterFactor, h, zero_div, f64_zero, sub_zero, hone, add_zero, hone]
  have hjittered : b.jittered 0 = f64 b.capped := by
    rw [jittered, hfactor, mul_one, f64_f64]
    exact min_eq_left hmax
  rw [nextDelay, hjittered, rounded]

/-- The delay doubles with every attempt. -/
theorem rounded_capped {b : Backoff} {k : Nat} (hattempt : b.attempt = k) (hk : k < 32) :
    rounded b.capped = nominal b.cfg k := by
  subst hattempt
  rw [nominal, doubled, capped, factor, if_pos hk]
  generalize b.cfg.initial * 2 ^ b.attempt = delay
  rcases Nat.lt_or_ge delay (2 ^ 128) with hlt | hge
  · rw [Nat.min_eq_left (by omega : delay ≤ 2 ^ 128 - 1)]
  rcases Nat.lt_or_ge b.cfg.max (2 ^ 64) with hmax | hmax
  · congr 1
    omega
  · -- the product saturates, and the delay with it
    rw [rounded_of_le (by omega), rounded_of_le (by omega)]

theorem nextDelay_attempt (b : Backoff) (r : ℚ) :
    (b.nextDelay r).2.attempt = min (b.attempt + 1) (2 ^ 32 - 1) := rfl

end Backoff

/-! ## Section 2: Failed attempts -/

/-- The attempts since the latest connection was made, which counts as the first with the
session on it, or since the start of the process. -/
def attempts : History → Nat
  | [] => 0
  | .restarted _ :: _ => 0
  | .called _ c r :: tr =>
      match c, r with
      | .connect, .finished (.ok ()) => 1
      | .connect, .finished (.error _) => attempts tr + 1
      | _, _ => attempts tr

theorem attempts_called {w : World} {c : Call} {r : Reply c} {tr : History} (hc : c ≠ .connect) :
    attempts (.called w c r :: tr) = attempts tr := by
  cases c with
  | connect => exact absurd rfl hc
  | _ => rfl

/-- The backoff has counted `k` failures. -/
structure Backoff.Counts (cfg : Settings) (k : Nat) (b : Backoff) : Prop where
  settings : b.cfg = cfg.backoffCfg
  counter : b.attempt = min k (2 ^ 32 - 1)

/-- What the backoff has counted in a stage after `n` attempts. -/
def Stage.Counts (cfg : Settings) (n : Nat) : Stage → Prop
  | .connecting backoff => backoff.Counts cfg n
  | .refused backoff | .inSession backoff => ∃ k, n = k + 1 ∧ backoff.Counts cfg k
  | .waiting delay backoff => backoff.Counts cfg n ∧
      ∃ k, n = k + 1 ∧ (k < 32 → delay = Backoff.nominal cfg.backoffCfg k)
  | .leaving => True

section Stages

variable {cfg : Settings} {st : Stage} {w w' : World} {tr : History} {c : Call} {r : Reply c}

/-- The draw for the next delay. -/
theorem counts_wait {backoff : Backoff} {k : Nat} {draw : ℚ}
    (hjitter : cfg.backoffCfg.jitter = 0) (h : backoff.Counts cfg k) (hdraw : draw = 0) :
    (Stage.wait backoff draw).Counts cfg (k + 1) := by
  have hb : backoff.cfg.jitter = 0 := by rw [h.settings, hjitter]
  refine ⟨⟨h.settings, ?_⟩, k, rfl, fun hk => ?_⟩
  · rw [Backoff.nextDelay_attempt, h.counter]
    omega
  · have hcounter : backoff.attempt = k := by
      rw [h.counter]
      omega
    rw [hdraw, Backoff.nextDelay_zero hb, Backoff.rounded_capped hcounter hk, h.settings]

/-- Without jitter there is one draw. -/
theorem draw_zero {jitter draw : ℚ} (hans : w.Answers (.genRange jitter) draw w')
    (hjitter : jitter = 0) : draw = 0 := by
  subst hjitter
  obtain ⟨hlow, hhigh⟩ := hans.1 le_rfl
  exact le_antisymm hhigh hlow

/-- Every call keeps count. -/
theorem counts_next (hjitter : cfg.backoffCfg.jitter = 0) (hallow : st.Allows c)
    (hans : w.Answers c r w') (h : st.Counts cfg (attempts tr)) :
    (st.next c r).Counts cfg (attempts (.called w c r :: tr)) := by
  cases hallow with
  | connect backoff =>
    rcases r with _ | e | u
    · trivial
    -- the connection was refused: one attempt more than the backoff has counted
    · exact ⟨attempts tr, rfl, h⟩
    -- the connection was made: `backoff.reset()`
    · exact ⟨0, rfl, h.settings, rfl⟩
  | retry backoff =>
    -- the draw counts the attempt
    obtain ⟨k, hk, hcounts⟩ := h
    rw [attempts_called (by simp), hk]
    exact counts_wait hjitter hcounts (draw_zero hans (by rw [hcounts.settings, hjitter]))
  | reconnect backoff =>
    obtain ⟨k, hk, hcounts⟩ := h
    rw [attempts_called (by simp), hk]
    exact counts_wait hjitter hcounts (draw_zero hans (by rw [hcounts.settings, hjitter]))
  | sleep delay backoff =>
    rcases r with _ | u
    · trivial
    · exact h.1
  | @session backoff c hc =>
    -- within a session nothing is counted
    rw [attempts_called (by rintro rfl; cases hc)]
    cases c with
    | idle timeout =>
      rcases r with _ | r
      · trivial
      · exact h
    | connect => cases hc
    | sleep delay => cases hc
    | genRange jitter => cases hc
    | _ => exact h

end Stages

/-! ## Section 3: The spacing of attempts -/

/-- After the `k+1`st attempt the delay is `delayAfter k`. -/
def Spaced (count : History → Nat) (delayAfter : Nat → Nat) (_ : World) (c : Call) (_ : Reply c)
    (before : History) : Prop :=
  ∀ delay k, c = .sleep delay → count before = k + 1 → k < 32 → delay = delayAfter k

section Runs

variable {S : Surroundings Call Reply World} {cfg : Settings} {w₀ w : World} {tr : History}

theorem counts_of_comes (hS : Admissible S) (hjitter : cfg.backoffCfg.jitter = 0)
    (hx : Comes S cfg w₀ w tr) : (stageOf cfg tr).Counts cfg (attempts tr) := by
  refine course_invariant (I := fun _ tr => (stageOf cfg tr).Counts cfg (attempts tr)) hS hx
    ⟨rfl, rfl⟩ ?_ (fun _ _ _ h _ => h) fun _ _ _ _ _ => ⟨rfl, rfl⟩
  intro w tr c r w' _ h _ hallow hans
  exact counts_next hjitter hallow (hS.answers hans) h

theorem spaced_of_comes (hS : Admissible S) (hjitter : cfg.backoffCfg.jitter = 0)
    (hx : Comes S cfg w₀ w tr) :
    Along (Spaced attempts (Backoff.nominal cfg.backoffCfg)) tr := by
  refine course_invariant
    (I := fun _ tr => Along (Spaced attempts (Backoff.nominal cfg.backoffCfg)) tr) hS hx along_nil
    ?_ (fun _ _ _ h _ => h) fun _ _ _ h _ => along_restarted h
  intro w tr c r w' hat h _ hallow _
  refine along_called ?_ h
  rintro delay k rfl hcount hk
  -- the delay was computed from the count when it was drawn
  have hcounts := counts_of_comes hS hjitter hat
  generalize stageOf cfg tr = st at hallow hcounts
  cases hallow with
  | sleep delay backoff =>
    obtain ⟨-, k', hk', hdelay⟩ := hcounts
    obtain rfl : k' = k := by omega
    exact hdelay hk
  | session hc => cases hc

/-- Delays double with every failed attempt since the latest connection, the session on it
included, so that a failed session is followed by the initial delay. They are exact as far as an
`f64` is. -/
theorem attempts_spaced (cfg : Settings) (hjitter : cfg.backoffCfg.jitter = 0) (w₀ : World)
    (x : Config Call Reply World (Except CoreError Unit))
    (hx : Reachable daemonWorld (Supervisor.run cfg) w₀ x) :
    Along (Spaced attempts (Backoff.nominal cfg.backoffCfg)) x.trace ∧
      ∀ k, Backoff.doubled cfg.backoffCfg k ≤ 2 ^ 53 →
        Backoff.nominal cfg.backoffCfg k = Backoff.doubled cfg.backoffCfg k :=
  ⟨spaced_of_comes admissible_daemonWorld hjitter hx.visits, fun _ h => Backoff.rounded_eq h⟩

end Runs

/-! ## Section 4: Sessions that fail -/

/-- The attempts since the latest session that has come to IDLE, so that its first batch was
completed, or since the start of the process. -/
def failures : History → Nat
  | [] => 0
  | .restarted _ :: _ => 0
  | .called _ c r :: tr =>
      match c, r with
      | .connect, .finished _ => failures tr + 1
      | .idle _, _ => 0
      | _, _ => failures tr

/-- The monitored mailbox does not exist, so that every session fails at SELECT. -/
def failingRun (n : Nat) : Config Call Reply World (Except CoreError Unit) :=
  sampleDaemon { idle := true } 10 (sampleWorld ⟨fun _ => none⟩ .done) n

/-- Both waits of the run are for the initial delay. -/
theorem attempts_spaced_failing :
    Along (Spaced attempts (Backoff.nominal (sampleSettings 10).backoffCfg))
        (failingRun 14).trace ∧
      Backoff.nominal (sampleSettings 10).backoffCfg 0 = 1000 :=
  have h := attempts_spaced (sampleSettings 10) rfl _ _ (reachable_freePlay .start)
  ⟨h.1, h.2 0 (by decide)⟩

/-- Two sessions fail in a row, and the second wait is as long as the first. -/
theorem not_failures_spaced :
    ∃ x, Reachable daemonWorld (Supervisor.run (sampleSettings 10))
        (sampleWorld ⟨fun _ => none⟩ .done) x ∧
      (sampleSettings 10).backoffCfg.jitter = 0 ∧
      ¬ Along (Spaced failures (Backoff.doubled (sampleSettings 10).backoffCfg)) x.trace := by
  have hx : Reachable daemonWorld (Supervisor.run (sampleSettings 10))
      (sampleWorld ⟨fun _ => none⟩ .done) (failingRun 14) := reachable_freePlay .start
  refine ⟨failingRun 14, hx, rfl, fun halong => ?_⟩
  have hdelay := halong _ (.sleep _) _ _ List.suffix_rfl _ 1 rfl (by decide) (by decide)
  have hinitial := spaced_of_comes admissible_daemonWorld rfl hx.visits _ (.sleep _) _ _
    List.suffix_rfl _ 0 rfl (by decide) (by decide)
  rw [hinitial, Backoff.nominal, Backoff.rounded_eq (by decide)] at hdelay
  exact absurd hdelay (by decide)

end ImapSieve
