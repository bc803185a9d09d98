import ImapSieve.Numeric.Rounding
import ImapSieve.Processor

/-!
# Sessions and the Supervisor

`SessionManager::run` sets a connection up, drains pending mail and alternates between IDLE
and batches. `Supervisor::run` connects, runs a session and reconnects with exponential
backoff. `Backoff` computes the delays. The values of an `f64` are rationals here, and every
operation on them rounds its exact result.
-/

namespace ImapSieve

open Effects

/-! ## Section 1: Backoff -/

/-- The `f64` nearest to a number. -/
def f64 (x : ℚ) : ℚ := Numeric.binary64.round x

@[simp] theorem f64_f64 (x : ℚ) : f64 (f64 x) = f64 x := Numeric.Format.round_round _ x

@[simp] theorem f64_zero : f64 0 = 0 := Numeric.Format.round_zero _

theorem f64_nonneg {x : ℚ} (h : 0 ≤ x) : 0 ≤ f64 x := Numeric.Format.round_nonneg _ h

theorem f64_mono {x y : ℚ} (hx : 0 ≤ x) (h : x ≤ y) : f64 x ≤ f64 y :=
  Numeric.Format.round_mono _ hx h

/-- Numbers of 53 digits are exact. -/
theorem f64_natCast {n : Nat} (hn : n ≤ 2 ^ 53) : f64 n = n :=
  Numeric.Format.round_eq_self _ (Numeric.Format.represents_natCast _ hn (by decide))

/-- Delays in milliseconds. -/
structure BackoffConfig where
  initial : Nat
  max : Nat
  jitter : ℚ
deriving DecidableEq, Repr

structure Backoff where
  cfg : BackoffConfig
  attempt : Nat
deriving DecidableEq, Repr

namespace Backoff

def new (cfg : BackoffConfig) : Backoff := ⟨cfg, 0⟩

def reset (b : Backoff) : Backoff := { b with attempt := 0 }

/-- `2u32.saturating_pow(attempt)` -/
def factor (attempt : Nat) : Nat := if attempt < 32 then 2 ^ attempt else 2 ^ 32 - 1

/-- The delay before jitter: a saturating `u128` product, capped. -/
def capped (b : Backoff) : Nat :=
  min (min (b.cfg.initial * factor b.attempt) (2 ^ 128 - 1)) b.cfg.max

/-- `1.0 - (jitter / 2.0) + r` -/
def jitterFactor (b : Backoff) (r : ℚ) : ℚ := f64 (f64 (1 - f64 (b.cfg.jitter / 2)) + r)

/-- The jittered delay, cut at the maximum. -/
def jittered (b : Backoff) (r : ℚ) : ℚ :=
  -- `capped as f64` and `max.as_millis() as f64` round as well
  min (f64 (f64 b.capped * b.jitterFactor r)) (f64 b.cfg.max)

/-- The next delay for the draw `r`, and the incremented counter. -/
def nextDelay (b : Backoff) (r : ℚ) : Nat × Backoff :=
  (min (b.jittered r).floor.toNat (2 ^ 64 - 1),
    { b with attempt := min (b.attempt + 1) (2 ^ 32 - 1) })

end Backoff

/-! ## Section 2: Sessions -/

/-- What the supervisor and its sessions are configured with. -/
structure Settings where
  mailbox : String
  smtp : Bool
  backoffCfg : BackoffConfig
  idleTimeout : Nat
  batchSize : Nat
deriving DecidableEq, Repr

/-- The processor of a session. -/
def Settings.processor (cfg : Settings) (caps : Capabilities) : MessageProcessor where
  smtp := cfg.smtp
  caps := caps
  mailbox := cfg.mailbox
  batchSize := cfg.batchSize

namespace SessionManager

/-- `process_pending`: one batch, its results dropped. -/
def processPending (cfg : Settings) (caps : Capabilities) : Async Unit := do
  let _ ← (cfg.processor caps).runBatch

/-- One round of the IDLE loop; `.inr` leaves the session. -/
def idleRound (cfg : Settings) (caps : Capabilities) :
    Program (Unit ⊕ Except CoreError Unit) := do
  match ← ask (.idle cfg.idleTimeout) with
  | .notified => return .inr (.ok ())
  | .finished (.error e) => return .inr (.error e)
  | .finished (.ok (.exist _)) =>
      match ← (processPending cfg caps).run with
      | .ok () => return .inl ()
      | .error e => return .inr (.error e)
  | .finished (.ok .interrupted) =>
      match ← (processPending cfg caps).run with
      | .ok () => return .inl ()
      | .error e => return .inr (.error e)
  | .finished (.ok .disconnected) =>
      return .inr (.error (.imap "connection lost during IDLE"))

/-- Validate or persist UIDVALIDITY. -/
def checkUidvalidity (cfg : Settings) (status : MailboxStatus) : Async Unit := do
  let state ← ExceptT.lift (ask .state)
  match state.uidvalidity with
  | some cached =>
      if cached ≠ status.uidvalidity then
        throw (.uidValidityChanged cached status.uidvalidity)
      else
        update (.session status cfg.mailbox)
  | none => update (.session status cfg.mailbox)

/-- First-run UID seeding: anchor at UIDNEXT - 1. -/
def seedLastSeenUid (status : MailboxStatus) : Async Unit := do
  let state ← ExceptT.lift (ask .state)
  if state.lastSeenUid.isNone then
    update (.seed (status.uidnext - 1))

/-- `SessionManager::run`. -/
def run (cfg : Settings) : Async Unit := do
  let caps ← ExceptT.mk (ask .capabilities)
  if !caps.idle then
    throw (.missingCapability "IDLE")
  let status ← ExceptT.mk (ask (.select cfg.mailbox))
  checkUidvalidity cfg status
  seedLastSeenUid status
  processPending cfg caps
  ExceptT.mk (Prog.loop (fun _ => idleRound cfg caps) ())

end SessionManager

/-! ## Section 3: The supervisor -/

namespace Supervisor

/-- Wait for the next delay of the backoff. `none` means that shutdown was notified. -/
def waitNextDelay (backoff : Backoff) : Program (Option Backoff) := do
  let r ← ask (.genRange backoff.cfg.jitter)
  let (delay, backoff) := backoff.nextDelay r
  match ← ask (.sleep delay) with
  | .notified => return none
  | .finished () => return some backoff

/-- One round of the connect loop; it breaks with the reset backoff once connected, or with
`none` on shutdown. -/
def connectRound (backoff : Backoff) : Program (Backoff ⊕ Option Backoff) := do
  match ← ask .connect with
  | .notified => return .inr none
  | .finished (.ok ()) => return .inr (some backoff.reset)
  | .finished (.error _) =>
      match ← waitNextDelay backoff with
      | none => return .inr none
      | some backoff => return .inl backoff

/-- What the supervisor makes of the end of a session. -/
def afterSession (backoff : Backoff) :
    Except CoreError Unit → Program (Backoff ⊕ Except CoreError Unit)
  | .ok () => return .inr (.ok ())
  | .error (.uidValidityChanged cached server) =>
      return .inr (.error (.uidValidityChanged cached server))
  | .error _ => do
      match ← waitNextDelay backoff with
      | none => return .inr (.ok ())
      | some backoff => return .inl backoff

/-- One round of the reconnect loop. -/
def round (cfg : Settings) (backoff : Backoff) :
    Program (Backoff ⊕ Except CoreError Unit) := do
  match ← Prog.loop connectRound backoff with
  | none => return .inr (.ok ())
  | some backoff => do
      let result ← (SessionManager.run cfg).run
      afterSession backoff result

/-- `Supervisor::run`. -/
def run (cfg : Settings) : Program (Except CoreError Unit) :=
  Prog.loop (round cfg) (Backoff.new cfg.backoffCfg)

end Supervisor

end ImapSieve
