import ImapSieve.Session

/-!
# Configuration

`Config::validate`, and the settings that the daemon makes of a validated configuration. Of the
configuration only what one of the two reads is kept.
-/

namespace ImapSieve

/-! ## Section 1: The configuration file -/

inductive AuthMethod where
  | plain
  | oauth2
deriving DecidableEq, Repr

structure ImapConfig where
  host : String
  port : UInt16
  authMethod : AuthMethod := .plain
  password : Option String
  passwordCommand : Option String
  mailbox : String := "INBOX"

/-- The delays are in seconds. -/
structure DaemonConfig where
  batchSize : Nat := 10
  reconnectDelay : UInt64 := 5
  maxReconnectDelay : UInt64 := 300
  reconnectJitter : ℚ := 1 / 2

structure SmtpConfig where
  host : String
  username : String
  password : Option String
  passwordCommand : Option String

/-- `Config` -/
structure ClientConfig where
  imap : ImapConfig
  daemon : DaemonConfig := {}
  smtp : Option SmtpConfig

/-- The error that validation returns. -/
inductive ConfigError where
  | invalid (message : String)
deriving DecidableEq, Repr

/-! ## Section 2: Validation -/

/-- `if bad { return Err(ConfigError::Invalid(message)) }` -/
def refuseIf (bad : Prop) [Decidable bad] (message : String) : Except ConfigError Unit :=
  if bad then .error (.invalid message) else .ok ()

def SmtpConfig.validate (smtp : SmtpConfig) : Except ConfigError Unit := do
  refuseIf (smtp.host = "") "smtp.host must not be empty"
  refuseIf (smtp.username = "") "smtp.username must not be empty"
  refuseIf (smtp.password = none ∧ smtp.passwordCommand = none)
    "smtp.password or smtp.password_command required"

/-- `Config::validate` -/
def ClientConfig.validate (cfg : ClientConfig) : Except ConfigError Unit := do
  refuseIf (cfg.imap.host = "") "imap.host must not be empty"
  refuseIf (cfg.imap.port = 0) "imap.port must not be 0"
  refuseIf (cfg.imap.authMethod = .plain ∧ cfg.imap.password = none ∧
      cfg.imap.passwordCommand = none)
    "imap.password or imap.password_command required for auth_method = plain"
  refuseIf (cfg.imap.authMethod = .oauth2) "auth_method = oauth2 is not yet implemented"
  cfg.smtp.forM SmtpConfig.validate
  refuseIf (¬ (0 ≤ cfg.daemon.reconnectJitter ∧ cfg.daemon.reconnectJitter ≤ 1))
    "daemon.reconnect_jitter must be between 0.0 and 1.0"
  refuseIf (cfg.daemon.batchSize = 0) "daemon.batch_size must be > 0"

/-- What validation makes sure of. -/
structure SmtpConfig.Valid (smtp : SmtpConfig) : Prop where
  host : smtp.host ≠ ""
  username : smtp.username ≠ ""
  secret : smtp.password ≠ none ∨ smtp.passwordCommand ≠ none

structure ClientConfig.Valid (cfg : ClientConfig) : Prop where
  host : cfg.imap.host ≠ ""
  port : cfg.imap.port ≠ 0
  auth : cfg.imap.authMethod = .plain
  secret : cfg.imap.password ≠ none ∨ cfg.imap.passwordCommand ≠ none
  smtp : ∀ smtp ∈ cfg.smtp, smtp.Valid
  jitter : 0 ≤ cfg.daemon.reconnectJitter ∧ cfg.daemon.reconnectJitter ≤ 1
  batchSize : cfg.daemon.batchSize ≠ 0

theorem refuseIf_ok {bad : Prop} [Decidable bad] {message : String} :
    refuseIf bad message = .ok () ↔ ¬ bad := by
  by_cases h : bad <;> simp [refuseIf, h]

/-- A check passes, and the next ones do. -/
theorem refuseIf_bind_ok {bad : Prop} [Decidable bad] {message : String}
    {rest : Unit → Except ConfigError Unit} :
    (refuseIf bad message >>= rest) = .ok () ↔ ¬ bad ∧ rest () = .ok () := by
  by_cases h : bad
  · simp [refuseIf, h, bind, Except.bind]
  · simp [refuseIf, h, bind, Except.bind]

theorem SmtpConfig.validate_ok_iff {smtp : SmtpConfig} :
    smtp.validate = .ok () ↔ smtp.Valid := by
  rw [validate, refuseIf_bind_ok, refuseIf_bind_ok, refuseIf_ok, not_and_or]
  exact ⟨fun ⟨hhost, husername, hsecret⟩ => ⟨hhost, husername, hsecret⟩,
    fun h => ⟨h.host, h.username, h.secret⟩⟩

/-- `Config::load` accepts the valid configurations. -/
theorem ClientConfig.validate_ok_iff {cfg : ClientConfig} : cfg.validate = .ok () ↔ cfg.Valid := by
  have hsmtp : ∀ rest : Unit → Except ConfigError Unit,
      (cfg.smtp.forM SmtpConfig.validate >>= rest) = .ok () ↔
        (∀ smtp ∈ cfg.smtp, smtp.Valid) ∧ rest () = .ok () := by
    intro rest
    cases cfg.smtp with
    | none => simp [Option.forM, pure, Except.pure, bind, Except.bind]
    | some smtp =>
      simp only [Option.forM, Option.mem_some_iff, forall_eq', ← SmtpConfig.validate_ok_iff]
      cases hvalid : smtp.validate with
      | ok u => simp [bind, Except.bind]
      | error e => simp [bind, Except.bind]
  rw [validate, refuseIf_bind_ok, refuseIf_bind_ok, refuseIf_bind_ok, refuseIf_bind_ok, hsmtp,
    refuseIf_bind_ok, refuseIf_ok, not_not]
  constructor
  · rintro ⟨hhost, hport, hplain, hauth, hsmtp, hjitter, hbatch⟩
    have hauth : cfg.imap.authMethod = .plain := by
      cases h : cfg.imap.authMethod with
      | plain => rfl
      | oauth2 => exact absurd h hauth
    refine ⟨hhost, hport, hauth, ?_, hsmtp, hjitter, hbatch⟩
    by_contra hsecret
    rw [not_or, not_not, not_not] at hsecret
    exact hplain ⟨hauth, hsecret⟩
  · intro h
    refine ⟨h.host, h.port, ?_, by simp [h.auth], h.smtp, h.jitter, h.batchSize⟩
    rintro ⟨-, hpassword, hcommand⟩
    exact h.secret.elim (absurd hpassword) (absurd hcommand)

/-! ## Section 3: The settings of the daemon -/

/-- `Duration::from_secs`, in milliseconds. -/
def fromSecs (secs : UInt64) : Nat := secs.toNat * 1000

/-- What `daemon::run` hands to the supervisor. -/
def ClientConfig.settings (cfg : ClientConfig) : Settings where
  mailbox := cfg.imap.mailbox
  smtp := cfg.smtp.isSome
  backoffCfg :=
    { initial := fromSecs cfg.daemon.reconnectDelay
      max := fromSecs cfg.daemon.maxReconnectDelay
      jitter := cfg.daemon.reconnectJitter }
  idleTimeout := fromSecs (29 * 60)
  batchSize := cfg.daemon.batchSize

/-- A configuration of the backoff that validation lets through: the jitter is in [0, 1], and
the durations are any numbers of seconds. -/
structure BackoffConfig.Admitted (cfg : BackoffConfig) : Prop where
  jitter : 0 ≤ cfg.jitter ∧ cfg.jitter ≤ 1
  initial : ∃ secs, cfg.initial = fromSecs secs
  max : ∃ secs, cfg.max = fromSecs secs

/-- The supervisor of a daemon that has loaded its configuration backs off by an admitted one. -/
theorem ClientConfig.admitted {cfg : ClientConfig} (h : cfg.validate = .ok ()) :
    cfg.settings.backoffCfg.Admitted where
  jitter := (validate_ok_iff.mp h).jitter
  initial := ⟨_, rfl⟩
  max := ⟨_, rfl⟩

/-- Every configuration of the backoff that is admitted comes from a valid file. -/
theorem BackoffConfig.Admitted.exists_config {cfg : BackoffConfig} (h : cfg.Admitted) :
    ∃ file : ClientConfig, file.validate = .ok () ∧ file.settings.backoffCfg = cfg := by
  obtain ⟨initial, hinitial⟩ := h.initial
  obtain ⟨max, hmax⟩ := h.max
  refine ⟨{
    imap := { host := "localhost", port := 993, password := some "", passwordCommand := none }
    daemon :=
      { reconnectDelay := initial, maxReconnectDelay := max, reconnectJitter := cfg.jitter }
    smtp := none }, ?_, ?_⟩
  · rw [ClientConfig.validate_ok_iff]
    exact ⟨by simp, by simp, rfl, .inl (by simp), by simp, h.jitter, by simp⟩
  · simp only [ClientConfig.settings, ← hinitial, ← hmax]

theorem fromSecs_lt (secs : UInt64) : fromSecs secs < 2 ^ 64 * 1000 :=
  Nat.mul_lt_mul_of_pos_right secs.toNat_lt (by decide)

end ImapSieve
