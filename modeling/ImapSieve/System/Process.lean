import ImapSieve.AsyncImapClient
import ImapSieve.ScriptLoader
import ImapSieve.SmtpSender
import ImapSieve.StateStore

/-!
# The Process

`daemon::run`, from the loaded configuration to the exit code. It loads the script, opens the state
store, makes the mail sender and runs the supervisor, whose calls are answered by the production
implementations: `AsyncImapClient`, `LettreMailSender`, `StateStore`, the script handle and
`SieveEngineImpl`. What they ask for are the calls of the process.

Third-party crates are parameters, collected in `Crates`.
-/

namespace ImapSieve

open Effects

/-! ## Section 1: Calls -/

/-- Everything the process does to the outside. `E` is the type of SMTP envelopes. -/
inductive SystemCall (E : Type) where
  | net (c : NetCall)
  | file (c : FileCall)
  /-- `self.transport.send_raw(&envelope, &mail.raw)` -/
  | sendRaw (envelope : E) (raw : List UInt8)
  | genRange (jitter : ℚ)
  | sleep (delay : Nat)
  | stamp
  /-- `ArcSwap::load` -/
  | load
  /-- `std::fs::read_to_string(&cfg.sieve.script_path)` -/
  | readScript
  /-- `ArcSwap::from` of the script just compiled -/
  | install (script : CompiledScript)
  | spawnWatcher
  /-- `Command::output` for the password of the mail server -/
  | output (command : String)

abbrev SystemReply (E : Type) : SystemCall E → Type
  | .net c => NetReply c
  | .file c => FileReply c
  | .sendRaw _ _ => Except String Unit
  | .genRange _ => ℚ
  | .sleep _ => Selected Unit
  | .stamp => Stamp
  | .load => CompiledScript
  | .readScript => Except String String
  | .install _ => Unit
  | .spawnWatcher => Except String Unit
  | .output _ => Except String Output

abbrev SystemProgram (E : Type) := Prog (SystemCall E) (SystemReply E)

/-- What the process uses of third-party crates. `A` is the type of SMTP addresses. -/
structure Crates (A E : Type) where
  lettre : Lettre A E
  codec : StateCodec
  /-- `engine.compile` -/
  compile : String → Except SieveError CompiledScript
  /-- `LettreMailSender::new`, with the password -/
  relay : SmtpConfig → String → Except String Unit

/-- A loaded configuration. -/
structure Setup where
  config : ClientConfig
  username : String
  tlsMode : ImapTlsMode := .implicit
  watch : Bool := false

def Setup.account (cfg : Setup) : Account where
  imap := cfg.config.imap
  username := cfg.username
  tlsMode := cfg.tlsMode

/-- How the process ends. -/
inductive Exit where
  | clean
  | uidvalidity
  | failed (context : String)
deriving DecidableEq, Repr

/-- The exit code: `EXIT_UIDVALIDITY`, and what `main` makes of an error. -/
def Exit.code : Exit → Nat
  | .clean => 0
  | .uidvalidity => 2
  | .failed _ => 1

variable {A E : Type}

/-- Make a call. -/
def systemCall (c : SystemCall E) : SystemProgram E (SystemReply E c) := Prog.perform c

/-- The calls of the IMAP client are calls of the process. -/
def onNet {α : Type} (p : NetProgram α) : SystemProgram E α := p.embed .net fun _ r => r

/-- The calls of the state store are calls of the process. -/
def onFile {α : Type} (p : FileProgram α) : SystemProgram E α := p.embed .file fun _ r => r

/-! ## Section 2: The implementations -/

/-- What the process holds while the supervisor runs. -/
structure Process where
  client : AsyncImapClient
  store : StateStore

/-- The envelope of a mail. -/
def Lettre.envelope (l : Lettre A E) (mail : OutgoingMail) : Except CoreError E := do
  let sender ← l.reversePath mail
  let to' ← l.forwardPath mail.envelopeTo
  (l.newEnvelope sender to').mapError .smtp

/-- `LettreMailSender::send` -/
def Lettre.sendMail (l : Lettre A E) (mail : OutgoingMail) :
    SystemProgram E (Except CoreError Unit) :=
  match l.envelope mail with
  | .error e => return .error e
  | .ok envelope => do
      let result ← systemCall (.sendRaw envelope mail.raw)
      return result.mapError .smtp

/-- It returns what `send` returns where the transport answers like this. -/
theorem Lettre.sendMail_eq_send (l : Lettre A E) (mail : OutgoingMail)
    (sendRaw : E → List UInt8 → Except String Unit) :
    l.sendMail mail =
      match l.envelope mail with
      | .error _ => .ret (l.send sendRaw mail)
      | .ok envelope =>
          .call (.sendRaw envelope mail.raw) fun r => .ret (l.send (fun _ _ => r) mail) := by
  have hsend : ∀ sendRaw, l.send sendRaw mail =
      l.envelope mail >>= fun envelope => (sendRaw envelope mail.raw).mapError .smtp := by
    intro sendRaw
    rw [Lettre.send, Lettre.envelope, bind_assoc]
    exact congrArg _ (funext fun sender => (bind_assoc _ _ _).symm)
  rw [Lettre.sendMail]
  cases henvelope : l.envelope mail with
  | error e => rw [hsend, henvelope]; rfl
  | ok envelope => simp only [hsend, henvelope]; rfl

/-- The calls of the supervisor, answered by the implementations that it is built with. -/
def Crates.handler (crates : Crates A E) (account : Account) :
    Handler Call Reply (SystemCall E) (SystemReply E) Process
  | .connect, t => do
      let (result, client) ← onNet (connectOrNotified account)
      return (result, { t with client })
  | .sleep delay, t => do
      let result ← systemCall (.sleep delay)
      return (result, t)
  | .genRange jitter, t => do
      let r ← systemCall (.genRange jitter)
      return (r, t)
  | .capabilities, t => do
      let result ← onNet t.client.capabilities
      return (result, t)
  | .select mailbox, t => do
      let result ← onNet (t.client.select mailbox)
      return (result, t)
  | .fetchUidRange _ startUid changedSince, t => do
      let result ← onNet (t.client.fetchUidRange startUid changedSince)
      return (result, t)
  | .command cmd, t => do
      let result ← onNet (t.client.command cmd)
      return (result, t)
  | .idle timeout, t => do
      let (result, client) ← onNet (idleOrNotified t.client timeout)
      return (result, { t with client })
  | .send mail, t => do
      let result ← crates.lettre.sendMail mail
      return (result, t)
  | .stamp, t => do
      let stamp ← systemCall .stamp
      return (stamp, t)
  | .state, t => return (t.store.state, t)
  | .update change, t => do
      let (result, store) ← onFile (t.store.update change.apply)
      return (result, { t with store })
  | .currentScript, t => do
      let script ← systemCall .load
      return (script, t)
  | .evaluate script context, t => return (ImapSieve.evaluate script context, t)
  -- ghosts
  | .deleting _, t => return ((), t)
  | .executed _ _, t => return ((), t)

/-! ## Section 3: `daemon::run` -/

/-- `ScriptLoader::load`, with the handle that it makes. -/
def Crates.loadScript (crates : Crates A E) : ExceptT Exit (SystemProgram E) Unit := do
  let text ← ExceptT.lift (systemCall .readScript)
  match (⟨crates.compile, ""⟩ : ScriptLoader).load text with
  | .error _ => throw (.failed "loading sieve script")
  | .ok script => ExceptT.lift (systemCall (.install script))

/-- `loader.spawn_watcher()`, if the configuration asks for it. -/
def spawnWatcher (watch : Bool) : ExceptT Exit (SystemProgram E) Unit := do
  if watch then
    if let .error _ ← ExceptT.lift (systemCall .spawnWatcher) then
      throw (.failed "spawning sieve watcher")

/-- `StateStore::open` -/
def Crates.openStore (crates : Crates A E) (path : String) :
    ExceptT Exit (SystemProgram E) StateStore := do
  match ← ExceptT.lift (onFile (StateStore.open crates.codec path).run) with
  | .error _ => throw (.failed "opening state store")
  | .ok store => return store

/-- `make_smtp` -/
def Crates.makeSmtp (crates : Crates A E) (smtp : SmtpConfig) :
    ExceptT Exit (SystemProgram E) Unit := do
  let secret ← ExceptT.lift (resolveSecret (fun command => systemCall (.output command))
    smtp.password smtp.passwordCommand)
  match secret with
  | .error _ => throw (.failed "resolving smtp password")
  | .ok password =>
      match crates.relay smtp password with
      | .error _ => throw (.failed "building smtp transport")
      | .ok () => return ()

/-- What the result of the supervisor means for the process. -/
def exitOf : Except CoreError Unit → Exit
  | .ok () => .clean
  | .error (.uidValidityChanged _ _) => .uidvalidity
  | .error _ => .failed "supervisor exited"

/-- The supervisor with its implementations. -/
def Crates.supervise (crates : Crates A E) (cfg : Setup) (store : StateStore) :
    SystemProgram E Exit := do
  let (result, _) ← (Supervisor.run cfg.config.settings).handle (crates.handler cfg.account)
    ⟨⟨false⟩, store⟩
  return exitOf result

/-- What `daemon::run` does before the supervisor runs. -/
def Crates.prepare (crates : Crates A E) (path : String) (cfg : Setup) :
    ExceptT Exit (SystemProgram E) StateStore := do
  crates.loadScript
  spawnWatcher cfg.watch
  let store ← crates.openStore path
  cfg.config.smtp.forM crates.makeSmtp
  return store

/-- `daemon::run`, after `Config::load`. `path` is the state file. -/
def Crates.run (crates : Crates A E) (path : String) (cfg : Setup) : SystemProgram E Exit := do
  match ← (crates.prepare path cfg).run with
  | .error exit => return exit
  | .ok store => crates.supervise cfg store

end ImapSieve
