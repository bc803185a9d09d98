import ImapSieve.Effects.Prog
import ImapSieve.State
import ImapSieve.SieveEngine
import Mathlib.Algebra.Order.Ring.Rat

/-!
# The Calls of the Daemon

Everything the daemon does to the outside goes through a trait method or a runtime
primitive: the IMAP client, the mail sender, the state store, the script handle, the
Sieve engine, the clock, and the `select!` sites. Each is a `Call` here with the type of its
reply. An `async fn` that returns `Result<T, CoreError>` is an `Async T`, in which `?` is
the bind.

`move_with_fallback` is the only free function of the client module.
-/

namespace ImapSieve

open Effects

/-! ## Section 1: Data of the IMAP client and the mail sender -/

/-- Capability flags relevant to our processing. -/
structure Capabilities where
  idle : Bool := false
  uidplus : Bool := false
  supportsMove : Bool := false
  condstore : Bool := false
  qresync : Bool := false
deriving DecidableEq, Repr

/-- Outcome of waiting in IDLE. -/
inductive IdleEvent where
  | exist (count : Nat)
  | interrupted
  | disconnected
deriving DecidableEq, Repr

inductive FlagOp where
  | add
  | remove
  | set
deriving DecidableEq, Repr

/-- The IMAP commands that change mailboxes. -/
inductive ImapCommand where
  | uidMove (uid : Nat) (target : String)
  | uidCopy (uid : Nat) (target : String)
  | uidStoreFlags (uid : Nat) (op : FlagOp) (flags : List String)
  | uidExpunge (uids : List Nat)
  | uidCreateMailbox (mailbox : String)
deriving DecidableEq, Repr

structure OutgoingMail where
  envelopeFrom : String
  envelopeTo : List String
  raw : List UInt8
deriving DecidableEq, Repr

/-- The date and the message id drawn for a rejection notice. -/
structure Stamp where
  date : String
  messageId : String
deriving DecidableEq, Repr

/-! ## Section 2: Calls and replies -/

/-- The result of a `select!` between the shutdown notification and something else. -/
inductive Selected (α : Type) where
  | notified
  | finished (a : α)
deriving DecidableEq, Repr

inductive Call where
  /-- `select! { biased; shutdown.notified(), factory.connect() }` -/
  | connect
  /-- `select! { sleep(delay), shutdown.notified() }` -/
  | sleep (delay : Nat)
  /-- `rng.gen_range(0.0..=jitter)` -/
  | genRange (jitter : ℚ)
  | capabilities
  | select (mailbox : String)
  | fetchUidRange (mailbox : String) (startUid : Nat) (changedSince : Option Nat)
  | command (cmd : ImapCommand)
  /-- `select! { biased; shutdown.notified(), imap.idle(timeout) }` -/
  | idle (timeout : Nat)
  | send (mail : OutgoingMail)
  /-- `chrono::Utc::now()` and `uuid::Uuid::new_v4()` -/
  | stamp
  /-- `StateStore::state` -/
  | state
  /-- `StateStore::update` -/
  | update (change : StateChange)
  /-- `ScriptHandle::current` -/
  | currentScript
  /-- `SieveEngine::evaluate` -/
  | evaluate (script : CompiledScript) (context : MessageContext)
  /-- Ghost: `execute` starts its final deletion of the message. -/
  | deleting (uid : Nat)
  /-- Ghost: `execute` has returned for the message. -/
  | executed (uid : Nat) (result : Except CoreError Unit)

abbrev Reply : Call → Type
  | .connect => Selected (Except CoreError Unit)
  | .sleep _ => Selected Unit
  | .genRange _ => ℚ
  | .capabilities => Except CoreError Capabilities
  | .select _ => Except CoreError MailboxStatus
  | .fetchUidRange _ _ _ => Except CoreError (List MessageContext)
  | .command _ => Except CoreError Unit
  | .idle _ => Selected (Except CoreError IdleEvent)
  | .send _ => Except CoreError Unit
  | .stamp => Stamp
  | .state => State
  | .update _ => Except StateError Unit
  | .currentScript => CompiledScript
  | .evaluate _ _ => Except SieveError (List SieveAction)
  | .deleting _ => Unit
  | .executed _ _ => Unit

/-- Programs of the daemon. -/
abbrev Program := Prog Call Reply

/-- `async fn … -> Result<α, CoreError>` -/
abbrev Async := ExceptT CoreError Program

/-- Make a call. -/
def ask (c : Call) : Program (Reply c) := Prog.perform c

@[simp] theorem ask_bind {α : Type} (c : Call) (f : Reply c → Program α) :
    (ask c >>= f) = .call c f := rfl

/-- Issue an IMAP command. -/
def command (cmd : ImapCommand) : Async Unit := ExceptT.mk (ask (.command cmd))

@[simp] theorem run_command (cmd : ImapCommand) :
    (command cmd).run = .call (.command cmd) .ret := rfl

/-- `smtp.send(mail)` -/
def send (mail : OutgoingMail) : Async Unit := ExceptT.mk (ask (.send mail))

@[simp] theorem run_send (mail : OutgoingMail) : (send mail).run = .call (.send mail) .ret := rfl

/-- `state.update(change)`, with the error converted by `?`. -/
def update (change : StateChange) : Async Unit := ExceptT.mk do
  match ← ask (.update change) with
  | .ok () => return .ok ()
  | .error e => return .error (.state e)

/-! ## Section 3: MOVE and its fallback -/

/-- Helper for fallback: implement MOVE as COPY + STORE \Deleted + (optional) EXPUNGE. -/
def moveWithFallback (caps : Capabilities) (uid : Nat) (target : String) : Async Unit :=
  if caps.supportsMove then
    command (.uidMove uid target)
  else do
    command (.uidCopy uid target)
    command (.uidStoreFlags uid .add ["\\Deleted"])
    if caps.uidplus then
      command (.uidExpunge [uid])

end ImapSieve
