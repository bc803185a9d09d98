import ImapSieve.Effects.Handler
import ImapSieve.Fetch
import ImapSieve.Secret
import ImapSieve.StoreFlags

/-!
# The IMAP Client

`AsyncImapClient`, which the daemon uses as its `ImapClient`, and the `ConnectionFactory` that
makes it: programs over what they ask of the network and of the `async_imap` session.

The client holds a session, or it has lost it: IDLE takes the session out of the client and puts
it back only after DONE. What is awaited inside a `select!` with the shutdown notification may be
cut off by it; the future is dropped then, and with it what it had taken.
-/

namespace ImapSieve

open Effects

/-! ## Section 1: Calls -/

inductive ImapTlsMode where
  | implicit
  | starttls
  | plain
deriving DecidableEq, Repr

/-- What a connection is made with. -/
structure Account where
  imap : ImapConfig
  username : String
  tlsMode : ImapTlsMode := .implicit

/-- The errors of `ServerName::try_from` and of `TlsConnector::connect`. -/
inductive TlsError where
  | serverName (message : String)
  | handshake (message : String)
deriving DecidableEq, Repr

def TlsError.display : TlsError → String
  | .serverName e => "invalid server name: " ++ e
  | .handshake e => "TLS handshake: " ++ e

/-- `async_imap::types::Mailbox`, of which this much is read. -/
structure Selection where
  exist : Nat
  uidValidity : Option Nat
  uidNext : Option Nat
  highestModseq : Option Nat
deriving DecidableEq, Repr

inductive IdleResponse where
  | manualInterrupt
  | timeout
  | newData
deriving DecidableEq, Repr

inductive NetCall where
  /-- The `select!` looks for the shutdown notification before it polls the other future. -/
  | notified
  /-- `Command::output`, on a blocking thread -/
  | output (command : String)
  /-- The result of `spawn_blocking` -/
  | join
  | tcpConnect (host : String) (port : UInt16)
  /-- `run_command_and_check_ok("STARTTLS")` -/
  | starttls
  | tlsHandshake (host : String)
  | login (username password : String)
  | capabilities
  | select (mailbox : String)
  | uidFetch (uidSet query : String)
  | uidMv (uidSet mailbox : String)
  | uidCopy (uidSet mailbox : String)
  | uidStore (uidSet query : String)
  | uidExpunge (uidSet : String)
  | create (mailbox : String)
  /-- IDLE, until the server asks to go on -/
  | idleInit
  | idleWait (timeout : Nat)
  /-- DONE, until the server has answered IDLE -/
  | idleDone
deriving DecidableEq, Repr

/-- What is awaited inside a `select!` is `Selected`. -/
abbrev NetReply : NetCall → Type
  | .notified => Bool
  | .output _ => Selected (Except String Output)
  | .join => Selected (Except String Unit)
  | .tcpConnect _ _ => Selected (Except String Unit)
  | .starttls => Selected (Except String Unit)
  | .tlsHandshake _ => Selected (Except TlsError Unit)
  | .login _ _ => Selected (Except String Unit)
  | .capabilities => Except String (List String)
  | .select _ => Except String Selection
  | .uidFetch _ _ => Except String (List (Except String FetchItem))
  | .uidMv _ _ => Except String Unit
  | .uidCopy _ _ => Except String Unit
  | .uidStore _ _ => Except String (List (Except String Unit))
  | .uidExpunge _ => Except String (List (Except String Unit))
  | .create _ => Except String Unit
  | .idleInit => Selected (Except String Unit)
  | .idleWait _ => Selected (Except String IdleResponse)
  | .idleDone => Selected (Except String Unit)

abbrev NetProgram := Prog NetCall NetReply

namespace NetCall

/-- Make a call. -/
def ask (c : NetCall) : NetProgram (NetReply c) := Prog.perform c

end NetCall

/-! ## Section 2: Futures in a `select!` -/

/-- Why a future is not polled to its end. -/
inductive Stop where
  | notified
  | failed (e : CoreError)
deriving DecidableEq, Repr

/-- `async fn … -> Result<α, CoreError>` inside a `select!`. -/
abbrev Interruptible := ExceptT Stop NetProgram

/-- Await, with the error that the result is converted to. -/
def await {ε α : Type} (p : NetProgram (Selected (Except ε α))) (convert : ε → String) :
    Interruptible α := ExceptT.mk do
  match ← p with
  | .notified => return .error .notified
  | .finished (.ok a) => return .ok a
  | .finished (.error e) => return .error (.failed (.imap (convert e)))

/-- What the `select!` sees of a future. -/
def Stop.selected {α : Type} : Except Stop α → Selected (Except CoreError α)
  | .ok a => .finished (.ok a)
  | .error .notified => .notified
  | .error (.failed e) => .finished (.error e)

/-! ## Section 3: Connecting -/

/-- `tls_connect` -/
def tlsConnect (host : String) : Interruptible Unit :=
  await (NetCall.tlsHandshake host).ask TlsError.display

/-- `client.login(username, password)` -/
def login (username password : String) : Interruptible Unit :=
  await (NetCall.login username password).ask ("login failed: " ++ ·)

/-- `Command::output` as `resolve_password` awaits it. -/
def awaitOutput (command : String) : Interruptible (Except String Output) := ExceptT.mk do
  match ← (NetCall.output command).ask with
  | .notified => return .error .notified
  | .finished result => return .ok result

structure AsyncImapClient where
  /-- The session is there. -/
  session : Bool
deriving DecidableEq, Repr

/-- `AsyncImapClient::connect`; the client that is made has a session. -/
def AsyncImapClient.connect (host : String) (port : UInt16) (username password : String)
    (tlsMode : ImapTlsMode) : Interruptible Unit := do
  await (NetCall.tcpConnect host port).ask fun e =>
    "tcp connect to " ++ host ++ ":" ++ toString port.toNat ++ ": " ++ e
  match tlsMode with
  | .implicit =>
      tlsConnect host
      login username password
  | .starttls =>
      -- connect plain, send STARTTLS, upgrade to TLS, then login
      await NetCall.starttls.ask ("STARTTLS command: " ++ ·)
      tlsConnect host
      login username password
  | .plain => login username password

/-- `resolve_password`, on a blocking thread. -/
def Account.resolvePassword (account : Account) : Interruptible String := do
  let secret ← resolveSecret awaitOutput account.imap.password account.imap.passwordCommand
  await NetCall.join.ask ("spawn_blocking: " ++ ·)
  match secret with
  | .ok password => return password
  | .error e => throw (.failed (.imap ("password: " ++ e.display)))

/-- `AsyncImapFactory::connect` -/
def Account.connect (account : Account) : Interruptible Unit := do
  let password ← account.resolvePassword
  AsyncImapClient.connect account.imap.host account.imap.port account.username password
    account.tlsMode

/-! ## Section 4: The methods of the client -/

/-- The capabilities of the answer that matter, by `has_str`. -/
def capabilitiesOf (atoms : List String) : Capabilities where
  idle := atoms.contains "IDLE"
  uidplus := atoms.contains "UIDPLUS"
  supportsMove := atoms.contains "MOVE"
  condstore := atoms.contains "CONDSTORE"
  qresync := atoms.contains "QRESYNC"

/-- What is left out is 0. -/
def Selection.status (m : Selection) : MailboxStatus where
  uidvalidity := m.uidValidity.getD 0
  uidnext := m.uidNext.getD 0
  exist := m.exist
  highestmodseq := m.highestModseq

def IdleResponse.event : IdleResponse → IdleEvent
  | .newData => .exist 0
  | .manualInterrupt => .interrupted
  | .timeout => .interrupted

/-- The text of the set of UIDs: `","` between them. -/
def uidSet (uids : List Nat) : String := ",".intercalate (uids.map toString)

namespace AsyncImapClient

/-- `self.session()?` and one call on it, with what becomes of the reply. -/
def request {α : Type} (client : AsyncImapClient) (c : NetCall)
    (result : NetReply c → Except CoreError α) : NetProgram (Except CoreError α) :=
  if client.session then do
    let reply ← c.ask
    return result reply
  else return .error (.imap "session not available")

def capabilities (client : AsyncImapClient) : NetProgram (Except CoreError Capabilities) :=
  client.request .capabilities fun reply => (reply.mapError .imap).map capabilitiesOf

def select (client : AsyncImapClient) (mailbox : String) :
    NetProgram (Except CoreError MailboxStatus) :=
  client.request (.select mailbox) fun reply => (reply.mapError .imap).map Selection.status

def fetchUidRange (client : AsyncImapClient) (startUid : Nat) (changedSince : Option Nat) :
    NetProgram (Except CoreError (List MessageContext)) :=
  client.request (.uidFetch (toString startUid ++ ":*") (fetchSpec changedSince)) fetchResult

def uidMove (client : AsyncImapClient) (uid : Nat) (target : String) :
    NetProgram (Except CoreError Unit) :=
  client.request (.uidMv (toString uid) target) fun reply => reply.mapError .imap

def uidCopy (client : AsyncImapClient) (uid : Nat) (target : String) :
    NetProgram (Except CoreError Unit) :=
  client.request (.uidCopy (toString uid) target) fun reply => reply.mapError .imap

def uidStoreFlags (client : AsyncImapClient) (uid : Nat) (op : FlagOp) (flags : List String) :
    NetProgram (Except CoreError Unit) :=
  client.request (.uidStore (toString uid) (storeQuery op flags)) storeResult

/-- It is the `uid_store_flags` that asks for nothing but a UID STORE. -/
theorem uidStoreFlags_eq (client : AsyncImapClient) (uid : Nat) (op : FlagOp)
    (flags : List String) :
    client.uidStoreFlags uid op flags = (ImapSieve.uidStoreFlags client.session uid op flags).embed
      (fun | .uidStore set query => NetCall.uidStore set query) (fun | .uidStore _ _ => id) := by
  obtain ⟨session⟩ := client
  cases session <;> rfl

def uidExpunge (client : AsyncImapClient) (uids : List Nat) : NetProgram (Except CoreError Unit) :=
  client.request (.uidExpunge (uidSet uids)) storeResult

def uidCreateMailbox (client : AsyncImapClient) (mailbox : String) :
    NetProgram (Except CoreError Unit) :=
  client.request (.create mailbox) fun reply => reply.mapError .imap

/-- `AsyncImapClient::idle`, and the client that it leaves. -/
def idle (client : AsyncImapClient) (timeout : Nat) :
    NetProgram (Selected (Except CoreError IdleEvent) × AsyncImapClient) := do
  -- `self.session.take()`
  let taken : AsyncImapClient := ⟨false⟩
  if !client.session then
    return (.finished (.error (.imap "session not available")), taken)
  match ← NetCall.idleInit.ask with
  | .notified => return (.notified, taken)
  | .finished (.error e) => return (.finished (.error (.imap ("idle init: " ++ e))), taken)
  | .finished (.ok ()) =>
      match ← (NetCall.idleWait timeout).ask with
      | .notified => return (.notified, taken)
      | .finished result =>
          match ← NetCall.idleDone.ask with
          | .notified => return (.notified, taken)
          | .finished done =>
              -- the session is put back only if DONE succeeded
              return (.finished ((result.mapError fun e => .imap ("idle wait: " ++ e)).map
                IdleResponse.event), ⟨done.toBool⟩)

/-- The methods that issue the commands. -/
def command (client : AsyncImapClient) : ImapCommand → NetProgram (Except CoreError Unit)
  | .uidMove uid target => client.uidMove uid target
  | .uidCopy uid target => client.uidCopy uid target
  | .uidStoreFlags uid op flags => client.uidStoreFlags uid op flags
  | .uidExpunge uids => client.uidExpunge uids
  | .uidCreateMailbox mailbox => client.uidCreateMailbox mailbox

end AsyncImapClient

/-- `select! { biased; shutdown.notified(), factory.connect() }`. The old client is gone, and
there is a new one only if connecting succeeded. -/
def connectOrNotified (account : Account) :
    NetProgram (Selected (Except CoreError Unit) × AsyncImapClient) := do
  if ← NetCall.notified.ask then
    return (.notified, ⟨false⟩)
  else
    let result ← account.connect.run
    return (Stop.selected result, ⟨result.toBool⟩)

/-- `select! { biased; shutdown.notified(), imap.idle(timeout) }` -/
def idleOrNotified (client : AsyncImapClient) (timeout : Nat) :
    NetProgram (Selected (Except CoreError IdleEvent) × AsyncImapClient) := do
  if ← NetCall.notified.ask then
    return (.notified, client)
  else client.idle timeout

end ImapSieve
