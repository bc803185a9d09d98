import ImapSieve.Effects.Run
import ImapSieve.Server.Store

/-!
# The World of the Daemon

What the daemon runs in: the mail server, the selected mailbox of the connection, the mail
sent so far, the state store (in memory and on disk), the script installed, and the pending
shutdown notification.

`daemonWorld` allows as much as the interfaces allow: any reply of SELECT, any evaluation
result, any failure of any command, any change of the server by others at any time. The
results about runs narrow it down with a `Regime` where they have to.

- A command or a send that fails may have been carried out nevertheless (a lost reply).
- A failed state write leaves the changed state in memory and the old one on disk.
- A lost process starts again from the state on disk.
-/

namespace ImapSieve

open Effects

/-! ## Section 1: Worlds -/

structure World where
  server : Server
  /-- The mailbox selected by the current connection. -/
  selected : Option String
  /-- The mail handed to the SMTP server, newest first. -/
  sent : List OutgoingMail
  memory : State
  disk : State
  script : CompiledScript
  /-- The permit of the shutdown notification. -/
  permit : Bool
  /-- The UIDs whose EXISTS the server announced since the last FETCH was answered; `none`
  from an IDLE to the next FETCH. -/
  announced : Option (List Nat)

/-- Traces of the daemon. -/
abbrev History := Trace Call Reply World

/-- The message under a UID of the selected mailbox. -/
def World.find? (w : World) (uid : Nat) : Option StoredMessage :=
  w.selected.bind fun sel => w.server.find? sel uid

/-- The selected mailbox. -/
def World.box (w : World) : Option Mailbox := w.selected.bind w.server.box

/-! ## Section 2: Answers -/

/-- An error of an IMAP method. -/
def CoreError.IsImap (e : CoreError) : Prop := ∃ message, e = .imap message

/-- An error of the mail sender. -/
def CoreError.IsSmtp (e : CoreError) : Prop := ∃ message, e = .smtp message

/-- `UID FETCH start:*`: every message in the range, once each, in any order. Some servers
do not add the message with the highest UID. -/
def Mailbox.Fetched (b : Mailbox) (start : Nat) (since : Option Nat)
    (messages : List MessageContext) : Prop :=
  messages.Perm ((b.fetch start since).map StoredMessage.toContext) ∨
    messages.Perm ((b.fetchFrom start since).map StoredMessage.toContext)

/-- The answers a call may get, and the world each leaves. -/
def World.Answers (w : World) : (c : Call) → Reply c → World → Prop
  | .connect, .notified, w' => w.permit = true ∧ w' = { w with permit := false }
  | .connect, .finished (.ok ()), w' =>
      w.permit = false ∧ w' = { w with selected := none, announced := none }
  | .connect, .finished (.error _), w' => w.permit = false ∧ w' = w
  | .sleep _, .notified, w' => w.permit = true ∧ w' = { w with permit := false }
  | .sleep _, .finished (), w' => w' = w
  | .genRange jitter, r, w' => (0 ≤ jitter → 0 ≤ r ∧ r ≤ jitter) ∧ w' = w
  | .capabilities, .ok _, w' => w' = w
  | .capabilities, .error e, w' => e.IsImap ∧ w' = w
  | .select mailbox, .ok _, w' => w' = { w with selected := some mailbox }
  | .select _, .error e, w' => e.IsImap ∧ w' = { w with selected := none }
  | .fetchUidRange _ start since, .ok messages, w' =>
      (∃ b, w.box = some b ∧ b.Fetched start since messages) ∧
        w' = { w with announced := some [] }
  | .fetchUidRange _ _ _, .error e, w' => e.IsImap ∧ w' = w
  | .command cmd, .ok (), w' =>
      ∃ sel s, w.selected = some sel ∧ w.server.run sel cmd = some s ∧
        w' = { w with server := s }
  | .command cmd, .error e, w' =>
      e.IsImap ∧ (w' = w ∨ ∃ sel s, w.selected = some sel ∧ w.server.run sel cmd = some s ∧
        w' = { w with server := s })
  | .idle _, .notified, w' => w.permit = true ∧ w' = { w with permit := false, announced := none }
  | .idle _, .finished (.ok _), w' => w.permit = false ∧ w' = { w with announced := none }
  | .idle _, .finished (.error e), w' =>
      e.IsImap ∧ w.permit = false ∧ w' = { w with announced := none }
  | .send mail, .ok (), w' => w' = { w with sent := mail :: w.sent }
  | .send mail, .error e, w' =>
      e.IsSmtp ∧ (w' = w ∨ w' = { w with sent := mail :: w.sent })
  | .stamp, _, w' => w' = w
  | .state, s, w' => s = w.memory ∧ w' = w
  | .update change, .ok (), w' =>
      w' = { w with memory := change.apply w.memory, disk := change.apply w.memory }
  | .update change, .error _, w' => w' = { w with memory := change.apply w.memory }
  | .currentScript, script, w' => script = w.script ∧ w' = w
  | .evaluate _ _, _, w' => w' = w
  | .deleting _, (), w' => w' = w
  | .executed _ _, (), w' => w' = w

/-! ## Section 3: Drift and restarts -/

/-- Others change mailboxes, reload the script, notify shutdown. The server may announce
messages, but it does so only after a FETCH and until the next IDLE. -/
structure World.Drifts (w w' : World) : Prop where
  selected : w'.selected = w.selected
  sent : w'.sent = w.sent
  memory : w'.memory = w.memory
  disk : w'.disk = w.disk
  permit : w.permit = true → w'.permit = true
  announced : ∃ more, w'.announced = w.announced.map (· ++ more)

/-- The process is started again on the same state file. -/
def World.restart (w : World) : World :=
  { w with selected := none, memory := w.disk, permit := false, announced := none }

/-- What the daemon runs against. -/
def daemonWorld : Surroundings Call Reply World where
  answers := World.Answers
  drifts := World.Drifts
  restarts w w' := w' = w.restart

/-- The world before the first run: nothing is in the state file. -/
def World.Fresh (w : World) : Prop := w.memory = {} ∧ w.disk = {}

/-! ## Section 4: A world to compute with -/

/-- What SELECT reports of a mailbox. -/
def Mailbox.status (b : Mailbox) : MailboxStatus where
  uidvalidity := b.uidvalidity
  uidnext := b.uidnext
  exist := b.messages.length
  highestmodseq := some b.highestmodseq

/-- A player that lets everything succeed that can: connections are made, IDLE times out,
nothing is lost. `caps` are the capabilities of the server. -/
def World.respond (caps : Capabilities) (w : World) : (c : Call) → Reply c × World
  | .connect =>
      if w.permit then (.notified, { w with permit := false })
      else (.finished (.ok ()), { w with selected := none, announced := none })
  | .sleep _ => (.finished (), w)
  | .genRange _ => (0, w)
  | .capabilities => (.ok caps, w)
  | .select mailbox =>
      match w.server.box mailbox with
      | some b => (.ok b.status, { w with selected := some mailbox })
      | none => (.error (.imap "no such mailbox"), { w with selected := none })
  | .fetchUidRange _ start since =>
      match w.box with
      | some b => (.ok ((b.fetch start since).map StoredMessage.toContext),
          { w with announced := some [] })
      | none => (.error (.imap "no mailbox selected"), w)
  | .command cmd =>
      match w.selected with
      | none => (.error (.imap "no mailbox selected"), w)
      | some sel =>
          match w.server.run sel cmd with
          | some s => (.ok (), { w with server := s })
          | none => (.error (.imap "NO"), w)
  | .idle _ =>
      if w.permit then (.notified, { w with permit := false, announced := none })
      else (.finished (.ok .interrupted), { w with announced := none })
  | .send mail => (.ok (), { w with sent := mail :: w.sent })
  | .stamp => (⟨"Thu, 01 Jan 1970 00:00:00 +0000", "0"⟩, w)
  | .state => (w.memory, w)
  | .update change =>
      (.ok (), { w with memory := change.apply w.memory, disk := change.apply w.memory })
  | .currentScript => (w.script, w)
  | .evaluate script context => (evaluate script context, w)
  | .deleting _ => ((), w)
  | .executed _ _ => ((), w)

theorem answers_respond (caps : Capabilities) (w : World) (c : Call) :
    World.Answers w c (w.respond caps c).1 (w.respond caps c).2 := by
  cases c with
  | connect =>
    -- a pending notification is taken first
    cases hpermit : w.permit <;> simp [World.respond, World.Answers, hpermit]
  | sleep delay => rfl
  | genRange jitter => exact ⟨fun h => ⟨Rat.le_refl, h⟩, rfl⟩
  | capabilities => rfl
  | select mailbox =>
    cases hbox : w.server.box mailbox <;>
      simp [World.respond, World.Answers, hbox, CoreError.IsImap]
  | fetchUidRange mailbox start since =>
    cases hbox : w.box with
    | none => simp [World.respond, World.Answers, hbox, CoreError.IsImap]
    | some b =>
      simp only [World.respond, hbox]
      exact ⟨⟨b, hbox, .inl (.refl _)⟩, rfl⟩
  | command cmd =>
    cases hsel : w.selected with
    | none => simp [World.respond, World.Answers, hsel, CoreError.IsImap]
    | some sel =>
      cases hrun : w.server.run sel cmd <;>
        simp [World.respond, World.Answers, hsel, hrun, CoreError.IsImap]
  | idle timeout =>
    cases hpermit : w.permit <;> simp [World.respond, World.Answers, hpermit]
  | send mail => rfl
  | stamp => rfl
  | state => exact ⟨rfl, rfl⟩
  | update change => rfl
  | currentScript => exact ⟨rfl, rfl⟩
  | evaluate script context => rfl
  | deleting uid => rfl
  | executed uid result => rfl

/-- A message with a body and a sender. -/
def sampleContent : Content where
  headers := []
  envelopeFrom := some "sender@example.org"
  envelopeTo := []
  raw := some [72, 105]
  size := 2

/-- A server with the mailboxes `INBOX`, which holds the given number of messages, and
`Archive` and `Lists`, which are empty. -/
def sampleServer (count : Nat) : Server where
  boxes name :=
    if name = "INBOX" then
      some ((List.range count).foldl (fun b _ => b.append [] sampleContent) .empty)
    else if name = "Archive" ∨ name = "Lists" then some .empty
    else none

/-- A world in which nothing has happened yet, with the given script. -/
def sampleWorld (server : Server) (run : Run) : World where
  server := server
  selected := none
  sent := []
  memory := {}
  disk := {}
  script := ⟨⟨fun _ _ _ => run⟩⟩
  permit := false
  announced := none

end ImapSieve
