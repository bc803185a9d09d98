import ImapSieve.Types

/-!
# Persistent Daemon State

The four fields of the state file, and the changes that the session and the batch loop
make to them. The source passes a closure to `StateStore::update`; each closure is a
constructor of `StateChange` here, and `StateChange.apply` is its body.
-/

namespace ImapSieve

/-- What a successful SELECT reports. A server may leave out UIDVALIDITY and UIDNEXT, in
which case they are 0. -/
structure MailboxStatus where
  uidvalidity : Nat
  uidnext : Nat
  exist : Nat
  highestmodseq : Option Nat
deriving DecidableEq, Repr

/-- The persisted state. The default is that of a missing file. -/
structure State where
  selectedMailbox : Option String := none
  uidvalidity : Option Nat := none
  lastSeenUid : Option Nat := none
  highestmodseq : Option Nat := none
deriving DecidableEq, Repr

/-- The updates made by the daemon. -/
inductive StateChange where
  /-- Session setup: the UIDVALIDITY and the mailbox just selected. -/
  | session (status : MailboxStatus) (mailbox : String)
  /-- First run: anchor the UID bookmark. -/
  | seed (uid : Nat)
  /-- A message was processed: advance the UID bookmark. -/
  | advance (uid : Nat)
deriving DecidableEq, Repr

/-- The body of the closure passed to `StateStore::update`. -/
def StateChange.apply : StateChange → State → State
  | .session status mailbox, s =>
      { s with
        uidvalidity := some status.uidvalidity
        selectedMailbox := some mailbox
        highestmodseq := status.highestmodseq <|> s.highestmodseq }
  | .seed uid, s => { s with lastSeenUid := some uid }
  | .advance uid, s => { s with lastSeenUid := some (max uid (s.lastSeenUid.getD 0)) }

@[simp] theorem apply_session_lastSeenUid (st : MailboxStatus) (mb : String) (s : State) :
    ((StateChange.session st mb).apply s).lastSeenUid = s.lastSeenUid := rfl

@[simp] theorem apply_session_uidvalidity (st : MailboxStatus) (mb : String) (s : State) :
    ((StateChange.session st mb).apply s).uidvalidity = some st.uidvalidity := rfl

@[simp] theorem apply_session_highestmodseq (st : MailboxStatus) (mb : String) (s : State) :
    ((StateChange.session st mb).apply s).highestmodseq =
      (st.highestmodseq <|> s.highestmodseq) := rfl

@[simp] theorem apply_seed_lastSeenUid (uid : Nat) (s : State) :
    ((StateChange.seed uid).apply s).lastSeenUid = some uid := rfl

@[simp] theorem apply_seed_uidvalidity (uid : Nat) (s : State) :
    ((StateChange.seed uid).apply s).uidvalidity = s.uidvalidity := rfl

@[simp] theorem apply_seed_highestmodseq (uid : Nat) (s : State) :
    ((StateChange.seed uid).apply s).highestmodseq = s.highestmodseq := rfl

@[simp] theorem apply_advance_lastSeenUid (uid : Nat) (s : State) :
    ((StateChange.advance uid).apply s).lastSeenUid =
      some (max uid (s.lastSeenUid.getD 0)) := rfl

@[simp] theorem apply_advance_uidvalidity (uid : Nat) (s : State) :
    ((StateChange.advance uid).apply s).uidvalidity = s.uidvalidity := rfl

@[simp] theorem apply_advance_highestmodseq (uid : Nat) (s : State) :
    ((StateChange.advance uid).apply s).highestmodseq = s.highestmodseq := rfl

end ImapSieve
