import ImapSieve.System.Process
import ImapSieve.Text.SequenceSet
import Mathlib.Data.List.MinMax

/-!
# The World of the Process

What the process runs in: the mail server on the other side of the connection, the SMTP relay, the
directory of the state file, the script handle and the shutdown notification.

The server is given the arguments of the commands as text. It reads the sets of UIDs and the
argument of STORE by their grammars, and what it does is what was read.
-/

namespace ImapSieve

open Effects Text

/-! ## Section 1: Commands on the wire -/

/-- The UIDs of a set that lists them. -/
def uids? (text : String) : Option (List Nat) :=
  (sequenceSet? text.toList).bind fun set => set.mapM fun
    | .one (.number n) => some n
    | _ => none

/-- The UID of a set of one. -/
def uid? (text : String) : Option Nat :=
  match uids? text with
  | some [uid] => some uid
  | _ => none

/-- The command that is read off a call. The client names no other sets than lists of UIDs. -/
def NetCall.command? : NetCall → Option ImapCommand
  | .uidMv set target => (uid? set).map fun uid => .uidMove uid target
  | .uidCopy set target => (uid? set).map fun uid => .uidCopy uid target
  | .uidStore set query =>
      (uid? set).bind fun uid => (storeAttFlags? query).map fun read =>
        .uidStoreFlags uid read.1 read.2
  | .uidExpunge set => (uids? set).map .uidExpunge
  | .create mailbox => some (.uidCreateMailbox mailbox)
  | _ => none

/-- The call that a command is made with. -/
def NetCall.ofCommand : ImapCommand → NetCall
  | .uidMove uid target => .uidMv (toString uid) target
  | .uidCopy uid target => .uidCopy (toString uid) target
  | .uidStoreFlags uid op flags => .uidStore (toString uid) (storeQuery op flags)
  | .uidExpunge uids => .uidExpunge (uidSet uids)
  | .uidCreateMailbox mailbox => .create mailbox

/-- The command can be written down: there are no messages under the UID 0, sets are not empty,
and flags are flags. -/
def ImapCommand.Writable : ImapCommand → Prop
  | .uidMove uid _ | .uidCopy uid _ => 0 < uid
  | .uidStoreFlags uid _ flags => 0 < uid ∧ ∀ flag ∈ flags, isFlag flag.toList = true
  | .uidExpunge uids => uids ≠ [] ∧ ∀ uid ∈ uids, 0 < uid
  | .uidCreateMailbox _ => True

theorem toList_toString (n : Nat) : (toString n).toList = Nat.toDigits 10 n := by
  rw [Nat.toString_eq_repr, Nat.toList_repr]

theorem toList_uidSet (uids : List Nat) :
    (uidSet uids).toList = SequenceSet.render (uids.map fun n => .one (.number n)) := by
  simp [uidSet, SequenceSet.render, String.toList_intercalate, SeqItem.render, SeqNumber.render,
    Function.comp_def]

/-- A list of UIDs is read back. -/
theorem uids?_uidSet {uids : List Nat} (hne : uids ≠ []) (h : ∀ uid ∈ uids, 0 < uid) :
    uids? (uidSet uids) = some uids := by
  have hlist : ∀ l : List Nat, (l.map fun n => SeqItem.one (.number n)).mapM (fun
      | .one (.number n) => some n
      | _ => none) = some l := by
    intro l
    induction l with
    | nil => rfl
    | cons n rest ih => simp [ih]
  rw [uids?, toList_uidSet, sequenceSet?_render (by simpa using hne), Option.bind_some, hlist]
  intro item hitem
  obtain ⟨uid, huid, rfl⟩ := List.mem_map.mp hitem
  exact h uid huid

theorem uidSet_singleton (uid : Nat) : uidSet [uid] = toString uid := by
  simp [uidSet]

/-- What is read has UIDs, and 0 is none of them. -/
theorem listed_of_uids? {uids read : List Nat} (h : uids? (uidSet uids) = some read) :
    uids ≠ [] ∧ ∀ uid ∈ uids, 0 < uid := by
  constructor
  · rintro rfl
    rw [show uids? (uidSet []) = none by decide] at h
    cases h
  · intro uid huid
    by_contra hzero
    obtain rfl := Nat.eq_zero_of_not_pos hzero
    have hmem : SeqItem.one (.number 0) ∈ uids.map fun n => SeqItem.one (.number n) :=
      List.mem_map_of_mem huid
    rw [uids?, toList_uidSet, sequenceSet?_eq_none hmem (by decide)] at h
    cases h

/-- Nothing but the UIDs is read off a list of UIDs. -/
theorem eq_of_uids? {uids read : List Nat} (h : uids? (uidSet uids) = some read) :
    read = uids := by
  obtain ⟨hne, hpos⟩ := listed_of_uids? h
  rw [uids?_uidSet hne hpos] at h
  exact (Option.some.inj h).symm

theorem eq_of_uid? {uid read : Nat} (h : uid? (toString uid) = some read) : read = uid := by
  rw [uid?, ← uidSet_singleton] at h
  split at h
  · next read' hread =>
    cases h
    exact (List.cons.inj (eq_of_uids? hread)).1
  · cases h

/-- What becomes of the reply to a command. -/
def commandResult : (cmd : ImapCommand) → NetReply (.ofCommand cmd) → Except CoreError Unit
  | .uidMove _ _, reply => reply.mapError .imap
  | .uidCopy _ _, reply => reply.mapError .imap
  | .uidStoreFlags _ _ _, reply => storeResult reply
  | .uidExpunge _, reply => storeResult reply
  | .uidCreateMailbox _, reply => reply.mapError .imap

/-- The client makes its commands with these calls. -/
theorem command_eq_request (client : AsyncImapClient) (cmd : ImapCommand) :
    client.command cmd = client.request (.ofCommand cmd) (commandResult cmd) := by
  cases cmd <;> rfl

/-- What a command says beside the name of a mailbox: its UIDs, and what STORE does to flags. -/
structure Arguments where
  uids : List Nat
  change : Option (FlagOp × List String)
deriving DecidableEq, Repr

def ImapCommand.arguments : ImapCommand → Arguments
  | .uidMove uid _ | .uidCopy uid _ => ⟨[uid], none⟩
  | .uidStoreFlags uid op flags => ⟨[uid], some (op, flags)⟩
  | .uidExpunge uids => ⟨uids, none⟩
  | .uidCreateMailbox _ => ⟨[], none⟩

/-- The arguments that are read off the texts of a call, by the grammars of sets and of the
argument of STORE. -/
def NetCall.arguments? : NetCall → Option Arguments
  | .uidMv set _ | .uidCopy set _ | .uidExpunge set => (uids? set).map (⟨·, none⟩)
  | .uidStore set query =>
      (uids? set).bind fun uids => (storeAttFlags? query).map fun read => ⟨uids, some read⟩
  | .create _ => some ⟨[], none⟩
  | _ => none

theorem uids?_toString {uid : Nat} (h : 0 < uid) : uids? (toString uid) = some [uid] := by
  rw [← uidSet_singleton, uids?_uidSet (by simp) (by simpa using h)]

theorem eq_of_uids?_toString {uid : Nat} {read : List Nat}
    (h : uids? (toString uid) = some read) : read = [uid] ∧ 0 < uid := by
  rw [← uidSet_singleton] at h
  exact ⟨eq_of_uids? h, (listed_of_uids? h).2 uid (List.mem_singleton_self uid)⟩

/-- The arguments of a command that can be written down are read back. -/
theorem arguments?_ofCommand {cmd : ImapCommand} (h : cmd.Writable) :
    (NetCall.ofCommand cmd).arguments? = some cmd.arguments := by
  cases cmd with
  | uidMove uid target =>
    rw [NetCall.ofCommand, NetCall.arguments?, uids?_toString h]
    rfl
  | uidCopy uid target =>
    rw [NetCall.ofCommand, NetCall.arguments?, uids?_toString h]
    rfl
  | uidStoreFlags uid op flags =>
    rw [NetCall.ofCommand, NetCall.arguments?, uids?_toString h.1,
      storeAttFlags?_storeQuery op h.2]
    rfl
  | uidExpunge uids =>
    rw [NetCall.ofCommand, NetCall.arguments?, uids?_uidSet h.1 h.2]
    rfl
  | uidCreateMailbox mailbox => rfl

/-- Whatever is read of a STORE, its argument could be read, too. -/
theorem read_of_arguments? {uid : Nat} {op : FlagOp} {flags : List String} {read : Arguments}
    (h : (NetCall.ofCommand (.uidStoreFlags uid op flags)).arguments? = some read) :
    read.uids = [uid] ∧ 0 < uid ∧ ∃ change, storeAttFlags? (storeQuery op flags) = some change ∧
      read.change = some change := by
  obtain ⟨uids, huids, h⟩ := Option.bind_eq_some_iff.mp h
  obtain ⟨change, hchange, rfl⟩ := Option.map_eq_some_iff.mp h
  obtain ⟨rfl, hpos⟩ := eq_of_uids?_toString huids
  exact ⟨rfl, hpos, change, hchange, rfl⟩

/-- Whatever is read of a command has its UIDs. -/
theorem uids_of_arguments? {cmd : ImapCommand} {read : Arguments}
    (h : (NetCall.ofCommand cmd).arguments? = some read) : read.uids = cmd.arguments.uids := by
  cases cmd with
  | uidMove uid target =>
    obtain ⟨uids, huids, rfl⟩ := Option.map_eq_some_iff.mp h
    exact (eq_of_uids?_toString huids).1
  | uidCopy uid target =>
    obtain ⟨uids, huids, rfl⟩ := Option.map_eq_some_iff.mp h
    exact (eq_of_uids?_toString huids).1
  | uidStoreFlags uid op flags => exact (read_of_arguments? h).1
  | uidExpunge uids =>
    obtain ⟨uids', huids, rfl⟩ := Option.map_eq_some_iff.mp h
    exact eq_of_uids? huids
  | uidCreateMailbox mailbox =>
    cases h
    rfl

/-- A command whose arguments are read back could be written down. -/
theorem writable_of_arguments? {cmd : ImapCommand}
    (h : (NetCall.ofCommand cmd).arguments? = some cmd.arguments) : cmd.Writable := by
  cases cmd with
  | uidMove uid target =>
    obtain ⟨uids, huids, -⟩ := Option.map_eq_some_iff.mp h
    exact (eq_of_uids?_toString huids).2
  | uidCopy uid target =>
    obtain ⟨uids, huids, -⟩ := Option.map_eq_some_iff.mp h
    exact (eq_of_uids?_toString huids).2
  | uidStoreFlags uid op flags =>
    obtain ⟨-, hpos, change, hchange, heq⟩ := read_of_arguments? h
    cases heq
    exact ⟨hpos, isFlag_of_storeAttFlags? hchange⟩
  | uidExpunge uids =>
    obtain ⟨uids', huids, -⟩ := Option.map_eq_some_iff.mp h
    exact listed_of_uids? huids
  | uidCreateMailbox mailbox => trivial

/-- The client makes a command with texts off which its UIDs and its flags are read back if and
only if it can be written down. Other UIDs are never read. -/
theorem arguments_read_iff (client : AsyncImapClient) (cmd : ImapCommand) :
    client.command cmd = client.request (.ofCommand cmd) (commandResult cmd) ∧
      ((NetCall.ofCommand cmd).arguments? = some cmd.arguments ↔ cmd.Writable) ∧
        ∀ read, (NetCall.ofCommand cmd).arguments? = some read → read.uids = cmd.arguments.uids :=
  ⟨command_eq_request client cmd, ⟨writable_of_arguments?, arguments?_ofCommand⟩,
    fun _ => uids_of_arguments?⟩

/-- The flags of a STORE are flags. -/
def ImapCommand.ProperFlags : ImapCommand → Prop
  | .uidStoreFlags _ _ flags => ∀ flag ∈ flags, isFlag flag.toList = true
  | _ => True

/-- With proper flags no other command is read than the one that was written. -/
theorem eq_of_command? {cmd read : ImapCommand} (hflags : cmd.ProperFlags)
    (h : (NetCall.ofCommand cmd).command? = some read) : read = cmd := by
  cases cmd with
  | uidMove uid target =>
    obtain ⟨read', huid, rfl⟩ := Option.map_eq_some_iff.mp h
    rw [eq_of_uid? huid]
  | uidCopy uid target =>
    obtain ⟨read', huid, rfl⟩ := Option.map_eq_some_iff.mp h
    rw [eq_of_uid? huid]
  | uidStoreFlags uid op flags =>
    obtain ⟨read', huid, h⟩ := Option.bind_eq_some_iff.mp h
    rw [storeAttFlags?_storeQuery op hflags] at h
    cases h
    rw [eq_of_uid? huid]
  | uidExpunge uids =>
    obtain ⟨read', huids, rfl⟩ := Option.map_eq_some_iff.mp h
    rw [eq_of_uids? huids]
  | uidCreateMailbox mailbox =>
    cases h
    rfl

/-! ## Section 2: FETCH on the wire -/

/-- The highest UID of the mailbox. -/
def Mailbox.highestUid (b : Mailbox) : Nat := (b.messages.map StoredMessage.uid).foldr max ⊥

/-- The messages that the set names and CHANGEDSINCE does not hide. -/
def Mailbox.named (b : Mailbox) (set : SequenceSet) (since : Option Nat) : List StoredMessage :=
  b.messages.filter fun m =>
    set.any (fun item => item.Holds b.highestUid m.uid) && Mailbox.changedAfter since m

theorem uid_le_highestUid {b : Mailbox} {m : StoredMessage} (hm : m ∈ b.messages) :
    m.uid ≤ b.highestUid :=
  List.le_max_of_le (List.mem_map_of_mem hm) le_rfl

/-- `start:*` names what the range of a FETCH holds. -/
theorem named_from (b : Mailbox) (start : Nat) (since : Option Nat) :
    b.named [.range (.number start) .star] since = b.fetch start since := by
  refine List.filter_congr fun m hm => ?_
  have hhighest : m.uid = b.highestUid ↔ ∀ m' ∈ b.messages, m'.uid ≤ m.uid := by
    constructor
    · intro heq m' hm'
      rw [heq]
      exact uid_le_highestUid hm'
    · intro hall
      refine (uid_le_highestUid hm).antisymm (List.max_le_of_forall_le _ _ fun uid huid => ?_)
      obtain ⟨m', hm', rfl⟩ := List.mem_map.mp huid
      exact hall m' hm'
  rw [Bool.eq_iff_iff]
  simp [Mailbox.inRange, SeqItem.holds_from (uid_le_highestUid hm), hhighest]

theorem fetchSpec_none : fetchSpec none = "(UID FLAGS RFC822.SIZE ENVELOPE BODY.PEEK[])" := rfl

theorem fetchSpec_some (modseq : Nat) : fetchSpec (some modseq) =
    "(UID FLAGS RFC822.SIZE ENVELOPE BODY.PEEK[]) (CHANGEDSINCE " ++ toString modseq ++ ")" := rfl

/-- The bound of CHANGEDSINCE can be read off the query. -/
theorem fetchSpec_injective : Function.Injective fetchSpec := by
  have hlength : ∀ n, fetchSpec (some n) ≠ fetchSpec none := by
    intro n heq
    have hlong : "(UID FLAGS RFC822.SIZE ENVELOPE BODY.PEEK[])".length <
        "(UID FLAGS RFC822.SIZE ENVELOPE BODY.PEEK[]) (CHANGEDSINCE ".length := by
      decide +kernel
    have hle := congrArg String.length heq
    rw [fetchSpec_some, fetchSpec_none, String.length_append, String.length_append] at hle
    rw [← hle] at hlong
    exact absurd (Nat.le_add_right_of_le (Nat.le_add_right _ _)) (Nat.not_le_of_lt hlong)
  intro since since' h
  cases since with
  | none =>
    cases since' with
    | none => rfl
    | some n => exact absurd h.symm (hlength n)
  | some n =>
    cases since' with
    | none => exact absurd h (hlength n)
    | some n' =>
      have hchars := congrArg String.toList h
      simp only [fetchSpec_some, String.toList_append, List.append_cancel_right_eq,
        List.append_cancel_left_eq, toList_toString] at hchars
      have hread := congrArg (fun cs => Nat.ofDigitChars 10 cs 0) hchars
      simpa only [Nat.ofDigitChars_ten_toDigits, Option.some.injEq] using hread

/-- The items show the messages that are asked for, once each, in any order. Some servers do not
add the message with the highest UID to a range. -/
def Mailbox.Presents (b : Mailbox) (uidSet query : String) (shown : List FetchItem) : Prop :=
  ∃ set since, sequenceSet? uidSet.toList = some set ∧ query = fetchSpec since ∧
    ((shown.map FetchItem.toContext).Perm ((b.named set since).map StoredMessage.toContext) ∨
      ∃ start, set = [.range (.number start) .star] ∧
        (shown.map FetchItem.toContext).Perm
          ((b.fetchFrom start since).map StoredMessage.toContext))

/-- What answers the FETCH of the client shows the messages of its range. -/
theorem fetched_of_presents {b : Mailbox} {start : Nat} {since : Option Nat}
    {shown : List FetchItem} (h : b.Presents (toString start ++ ":*") (fetchSpec since) shown) :
    b.Fetched start since (shown.map FetchItem.toContext) := by
  obtain ⟨set, since', hset, hquery, hshown⟩ := h
  obtain rfl := fetchSpec_injective hquery
  obtain rfl : set = [.range (.number start) .star] := by
    have htext : (toString start ++ ":*").toList =
        SequenceSet.render [.range (.number start) .star] := by
      simp [SequenceSet.render, SeqItem.render, SeqNumber.render]
    rw [htext] at hset
    rcases Nat.eq_zero_or_pos start with rfl | hpos
    · -- 0 is no UID
      rw [sequenceSet?_eq_none (List.mem_singleton_self _) (by decide)] at hset
      cases hset
    · rw [sequenceSet?_render (by simp) (by simpa [SeqItem.Valid, SeqNumber.Valid] using hpos)]
        at hset
      exact (Option.some.inj hset).symm
  rcases hshown with hnamed | ⟨start', heq, hperm⟩
  · rw [named_from] at hnamed
    exact .inl hnamed
  · cases heq
    exact .inr hperm

/-! ## Section 3: Worlds -/

structure SystemWorld (E : Type) where
  server : Server
  /-- The mailbox selected by the current connection. -/
  selected : Option String
  /-- The mail that the relay has taken, newest first. -/
  outbox : List (E × List UInt8)
  directory : Directory
  handle : CompiledScript
  /-- The permit of the shutdown notification. -/
  permit : Bool

namespace SystemWorld

variable {E : Type}

/-- What a future in a `select!` gives: the notification, if there is a permit, or its result. -/
def Awaits {α : Type} (w done : SystemWorld E) : Selected α → SystemWorld E → Prop
  | .notified, w' => w.permit = true ∧ w' = { w with permit := false }
  | .finished _, w' => w.permit = false ∧ w' = done

/-- The command that the server has read off the call is run. -/
def Runs (w : SystemWorld E) (c : NetCall) (w' : SystemWorld E) : Prop :=
  ∃ cmd sel s, c.command? = some cmd ∧ w.selected = some sel ∧ w.server.run sel cmd = some s ∧
    w' = { w with server := s }

/-- A command that fails may have been carried out nevertheless. -/
def Carries (w : SystemWorld E) (c : NetCall) (succeeded : Bool) (w' : SystemWorld E) : Prop :=
  w.Runs c w' ∨ succeeded = false ∧ w' = w

/-- The answers to the calls of the IMAP client. -/
def NetAnswers (w : SystemWorld E) : (c : NetCall) → NetReply c → SystemWorld E → Prop
  | .notified, true, w' => w.permit = true ∧ w' = { w with permit := false }
  | .notified, false, w' => w.permit = false ∧ w' = w
  | .output _, r, w' => w.Awaits w r w'
  | .join, r, w' => w.Awaits w r w'
  | .tcpConnect _ _, r, w' => w.Awaits { w with selected := none } r w'
  | .starttls, r, w' => w.Awaits w r w'
  | .tlsHandshake _, r, w' => w.Awaits w r w'
  | .login _ _, r, w' => w.Awaits { w with selected := none } r w'
  | .capabilities, _, w' => w' = w
  | .select mailbox, .ok _, w' => w' = { w with selected := some mailbox }
  | .select _, .error _, w' => w' = { w with selected := none }
  | .uidFetch _ _, .error _, w' => w' = w
  | .uidFetch set query, .ok items, w' =>
      ((∃ e, .error e ∈ items) ∨ ∃ b shown, w.selected.bind w.server.box = some b ∧
        items = shown.map .ok ∧ b.Presents set query shown) ∧ w' = w
  | .uidMv set target, r, w' => w.Carries (.uidMv set target) r.toBool w'
  | .uidCopy set target, r, w' => w.Carries (.uidCopy set target) r.toBool w'
  | .uidStore set query, r, w' => w.Carries (.uidStore set query) (storeResult r).toBool w'
  | .uidExpunge set, r, w' => w.Carries (.uidExpunge set) (storeResult r).toBool w'
  | .create mailbox, r, w' => w.Carries (.create mailbox) r.toBool w'
  | .idleInit, r, w' => w.Awaits w r w'
  | .idleWait _, r, w' => w.Awaits w r w'
  | .idleDone, r, w' => w.Awaits w r w'

/-- The answers to the calls of the process. -/
def Answers (codec : StateCodec) (path : String) (w : SystemWorld E) :
    (c : SystemCall E) → SystemReply E c → SystemWorld E → Prop
  | .net c, r, w' => w.NetAnswers c r w'
  | .file c, r, w' =>
      ∃ d, Directory.Answers codec path w.directory c r d ∧ w' = { w with directory := d }
  | .sendRaw envelope raw, .ok (), w' => w' = { w with outbox := (envelope, raw) :: w.outbox }
  | .sendRaw envelope raw, .error _, w' =>
      w' = w ∨ w' = { w with outbox := (envelope, raw) :: w.outbox }
  | .genRange jitter, r, w' => (0 ≤ jitter → 0 ≤ r ∧ r ≤ jitter) ∧ w' = w
  | .sleep _, .notified, w' => w.permit = true ∧ w' = { w with permit := false }
  | .sleep _, .finished (), w' => w' = w
  | .stamp, _, w' => w' = w
  | .load, script, w' => script = w.handle ∧ w' = w
  | .readScript, _, w' => w' = w
  | .install script, (), w' => w' = { w with handle := script }
  | .spawnWatcher, _, w' => w' = w
  | .output _, _, w' => w' = w

/-- Others change the mailboxes as `others` says, the watcher reloads the script, shutdown is
notified. -/
structure Drifts (others : Server → Server → Prop) (compiled : CompiledScript → Prop)
    (w w' : SystemWorld E) : Prop where
  server : w'.server = w.server ∨ others w.server w'.server
  handle : w'.handle = w.handle ∨ compiled w'.handle
  permit : w.permit = true → w'.permit = true
  selected : w'.selected = w.selected
  outbox : w'.outbox = w.outbox
  directory : w'.directory = w.directory

/-- The process is lost and started again: its connection is gone, and its notification. -/
def restart (w : SystemWorld E) : SystemWorld E := { w with selected := none, permit := false }

end SystemWorld

variable {A E : Type}

/-- The scripts that the loader makes, of whatever text. -/
def Crates.Compiled (crates : Crates A E) (script : CompiledScript) : Prop :=
  ∃ text, (⟨crates.compile, ""⟩ : ScriptLoader).load text = .ok script

/-- What the process runs against. `path` is the state file. -/
def systemWorld (crates : Crates A E) (path : String) (others : Server → Server → Prop) :
    Surroundings (SystemCall E) (SystemReply E) (SystemWorld E) where
  answers := SystemWorld.Answers crates.codec path
  drifts := SystemWorld.Drifts others crates.Compiled
  restarts w w' := w' = w.restart

/-! ## Section 4: A world to compute with -/

namespace SystemWorld

variable {E : Type}

/-- The server runs the command that it reads. -/
def runNet (w : SystemWorld E) (c : NetCall) : Option (SystemWorld E) :=
  c.command?.bind fun cmd => w.selected.bind fun sel =>
    (w.server.run sel cmd).map fun s => { w with server := s }

/-- A player for the IMAP connection that lets everything succeed that can. FETCH shows the
messages by `view`, as far as that shows them. -/
def respondNet (atoms : List String) (view : StoredMessage → FetchItem) (w : SystemWorld E) :
    (c : NetCall) → NetReply c × SystemWorld E
  | .notified => if w.permit then (true, { w with permit := false }) else (false, w)
  | .output _ => awaits (.error "sh: not found") w
  | .join => awaits (.ok ()) w
  | .tcpConnect _ _ => awaits (.ok ()) { w with selected := none }
  | .starttls => awaits (.ok ()) w
  | .tlsHandshake _ => awaits (.ok ()) w
  | .login _ _ => awaits (.ok ()) { w with selected := none }
  | .capabilities => (.ok atoms, w)
  | .select mailbox =>
      match w.server.box mailbox with
      | some b =>
          (.ok ⟨b.messages.length, some b.uidvalidity, some b.uidnext, some b.highestmodseq⟩,
            { w with selected := some mailbox })
      | none => (.error "no such mailbox", { w with selected := none })
  | .uidFetch set query =>
      match w.selected.bind w.server.box, sequenceSet? set.toList with
      | some b, some read =>
          let messages := b.named read none
          if query = fetchSpec none ∧
              messages.map StoredMessage.toContext = messages.map fun m => (view m).toContext then
            (.ok (messages.map fun m => .ok (view m)), w)
          else (.error "NO", w)
      | _, _ => (.error "BAD", w)
  | .uidMv set target => carries (w.runNet (.uidMv set target)) (.ok ()) (.error "NO")
  | .uidCopy set target => carries (w.runNet (.uidCopy set target)) (.ok ()) (.error "NO")
  | .uidStore set query => carries (w.runNet (.uidStore set query)) (.ok []) (.error "NO")
  | .uidExpunge set => carries (w.runNet (.uidExpunge set)) (.ok []) (.error "NO")
  | .create mailbox => carries (w.runNet (.create mailbox)) (.ok ()) (.error "NO")
  | .idleInit => awaits (.ok ()) w
  | .idleWait _ => awaits (.ok .timeout) w
  | .idleDone => awaits (.ok ()) w
where
  awaits {α : Type} (result : α) (done : SystemWorld E) : Selected α × SystemWorld E :=
    if w.permit then (.notified, { w with permit := false }) else (.finished result, done)
  carries {α : Type} (ran : Option (SystemWorld E)) (ok error : α) : α × SystemWorld E :=
    match ran with
    | some w' => (ok, w')
    | none => (error, w)

/-- A player that lets everything succeed that can. `text` is in the file of the script. -/
def respond (codec : StateCodec) (path text : String) (atoms : List String)
    (view : StoredMessage → FetchItem) (w : SystemWorld E) :
    (c : SystemCall E) → SystemReply E c × SystemWorld E
  | .net c => w.respondNet atoms view c
  | .file c =>
      ((w.directory.respond codec path c).1,
        { w with directory := (w.directory.respond codec path c).2 })
  | .sendRaw envelope raw => (.ok (), { w with outbox := (envelope, raw) :: w.outbox })
  | .genRange _ => (0, w)
  | .sleep _ => (.finished (), w)
  | .stamp => (⟨"Thu, 01 Jan 1970 00:00:00 +0000", "0"⟩, w)
  | .load => (w.handle, w)
  | .readScript => (.ok text, w)
  | .install script => ((), { w with handle := script })
  | .spawnWatcher => (.ok (), w)
  | .output _ => (.error "sh: not found", w)

theorem awaits_respond {α : Type} (w done : SystemWorld E) (result : α) :
    w.Awaits done (respondNet.awaits w result done).1 (respondNet.awaits w result done).2 := by
  unfold respondNet.awaits
  cases hpermit : w.permit with
  | true => exact ⟨hpermit, rfl⟩
  | false => exact ⟨hpermit, rfl⟩

/-- What was read is run. -/
theorem runs_of_runNet {w w' : SystemWorld E} {c : NetCall} (h : w.runNet c = some w') :
    w.Runs c w' := by
  obtain ⟨cmd, hcmd, h⟩ := Option.bind_eq_some_iff.mp h
  obtain ⟨sel, hsel, h⟩ := Option.bind_eq_some_iff.mp h
  obtain ⟨s, hrun, rfl⟩ := Option.map_eq_some_iff.mp h
  exact ⟨cmd, sel, s, hcmd, hsel, hrun, rfl⟩

theorem carries_respond {α : Type} (w : SystemWorld E) (c : NetCall) (succeeded : α → Bool)
    (ok : α) {error : α} (herror : succeeded error = false) :
    w.Carries c (succeeded (respondNet.carries w (w.runNet c) ok error).1)
      (respondNet.carries w (w.runNet c) ok error).2 := by
  unfold respondNet.carries
  split
  · next w' hrun => exact .inl (runs_of_runNet hrun)
  · exact .inr ⟨herror, rfl⟩

theorem netAnswers_respond (atoms : List String) (view : StoredMessage → FetchItem)
    (w : SystemWorld E) (c : NetCall) :
    w.NetAnswers c (w.respondNet atoms view c).1 (w.respondNet atoms view c).2 := by
  cases c with
  | notified => cases hpermit : w.permit <;> simp [respondNet, NetAnswers, hpermit]
  | output command => exact awaits_respond _ _ _
  | join => exact awaits_respond _ _ _
  | tcpConnect host port => exact awaits_respond _ _ _
  | starttls => exact awaits_respond _ _ _
  | tlsHandshake host => exact awaits_respond _ _ _
  | login username password => exact awaits_respond _ _ _
  | capabilities => rfl
  | select mailbox => cases hbox : w.server.box mailbox <;> simp [respondNet, NetAnswers, hbox]
  | uidFetch set query =>
    simp only [respondNet]
    split
    · next b read hbox hread =>
      split
      · next h =>
        refine ⟨.inr ⟨b, (b.named read none).map view, hbox, ?_, read, none, hread, h.1, ?_⟩, rfl⟩
        · rw [List.map_map]
          rfl
        · refine .inl (.of_eq ?_)
          rw [h.2, List.map_map]
          rfl
      · rfl
    · rfl
  | uidMv set target => exact carries_respond _ _ Except.toBool _ rfl
  | uidCopy set target => exact carries_respond _ _ Except.toBool _ rfl
  | uidStore set query =>
    exact carries_respond _ _ (fun r => (storeResult r).toBool) _ rfl
  | uidExpunge set =>
    exact carries_respond _ _ (fun r => (storeResult r).toBool) _ rfl
  | create mailbox => exact carries_respond _ _ Except.toBool _ rfl
  | idleInit => exact awaits_respond _ _ _
  | idleWait timeout => exact awaits_respond _ _ _
  | idleDone => exact awaits_respond _ _ _

theorem answers_respond (codec : StateCodec) (path text : String) (atoms : List String)
    (view : StoredMessage → FetchItem) (w : SystemWorld E) (c : SystemCall E) :
    w.Answers codec path c (w.respond codec path text atoms view c).1
      (w.respond codec path text atoms view c).2 := by
  cases c with
  | net c => exact netAnswers_respond atoms view w c
  | file c => exact ⟨_, fileSystem_respond codec path w.directory c, rfl⟩
  | genRange jitter => exact ⟨fun h => ⟨le_rfl, h⟩, rfl⟩
  | load => exact ⟨rfl, rfl⟩
  | _ => rfl

end SystemWorld

end ImapSieve
