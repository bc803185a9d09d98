import ImapSieve.ImapClient
import Mathlib.Data.List.Nodup

/-!
# Server Model: One Mailbox

A mailbox as an IMAP server keeps it: messages with UIDs, flags and mod-sequences, the
next UID and the highest mod-sequence. UIDs ascend and lie below UIDNEXT, and no
mod-sequence exceeds HIGHESTMODSEQ; the mailbox type carries this, so every operation below
has to preserve it.
-/

namespace ImapSieve

/-! ## Section 1: Messages of the server -/

/-- What stays the same when a message is copied to another mailbox. -/
structure Content where
  headers : List (String × String)
  envelopeFrom : Option String
  envelopeTo : List String
  raw : Option (List UInt8)
  size : Nat
deriving DecidableEq, Repr

structure StoredMessage where
  uid : Nat
  modseq : Nat
  flags : List String
  content : Content
deriving DecidableEq, Repr

/-- The message as `fetch_uid_range` delivers it. -/
def StoredMessage.toContext (m : StoredMessage) : MessageContext where
  uid := m.uid
  mailbox := ""
  headers := m.content.headers
  envelopeFrom := m.content.envelopeFrom
  envelopeTo := m.content.envelopeTo
  raw := m.content.raw
  flags := m.flags
  size := m.content.size

@[simp] theorem toContext_uid (m : StoredMessage) : m.toContext.uid = m.uid := rfl

@[simp] theorem toContext_raw (m : StoredMessage) : m.toContext.raw = m.content.raw := rfl

@[simp] theorem toContext_envelopeFrom (m : StoredMessage) :
    m.toContext.envelopeFrom = m.content.envelopeFrom := rfl

/-- Flag names are matched without regard to case. -/
def isDeletedFlag (flag : String) : Bool :=
  flag.toList.map Char.toLower = "\\deleted".toList

theorem isDeletedFlag_deleted : isDeletedFlag "\\Deleted" = true := by decide

def StoredMessage.deleted (m : StoredMessage) : Bool := m.flags.any isDeletedFlag

/-- The flags after a STORE. -/
def FlagOp.apply : FlagOp → List String → List String → List String
  | .add, flags, old => old ++ flags.filter fun f => f ∉ old
  | .remove, flags, old => old.filter fun f => f ∉ flags
  | .set, flags, _ => flags

/-- A message that `\Deleted` is added to carries it. -/
theorem any_isDeletedFlag_add (flags : List String) :
    (FlagOp.add.apply ["\\Deleted"] flags).any isDeletedFlag = true := by
  refine List.any_eq_true.mpr ⟨"\\Deleted", ?_, isDeletedFlag_deleted⟩
  by_cases hmem : "\\Deleted" ∈ flags <;> simp [FlagOp.apply, hmem]

/-! ## Section 2: Mailboxes -/

/-- A mailbox. -/
structure Mailbox where
  uidvalidity : Nat
  uidnext : Nat
  highestmodseq : Nat
  messages : List StoredMessage
  ascending : messages.Pairwise fun a b => a.uid < b.uid
  uid_lt : ∀ m ∈ messages, m.uid < uidnext
  modseq_le : ∀ m ∈ messages, m.modseq ≤ highestmodseq

namespace Mailbox

/-- A new mailbox. -/
def empty : Mailbox where
  uidvalidity := 1
  uidnext := 1
  highestmodseq := 1
  messages := []
  ascending := .nil
  uid_lt := by simp
  modseq_le := by simp

/-- The message with the given UID. -/
def find? (b : Mailbox) (uid : Nat) : Option StoredMessage :=
  b.messages.find? fun m => m.uid == uid

/-- The mailbox holds a message with the given UID. -/
def Has (b : Mailbox) (uid : Nat) : Prop := ∃ m ∈ b.messages, m.uid = uid

theorem nodup_uids (b : Mailbox) : (b.messages.map StoredMessage.uid).Nodup :=
  (List.pairwise_map.mpr b.ascending).imp Nat.ne_of_lt

/-- UIDs identify messages. -/
theorem eq_of_uid_eq (b : Mailbox) {m m' : StoredMessage} (hm : m ∈ b.messages)
    (hm' : m' ∈ b.messages) (huid : m.uid = m'.uid) : m = m' :=
  List.inj_on_of_nodup_map b.nodup_uids hm hm' huid

theorem find?_eq_some_iff (b : Mailbox) {uid : Nat} {m : StoredMessage} :
    b.find? uid = some m ↔ m ∈ b.messages ∧ m.uid = uid := by
  constructor
  · intro h
    exact ⟨List.mem_of_find?_eq_some h, by simpa using List.find?_some h⟩
  · rintro ⟨hm, huid⟩
    cases hfind : b.find? uid with
    | none =>
      have := List.find?_eq_none.mp hfind m hm
      simp [huid] at this
    | some m' =>
      have hm' : m' ∈ b.messages := List.mem_of_find?_eq_some hfind
      have huid' : m'.uid = uid := by simpa using List.find?_some hfind
      rw [b.eq_of_uid_eq hm hm' (huid.trans huid'.symm)]

theorem find?_eq_none_iff (b : Mailbox) {uid : Nat} : b.find? uid = none ↔ ¬ b.Has uid := by
  simp [find?, Has]

/-! ## Section 3: Operations -/

/-- A message arrives: it gets the next UID and a new mod-sequence. -/
def append (b : Mailbox) (flags : List String) (content : Content) : Mailbox where
  uidvalidity := b.uidvalidity
  uidnext := b.uidnext + 1
  highestmodseq := b.highestmodseq + 1
  messages := b.messages ++ [⟨b.uidnext, b.highestmodseq + 1, flags, content⟩]
  ascending := by
    refine List.pairwise_append.mpr ⟨b.ascending, List.pairwise_singleton .., ?_⟩
    intro m hm m' hm'
    rw [List.mem_singleton.mp hm']
    exact b.uid_lt m hm
  uid_lt := by
    intro m hm
    rcases List.mem_append.mp hm with hold | hnew
    · exact Nat.lt_succ_of_lt (b.uid_lt m hold)
    · rw [List.mem_singleton.mp hnew]
      exact Nat.lt_succ_self _
  modseq_le := by
    intro m hm
    rcases List.mem_append.mp hm with hold | hnew
    · exact Nat.le_succ_of_le (b.modseq_le m hold)
    · rw [List.mem_singleton.mp hnew]

/-- Drop the messages that do not pass the test. -/
def keepOnly (b : Mailbox) (test : StoredMessage → Bool) : Mailbox where
  uidvalidity := b.uidvalidity
  uidnext := b.uidnext
  highestmodseq := b.highestmodseq
  messages := b.messages.filter test
  ascending := b.ascending.filter test
  uid_lt m hm := b.uid_lt m (List.mem_of_mem_filter hm)
  modseq_le m hm := b.modseq_le m (List.mem_of_mem_filter hm)

/-- The message `uid` is gone. -/
def remove (b : Mailbox) (uid : Nat) : Mailbox := b.keepOnly fun m => m.uid != uid

/-- UID EXPUNGE: the listed messages that carry `\Deleted` are gone. -/
def expunge (b : Mailbox) (uids : List Nat) : Mailbox :=
  b.keepOnly fun m => !(uids.contains m.uid && m.deleted)

/-- STORE on one message; its mod-sequence becomes the highest. -/
def storeFlags (b : Mailbox) (uid : Nat) (op : FlagOp) (flags : List String) : Mailbox where
  uidvalidity := b.uidvalidity
  uidnext := b.uidnext
  highestmodseq := b.highestmodseq + (if (b.find? uid).isSome then 1 else 0)
  messages := b.messages.map fun m =>
    if m.uid = uid then
      { m with modseq := b.highestmodseq + 1, flags := op.apply flags m.flags }
    else m
  ascending := by
    refine List.pairwise_map.mpr (b.ascending.imp ?_)
    intro m m' h
    split <;> split <;> exact h
  uid_lt := by
    intro m hm
    obtain ⟨m', hm', rfl⟩ := List.mem_map.mp hm
    split <;> exact b.uid_lt m' hm'
  modseq_le := by
    intro m hm
    obtain ⟨m', hm', rfl⟩ := List.mem_map.mp hm
    split
    · next huid =>
      have hfind : b.find? uid = some m' := b.find?_eq_some_iff.mpr ⟨hm', huid⟩
      simp [hfind]
    · exact Nat.le_add_right_of_le (b.modseq_le m' hm')

/-! ## Section 4: Looking up after an operation -/

@[simp] theorem find?_append (b : Mailbox) (flags : List String) (content : Content)
    (uid : Nat) :
    (b.append flags content).find? uid =
      if uid = b.uidnext then some ⟨b.uidnext, b.highestmodseq + 1, flags, content⟩
      else b.find? uid := by
  split
  · next h =>
    rw [find?_eq_some_iff]
    simp [append, h]
  · next h =>
    have hne : b.uidnext ≠ uid := fun he => h he.symm
    simp [find?, append, List.find?_append, hne]

@[simp] theorem find?_keepOnly (b : Mailbox) (test : StoredMessage → Bool) (uid : Nat) :
    (b.keepOnly test).find? uid = (b.find? uid).filter test := by
  cases hfind : b.find? uid with
  | none =>
    rw [Option.filter_none, find?_eq_none_iff]
    rintro ⟨m, hm, huid⟩
    exact b.find?_eq_none_iff.mp hfind ⟨m, List.mem_of_mem_filter hm, huid⟩
  | some m =>
    obtain ⟨hm, huid⟩ := b.find?_eq_some_iff.mp hfind
    cases htest : test m with
    | true =>
      rw [Option.filter_some_pos htest, find?_eq_some_iff]
      exact ⟨List.mem_filter.mpr ⟨hm, htest⟩, huid⟩
    | false =>
      rw [Option.filter_some_neg (by simp [htest]), find?_eq_none_iff]
      rintro ⟨m', hm', huid'⟩
      obtain ⟨hmem, hpass⟩ := List.mem_filter.mp hm'
      rw [b.eq_of_uid_eq hmem hm (huid'.trans huid.symm), htest] at hpass
      cases hpass

@[simp] theorem find?_remove (b : Mailbox) (uid v : Nat) :
    (b.remove uid).find? v = if v = uid then none else b.find? v := by
  rw [remove, find?_keepOnly]
  cases hfind : b.find? v with
  | none => simp
  | some m =>
    have huid : m.uid = v := (b.find?_eq_some_iff.mp hfind).2
    split <;> simp [Option.filter, *]

@[simp] theorem find?_expunge_singleton (b : Mailbox) (uid v : Nat) :
    (b.expunge [uid]).find? v =
      if v = uid then (b.find? v).filter fun m => !m.deleted else b.find? v := by
  rw [expunge, find?_keepOnly]
  cases hfind : b.find? v with
  | none => simp
  | some m =>
    have huid : m.uid = v := (b.find?_eq_some_iff.mp hfind).2
    split <;> simp [Option.filter, *]

@[simp] theorem find?_storeFlags (b : Mailbox) (uid : Nat) (op : FlagOp) (flags : List String)
    (v : Nat) :
    (b.storeFlags uid op flags).find? v =
      if v = uid then (b.find? v).map fun m =>
        { m with modseq := b.highestmodseq + 1, flags := op.apply flags m.flags }
      else b.find? v := by
  cases hfind : b.find? v with
  | none =>
    have hnot := b.find?_eq_none_iff.mp hfind
    have hnone : (b.storeFlags uid op flags).find? v = none := by
      rw [find?_eq_none_iff]
      rintro ⟨m, hm, huid⟩
      obtain ⟨m', hm', rfl⟩ := List.mem_map.mp hm
      exact hnot ⟨m', hm', by rw [← huid]; split <;> rfl⟩
    rw [hnone]
    split <;> rfl
  | some m =>
    obtain ⟨hm, huid⟩ := b.find?_eq_some_iff.mp hfind
    split
    · next hv =>
      rw [Option.map_some, find?_eq_some_iff]
      exact ⟨List.mem_map.mpr ⟨m, hm, by rw [if_pos (huid.trans hv)]⟩, huid⟩
    · next hv =>
      rw [find?_eq_some_iff]
      exact ⟨List.mem_map.mpr ⟨m, hm, by rw [if_neg (huid ▸ hv)]⟩, huid⟩

/-! ## Section 5: FETCH -/

/-- IMAP's `start:*` always denotes the message with the highest UID, too. -/
def inRange (b : Mailbox) (start : Nat) (m : StoredMessage) : Bool :=
  start ≤ m.uid || b.messages.all fun m' => m'.uid ≤ m.uid

/-- CHANGEDSINCE hides the messages whose mod-sequence does not exceed the given one. -/
def changedAfter (since : Option Nat) (m : StoredMessage) : Bool :=
  match since with
  | none => true
  | some h => h < m.modseq

/-- The messages that answer `UID FETCH start:* … (CHANGEDSINCE since)`. -/
def fetch (b : Mailbox) (start : Nat) (since : Option Nat) : List StoredMessage :=
  b.messages.filter fun m => b.inRange start m && changedAfter since m

/-- The answer of a server that does not add the message with the highest UID. -/
def fetchFrom (b : Mailbox) (start : Nat) (since : Option Nat) : List StoredMessage :=
  b.messages.filter fun m => start ≤ m.uid && changedAfter since m

/-! ## Section 6: Mod-sequences over time -/

/-- Messages keep their UIDs, and what arrives or changes gets a mod-sequence that exceeds all
those given out before. -/
def Evolves (b b' : Mailbox) : Prop :=
  b.highestmodseq ≤ b'.highestmodseq ∧ ∀ m' ∈ b'.messages,
    (∃ m ∈ b.messages, m.uid = m'.uid ∧ m.modseq ≤ m'.modseq) ∨ b.highestmodseq < m'.modseq

instance (b b' : Mailbox) : Decidable (b.Evolves b') := inferInstanceAs (Decidable (_ ∧ _))

theorem Evolves.refl (b : Mailbox) : b.Evolves b :=
  ⟨le_rfl, fun m hm => .inl ⟨m, hm, rfl, le_rfl⟩⟩

theorem Evolves.trans {b₁ b₂ b₃ : Mailbox} (h₁ : b₁.Evolves b₂) (h₂ : b₂.Evolves b₃) :
    b₁.Evolves b₃ := by
  refine ⟨h₁.1.trans h₂.1, fun m₃ hm₃ => ?_⟩
  rcases h₂.2 m₃ hm₃ with ⟨m₂, hm₂, huid₂, hle₂⟩ | hnew
  · rcases h₁.2 m₂ hm₂ with ⟨m₁, hm₁, huid₁, hle₁⟩ | hnew
    · exact .inl ⟨m₁, hm₁, huid₁.trans huid₂, hle₁.trans hle₂⟩
    · exact .inr (hnew.trans_le hle₂)
  · exact .inr (h₁.1.trans_lt hnew)

theorem evolves_append (b : Mailbox) (flags : List String) (content : Content) :
    b.Evolves (b.append flags content) := by
  refine ⟨Nat.le_succ _, fun m hm => ?_⟩
  rcases List.mem_append.mp hm with hold | hnew
  · exact .inl ⟨m, hold, rfl, le_rfl⟩
  · rw [List.mem_singleton.mp hnew]
    exact .inr (Nat.lt_succ_self _)

theorem evolves_keepOnly (b : Mailbox) (test : StoredMessage → Bool) :
    b.Evolves (b.keepOnly test) :=
  ⟨le_rfl, fun m hm => .inl ⟨m, List.mem_of_mem_filter hm, rfl, le_rfl⟩⟩

theorem evolves_storeFlags (b : Mailbox) (uid : Nat) (op : FlagOp) (flags : List String) :
    b.Evolves (b.storeFlags uid op flags) := by
  refine ⟨Nat.le_add_right _ _, fun m' hm' => ?_⟩
  obtain ⟨m, hm, rfl⟩ := List.mem_map.mp hm'
  split
  · exact .inr (Nat.lt_succ_self _)
  · exact .inl ⟨m, hm, rfl, le_rfl⟩

/-! ## Section 7: UIDs over time -/

/-- UIDs are not given out anew: what lies below the old UIDNEXT was there before. -/
def Precedes (b b' : Mailbox) : Prop :=
  b.uidnext ≤ b'.uidnext ∧ ∀ m' ∈ b'.messages, m'.uid < b.uidnext → b.Has m'.uid

instance (b : Mailbox) (uid : Nat) : Decidable (b.Has uid) :=
  inferInstanceAs (Decidable (∃ m ∈ b.messages, m.uid = uid))

instance (b b' : Mailbox) : Decidable (b.Precedes b') := inferInstanceAs (Decidable (_ ∧ _))

theorem Precedes.refl (b : Mailbox) : b.Precedes b := ⟨le_rfl, fun m hm _ => ⟨m, hm, rfl⟩⟩

theorem Precedes.trans {b₁ b₂ b₃ : Mailbox} (h₁ : b₁.Precedes b₂) (h₂ : b₂.Precedes b₃) :
    b₁.Precedes b₃ := by
  refine ⟨h₁.1.trans h₂.1, fun m₃ hm₃ hlt => ?_⟩
  obtain ⟨m₂, hm₂, huid⟩ := h₂.2 m₃ hm₃ (hlt.trans_le h₁.1)
  rw [← huid] at hlt ⊢
  exact h₁.2 m₂ hm₂ hlt

theorem precedes_append (b : Mailbox) (flags : List String) (content : Content) :
    b.Precedes (b.append flags content) := by
  refine ⟨Nat.le_succ _, fun m hm hlt => ?_⟩
  rcases List.mem_append.mp hm with hold | hnew
  · exact ⟨m, hold, rfl⟩
  · rw [List.mem_singleton.mp hnew] at hlt
    exact absurd hlt (lt_irrefl _)

theorem precedes_keepOnly (b : Mailbox) (test : StoredMessage → Bool) :
    b.Precedes (b.keepOnly test) :=
  ⟨le_rfl, fun m hm _ => ⟨m, List.mem_of_mem_filter hm, rfl⟩⟩

theorem precedes_storeFlags (b : Mailbox) (uid : Nat) (op : FlagOp) (flags : List String) :
    b.Precedes (b.storeFlags uid op flags) := by
  refine ⟨le_rfl, fun m' hm' _ => ?_⟩
  obtain ⟨m, hm, rfl⟩ := List.mem_map.mp hm'
  exact ⟨m, hm, by split <;> rfl⟩

/-! ## Section 8: What every operation keeps -/

/-- A relation between the contents of a mailbox at two moments that holds across every
operation. -/
structure Lasting (rel : Mailbox → Mailbox → Prop) : Prop where
  refl : ∀ b, rel b b
  trans : ∀ {b₁ b₂ b₃}, rel b₁ b₂ → rel b₂ b₃ → rel b₁ b₃
  append : ∀ b flags content, rel b (b.append flags content)
  keepOnly : ∀ b test, rel b (b.keepOnly test)
  storeFlags : ∀ b uid op flags, rel b (b.storeFlags uid op flags)

theorem lasting_evolves : Lasting Evolves where
  refl := .refl
  trans := .trans
  append := evolves_append
  keepOnly := evolves_keepOnly
  storeFlags := evolves_storeFlags

theorem lasting_precedes : Lasting Precedes where
  refl := .refl
  trans := .trans
  append := precedes_append
  keepOnly := precedes_keepOnly
  storeFlags := precedes_storeFlags

end Mailbox

end ImapSieve
