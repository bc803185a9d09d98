import ImapSieve.Server.Mailbox

/-!
# Server Model: All Mailboxes and the Commands

The mailboxes of a server by name, and what each IMAP command does to them. A command that
the server refuses (COPY or MOVE to a missing mailbox, CREATE of an existing one) gives
`none` and changes nothing; a UID command on a UID that is not there succeeds without
effect.

All later reasoning about commands goes through a few facts about a command on the UID `u`
of the selected mailbox:

- `run_frame`: every other message stays as it is;
- `run_origin`: every message found afterwards was there before, or is the message itself,
  or a copy of it under the next UID of the command's target;
- `run_keeps`, `run_delivers`, `run_gone`: what becomes of the message itself.
-/

namespace ImapSieve

/-! ## Section 1: Mailboxes by name -/

/-- The name INBOX is matched without regard to case. -/
def mailboxKey (name : String) : String :=
  if name.toList.map Char.toUpper = "INBOX".toList then "INBOX" else name

structure Server where
  boxes : String → Option Mailbox

namespace Server

def box (s : Server) (name : String) : Option Mailbox := s.boxes (mailboxKey name)

def setBox (s : Server) (name : String) (b : Mailbox) : Server where
  boxes k := if k = mailboxKey name then some b else s.boxes k

@[simp] theorem box_setBox (s : Server) (name name' : String) (b : Mailbox) :
    (s.setBox name b).box name' =
      if mailboxKey name' = mailboxKey name then some b else s.box name' := rfl

theorem box_congr (s : Server) {name name' : String} (h : mailboxKey name = mailboxKey name') :
    s.box name = s.box name' := by
  rw [box, box, h]

/-- The message under a UID of a mailbox. -/
def find? (s : Server) (name : String) (uid : Nat) : Option StoredMessage :=
  (s.box name).bind fun b => b.find? uid

/-- The UID that the next message of a mailbox gets. A mailbox that is still missing will
start with 1. -/
def nextUid (s : Server) (name : String) : Nat := (s.box name).elim 1 Mailbox.uidnext

theorem find?_congr (s : Server) {name name' : String}
    (h : mailboxKey name = mailboxKey name') (uid : Nat) :
    s.find? name uid = s.find? name' uid := by
  rw [find?, find?, s.box_congr h]

theorem find?_of_box {s : Server} {name : String} {b : Mailbox} (h : s.box name = some b)
    (uid : Nat) : s.find? name uid = b.find? uid := by
  rw [find?, h, Option.bind_some]

theorem exists_box_of_find? {s : Server} {name : String} {uid : Nat} {m : StoredMessage}
    (h : s.find? name uid = some m) : ∃ b, s.box name = some b ∧ b.find? uid = some m := by
  cases hbox : s.box name with
  | none => simp [find?, hbox] at h
  | some b => exact ⟨b, rfl, by rwa [find?_of_box hbox] at h⟩

theorem lt_nextUid_of_find? {s : Server} {name : String} {uid : Nat} {m : StoredMessage}
    (h : s.find? name uid = some m) : uid < s.nextUid name := by
  obtain ⟨b, hbox, hb⟩ := exists_box_of_find? h
  obtain ⟨hm, huid⟩ := b.find?_eq_some_iff.mp hb
  rw [nextUid, hbox]
  exact huid ▸ b.uid_lt m hm

@[simp] theorem find?_setBox (s : Server) (name name' : String) (b : Mailbox) (uid : Nat) :
    (s.setBox name b).find? name' uid =
      if mailboxKey name' = mailboxKey name then b.find? uid else s.find? name' uid := by
  rw [find?, box_setBox]
  split <;> rfl

@[simp] theorem nextUid_setBox (s : Server) (name name' : String) (b : Mailbox) :
    (s.setBox name b).nextUid name' =
      if mailboxKey name' = mailboxKey name then b.uidnext else s.nextUid name' := by
  rw [nextUid, box_setBox]
  split <;> rfl

/-! ## Section 2: Commands -/

/-- Change a mailbox, if it is there. -/
def modify (s : Server) (name : String) (f : Mailbox → Mailbox) : Server :=
  match s.box name with
  | some b => s.setBox name (f b)
  | none => s

/-- COPY one message of the mailbox `sel`. -/
def copy (s : Server) (sel : String) (uid : Nat) (target : String) : Option Server :=
  match s.box target with
  | none => none
  | some dst =>
      match s.find? sel uid with
      | none => some s
      | some m => some (s.setBox target (dst.append m.flags m.content))

/-- Execute a command with the mailbox `sel` selected. `none` is a refusal. -/
def run (s : Server) (sel : String) : ImapCommand → Option Server
  | .uidCopy uid target => s.copy sel uid target
  | .uidMove uid target => (s.copy sel uid target).map fun s' => s'.modify sel (·.remove uid)
  | .uidStoreFlags uid op flags => some (s.modify sel (·.storeFlags uid op flags))
  | .uidExpunge uids => some (s.modify sel (·.expunge uids))
  | .uidCreateMailbox name =>
      match s.box name with
      | some _ => none
      | none => some (s.setBox name .empty)

theorem find?_modify (s : Server) (name : String) (f : Mailbox → Mailbox) (name' : String)
    (uid : Nat) :
    (s.modify name f).find? name' uid =
      if mailboxKey name' = mailboxKey name then (s.box name).bind fun b => (f b).find? uid
      else s.find? name' uid := by
  cases hbox : s.box name with
  | none =>
    simp only [modify, hbox, Option.bind_none]
    split
    · next h => rw [find?, s.box_congr h, hbox, Option.bind_none]
    · rfl
  | some b => simp only [modify, hbox, find?_setBox, Option.bind_some]

theorem nextUid_modify (s : Server) (name : String) {f : Mailbox → Mailbox}
    (hf : ∀ b, (f b).uidnext = b.uidnext) (name' : String) :
    (s.modify name f).nextUid name' = s.nextUid name' := by
  cases hbox : s.box name with
  | none => simp only [modify, hbox]
  | some b =>
    simp only [modify, hbox, nextUid_setBox, hf]
    split
    · next h => rw [nextUid, s.box_congr h, hbox, Option.elim_some]
    · rfl

/-- What COPY does, in one statement. -/
theorem copy_cases {s s' : Server} {sel target : String} {uid : Nat}
    (h : s.copy sel uid target = some s') :
    (s.find? sel uid = none ∧ s' = s) ∨
      ∃ dst m, s.box target = some dst ∧ s.find? sel uid = some m ∧
        s' = s.setBox target (dst.append m.flags m.content) := by
  unfold copy at h
  split at h
  · cases h
  · next dst hdst =>
    split at h
    · next hfind => exact .inl ⟨hfind, (Option.some.inj h).symm⟩
    · next m hfind => exact .inr ⟨dst, m, hdst, hfind, (Option.some.inj h).symm⟩

/-- COPY succeeds exactly when its target exists. -/
theorem copy_isSome_iff (s : Server) (sel target : String) (uid : Nat) :
    (s.copy sel uid target).isSome ↔ (s.box target).isSome := by
  unfold copy
  split
  · next h => simp [h]
  · next h => split <;> simp [h]

/-! ## Section 3: Looking up after a command -/

/-- A change to one message of a mailbox, seen from anywhere. -/
theorem find?_modify_at (s : Server) (sel : String) {f : Mailbox → Mailbox} {uid : Nat}
    {g : Mailbox → Option StoredMessage → Option StoredMessage}
    (hf : ∀ b v, (f b).find? v = if v = uid then g b (b.find? v) else b.find? v)
    (n : String) (v : Nat) :
    (s.modify sel f).find? n v =
      if mailboxKey n = mailboxKey sel ∧ v = uid then
        (s.box sel).bind fun b => g b (b.find? v)
      else s.find? n v := by
  rw [find?_modify]
  by_cases hn : mailboxKey n = mailboxKey sel
  · rw [if_pos hn, find?, s.box_congr hn]
    cases s.box sel with
    | none => simp
    | some b =>
      by_cases hv : v = uid
      · simp [hn, hv, hf]
      · simp [hv, hf]
  · simp [hn]

theorem find?_modify_remove (s : Server) (sel : String) (uid : Nat) (n : String) (v : Nat) :
    (s.modify sel (·.remove uid)).find? n v =
      if mailboxKey n = mailboxKey sel ∧ v = uid then none else s.find? n v := by
  rw [s.find?_modify_at sel (g := fun _ _ => none) fun b v => b.find?_remove uid v]
  cases s.box sel <;> rfl

/-- What COPY leaves: the copy under the next UID of the target, and the rest. -/
theorem find?_copy {s s' : Server} {sel target : String} {uid : Nat}
    (h : s.copy sel uid target = some s') (n : String) (v : Nat) :
    (s'.find? n v = s.find? n v ∧
        ¬ (s.find? sel uid ≠ none ∧ mailboxKey n = mailboxKey target ∧ v = s.nextUid target)) ∨
      ∃ m m', s.find? sel uid = some m ∧ mailboxKey n = mailboxKey target ∧
        v = s.nextUid target ∧ s'.find? n v = some m' ∧ m'.content = m.content := by
  rcases copy_cases h with ⟨hnone, rfl⟩ | ⟨dst, m, hdst, hm, rfl⟩
  · exact .inl ⟨rfl, fun hc => hc.1 hnone⟩
  · have hnext : s.nextUid target = dst.uidnext := by rw [nextUid, hdst, Option.elim_some]
    by_cases hn : mailboxKey n = mailboxKey target
    · by_cases hv : v = dst.uidnext
      · exact .inr ⟨m, ⟨dst.uidnext, dst.highestmodseq + 1, m.flags, m.content⟩, hm, hn,
          hv.trans hnext.symm, by simp [hn, hv], rfl⟩
      · refine .inl ⟨?_, fun hc => hv (hc.2.2.trans hnext)⟩
        rw [find?_setBox, if_pos hn, Mailbox.find?_append, if_neg hv, find?, s.box_congr hn, hdst,
          Option.bind_some]
    · exact .inl ⟨by rw [find?_setBox, if_neg hn], fun hc => hn hc.2.1⟩

/-- CREATE adds a mailbox that was missing, and it is empty. -/
theorem create_cases {s s' : Server} {sel name : String}
    (h : s.run sel (.uidCreateMailbox name) = some s') :
    s.box name = none ∧ s' = s.setBox name .empty := by
  cases hbox : s.box name with
  | some b => simp [run, hbox] at h
  | none =>
    simp only [run, hbox, Option.some.injEq] at h
    exact ⟨rfl, h.symm⟩

/-- CREATE adds no message. -/
theorem find?_create {s s' : Server} {sel name : String}
    (h : s.run sel (.uidCreateMailbox name) = some s') (n : String) (v : Nat) :
    s'.find? n v = s.find? n v := by
  obtain ⟨hbox, rfl⟩ := create_cases h
  rw [find?_setBox]
  split
  · next hn => rw [find?, s.box_congr hn, hbox]; rfl
  · rfl

/-! ## Section 4: Commands about one message -/

end Server

/-- The command concerns no message but the one under the UID. -/
def ImapCommand.About (uid : Nat) : ImapCommand → Prop
  | .uidMove u _ | .uidCopy u _ | .uidStoreFlags u _ _ => u = uid
  | .uidExpunge uids => uids = [uid]
  | .uidCreateMailbox _ => True

/-- Where the command puts a copy of its message. -/
def ImapCommand.target : ImapCommand → Option String
  | .uidMove _ target | .uidCopy _ target => some target
  | _ => none

/-- The command may take the message away. -/
def ImapCommand.removes : ImapCommand → Bool
  | .uidMove _ _ | .uidExpunge _ => true
  | _ => false

namespace Server

section About

variable {s s' : Server} {sel : String} {cmd : ImapCommand} {uid : Nat}

/-- A message found after COPY, alone or as the first half of MOVE, was there before or is the
copy. -/
theorem copy_origin {s₁ : Server} {target n : String} {v : Nat} {m' : StoredMessage}
    (h : s.copy sel uid target = some s₁) (hfind : s₁.find? n v = some m') :
    s.find? n v = some m' ∨ ∃ m, s.find? sel uid = some m ∧ m'.content = m.content ∧
      mailboxKey n = mailboxKey target ∧ v = s.nextUid target := by
  rcases find?_copy h n v with ⟨heq, -⟩ | ⟨m, m₁, hm, hn, hv, hm₁, hcontent⟩
  · exact .inl (heq ▸ hfind)
  · rw [hfind] at hm₁
    cases hm₁
    exact .inr ⟨m, hm, hcontent, hn, hv⟩

/-- A message found after a command was there before, or is the command's message, or is
the copy that the command made. -/
theorem run_origin (h : s.run sel cmd = some s') (habout : cmd.About uid) {n : String} {v : Nat}
    {m' : StoredMessage} (hfind : s'.find? n v = some m') :
    s.find? n v = some m' ∨
      ∃ m, s.find? sel uid = some m ∧ m'.content = m.content ∧
        ((mailboxKey n = mailboxKey sel ∧ v = uid) ∨
          ∃ target, cmd.target = some target ∧ mailboxKey n = mailboxKey target ∧
            v = s.nextUid target) := by
  cases cmd with
  | uidMove u target =>
    cases habout
    obtain ⟨s₁, hs₁, rfl⟩ := Option.map_eq_some_iff.mp h
    rw [find?_modify_remove] at hfind
    split at hfind
    · cases hfind
    · rcases copy_origin hs₁ hfind with hold | ⟨m, hm, hcontent, hn, hv⟩
      · exact .inl hold
      · exact .inr ⟨m, hm, hcontent, .inr ⟨target, rfl, hn, hv⟩⟩
  | uidCopy u target =>
    cases habout
    rcases copy_origin h hfind with hold | ⟨m, hm, hcontent, hn, hv⟩
    · exact .inl hold
    · exact .inr ⟨m, hm, hcontent, .inr ⟨target, rfl, hn, hv⟩⟩
  | uidStoreFlags u op flags =>
    cases habout
    cases h
    rw [s.find?_modify_at sel fun b v => b.find?_storeFlags uid op flags v] at hfind
    split at hfind
    · next hat =>
      obtain ⟨hn, rfl⟩ := hat
      obtain ⟨b, hb, hmap⟩ := Option.bind_eq_some_iff.mp hfind
      obtain ⟨m, hm, rfl⟩ := Option.map_eq_some_iff.mp hmap
      exact .inr ⟨m, by rw [find?_of_box hb, hm], rfl, .inl ⟨hn, rfl⟩⟩
    · exact .inl hfind
  | uidExpunge uids =>
    cases habout
    cases h
    rw [s.find?_modify_at sel fun b v => b.find?_expunge_singleton uid v] at hfind
    split at hfind
    · next hat =>
      obtain ⟨b, hb, hfilter⟩ := Option.bind_eq_some_iff.mp hfind
      rw [s.find?_congr hat.1, find?_of_box hb]
      exact .inl (Option.eq_some_of_filter_eq_some hfilter)
    · exact .inl hfind
  | uidCreateMailbox name =>
    rw [find?_create h] at hfind
    exact .inl hfind

/-- Every other message stays as it is. -/
theorem run_frame (h : s.run sel cmd = some s') (habout : cmd.About uid) {n : String} {v : Nat}
    (hother : ¬ (mailboxKey n = mailboxKey sel ∧ v = uid)) {m : StoredMessage}
    (hfind : s.find? n v = some m) : s'.find? n v = some m := by
  -- COPY puts its message where no other is
  have hcopy : ∀ {target s₁}, s.copy sel uid target = some s₁ → s₁.find? n v = some m := by
    intro target s₁ hcopy
    rcases find?_copy hcopy n v with ⟨heq, -⟩ | ⟨_, _, -, hn, hv, -⟩
    · exact heq.trans hfind
    · -- no message lies under the next UID
      have hlt := lt_nextUid_of_find? hfind
      rw [nextUid, s.box_congr hn, ← nextUid] at hlt
      omega
  cases cmd with
  | uidMove u target =>
    cases habout
    obtain ⟨s₁, hs₁, rfl⟩ := Option.map_eq_some_iff.mp h
    rw [find?_modify_remove, if_neg hother]
    exact hcopy hs₁
  | uidCopy u target =>
    cases habout
    exact hcopy h
  | uidStoreFlags u op flags =>
    cases habout
    cases h
    rw [s.find?_modify_at sel fun b v => b.find?_storeFlags uid op flags v, if_neg hother]
    exact hfind
  | uidExpunge uids =>
    cases habout
    cases h
    rw [s.find?_modify_at sel fun b v => b.find?_expunge_singleton uid v, if_neg hother]
    exact hfind
  | uidCreateMailbox name => rw [find?_create h, hfind]

/-- A message that is not there does not come back. -/
theorem run_gone (h : s.run sel cmd = some s') (habout : cmd.About uid)
    (hnone : s.find? sel uid = none) : s'.find? sel uid = none := by
  cases hfind : s'.find? sel uid with
  | none => rfl
  | some m' =>
    rcases run_origin h habout hfind with hold | ⟨m, hm, -⟩
    · rw [hnone] at hold
      cases hold
    · rw [hnone] at hm
      cases hm

/-- Only MOVE and EXPUNGE take the message away. -/
theorem run_keeps (h : s.run sel cmd = some s') (habout : cmd.About uid)
    (hstays : cmd.removes = false) {m : StoredMessage} (hfind : s.find? sel uid = some m) :
    ∃ m', s'.find? sel uid = some m' ∧ m'.content = m.content := by
  cases cmd with
  | uidMove u target => cases hstays
  | uidExpunge uids => cases hstays
  | uidCopy u target =>
    cases habout
    rcases find?_copy h sel uid with ⟨heq, -⟩ | ⟨m₁, m', hm₁, -, -, hm', hcontent⟩
    · exact ⟨m, heq.trans hfind, rfl⟩
    · rw [hfind] at hm₁
      cases hm₁
      exact ⟨m', hm', hcontent⟩
  | uidStoreFlags u op flags =>
    -- the flags change, the content does not
    cases habout
    cases h
    obtain ⟨b, hb, hm⟩ := exists_box_of_find? hfind
    refine ⟨{ m with modseq := b.highestmodseq + 1, flags := op.apply flags m.flags }, ?_, rfl⟩
    rw [s.find?_modify_at sel fun b v => b.find?_storeFlags uid op flags v, if_pos ⟨rfl, rfl⟩, hb,
      Option.bind_some, hm, Option.map_some]
  | uidCreateMailbox name => exact ⟨m, by rw [find?_create h, hfind], rfl⟩

/-- COPY and MOVE put a copy of a message that is there under the next UID of the target. -/
theorem run_delivers (h : s.run sel cmd = some s') (habout : cmd.About uid) {target : String}
    (htarget : cmd.target = some target) {m : StoredMessage} (hfind : s.find? sel uid = some m) :
    ∃ m', s'.find? target (s.nextUid target) = some m' ∧ m'.content = m.content := by
  -- COPY, alone and as the first half of MOVE
  have hcopy : ∀ {s₁}, s.copy sel uid target = some s₁ →
      ∃ m', s₁.find? target (s.nextUid target) = some m' ∧ m'.content = m.content := by
    intro s₁ hcopy
    rcases find?_copy hcopy target (s.nextUid target) with ⟨-, hnot⟩ | ⟨m₁, m', hm₁, -, -, hm', hc⟩
    · exact absurd ⟨by simp [hfind], rfl, rfl⟩ hnot
    · rw [hfind] at hm₁
      cases hm₁
      exact ⟨m', hm', hc⟩
  cases cmd with
  | uidMove u t =>
    cases habout
    cases htarget
    obtain ⟨s₁, hs₁, rfl⟩ := Option.map_eq_some_iff.mp h
    obtain ⟨m', hm', hcontent⟩ := hcopy hs₁
    refine ⟨m', ?_, hcontent⟩
    rw [find?_modify_remove, if_neg ?_, hm']
    -- also when the target is the selected mailbox the copy has another UID
    rintro ⟨hn, hv⟩
    have hlt := lt_nextUid_of_find? hfind
    rw [nextUid, ← s.box_congr hn, ← nextUid] at hlt
    omega
  | uidCopy u t =>
    cases habout
    cases htarget
    exact hcopy h
  | uidStoreFlags u op flags => cases htarget
  | uidExpunge uids => cases htarget
  | uidCreateMailbox name => cases htarget

/-- UIDs are never given out twice. -/
theorem run_nextUid_le (h : s.run sel cmd = some s') (n : String) : s.nextUid n ≤ s'.nextUid n := by
  -- COPY gives out one UID of its target
  have hcopy : ∀ {u target s₁}, s.copy sel u target = some s₁ → s.nextUid n ≤ s₁.nextUid n := by
    intro u target s₁ hcopy
    rcases copy_cases hcopy with ⟨-, rfl⟩ | ⟨dst, m, hdst, -, rfl⟩
    · exact le_rfl
    · rw [nextUid_setBox]
      split
      · next hn =>
        rw [nextUid, s.box_congr hn, hdst, Option.elim_some]
        exact Nat.le_succ _
      · exact le_rfl
  cases cmd with
  | uidMove u target =>
    obtain ⟨s₁, hs₁, rfl⟩ := Option.map_eq_some_iff.mp h
    rw [s₁.nextUid_modify sel (f := fun b => b.remove u) fun _ => rfl]
    exact hcopy hs₁
  | uidCopy u target => exact hcopy h
  | uidStoreFlags u op flags =>
    cases h
    rw [s.nextUid_modify sel (f := fun b => b.storeFlags u op flags) fun _ => rfl]
  | uidExpunge uids =>
    cases h
    rw [s.nextUid_modify sel (f := fun b => b.expunge uids) fun _ => rfl]
  | uidCreateMailbox name =>
    obtain ⟨hbox, rfl⟩ := create_cases h
    rw [nextUid_setBox]
    split
    · next hn => rw [nextUid, s.box_congr hn, hbox]; rfl
    · exact le_rfl

/-- MOVE takes the message away. -/
theorem run_move_gone {target : String} (h : s.run sel (.uidMove uid target) = some s') :
    s'.find? sel uid = none := by
  obtain ⟨s₁, hs₁, rfl⟩ := Option.map_eq_some_iff.mp h
  rw [find?_modify_remove, if_pos ⟨rfl, rfl⟩]

theorem run_store_deleted (h : s.run sel (.uidStoreFlags uid .add ["\\Deleted"]) = some s')
    {m : StoredMessage} (hfind : s'.find? sel uid = some m) : m.deleted = true := by
  cases h
  rw [s.find?_modify_at sel fun b v => b.find?_storeFlags uid .add ["\\Deleted"] v,
    if_pos ⟨rfl, rfl⟩] at hfind
  obtain ⟨b, hb, hmap⟩ := Option.bind_eq_some_iff.mp hfind
  obtain ⟨m₀, hm₀, rfl⟩ := Option.map_eq_some_iff.mp hmap
  exact any_isDeletedFlag_add m₀.flags

/-- UID EXPUNGE takes the message away if it carries `\Deleted`. -/
theorem run_expunge_gone (h : s.run sel (.uidExpunge [uid]) = some s')
    (hdeleted : ∀ m, s.find? sel uid = some m → m.deleted = true) :
    s'.find? sel uid = none := by
  cases h
  rw [s.find?_modify_at sel fun b v => b.find?_expunge_singleton uid v, if_pos ⟨rfl, rfl⟩]
  cases hbox : s.box sel with
  | none => rfl
  | some b =>
    rw [Option.bind_some]
    cases hfind : b.find? uid with
    | none => rfl
    | some m => simp [Option.filter, hdeleted m (by rw [find?_of_box hbox, hfind])]

end About

/-! ## Section 5: Commands and whole mailboxes -/

/-- The mailbox, if it is there, stays there, and the relation holds between then and now. -/
def Keeps (rel : Mailbox → Mailbox → Prop) (s s' : Server) (name : String) : Prop :=
  ∀ b ∈ s.box name, ∃ b' ∈ s'.box name, rel b b'

section Keeps

variable {rel : Mailbox → Mailbox → Prop} (hrel : Mailbox.Lasting rel)

include hrel

theorem Keeps.refl (s : Server) (name : String) : Keeps rel s s name :=
  fun b hb => ⟨b, hb, hrel.refl b⟩

theorem Keeps.trans {s₁ s₂ s₃ : Server} {name : String} (h₁ : Keeps rel s₁ s₂ name)
    (h₂ : Keeps rel s₂ s₃ name) : Keeps rel s₁ s₃ name := by
  intro b₁ hb₁
  obtain ⟨b₂, hb₂, h⟩ := h₁ b₁ hb₁
  obtain ⟨b₃, hb₃, h'⟩ := h₂ b₂ hb₂
  exact ⟨b₃, hb₃, hrel.trans h h'⟩

/-- Replacing a mailbox by one that it is related to. -/
theorem keeps_setBox {s : Server} {name : String} {b : Mailbox}
    (h : ∀ b₀ ∈ s.box name, rel b₀ b) (name' : String) :
    Keeps rel s (s.setBox name b) name' := by
  intro b₀ hb₀
  rw [box_setBox]
  split
  · next hkey => exact ⟨b, rfl, h b₀ (s.box_congr hkey ▸ hb₀)⟩
  · exact ⟨b₀, hb₀, hrel.refl b₀⟩

theorem keeps_modify (s : Server) (sel : String) {f : Mailbox → Mailbox}
    (hf : ∀ b : Mailbox, rel b (f b)) (name : String) : Keeps rel s (s.modify sel f) name := by
  unfold modify
  split
  · next b hb =>
    refine keeps_setBox hrel (fun b₀ hb₀ => ?_) name
    rw [hb] at hb₀
    cases hb₀
    exact hf b
  · exact .refl hrel s name

/-- What every operation on a mailbox keeps is kept by every command. -/
theorem run_keepsBox {s s' : Server} {sel : String} {cmd : ImapCommand}
    (h : s.run sel cmd = some s') (name : String) : Keeps rel s s' name := by
  -- COPY appends to its target
  have hcopy : ∀ {uid target s₁}, s.copy sel uid target = some s₁ → Keeps rel s s₁ name := by
    intro uid target s₁ hcopy
    rcases copy_cases hcopy with ⟨-, rfl⟩ | ⟨dst, m, hdst, -, rfl⟩
    · exact .refl hrel _ name
    · refine keeps_setBox hrel (fun b₀ hb₀ => ?_) name
      rw [hdst] at hb₀
      cases hb₀
      exact hrel.append dst m.flags m.content
  cases cmd with
  | uidMove uid target =>
    obtain ⟨s₁, hs₁, rfl⟩ := Option.map_eq_some_iff.mp h
    exact (hcopy hs₁).trans hrel (keeps_modify hrel s₁ sel (fun b => hrel.keepOnly b _) name)
  | uidCopy uid target => exact hcopy h
  | uidStoreFlags uid op flags =>
    cases h
    exact keeps_modify hrel s sel (fun b => hrel.storeFlags b uid op flags) name
  | uidExpunge uids =>
    cases h
    exact keeps_modify hrel s sel (fun b => hrel.keepOnly b _) name
  | uidCreateMailbox created =>
    obtain ⟨hbox, rfl⟩ := create_cases h
    refine keeps_setBox hrel (fun b₀ hb₀ => ?_) name
    rw [hbox] at hb₀
    cases hb₀

end Keeps

/-- The mailbox, if it is there, stays there and evolves. -/
def Evolves (s s' : Server) (name : String) : Prop :=
  ∀ b ∈ s.box name, ∃ b' ∈ s'.box name, b.Evolves b'

instance (s s' : Server) (name : String) : Decidable (s.Evolves s' name) :=
  inferInstanceAs (Decidable (∀ b ∈ s.box name, _))

/-- The mailbox, if it is there, stays there and gives out no UID anew. -/
def Precedes (s s' : Server) (name : String) : Prop :=
  ∀ b ∈ s.box name, ∃ b' ∈ s'.box name, b.Precedes b'

instance (s s' : Server) (name : String) : Decidable (s.Precedes s' name) :=
  inferInstanceAs (Decidable (∀ b ∈ s.box name, _))

end Server

end ImapSieve
