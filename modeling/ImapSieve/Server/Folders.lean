import ImapSieve.Server.Store

/-!
# Mailboxes as Messages with Flags

What a user sees of a mailbox: its messages with their UIDs and flags. `Folders` are the
mailboxes of a server in this view, with the same commands on them. The server refines it:
`folders_run` says that a command does to the view of the server what it does to the server.

Mod-sequences are not in the view, and with them gone a MOVE is a COPY, a STORE of `\Deleted`
and an EXPUNGE (`run_move`).
-/

namespace ImapSieve

/-! ## Section 1: Folders -/

/-- A message in a folder. -/
structure Item where
  uid : Nat
  flags : List String
  content : Content
deriving DecidableEq, Repr

structure Folder where
  uidnext : Nat
  items : List Item
deriving DecidableEq, Repr

namespace Folder

def empty : Folder := ⟨1, []⟩

def append (f : Folder) (flags : List String) (content : Content) : Folder :=
  ⟨f.uidnext + 1, f.items ++ [⟨f.uidnext, flags, content⟩]⟩

def remove (f : Folder) (uid : Nat) : Folder :=
  { f with items := f.items.filter fun m => m.uid != uid }

def expunge (f : Folder) (uids : List Nat) : Folder :=
  { f with items := f.items.filter fun m => !(uids.contains m.uid && m.flags.any isDeletedFlag) }

def storeFlags (f : Folder) (uid : Nat) (op : FlagOp) (flags : List String) : Folder :=
  { f with items := f.items.map fun m =>
      if m.uid = uid then { m with flags := op.apply flags m.flags } else m }

def find? (f : Folder) (uid : Nat) : Option Item := f.items.find? fun m => m.uid == uid

/-- A message that is marked as deleted and expunged is removed. -/
theorem expunge_storeFlags (f : Folder) (uid : Nat) :
    (f.storeFlags uid .add ["\\Deleted"]).expunge [uid] = f.remove uid := by
  refine congrArg (Folder.mk f.uidnext) ?_
  change (f.items.map fun m => if m.uid = uid then
    { m with flags := FlagOp.add.apply ["\\Deleted"] m.flags } else m).filter
      (fun m => !([uid].contains m.uid && m.flags.any isDeletedFlag)) =
    f.items.filter fun m => m.uid != uid
  induction f.items with
  | nil => rfl
  | cons m rest ih =>
    rw [List.map_cons, List.filter_cons, List.filter_cons, ih]
    by_cases hm : m.uid = uid
    · simp [hm, any_isDeletedFlag_add]
    · simp [hm]

end Folder

/-- The folders by name. -/
abbrev Folders := String → Option Folder

namespace Folders

def folder (s : Folders) (name : String) : Option Folder := s (mailboxKey name)

def set (s : Folders) (name : String) (f : Folder) : Folders :=
  fun k => if k = mailboxKey name then some f else s k

def modify (s : Folders) (name : String) (g : Folder → Folder) : Folders :=
  match s.folder name with
  | some f => s.set name (g f)
  | none => s

/-- COPY keeps the flags. It is refused where the target is missing. -/
def copy (s : Folders) (sel : String) (uid : Nat) (target : String) : Option Folders :=
  match s.folder target with
  | none => none
  | some dst =>
      match (s.folder sel).bind fun f => f.find? uid with
      | none => some s
      | some m => some (s.set target (dst.append m.flags m.content))

/-- Execute a command with the folder `sel` selected. -/
def run (s : Folders) (sel : String) : ImapCommand → Option Folders
  | .uidCopy uid target => s.copy sel uid target
  | .uidMove uid target => (s.copy sel uid target).map fun s' => s'.modify sel (·.remove uid)
  | .uidStoreFlags uid op flags => some (s.modify sel (·.storeFlags uid op flags))
  | .uidExpunge uids => some (s.modify sel (·.expunge uids))
  | .uidCreateMailbox name =>
      match s.folder name with
      | some _ => none
      | none => some (s.set name .empty)

theorem modify_modify (s : Folders) (name : String) (g h : Folder → Folder) :
    (s.modify name g).modify name h = s.modify name fun f => h (g f) := by
  cases hf : s.folder name with
  | none => simp only [modify, hf]
  | some f =>
    have hset : (s.set name (g f)).folder name = some (g f) := if_pos rfl
    simp only [modify, hf, hset]
    funext k
    simp only [set]
    split <;> rfl

/-- A MOVE is a COPY, a STORE of `\Deleted` and an EXPUNGE. -/
theorem run_move (s : Folders) (sel : String) (uid : Nat) (target : String) :
    s.run sel (.uidMove uid target) =
      (s.run sel (.uidCopy uid target)).bind fun s₁ =>
        (s₁.run sel (.uidStoreFlags uid .add ["\\Deleted"])).bind fun s₂ =>
          s₂.run sel (.uidExpunge [uid]) := by
  cases hcopy : s.copy sel uid target with
  | none => simp only [run, hcopy, Option.map_none, Option.bind_none]
  | some s₁ =>
    simp only [run, hcopy, Option.map_some, Option.bind_some, modify_modify,
      Folder.expunge_storeFlags]

end Folders

/-! ## Section 2: The server in this view -/

def StoredMessage.item (m : StoredMessage) : Item := ⟨m.uid, m.flags, m.content⟩

def Mailbox.folder (b : Mailbox) : Folder := ⟨b.uidnext, b.messages.map StoredMessage.item⟩

def Server.folders (s : Server) : Folders := fun k => (s.boxes k).map Mailbox.folder

namespace Mailbox

theorem folder_append (b : Mailbox) (flags : List String) (content : Content) :
    (b.append flags content).folder = b.folder.append flags content := by
  simp [folder, append, Folder.append, StoredMessage.item]

theorem folder_keepOnly (b : Mailbox) (test : Item → Bool) :
    (b.keepOnly fun m => test m.item).folder =
      { b.folder with items := b.folder.items.filter test } := by
  refine congrArg (Folder.mk b.uidnext) ?_
  change List.map StoredMessage.item (List.filter (test ∘ StoredMessage.item) b.messages) =
    List.filter test (b.messages.map StoredMessage.item)
  exact List.filter_map.symm

theorem folder_remove (b : Mailbox) (uid : Nat) : (b.remove uid).folder = b.folder.remove uid :=
  b.folder_keepOnly fun m => m.uid != uid

theorem folder_expunge (b : Mailbox) (uids : List Nat) :
    (b.expunge uids).folder = b.folder.expunge uids :=
  b.folder_keepOnly fun m => !(uids.contains m.uid && m.flags.any isDeletedFlag)

theorem folder_storeFlags (b : Mailbox) (uid : Nat) (op : FlagOp) (flags : List String) :
    (b.storeFlags uid op flags).folder = b.folder.storeFlags uid op flags := by
  refine congrArg (Folder.mk b.uidnext) ?_
  change (List.map _ b.messages).map StoredMessage.item =
    (b.messages.map StoredMessage.item).map _
  rw [List.map_map, List.map_map]
  refine List.map_congr_left fun m _ => ?_
  by_cases hm : m.uid = uid <;> simp [StoredMessage.item, hm]

theorem find?_folder (b : Mailbox) (uid : Nat) :
    b.folder.find? uid = (b.find? uid).map StoredMessage.item :=
  List.find?_map

end Mailbox

namespace Server

theorem folder_folders (s : Server) (name : String) :
    s.folders.folder name = (s.box name).map Mailbox.folder := rfl

theorem folders_setBox (s : Server) (name : String) (b : Mailbox) :
    (s.setBox name b).folders = s.folders.set name b.folder := by
  funext k
  simp only [folders, setBox, Folders.set]
  split <;> rfl

theorem folders_modify (s : Server) (name : String) {f : Mailbox → Mailbox} {g : Folder → Folder}
    (hfg : ∀ b, (f b).folder = g b.folder) :
    (s.modify name f).folders = s.folders.modify name g := by
  cases hbox : s.box name with
  | none => simp only [modify, Folders.modify, folder_folders, hbox, Option.map_none]
  | some b =>
    simp only [modify, Folders.modify, folder_folders, hbox, Option.map_some, folders_setBox, hfg]

theorem find?_folders (s : Server) (sel : String) (uid : Nat) :
    (s.folders.folder sel).bind (fun f => f.find? uid) =
      (s.find? sel uid).map StoredMessage.item := by
  rw [folder_folders, find?]
  cases s.box sel with
  | none => rfl
  | some b => exact b.find?_folder uid

theorem folders_copy (s : Server) (sel : String) (uid : Nat) (target : String) :
    (s.copy sel uid target).map folders = s.folders.copy sel uid target := by
  rw [Folders.copy, folder_folders, find?_folders, copy]
  cases s.box target with
  | none => rfl
  | some dst =>
    cases s.find? sel uid with
    | none => rfl
    | some m =>
      simp only [Option.map_some, folders_setBox, Mailbox.folder_append]
      rfl

/-- A command does to the view what it does to the server. -/
theorem folders_run (s : Server) (sel : String) (cmd : ImapCommand) :
    (s.run sel cmd).map folders = s.folders.run sel cmd := by
  cases cmd with
  | uidCopy uid target => exact s.folders_copy sel uid target
  | uidMove uid target =>
    rw [Folders.run, ← folders_copy, run, Option.map_map, Option.map_map]
    exact congrArg (Option.map · _) (funext fun s' =>
      folders_modify s' sel fun b => b.folder_remove uid)
  | uidStoreFlags uid op flags =>
    exact congrArg some (folders_modify s sel fun b => b.folder_storeFlags uid op flags)
  | uidExpunge uids => exact congrArg some (folders_modify s sel fun b => b.folder_expunge uids)
  | uidCreateMailbox name =>
    rw [run, Folders.run, folder_folders]
    cases s.box name with
    | some b => rfl
    | none => exact congrArg some (folders_setBox s name .empty)

end Server

end ImapSieve
