import ImapSieve.Effects.Run
import ImapSieve.State

/-!
# State Store

`StateStore`: the state in memory, and its file. An update changes the memory first and then
writes a temporary file beside the state file, which it renames onto it.

The store is a program over the calls it makes to the file system. `serde_json` is taken as a
parameter, and `write_all` and the drop of a `NamedTempFile` are written out.
-/

namespace ImapSieve

open Effects

/-! ## Section 1: The file system -/

inductive IoError where
  | notFound
  | interrupted
  | other (message : String)
deriving DecidableEq, Repr

def IoError.display : IoError → String
  | .notFound => "entity not found"
  | .interrupted => "operation interrupted"
  | .other message => message

/-- Names are those of files in the directory of the state file. -/
inductive FileCall where
  /-- `serde_json::to_vec(&self.state)` -/
  | toVec (state : State)
  /-- `std::fs::create_dir_all(parent)` -/
  | createDirAll
  /-- `std::fs::read(path)` -/
  | read (name : String)
  /-- `NamedTempFile::new_in(dir)` -/
  | createTemp
  /-- One `write` of a `write_all`. The reply says how many bytes were taken. -/
  | write (name : String) (bytes : List UInt8)
  | syncAll (name : String)
  /-- The rename of `NamedTempFile::persist` -/
  | rename (name target : String)
  /-- What the drop of a `NamedTempFile` does; errors are ignored. -/
  | unlink (name : String)
  /-- Ghost: `update` has applied its closure. -/
  | updating (f : State → State) (before after : State)
  /-- Ghost: `update` returns. -/
  | updated (f : State → State) (before : State) (result : Except StateError Unit)
      (after : State)

abbrev FileReply : FileCall → Type
  | .toVec _ => Except String (List UInt8)
  | .createDirAll => Except IoError Unit
  | .read _ => Except IoError (List UInt8)
  | .createTemp => Except IoError String
  | .write _ _ => Except IoError Nat
  | .syncAll _ => Except IoError Unit
  | .rename _ _ => Except IoError Unit
  | .unlink _ => Unit
  | .updating _ _ _ => Unit
  | .updated _ _ _ _ => Unit

abbrev FileProgram := Prog FileCall FileReply

/-- `fn … -> Result<α, StateError>` -/
abbrev Persistent := ExceptT StateError FileProgram

/-- Convert the error of a call, as `?` does. -/
def convertError {ε α : Type} (convert : ε → StateError) (p : FileProgram (Except ε α)) :
    Persistent α := ExceptT.mk do
  match ← p with
  | .ok a => return .ok a
  | .error e => return .error (convert e)

def ofIo {α : Type} (p : FileProgram (Except IoError α)) : Persistent α :=
  convertError (fun e => .io e.display) p

def ofJson {α : Type} (p : FileProgram (Except String α)) : Persistent α := convertError .json p

/-- Make a call of the file system. -/
def fileCall (c : FileCall) : FileProgram (FileReply c) := Prog.perform c

/-! ## Section 2: Writing a file -/

/-- One round of `write_all`: `inl` is what is still to be written. -/
def writeRound (name : String) (bytes : List UInt8) :
    FileProgram (List UInt8 ⊕ Except IoError Unit) := do
  if bytes.isEmpty then
    return .inr (.ok ())
  else
    match ← fileCall (.write name bytes) with
    | .ok 0 => return .inr (.error (.other "failed to write whole buffer"))
    | .ok n => return .inl (bytes.drop n)
    | .error .interrupted => return .inl bytes
    | .error e => return .inr (.error e)

/-- `tmp.write_all(&bytes)` -/
def writeAll (name : String) (bytes : List UInt8) : FileProgram (Except IoError Unit) :=
  Prog.loop (writeRound name) bytes

/-! ## Section 3: The store -/

/-- `serde_json::to_vec` and `serde_json::from_slice` on `State`, with the texts of their
errors. -/
structure StateCodec where
  toVec : State → Except String (List UInt8)
  fromSlice : List UInt8 → Except String State

structure StateStore where
  path : String
  state : State

namespace StateStore

/-- `StateStore::open`. -/
def «open» (codec : StateCodec) (path : String) : Persistent StateStore := do
  ofIo (fileCall .createDirAll)
  match ← ExceptT.lift (fileCall (.read path)) with
  | .ok bytes =>
      match codec.fromSlice bytes with
      | .ok state => return ⟨path, state⟩
      | .error e => throw (.json e)
  | .error .notFound => return ⟨path, {}⟩
  | .error e => throw (.io e.display)

/-- `StateStore::persist`. -/
def persist (store : StateStore) : Persistent Unit := do
  let bytes ← ofJson (fileCall (.toVec store.state))
  let tmp ← ofIo (fileCall .createTemp)
  try
    ofIo (writeAll tmp bytes)
    ofIo (fileCall (.syncAll tmp))
    ofIo (fileCall (.rename tmp store.path))
  catch e =>
    -- the temporary file is dropped
    ExceptT.lift (fileCall (.unlink tmp))
    throw e

/-- `StateStore::update`, with the store that it leaves. -/
def update (store : StateStore) (f : State → State) :
    FileProgram (Except StateError Unit × StateStore) := do
  let changed : StateStore := { store with state := f store.state }
  fileCall (.updating f store.state changed.state)
  let result ← changed.persist.run
  fileCall (.updated f store.state result changed.state)
  return (result, changed)

/-- A sequence of updates, whether they fail or not. -/
def updates : StateStore → List (State → State) → FileProgram StateStore
  | store, [] => return store
  | store, f :: rest => do
      let (_, changed) ← store.update f
      updates changed rest

end StateStore

/-! ## Section 4: The directory -/

/-- The contents of the files by name. -/
abbrev Directory := String → Option (List UInt8)

def Directory.set (d : Directory) (name : String) (content : Option (List UInt8)) : Directory :=
  fun n => if n = name then content else d n

/-- What the calls do. `path` is the state file: temporary files get other names, which are not
in use. Each step of `open` and of `persist` may fail; a failed `write` may have written something,
too. -/
def Directory.Answers (codec : StateCodec) (path : String) (d : Directory) :
    (c : FileCall) → FileReply c → Directory → Prop
  | .toVec state, .ok bytes, d' => codec.toVec state = .ok bytes ∧ d' = d
  | .toVec _, .error _, d' => d' = d
  | .createDirAll, _, d' => d' = d
  | .read name, .ok bytes, d' => d name = some bytes ∧ d' = d
  | .read name, .error e, d' => (e = .notFound → d name = none) ∧ d' = d
  | .createTemp, .ok name, d' => name ≠ path ∧ d name = none ∧ d' = d.set name (some [])
  | .createTemp, .error _, d' => d' = d
  | .write name bytes, .ok n, d' =>
      n ≤ bytes.length ∧ ∃ content, d name = some content ∧
        d' = d.set name (some (content ++ bytes.take n))
  | .write name bytes, .error e, d' =>
      d' = d ∨ (e ≠ .interrupted ∧ ∃ n content, d name = some content ∧
        d' = d.set name (some (content ++ bytes.take n)))
  | .syncAll _, _, d' => d' = d
  | .rename name target, .ok (), d' =>
      ∃ content, d name = some content ∧ d' = (d.set name none).set target (some content)
  | .rename _ _, .error _, d' => d' = d
  | .unlink name, (), d' => d' = d ∨ d' = d.set name none
  | .updating _ _ _, (), d' => d' = d
  | .updated _ _ _ _, (), d' => d' = d

/-- The store with its directory. Nobody else writes there, and a process that is lost leaves
the directory as it is. -/
def fileSystem (codec : StateCodec) (path : String) :
    Surroundings FileCall FileReply Directory where
  answers := Directory.Answers codec path
  drifts _ _ := False
  restarts d d' := d' = d

/-! ## Section 5: A directory to compute with -/

/-- A player that lets everything succeed that can. A `write` takes at most 32 bytes. -/
def Directory.respond (codec : StateCodec) (path : String) (d : Directory) :
    (c : FileCall) → FileReply c × Directory
  | .toVec state => (codec.toVec state, d)
  | .createDirAll => (.ok (), d)
  | .read name =>
      match d name with
      | some bytes => (.ok bytes, d)
      | none => (.error .notFound, d)
  | .createTemp =>
      if ".tmpV5h0Qk" ≠ path ∧ d ".tmpV5h0Qk" = none then
        (.ok ".tmpV5h0Qk", d.set ".tmpV5h0Qk" (some []))
      else (.error (.other "too many temporary files exist"), d)
  | .write name bytes =>
      match d name with
      | some content =>
          (.ok (min 32 bytes.length),
            d.set name (some (content ++ bytes.take (min 32 bytes.length))))
      | none => (.error .notFound, d)
  | .syncAll _ => (.ok (), d)
  | .rename name target =>
      match d name with
      | some content => (.ok (), (d.set name none).set target (some content))
      | none => (.error .notFound, d)
  | .unlink name => ((), d.set name none)
  | .updating _ _ _ => ((), d)
  | .updated _ _ _ _ => ((), d)

theorem fileSystem_respond (codec : StateCodec) (path : String) (d : Directory) (c : FileCall) :
    (fileSystem codec path).answers d c (d.respond codec path c).1 (d.respond codec path c).2 := by
  cases c with
  | toVec state =>
    change Directory.Answers codec path d (.toVec state) (codec.toVec state) d
    cases hvec : codec.toVec state with
    | ok bytes => exact ⟨hvec, rfl⟩
    | error e => rfl
  | createDirAll => rfl
  | read name =>
    cases hfile : d name <;> simp [fileSystem, Directory.respond, Directory.Answers, hfile]
  | createTemp =>
    by_cases hfree : ".tmpV5h0Qk" ≠ path ∧ d ".tmpV5h0Qk" = none
    · simp only [fileSystem, Directory.respond, if_pos hfree]
      exact ⟨hfree.1, hfree.2, rfl⟩
    · simp only [fileSystem, Directory.respond, if_neg hfree]
      rfl
  | write name bytes =>
    cases hfile : d name with
    | none => simp [fileSystem, Directory.respond, Directory.Answers, hfile]
    | some content =>
      simp only [fileSystem, Directory.respond, hfile]
      exact ⟨Nat.min_le_right _ _, content, hfile, rfl⟩
  | syncAll name => rfl
  | rename name target =>
    cases hfile : d name with
    | none => simp [fileSystem, Directory.respond, Directory.Answers, hfile]
    | some content =>
      simp only [fileSystem, Directory.respond, hfile]
      exact ⟨content, hfile, rfl⟩
  | unlink name => exact .inr rfl
  | updating f before after => rfl
  | updated f before result after => rfl

/-- An empty directory. -/
def emptyDirectory : Directory := fun _ => none

/-- The JSON text of a state. The name of the mailbox has to be one without escapes. -/
def jsonText (s : State) : List UInt8 :=
  ("\x7b\"selected_mailbox\":" ++ s.selectedMailbox.elim "null" quoted ++
    ",\"uidvalidity\":" ++ number s.uidvalidity ++ ",\"last_seen_uid\":" ++ number s.lastSeenUid ++
    ",\"highestmodseq\":" ++ number s.highestmodseq ++ "\x7d").toUTF8.data.toList
where
  quoted (name : String) : String := "\"" ++ name ++ "\""
  number (n : Option Nat) : String := n.elim "null" toString

/-- `serde_json` on the states in the list. -/
def jsonCodec (known : List State) : StateCodec where
  toVec s := if s ∈ known then .ok (jsonText s) else .error "not a sample"
  fromSlice bytes :=
    match known.find? fun s => jsonText s = bytes with
    | some s => .ok s
    | none => .error "expected value at line 1 column 1"

/-- `serde_json` on two states. -/
def sampleCodec : StateCodec := jsonCodec [{}, { lastSeenUid := some 1 }]

end ImapSieve
