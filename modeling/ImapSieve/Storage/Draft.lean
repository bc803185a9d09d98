import ImapSieve.Effects.Yields
import ImapSieve.Storage.Persist

/-!
# The Draft of the State File

How `StateStore::update` goes about the new state file: it serialises the state, makes a temporary
file, writes all the bytes, syncs the file and renames it onto the state file. Once a step has
failed, the temporary file is unlinked and nothing else is done with it.

`Draft` follows the store from call to call, whatever the file system answers.
-/

namespace ImapSieve

open Effects

/-! ## Section 1: What there is of the new file -/

inductive Draft where
  | none
  | serialised (bytes : List UInt8)
  /-- `rest` is still to be written. -/
  | writing (name : String) (rest : List UInt8)
  | synced (name : String)
  /-- A step has failed. -/
  | doomed (name : String)
deriving DecidableEq, Repr

/-- The temporary file. -/
def Draft.file? : Draft → Option String
  | .writing name _ | .synced name | .doomed name => some name
  | .none | .serialised _ => Option.none

/-- What the store may ask for. `path` is the state file. -/
inductive Draft.Allows (path : String) : Draft → FileCall → Prop where
  | createDirAll : Allows path .none .createDirAll
  | read : Allows path .none (.read path)
  | updating (f : State → State) (before after : State) :
      Allows path .none (.updating f before after)
  | toVec (state : State) : Allows path .none (.toVec state)
  | createTemp (bytes : List UInt8) : Allows path (.serialised bytes) .createTemp
  | write (name : String) {rest : List UInt8} (h : rest ≠ []) :
      Allows path (.writing name rest) (.write name rest)
  | syncAll (name : String) : Allows path (.writing name []) (.syncAll name)
  | rename (name : String) : Allows path (.synced name) (.rename name path)
  | unlink (name : String) : Allows path (.doomed name) (.unlink name)
  | updated (f : State → State) (before : State) (result : Except StateError Unit)
      (after : State) : Allows path .none (.updated f before result after)

def Draft.next : Draft → (c : FileCall) → FileReply c → Draft
  | _, .toVec _, .ok bytes => .serialised bytes
  | .serialised bytes, .createTemp, .ok name => .writing name bytes
  | _, .createTemp, .error _ => .none
  | .writing name _, .write _ _, .ok 0 => .doomed name
  | .writing name rest, .write _ _, .ok n => .writing name (rest.drop n)
  | .writing name rest, .write _ _, .error .interrupted => .writing name rest
  | .writing name _, .write _ _, .error _ => .doomed name
  | _, .syncAll name, .ok () => .synced name
  | _, .syncAll name, .error _ => .doomed name
  | _, .rename _ _, .ok () => .none
  | _, .rename name _, .error _ => .doomed name
  | _, .unlink _, () => .none
  | q, _, _ => q

/-- The monitor of the store. -/
def drafting {W : Type} (path : String) : Monitor FileCall FileReply W Draft where
  start := .none
  next q _ c r := q.next c r
  allows q c := q.Allows path c
  loops _ := True

/-! ## Section 2: The store -/

/-- The draft has come to what the result says. -/
def Drafted {ε α : Type} (success : α → Draft) (failure : Draft) : Except ε α → Draft → Prop
  | .ok a, q => q = success a
  | .error _, q => q = failure

section Walks

variable {W : Type} {S : Surroundings FileCall FileReply W} {path name : String} {q d : Draft}
  {α β ε : Type} {g : α → Draft}

/-- `?` passes on what the call returned, and errors as errors. -/
theorem drafts_convertError {convert : ε → StateError} {p : FileProgram (Except ε α)}
    (hp : (drafting path).Walks S q p (Drafted g d)) :
    (drafting path).Walks S q (convertError convert p).run (Drafted g d) := by
  refine Monitor.walks_bind hp ?_
  rintro (e | a) q' hq
  · exact Monitor.walks_ret hq
  · exact Monitor.walks_ret hq

theorem drafts_fileCall {c : FileCall} {P : FileReply c → Draft → Prop} (hallow : q.Allows path c)
    (hP : ∀ r, P r (q.next c r)) : (drafting path).Walks S q (fileCall c) P :=
  Monitor.walks_call hallow fun _ r _ _ => Monitor.walks_ret (hP r)

/-- Sequencing where an error leaves the same draft. -/
theorem drafts_bind {p : Persistent α} {f : α → Persistent β} {g' : β → Draft}
    (hp : (drafting path).Walks S q p.run (Drafted g d))
    (hf : ∀ a, (drafting path).Walks S (g a) (f a).run (Drafted g' d)) :
    (drafting path).Walks S q (p >>= f).run (Drafted g' d) := by
  refine Monitor.walks_bindExcept hp (fun _ _ hq => hq) ?_
  rintro a q' rfl
  exact hf a

/-- `write_all` writes everything, or it fails. -/
theorem drafts_writeAll (name : String) (bytes : List UInt8) :
    (drafting path).Walks S (.writing name bytes) (writeAll name bytes)
      (Drafted (fun _ => .writing name []) (.doomed name)) := by
  refine Monitor.walks_loop (I := fun rest q => q = .writing name rest) rfl
    (fun _ _ _ => trivial) ?_
  rintro rest q rfl
  unfold writeRound
  split
  · next hempty =>
    rw [List.isEmpty_iff.mp hempty]
    exact Monitor.walks_ret rfl
  · next hmore =>
    have hne : rest ≠ [] := fun h => hmore (List.isEmpty_iff.mpr h)
    refine Monitor.walks_bind (drafts_fileCall (P := fun r q => q = Draft.next (.writing name rest)
      (.write name rest) r) (.write name hne) fun _ => rfl) ?_
    rintro (e | n) q rfl
    · cases e with
      | interrupted => exact Monitor.walks_ret rfl
      | notFound => exact Monitor.walks_ret rfl
      | other message => exact Monitor.walks_ret rfl
    · cases n with
      | zero => exact Monitor.walks_ret rfl
      | succ n => exact Monitor.walks_ret rfl

/-- Once there is a temporary file, it is renamed or dropped. -/
theorem drafts_replace (name : String) (bytes : List UInt8) :
    (drafting path).Walks S (.writing name bytes)
      (tryCatch (do
          ofIo (writeAll name bytes)
          ofIo (fileCall (.syncAll name))
          ofIo (fileCall (.rename name path)))
        fun e => do
          ExceptT.lift (fileCall (.unlink name))
          throw e : Persistent Unit).run
      fun _ q => q = .none := by
  refine Monitor.walks_bind (P := Drafted (fun _ => .none) (.doomed name)) ?_ ?_
  · refine drafts_bind (drafts_convertError (drafts_writeAll name bytes)) fun _ => ?_
    refine drafts_bind (g := fun _ => .synced name) (drafts_convertError
      (drafts_fileCall (.syncAll name) ?_)) fun _ => drafts_convertError
      (drafts_fileCall (.rename name) ?_)
    · rintro (e | ⟨⟩) <;> rfl
    · rintro (e | ⟨⟩) <;> rfl
  · rintro (e | ⟨⟩) q hq
    · obtain rfl : q = .doomed name := hq
      exact Monitor.walks_call (.unlink name) fun _ _ _ _ => Monitor.walks_ret rfl
    · exact Monitor.walks_ret hq

theorem drafts_persist (store : StateStore) (hpath : store.path = path) :
    (drafting path).Walks S .none store.persist.run fun _ q => q = .none := by
  subst hpath
  unfold StateStore.persist
  refine Monitor.walks_bindExcept (P := Drafted Draft.serialised .none) (drafts_convertError
    (drafts_fileCall (.toVec store.state) ?_)) (fun _ _ hq => hq) ?_
  · rintro (e | bytes) <;> rfl
  rintro bytes _ rfl
  refine Monitor.walks_bindExcept (P := Drafted (Draft.writing · bytes) .none) (drafts_convertError
    (drafts_fileCall (.createTemp bytes) ?_)) (fun _ _ hq => hq) ?_
  · rintro (e | name) <;> rfl
  rintro name _ rfl
  exact drafts_replace name bytes

theorem drafts_update (store : StateStore) (hpath : store.path = path) (f : State → State) :
    (drafting path).Walks S .none (store.update f)
      fun x q => x.2.path = path ∧ q = .none := by
  unfold StateStore.update
  refine Monitor.walks_bind (drafts_fileCall (P := fun _ q => q = .none) (.updating _ _ _)
    fun _ => rfl) ?_
  rintro _ _ rfl
  refine Monitor.walks_bind (drafts_persist { store with state := f store.state } hpath) ?_
  rintro result _ rfl
  exact Monitor.walks_call (.updated _ _ _ _) fun _ _ _ _ => Monitor.walks_ret ⟨hpath, rfl⟩

theorem drafts_open (codec : StateCodec) (path : String) :
    (drafting path).Walks S .none (StateStore.open codec path).run
      fun r q => (∀ store, r = .ok store → store.path = path) ∧ q = .none := by
  have hret : ∀ loaded : Except StateError State, (drafting path).Walks S .none
      (.ret (loaded.map (⟨path, ·⟩)))
      fun r q => (∀ store : StateStore, r = .ok store → store.path = path) ∧ q = .none := by
    rintro (e | state)
    · exact Monitor.walks_ret ⟨nofun, rfl⟩
    · refine Monitor.walks_ret ⟨?_, rfl⟩
      rintro store ⟨⟩
      rfl
  rw [run_open]
  refine Monitor.walks_call .createDirAll ?_
  rintro _ (e | ⟨⟩) _ -
  · exact Monitor.walks_ret ⟨nofun, rfl⟩
  · refine Monitor.walks_call .read ?_
    rintro _ (e | bytes) _ -
    · cases e with
      | notFound => exact hret _
      | interrupted => exact Monitor.walks_ret ⟨nofun, rfl⟩
      | other message => exact Monitor.walks_ret ⟨nofun, rfl⟩
    · exact hret _

end Walks

end ImapSieve
