import ImapSieve.Effects.Contract
import ImapSieve.StateStore

/-!
# What `persist` Does to the State File

Until its rename, `persist` leaves the state file alone; then the file has the new contents, and
`persist` returns `Ok`. So the file is the old or the new one at every step, and the result of an
update says which.
-/

namespace ImapSieve

open Effects

/-! ## Section 1: Nobody else writes -/

section Calls

variable {codec : StateCodec} {path : String}

theorem stable_fileSystem (P : Assertion FileCall FileReply Directory) :
    Stable (fileSystem codec path) P :=
  fun _ _ _ _ hd => hd.elim

/-- The calls that mark the start and the end of an update. -/
def FileCall.isMark : FileCall → Bool
  | .updating _ _ _ | .updated _ _ _ _ => true
  | _ => false

/-- An assertion about traces to which only the marks matter. -/
def Unmarked (T : Trace FileCall FileReply Directory → Prop) : Prop :=
  ∀ d (c : FileCall) r tr, c.isMark = false → T tr → T (.called d c r :: tr)

/-- The state file has these contents. -/
def Holds (path : String) (content : Option (List UInt8))
    (T : Trace FileCall FileReply Directory → Prop) : Assertion FileCall FileReply Directory :=
  fun d tr => d path = content ∧ T tr

@[simp] theorem set_self (d : Directory) (name : String) (content : Option (List UInt8)) :
    d.set name content name = content := if_pos rfl

theorem set_of_ne {name name' : String} (h : name' ≠ name) (d : Directory)
    (content : Option (List UInt8)) : d.set name content name' = d name' := if_neg h

/-- A call that leaves the directory. -/
theorem Holds.same {old : Option (List UInt8)}
    {T : Trace FileCall FileReply Directory → Prop} {d : Directory}
    {tr : Trace FileCall FileReply Directory} (h : Holds path old T d tr) (hT : Unmarked T)
    {d₀ : Directory} {c : FileCall} {r : FileReply c} (hmark : c.isMark = false) :
    Holds path old T d (.called d₀ c r :: tr) :=
  ⟨h.1, hT _ _ _ _ hmark h.2⟩

/-- A call about another file. -/
theorem Holds.set {old content : Option (List UInt8)}
    {T : Trace FileCall FileReply Directory → Prop} {d : Directory} {name : String}
    {tr : Trace FileCall FileReply Directory} (h : Holds path old T d tr) (hT : Unmarked T)
    (hname : name ≠ path) {d₀ : Directory} {c : FileCall} {r : FileReply c}
    (hmark : c.isMark = false) : Holds path old T (d.set name content) (.called d₀ c r :: tr) :=
  ⟨(set_of_ne hname.symm d content).trans h.1, hT _ _ _ _ hmark h.2⟩

end Calls

/-! ## Section 2: Errors -/

section Errors

variable {S : Surroundings FileCall FileReply Directory}
  {K : Contract FileCall FileReply Directory} {P : Assertion FileCall FileReply Directory}
  {ε α : Type} {convert : ε → StateError}

/-- `?` returns what the call returned, or its error converted. -/
theorem obeys_convertError {p : FileProgram (Except ε α)}
    {M : Except ε α → Assertion FileCall FileReply Directory}
    {Q : Except StateError α → Assertion FileCall FileReply Directory}
    (hstable : ∀ P, Stable S P) (hp : Obeys S K P p M)
    (hok : ∀ a d tr, M (.ok a) d tr → Q (.ok a) d tr)
    (herror : ∀ e d tr, M (.error e) d tr → Q (.error (convert e)) d tr) :
    Obeys S K P (convertError convert p).run Q := by
  refine obeys_bind hp fun r => ?_
  cases r with
  | ok a => exact obeys_ret (hstable _) (hok a)
  | error e => exact obeys_ret (hstable _) (herror e)

/-- A call and its answer. -/
theorem obeys_fileCall {codec : StateCodec} {path : String} {c : FileCall}
    {M : FileReply c → Assertion FileCall FileReply Directory}
    (hallow : ∀ d tr, P d tr → K.allows c d tr)
    (hans : ∀ d tr r d', P d tr → d.Answers codec path c r d' → M r d' (.called d c r :: tr)) :
    Obeys (fileSystem codec path) K P (fileCall c) M :=
  obeys_call (stable_fileSystem _) hallow hans fun _ =>
    obeys_ret (stable_fileSystem _) fun _ _ h => h

end Errors

/-! ## Section 3: Writing the temporary file -/

section Persist

variable {codec : StateCodec} {path tmp : String} {old : Option (List UInt8)}
  {T : Trace FileCall FileReply Directory → Prop} {bytes : List UInt8}

/-- The state file is as it was, and what the temporary file holds and what is still to be
written make up the whole. -/
def Partly (path tmp : String) (old : Option (List UInt8))
    (T : Trace FileCall FileReply Directory → Prop) (bytes rest : List UInt8) :
    Assertion FileCall FileReply Directory :=
  fun d tr => Holds path old T d tr ∧ ∃ written, d tmp = some written ∧ written ++ rest = bytes

/-- The state file is as it was, and with success the temporary file holds all bytes. -/
def Staged (path tmp : String) (old : Option (List UInt8))
    (T : Trace FileCall FileReply Directory → Prop) (bytes : List UInt8) {ε : Type}
    (r : Except ε Unit) : Assertion FileCall FileReply Directory :=
  fun d tr => Holds path old T d tr ∧ (r = .ok () → d tmp = some bytes)

/-- With success the state file holds the bytes, otherwise it is as it was. -/
def Replaced (path : String) (old : Option (List UInt8))
    (T : Trace FileCall FileReply Directory → Prop) (bytes : List UInt8) {ε : Type}
    (r : Except ε Unit) : Assertion FileCall FileReply Directory :=
  fun d tr => T tr ∧
    match r with
    | .ok () => d path = some bytes
    | .error _ => d path = old

/-- One round of `write_all`. -/
theorem obeys_writeRound (hT : Unmarked T) (htmp : tmp ≠ path) (rest : List UInt8) :
    Obeys (fileSystem codec path) (.always (Holds path old T)) (Partly path tmp old T bytes rest)
      (writeRound tmp rest) fun
        | .inl rest' => Partly path tmp old T bytes rest'
        | .inr r => Staged path tmp old T bytes r := by
  unfold writeRound
  cases rest with
  | nil =>
    refine obeys_ret (stable_fileSystem _) ?_
    rintro d tr ⟨hold, written, hwritten, hall⟩
    exact ⟨hold, fun _ => by rw [hwritten, ← hall, List.append_nil]⟩
  | cons byte rest =>
    rw [List.isEmpty_cons, if_neg Bool.false_ne_true]
    refine obeys_call (stable_fileSystem _) (fun _ _ h => h.1)
      (M := fun r d tr => Holds path old T d tr ∧
        match r with
        | .ok n => ∃ written, d tmp = some written ∧ written ++ (byte :: rest).drop n = bytes
        | .error e => e = .interrupted → ∃ written, d tmp = some written ∧
            written ++ byte :: rest = bytes) ?_ ?_
    · -- what the call leaves
      rintro d tr r d' ⟨hold, written, hwritten, hall⟩ hans
      cases r with
      | ok n =>
        obtain ⟨-, content, hcontent, rfl⟩ := hans
        rw [hwritten] at hcontent
        cases hcontent
        refine ⟨hold.set hT htmp rfl, _, set_self _ _ _, ?_⟩
        rw [List.append_assoc, List.take_append_drop, hall]
      | error e =>
        rcases hans with rfl | ⟨hne, n, content, -, rfl⟩
        · exact ⟨hold.same hT rfl, fun _ => ⟨written, hwritten, hall⟩⟩
        · exact ⟨hold.set hT htmp rfl, fun he => absurd he hne⟩
    · -- what the round makes of the reply
      intro r
      cases r with
      | ok n =>
        cases n with
        | zero => exact obeys_ret (stable_fileSystem _) fun _ _ h => ⟨h.1, by simp⟩
        | succ n => exact obeys_ret (stable_fileSystem _) fun _ _ h => h
      | error e =>
        cases e with
        | interrupted => exact obeys_ret (stable_fileSystem _) fun _ _ h => ⟨h.1, h.2 rfl⟩
        | notFound => exact obeys_ret (stable_fileSystem _) fun _ _ h => ⟨h.1, by simp⟩
        | other message => exact obeys_ret (stable_fileSystem _) fun _ _ h => ⟨h.1, by simp⟩

/-- `write_all` writes all, or it fails; the state file stays as it is. -/
theorem obeys_writeAll (hT : Unmarked T) (htmp : tmp ≠ path) :
    Obeys (fileSystem codec path) (.always (Holds path old T))
      (fun d tr => Holds path old T d tr ∧ d tmp = some []) (writeAll tmp bytes)
      (Staged path tmp old T bytes) := by
  have hloop : Obeys (fileSystem codec path) (.always (Holds path old T))
      (Partly path tmp old T bytes bytes) (writeAll tmp bytes) (Staged path tmp old T bytes) := by
    refine obeys_iter (I := Partly path tmp old T bytes) (M := Staged path tmp old T bytes)
      (fun _ => stable_fileSystem _) (fun _ _ _ h => h.1) (fun rest => ?_)
      fun r => obeys_ret (stable_fileSystem _) fun _ _ h => h
    refine (obeys_writeRound hT htmp rest).post ?_
    rintro (rest' | r) d tr h
    · exact h
    · exact h
  exact hloop.pre fun d tr h => ⟨h.1, [], h.2, rfl⟩

/-- The write. -/
theorem obeys_stage (hT : Unmarked T) (htmp : tmp ≠ path) :
    Obeys (fileSystem codec path) (.always (Holds path old T))
      (fun d tr => Holds path old T d tr ∧ d tmp = some []) (ofIo (writeAll tmp bytes)).run
      (Staged path tmp old T bytes) :=
  obeys_convertError stable_fileSystem (obeys_writeAll hT htmp)
    (fun _ _ _ h => ⟨h.1, fun _ => h.2 rfl⟩) fun _ _ _ h => ⟨h.1, by simp⟩


/-- The sync. -/
theorem obeys_sync (hT : Unmarked T) :
    Obeys (fileSystem codec path) (.always (Holds path old T))
      (Staged path tmp old T bytes (.ok () : Except StateError Unit))
      (ofIo (fileCall (.syncAll tmp))).run (Staged path tmp old T bytes) := by
  have hcall : Obeys (fileSystem codec path) (.always (Holds path old T))
      (Staged path tmp old T bytes (.ok () : Except StateError Unit)) (fileCall (.syncAll tmp))
      (Staged path tmp old T bytes) := by
    refine obeys_fileCall (fun _ _ h => h.1) ?_
    rintro d tr r d' ⟨hold, hwritten⟩ rfl
    exact ⟨hold.same hT rfl, fun _ => hwritten rfl⟩
  exact obeys_convertError stable_fileSystem hcall (fun _ _ _ h => ⟨h.1, fun _ => h.2 rfl⟩)
    fun _ _ _ h => ⟨h.1, by simp⟩

/-- The rename puts the new file in the place of the old one. -/
theorem obeys_rename (hT : Unmarked T) :
    Obeys (fileSystem codec path) (.always (Holds path old T))
      (Staged path tmp old T bytes (.ok () : Except StateError Unit))
      (ofIo (fileCall (.rename tmp path))).run (Replaced path old T bytes) := by
  have hcall : Obeys (fileSystem codec path) (.always (Holds path old T))
      (Staged path tmp old T bytes (.ok () : Except StateError Unit))
      (fileCall (.rename tmp path)) (Replaced path old T bytes) := by
    refine obeys_fileCall (fun _ _ h => h.1) ?_
    rintro d tr (e | ⟨⟩) d' ⟨hold, hwritten⟩ hans
    · cases hans
      exact ⟨hT _ _ _ _ rfl hold.2, hold.1⟩
    · obtain ⟨content, hcontent, rfl⟩ := hans
      rw [hwritten rfl] at hcontent
      cases hcontent
      exact ⟨hT _ _ _ _ rfl hold.2, set_self _ _ _⟩
  exact obeys_convertError stable_fileSystem hcall (fun _ _ _ h => h) fun _ _ _ h => h

/-- After a failure, the temporary file is unlinked. -/
theorem obeys_unlink (hT : Unmarked T) (htmp : tmp ≠ path) (e : StateError) :
    Obeys (fileSystem codec path) (.always (Holds path old T))
      (Replaced path old T bytes (.error e : Except StateError Unit))
      (do ExceptT.lift (fileCall (.unlink tmp)); throw e : Persistent Unit).run
      (Replaced path old T bytes) := by
  refine obeys_call (M := fun _ => Replaced path old T bytes (.error e : Except StateError Unit))
    (stable_fileSystem _) (fun _ _ h => ⟨h.2, h.1⟩) ?_ fun _ =>
      obeys_ret (stable_fileSystem _) fun _ _ h => h
  rintro d tr ⟨⟩ d' ⟨htrace, hold⟩ (rfl | rfl)
  · exact ⟨hT _ _ _ _ rfl htrace, hold⟩
  · exact ⟨hT _ _ _ _ rfl htrace, (set_of_ne htmp.symm d none).trans hold⟩

/-- What follows the creation of the temporary file: it is written and renamed, or dropped. -/
theorem obeys_replace (hT : Unmarked T) (htmp : tmp ≠ path) :
    Obeys (fileSystem codec path) (.always (Holds path old T))
      (fun d tr => Holds path old T d tr ∧ d tmp = some [])
      (tryCatch (do
          ofIo (writeAll tmp bytes)
          ofIo (fileCall (.syncAll tmp))
          ofIo (fileCall (.rename tmp path)))
        fun e => do
          ExceptT.lift (fileCall (.unlink tmp))
          throw e : Persistent Unit).run
      (Replaced path old T bytes) := by
  have hstable : ∀ P, Stable (fileSystem codec path) P := stable_fileSystem
  -- up to the rename a failure leaves the state file
  have hfailed : ∀ (e : StateError) d tr,
      Staged path tmp old T bytes (.error e : Except StateError Unit) d tr →
      Replaced path old T bytes (.error e : Except StateError Unit) d tr :=
    fun _ _ _ h => ⟨h.1.2, h.1.1⟩
  refine obeys_tryCatch (fun _ => hstable _) ?_ (fun _ _ _ h => h) (obeys_unlink hT htmp)
  exact obeys_bindExcept (fun _ => hstable _) (obeys_stage hT htmp)
    (fun _ => obeys_bindExcept (fun _ => hstable _) (obeys_sync hT) (fun _ => obeys_rename hT)
      hfailed) hfailed

/-- The state file is as it was, and with success the bytes are those for the state. -/
def Serialised (codec : StateCodec) (path : String) (old : Option (List UInt8))
    (T : Trace FileCall FileReply Directory → Prop) (s : State) {ε : Type}
    (r : Except ε (List UInt8)) : Assertion FileCall FileReply Directory :=
  fun d tr => Holds path old T d tr ∧ ∀ bytes, r = .ok bytes → codec.toVec s = .ok bytes

/-- The state file is as it was, and with success there is an empty file of another name. -/
def Created (path : String) (old : Option (List UInt8))
    (T : Trace FileCall FileReply Directory → Prop) {ε : Type} (r : Except ε String) :
    Assertion FileCall FileReply Directory :=
  fun d tr => Holds path old T d tr ∧ ∀ tmp, r = .ok tmp → tmp ≠ path ∧ d tmp = some []

theorem obeys_toVec (hT : Unmarked T) (s : State) :
    Obeys (fileSystem codec path) (.always (Holds path old T)) (Holds path old T)
      (ofJson (fileCall (.toVec s))).run (Serialised codec path old T s) := by
  have hcall : Obeys (fileSystem codec path) (.always (Holds path old T)) (Holds path old T)
      (fileCall (.toVec s)) (Serialised codec path old T s) := by
    refine obeys_fileCall (fun _ _ h => h) ?_
    rintro d tr (e | bytes) d' hold hans
    · cases hans
      exact ⟨hold.same hT rfl, by simp⟩
    · obtain ⟨hvec, rfl⟩ := hans
      exact ⟨hold.same hT rfl, fun b hb => by cases hb; exact hvec⟩
  refine obeys_convertError stable_fileSystem hcall (fun bytes d tr h => ⟨h.1, ?_⟩)
    fun e d tr h => ⟨h.1, by simp⟩
  intro b hb
  cases hb
  exact h.2 bytes rfl

theorem obeys_createTemp (hT : Unmarked T) :
    Obeys (fileSystem codec path) (.always (Holds path old T)) (Holds path old T)
      (ofIo (fileCall .createTemp)).run (Created path old T) := by
  have hcall : Obeys (fileSystem codec path) (.always (Holds path old T)) (Holds path old T)
      (fileCall .createTemp) (Created path old T) := by
    refine obeys_fileCall (fun _ _ h => h) ?_
    rintro d tr (e | tmp) d' hold hans
    · cases hans
      exact ⟨hold.same hT rfl, by simp⟩
    · obtain ⟨hne, -, rfl⟩ := hans
      refine ⟨hold.set hT hne rfl, fun name hname => ?_⟩
      cases hname
      exact ⟨hne, set_self _ _ _⟩
  refine obeys_convertError stable_fileSystem hcall (fun tmp d tr h => ⟨h.1, ?_⟩)
    fun e d tr h => ⟨h.1, by simp⟩
  intro name hname
  cases hname
  exact h.2 tmp rfl

/-- From the store's state, `persist` makes the new contents. -/
theorem obeys_persist (store : StateStore) (hpath : store.path = path) (hT : Unmarked T) :
    Obeys (fileSystem codec path) (.always (Holds path old T)) (Holds path old T)
      store.persist.run fun r d tr =>
        T tr ∧ match r with
          | .ok () => ∃ bytes, codec.toVec store.state = .ok bytes ∧ d path = some bytes
          | .error _ => d path = old := by
  subst hpath
  have hstable : ∀ P, Stable (fileSystem codec store.path) P := stable_fileSystem
  unfold StateStore.persist
  -- what was found out of the bytes and of the temporary file's name holds from there on
  refine obeys_bindExcept (fun _ => hstable _) (obeys_toVec hT store.state) (fun bytes => ?_)
    fun e d tr h => ⟨h.1.2, h.1.1⟩
  rintro d tr ⟨hold, hvec⟩
  refine obeys_bindExcept (fun _ => hstable _) (obeys_createTemp hT) (fun tmp => ?_)
    (fun e d tr h => ⟨h.1.2, h.1.1⟩) d tr hold
  rintro d tr ⟨hold, hfile⟩
  obtain ⟨hne, hempty⟩ := hfile tmp rfl
  refine (obeys_replace hT hne).post ?_ d tr ⟨hold, hempty⟩
  rintro (e | ⟨⟩) d' tr' ⟨htrace, hcontent⟩
  · exact ⟨htrace, hcontent⟩
  · exact ⟨htrace, bytes, hvec bytes rfl, hcontent⟩

end Persist

/-! ## Section 4: An update -/

/-- Entries that mark nothing. -/
def unmarked (tr : Trace FileCall FileReply Directory) : Prop :=
  ∀ e ∈ tr, ∃ d c r, e = .called d c r ∧ c.isMark = false

/-- They do not matter where only the marks do. -/
theorem Unmarked.append {T : Trace FileCall FileReply Directory → Prop} (hT : Unmarked T)
    {new tr : Trace FileCall FileReply Directory} (h : unmarked new) (htr : T tr) :
    T (new ++ tr) := by
  induction new with
  | nil => exact htr
  | cons e rest ih =>
    obtain ⟨d, c, r, rfl, hmark⟩ := h _ List.mem_cons_self
    exact hT d c r _ hmark (ih fun e he => h e (List.mem_cons_of_mem _ he))

section Update

variable {codec : StateCodec} {store : StateStore} {f : State → State} {d d' : Directory}
  {tr tr' : Trace FileCall FileReply Directory}

/-- The trace once an update has applied its closure. -/
def Begun (store : StateStore) (f : State → State) (d : Directory)
    (tr tr' : Trace FileCall FileReply Directory) : Prop :=
  ∃ new, unmarked new ∧ tr' = new ++ .called d (.updating f store.state (f store.state)) () :: tr

theorem unmarked_begun : Unmarked (Begun store f d tr) := by
  rintro d₁ c r tr₁ hmark ⟨new, hnew, rfl⟩
  refine ⟨.called d₁ c r :: new, fun e he => ?_, rfl⟩
  rcases List.mem_cons.mp he with rfl | he
  · exact ⟨d₁, c, r, rfl, hmark⟩
  · exact hnew e he

/-- The state file has the contents for the state. -/
def Written (codec : StateCodec) (path : String) (s : State) (d : Directory) : Prop :=
  ∃ bytes, codec.toVec s = .ok bytes ∧ d path = some bytes

/-- What an update has done at any time, up to its return: nothing yet; or it has applied its
closure, and the state file is the old one or the new one. -/
def During (codec : StateCodec) (store : StateStore) (f : State → State) (d : Directory)
    (tr : Trace FileCall FileReply Directory) : Assertion FileCall FileReply Directory :=
  fun d' tr' => (d' = d ∧ tr' = tr) ∨ (Begun store f d tr tr' ∧
    (d' store.path = d store.path ∨ Written codec store.path (f store.state) d'))

/-- What a returned update has done. -/
def Done (codec : StateCodec) (store : StateStore) (f : State → State) (d : Directory)
    (tr : Trace FileCall FileReply Directory) (result : Except StateError Unit × StateStore) :
    Assertion FileCall FileReply Directory :=
  fun d' tr' => result.2 = { store with state := f store.state } ∧
    (∃ before, Begun store f d tr before ∧
      tr' = .called d' (.updated f store.state result.1 (f store.state)) () :: before) ∧
    match result.1 with
    | .ok () => Written codec store.path (f store.state) d'
    | .error _ => d' store.path = d store.path

/-- An update. -/
theorem obeys_update (store : StateStore) (f : State → State) (d : Directory)
    (tr : Trace FileCall FileReply Directory) :
    Obeys (fileSystem codec store.path) (.always (During codec store f d tr))
      (fun d' tr' => d' = d ∧ tr' = tr) (store.update f) (Done codec store f d tr) := by
  have hstable : ∀ P, Stable (fileSystem codec store.path) P := stable_fileSystem
  unfold StateStore.update
  have hpersist : Obeys (fileSystem codec store.path) (.always (During codec store f d tr))
      (Holds store.path (d store.path) (Begun store f d tr))
      (StateStore.persist { store with state := f store.state }).run _ :=
    (obeys_persist { store with state := f store.state } rfl unmarked_begun).weaken
      fun d' tr' h => Or.inr ⟨h.2, .inl h.1⟩
  refine obeys_bind (M := fun _ => Holds store.path (d store.path) (Begun store f d tr))
    (obeys_fileCall (fun _ _ h => .inl h) ?_) fun _ => obeys_bind hpersist fun result => ?_
  · rintro d₁ tr₁ r d₂ ⟨rfl, rfl⟩ rfl
    exact ⟨rfl, [], by simp [unmarked], rfl⟩
  · -- the mark of the return
    refine obeys_bind (M := fun _ => Done codec store f d tr
      (result, { store with state := f store.state })) (obeys_fileCall ?_ ?_)
      fun _ => obeys_ret (hstable _) fun _ _ h => h
    · rintro d' tr' ⟨hbegun, hout⟩
      refine .inr ⟨hbegun, ?_⟩
      cases result with
      | ok u => exact .inr hout
      | error e => exact .inl hout
    · rintro d' tr' r d'' ⟨hbegun, hout⟩ rfl
      refine ⟨rfl, ⟨tr', hbegun, rfl⟩, ?_⟩
      cases result with
      | ok u => exact hout
      | error e => exact hout

end Update

/-! ## Section 5: Opening the store -/

/-- What `StateStore::open` makes of the contents of the state file. -/
def StateCodec.load (codec : StateCodec) : Option (List UInt8) → Except StateError State
  | none => .ok {}
  | some bytes => match codec.fromSlice bytes with
      | .ok state => .ok state
      | .error e => .error (.json e)

/-- The directory can be made, and what is in it can be read. -/
def accessible : Regime FileCall FileReply Directory where
  call _ c r _ :=
    match c, r with
    | .createDirAll, made => made = .ok ()
    | .read _, .error e => e = .notFound
    | _, _ => True

/-- A directory in which no call of `StateStore::open` fails. -/
def openable (codec : StateCodec) (path : String) : Surroundings FileCall FileReply Directory :=
  (fileSystem codec path).under accessible

theorem stable_openable {codec : StateCodec} {path : String}
    (P : Assertion FileCall FileReply Directory) : Stable (openable codec path) P :=
  fun _ _ _ _ hd => hd.1.elim

/-- A fresh `StateStore::open` returns, and unless a call fails, it returns this state. -/
def Reopens (codec : StateCodec) (path : String) (d : Directory) (s : State) : Prop :=
  (∃ r d' tr, Steps (openable codec path) ⟨(StateStore.open codec path).run, d, []⟩
    ⟨.ret r, d', tr⟩) ∧
  ∀ r d' tr, Steps (openable codec path) ⟨(StateStore.open codec path).run, d, []⟩
    ⟨.ret r, d', tr⟩ → r = .ok ⟨path, s⟩

section Open

variable {codec : StateCodec} {path : String} {d : Directory} {s : State}

/-- The store after its file was read. -/
def afterRead (codec : StateCodec) (path : String) :
    Except IoError (List UInt8) → FileProgram (Except StateError StateStore)
  | .ok bytes => .ret ((codec.load (some bytes)).map (⟨path, ·⟩))
  | .error .notFound => .ret ((codec.load none).map (⟨path, ·⟩))
  | .error e => .ret (.error (.io e.display))

theorem run_open (codec : StateCodec) (path : String) :
    (StateStore.open codec path).run = .call .createDirAll fun
      | .ok () => .call (.read path) (afterRead codec path)
      | .error e => .ret (.error (.io e.display)) := by
  unfold StateStore.open
  refine congrArg (Prog.call _) (funext fun made => ?_)
  cases made with
  | error e => rfl
  | ok u =>
    refine congrArg (Prog.call _) (funext fun r => ?_)
    cases r with
    | error e => cases e <;> rfl
    | ok bytes =>
      change ExceptT.run (match codec.fromSlice bytes with
        | .ok state => pure ⟨path, state⟩
        | .error e => throw (.json e) : Persistent StateStore) = _
      simp only [afterRead, StateCodec.load]
      cases codec.fromSlice bytes with
      | error e => rfl
      | ok state => rfl

theorem open_eq_load {r : Except StateError StateStore} {d' : Directory}
    {tr : Trace FileCall FileReply Directory}
    (h : Steps (openable codec path) ⟨(StateStore.open codec path).run, d, []⟩
      ⟨.ret r, d', tr⟩) : r = (codec.load (d path)).map (⟨path, ·⟩) := by
  have hdrift : ∀ w w', (openable codec path).drifts w w' → d = w → d = w' :=
    fun _ _ hd => hd.1.elim
  rw [run_open] at h
  obtain ⟨d₁, made, d₂, rfl, ⟨rfl, hmade⟩, h⟩ := steps_call_ret rfl hdrift h
  obtain rfl : made = .ok () := hmade
  obtain ⟨d₃, contents, d₄, rfl, ⟨hans, hread⟩, h⟩ := steps_call_ret rfl hdrift h
  have hret : ∀ a tr₁, Steps (openable codec path) ⟨.ret a, d₄, tr₁⟩ ⟨.ret r, d', tr⟩ →
      r = a := fun a tr₁ ha =>
    Prog.ret.inj (steps_ret (P := fun _ _ => True) trivial (stable_openable _) ha).1
  cases contents with
  | ok bytes =>
    obtain ⟨hbytes, rfl⟩ := hans
    rw [hret _ _ h, hbytes]
  | error e =>
    obtain rfl : e = .notFound := hread
    rw [hret _ _ h, hans.1 rfl]

theorem open_returns (codec : StateCodec) (path : String) (d : Directory) :
    ∃ r d' tr, Steps (openable codec path) ⟨(StateStore.open codec path).run, d, []⟩
      ⟨.ret r, d', tr⟩ := by
  rw [run_open]
  have hmade : (openable codec path).answers d .createDirAll (.ok ()) d := ⟨rfl, rfl⟩
  cases hfile : d path with
  | none =>
    have hread : (openable codec path).answers d (.read path) (.error .notFound) d :=
      ⟨⟨fun _ => hfile, rfl⟩, rfl⟩
    exact ⟨_, d, _, .head (.call hmade) (.single (.call hread))⟩
  | some bytes =>
    have hread : (openable codec path).answers d (.read path) (.ok bytes) d :=
      ⟨⟨hfile, rfl⟩, trivial⟩
    exact ⟨_, d, _, .head (.call hmade) (.single (.call hread))⟩

/-- `open` returns what the file stands for. -/
theorem reopens_iff : Reopens codec path d s ↔ codec.load (d path) = .ok s := by
  constructor
  · rintro ⟨⟨r, d', tr, h⟩, hall⟩
    have hr := open_eq_load h
    rw [hall r d' tr h] at hr
    cases hload : codec.load (d path) with
    | error e =>
      rw [hload] at hr
      cases hr
    | ok state =>
      rw [hload] at hr
      cases hr
      rfl
  · intro hload
    refine ⟨open_returns codec path d, fun r d' tr h => ?_⟩
    rw [open_eq_load h, hload]
    rfl

end Open

end ImapSieve
