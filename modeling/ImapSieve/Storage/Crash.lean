import ImapSieve.Storage.Persist

/-!
# The State File Survives a Crash

A process that updates its state may fail at each step of each update, and it may be lost at any
time. What the next process opens is the state of the last update that returned `Ok`, or that of
the update that was under way.
-/

namespace ImapSieve

open Effects

/-! ## Section 1: What the trace says -/

/-- The state in memory when an update last returned `Ok`, or the one at the start. -/
def lastOk (s₀ : State) : Trace FileCall FileReply Directory → State
  | [] => s₀
  | .called _ (.updated _ _ (.ok ()) s) _ :: _ => s
  | _ :: before => lastOk s₀ before

/-- The state in memory of the update that has not returned yet. -/
def inFlight : Trace FileCall FileReply Directory → Option State
  | [] => none
  | .called _ (.updating _ _ s) _ :: _ => some s
  | .called _ (.updated _ _ _ _) _ :: _ => none
  | _ :: before => inFlight before

section Traces

variable {s₀ : State} {store : StateStore} {f : State → State} {d : Directory}
  {new tr tr' : Trace FileCall FileReply Directory}

theorem lastOk_unmarked (h : unmarked new) : lastOk s₀ (new ++ tr) = lastOk s₀ tr := by
  have hignores : Unmarked fun tr' => lastOk s₀ tr' = lastOk s₀ tr := by
    intro d c r before hmark heq
    cases c with
    | updating f before after => cases hmark
    | updated f before result after => cases hmark
    | _ => exact heq
  exact hignores.append h rfl

theorem inFlight_unmarked (h : unmarked new) : inFlight (new ++ tr) = inFlight tr := by
  have hignores : Unmarked fun tr' => inFlight tr' = inFlight tr := by
    intro d c r before hmark heq
    cases c with
    | updating f before after => cases hmark
    | updated f before result after => cases hmark
    | _ => exact heq
  exact hignores.append h rfl

theorem lastOk_begun (h : Begun store f d tr tr') : lastOk s₀ tr' = lastOk s₀ tr := by
  obtain ⟨new, hnew, rfl⟩ := h
  exact lastOk_unmarked hnew

theorem inFlight_begun (h : Begun store f d tr tr') : inFlight tr' = some (f store.state) := by
  obtain ⟨new, hnew, rfl⟩ := h
  exact inFlight_unmarked hnew

end Traces

/-! ## Section 2: What the state file stands for -/

/-- The codec reads back what it wrote. -/
def StateCodec.ReadsBack (codec : StateCodec) : Prop :=
  ∀ s bytes, codec.toVec s = .ok bytes → codec.fromSlice bytes = .ok s

/-- The file stands for the state of the last successful update, or of the one in flight. -/
def Survives (codec : StateCodec) (path : String) (s₀ : State) :
    Assertion FileCall FileReply Directory :=
  fun d tr => ∃ s, codec.load (d path) = .ok s ∧ (s = lastOk s₀ tr ∨ inFlight tr = some s)

/-- Between two updates the file stands for the state of the last successful one. -/
def AtRest (codec : StateCodec) (path : String) (s₀ : State) :
    Assertion FileCall FileReply Directory :=
  fun d tr => codec.load (d path) = .ok (lastOk s₀ tr) ∧ inFlight tr = none

section Updates

variable {codec : StateCodec} {s₀ : State} {d : Directory}
  {tr : Trace FileCall FileReply Directory}

theorem load_of_written {path : String} {s : State} (hcodec : codec.ReadsBack)
    (h : Written codec path s d) : codec.load (d path) = .ok s := by
  obtain ⟨bytes, hvec, hfile⟩ := h
  rw [hfile, StateCodec.load, hcodec s bytes hvec]

theorem survives_of_atRest {path : String} (h : AtRest codec path s₀ d tr) :
    Survives codec path s₀ d tr :=
  ⟨_, h.1, .inl rfl⟩

theorem atRest_update (hcodec : codec.ReadsBack) (store : StateStore) (f : State → State) :
    Obeys (fileSystem codec store.path) (.always (Survives codec store.path s₀))
      (AtRest codec store.path s₀) (store.update f) fun r d tr =>
        r.2.path = store.path ∧ AtRest codec store.path s₀ d tr := by
  intro d tr hrest
  have hduring : ∀ d' tr', During codec store f d tr d' tr' →
      Survives codec store.path s₀ d' tr' := by
    rintro d' tr' (⟨rfl, rfl⟩ | ⟨hbegun, hfile | hwritten⟩)
    · exact survives_of_atRest hrest
    · exact ⟨_, by rw [hfile, hrest.1], .inl (lastOk_begun hbegun).symm⟩
    · exact ⟨_, load_of_written hcodec hwritten, .inr (inFlight_begun hbegun)⟩
  refine ((obeys_update store f d tr).weaken hduring).post ?_ d tr ⟨rfl, rfl⟩
  · -- on its return
    rintro ⟨result, changed⟩ d' tr' ⟨rfl, ⟨before, hbegun, rfl⟩, hout⟩
    refine ⟨rfl, ?_, rfl⟩
    cases result with
    | ok u => exact load_of_written hcodec hout
    | error e =>
      change codec.load (d' store.path) = .ok (lastOk s₀ before)
      rw [hout, lastOk_begun hbegun, hrest.1]

theorem survives_updates (hcodec : codec.ReadsBack) (changes : List (State → State))
    (store : StateStore) :
    Obeys (fileSystem codec store.path) (.always (Survives codec store.path s₀))
      (AtRest codec store.path s₀) (store.updates changes) fun _ =>
        Survives codec store.path s₀ := by
  induction changes generalizing store with
  | nil => exact obeys_ret (stable_fileSystem _) fun _ _ h => survives_of_atRest h
  | cons f rest ih =>
    refine obeys_bind (atRest_update hcodec store f) fun r => ?_
    obtain ⟨result, changed⟩ := r
    rintro d tr ⟨hpath, hrest⟩
    have hchanged := ih changed
    rw [show changed.path = store.path from hpath] at hchanged
    exact hchanged d tr hrest

end Updates

/-! ## Section 3: After a crash -/

/-- A process that opened the state `s₀`, the default for a missing file, makes any updates, any
steps of which fail, and is lost at any time. Opening the store again succeeds, with the state in
memory at the last update that returned `Ok`, or with that of the update in flight. -/
theorem reopens_after_crash (codec : StateCodec) (path : String) (s₀ : State) (d₀ : Directory)
    (changes : List (State → State)) (x : Config FileCall FileReply Directory StateStore)
    (hcodec : codec.ReadsBack) (hopen : Reopens codec path d₀ s₀)
    (hrun : Steps (fileSystem codec path)
      ⟨(⟨path, s₀⟩ : StateStore).updates changes, d₀, []⟩ x) :
    ∃ s, Reopens codec path x.world s ∧ (s = lastOk s₀ x.trace ∨ inFlight x.trace = some s) := by
  have hstart : AtRest codec path s₀ d₀ [] := ⟨reopens_iff.mp hopen, rfl⟩
  obtain ⟨s, hload, hs⟩ := (survives_updates hcodec changes ⟨path, s₀⟩).always
    (fun _ _ _ h => h) hstart hrun
  exact ⟨s, reopens_iff.mpr hload, hs⟩

/-- Texts that differ can be told apart. -/
theorem jsonCodec_readsBack {known : List State}
    (h : ∀ s ∈ known, known.find? (fun s' => jsonText s' = jsonText s) = some s) :
    (jsonCodec known).ReadsBack := by
  intro s bytes hvec
  simp only [jsonCodec] at hvec ⊢
  split at hvec
  · next hs =>
    cases hvec
    rw [h s hs]
  · cases hvec

theorem sampleCodec_readsBack : sampleCodec.ReadsBack :=
  jsonCodec_readsBack (by decide +kernel)

theorem sampleCodec_reopens : Reopens sampleCodec "state.json" emptyDirectory {} :=
  reopens_iff.mpr rfl

/-- The first steps of an update of a store whose file is missing. -/
def sampleUpdate (n : Nat) : Config FileCall FileReply Directory StateStore :=
  play (Directory.respond sampleCodec "state.json") n
    ⟨(⟨"state.json", {}⟩ : StateStore).updates [fun s => { s with lastSeenUid := some 1 }],
      emptyDirectory, []⟩

/-- The process is lost with the temporary file written in part. -/
theorem reopens_after_crash_halfway :
    ∃ s, Reopens sampleCodec "state.json" (sampleUpdate 6).world s ∧
      (s = lastOk {} (sampleUpdate 6).trace ∨ inFlight (sampleUpdate 6).trace = some s) :=
  reopens_after_crash sampleCodec "state.json" {} emptyDirectory
    [fun s => { s with lastSeenUid := some 1 }] (sampleUpdate 6) sampleCodec_readsBack
    sampleCodec_reopens (steps_play_free (fileSystem_respond sampleCodec "state.json") 6 _)

end ImapSieve
