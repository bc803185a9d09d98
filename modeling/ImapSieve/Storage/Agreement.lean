import ImapSieve.Storage.Crash
import ImapSieve.World

/-!
# Memory and File

An update changes the state in memory before it writes the file, and a failure does not take the
change back. Afterwards the memory is what the file says exactly when the closure changed nothing
and the two agreed before.
-/

namespace ImapSieve

open Effects

/-! ## Section 1: Updates that fail -/

/-- An update that returns `Err` has left the state in memory as it was, and the file says the
same; after every update the file says what is in memory. -/
structure AllOrNothing (codec : StateCodec) (path : String)
    (tr : Trace FileCall FileReply Directory) : Prop where
  failed : ∀ d f before e after, .called d (.updated f before (.error e) after) () ∈ tr →
    after = before ∧ Reopens codec path d before
  agrees : ∀ d f before result after, .called d (.updated f before result after) () ∈ tr →
    Reopens codec path d after

/-- The closures of the updates that fail change nothing. -/
def Harmless (tr : Trace FileCall FileReply Directory) : Prop :=
  ∀ d f before e after, .called d (.updated f before (.error e) after) () ∈ tr →
    f before = before

section Updates

variable {codec : StateCodec} {path : String} {store : StateStore} {f : State → State}
  {d d' : Directory} {tr tr' : Trace FileCall FileReply Directory}

theorem reopens_congr {s : State} (h : d' path = d path) :
    Reopens codec path d' s ↔ Reopens codec path d s := by
  rw [reopens_iff, reopens_iff, h]

/-- While an update is under way, no further one has returned. -/
theorem updated_mem_begun (h : Begun store f d tr tr') {d₁ : Directory} {g : State → State}
    {before after : State} {result : Except StateError Unit} :
    .called d₁ (.updated g before result after) () ∈ tr' ↔
      .called d₁ (.updated g before result after) () ∈ tr := by
  obtain ⟨new, hnew, rfl⟩ := h
  rw [List.mem_append, List.mem_cons]
  constructor
  · rintro (hmem | hmem | hmem)
    · obtain ⟨d₂, c, r, heq, hmark⟩ := hnew _ hmem
      cases heq
      cases hmark
    · cases hmem
    · exact hmem
  · exact fun hmem => .inr (.inr hmem)

theorem harmless_begun (h : Begun store f d tr tr') : Harmless tr' ↔ Harmless tr := by
  simp only [Harmless, updated_mem_begun h]

theorem allOrNothing_begun (h : Begun store f d tr tr') :
    AllOrNothing codec path tr' ↔ AllOrNothing codec path tr := by
  constructor <;> rintro ⟨hfailed, hagrees⟩
  · exact ⟨fun d f b e a hmem => hfailed d f b e a ((updated_mem_begun h).mpr hmem),
      fun d f b r a hmem => hagrees d f b r a ((updated_mem_begun h).mpr hmem)⟩
  · exact ⟨fun d f b e a hmem => hfailed d f b e a ((updated_mem_begun h).mp hmem),
      fun d f b r a hmem => hagrees d f b r a ((updated_mem_begun h).mp hmem)⟩

/-- Each update leaves in memory what its closure made. -/
def Applies (tr : Trace FileCall FileReply Directory) : Prop :=
  ∀ d f before result after, .called d (.updated f before result after) () ∈ tr →
    after = f before

/-- All was done or nothing, as long as the failures were harmless. -/
def Sound (codec : StateCodec) (path : String) : Assertion FileCall FileReply Directory :=
  fun _ tr => Applies tr ∧ (Harmless tr → AllOrNothing codec path tr)

/-- Between two updates the file also says what is in memory, under the same condition. -/
def Agreed (codec : StateCodec) (store : StateStore) :
    Assertion FileCall FileReply Directory :=
  fun d tr => Sound codec store.path d tr ∧ (Harmless tr → Reopens codec store.path d store.state)

theorem sound_begun (h : Begun store f d tr tr') (hsound : Sound codec path d tr) :
    Sound codec path d' tr' := by
  refine ⟨fun d f b r a hmem => hsound.1 d f b r a ((updated_mem_begun h).mp hmem), ?_⟩
  rw [harmless_begun h, allOrNothing_begun h]
  exact hsound.2

theorem sound_during (hsound : Sound codec path d tr) (h : During codec store f d tr d' tr') :
    Sound codec path d' tr' := by
  rcases h with ⟨rfl, rfl⟩ | ⟨hbegun, -⟩
  · exact hsound
  · exact sound_begun hbegun hsound

/-! One more update that returned. -/

section Updated

variable {s a : State} {result : Except StateError Unit}

theorem applies_updated (h : Applies tr) :
    Applies (.called d (.updated f s result (f s)) () :: tr) := by
  intro d₁ g b r a hmem
  rcases List.mem_cons.mp hmem with heq | hold
  · cases heq
    rfl
  · exact h d₁ g b r a hold

theorem harmless_updated_iff :
    Harmless (.called d (.updated f s result a) () :: tr) ↔
      (∀ e, result = .error e → f s = s) ∧ Harmless tr := by
  constructor
  · intro h
    refine ⟨?_, fun d₁ g b e a hmem => h d₁ g b e a (List.mem_cons_of_mem _ hmem)⟩
    rintro e rfl
    exact h d f s e a List.mem_cons_self
  · rintro ⟨hlast, hbefore⟩ d₁ g b e a hmem
    rcases List.mem_cons.mp hmem with heq | hold
    · cases heq
      exact hlast e rfl
    · exact hbefore d₁ g b e a hold

theorem AllOrNothing.updated (h : AllOrNothing codec path tr)
    (hsame : ∀ e, result = .error e → a = s) (hreopens : Reopens codec path d a) :
    AllOrNothing codec path (.called d (.updated f s result a) () :: tr) := by
  constructor
  · intro d₁ g b e a' hmem
    rcases List.mem_cons.mp hmem with heq | hold
    · cases heq
      have has := hsame e rfl
      exact ⟨has, has ▸ hreopens⟩
    · exact h.failed d₁ g b e a' hold
  · intro d₁ g b r a' hmem
    rcases List.mem_cons.mp hmem with heq | hold
    · cases heq
      exact hreopens
    · exact h.agrees d₁ g b r a' hold

end Updated

/-- An update keeps the agreement. -/
theorem agreed_update (hcodec : codec.ReadsBack) (store : StateStore) (f : State → State) :
    Obeys (fileSystem codec store.path) (.always (Sound codec store.path)) (Agreed codec store)
      (store.update f) fun r d tr => r.2.path = store.path ∧ Agreed codec r.2 d tr := by
  rintro d tr ⟨hsound, hmemory⟩
  refine ((obeys_update store f d tr).weaken fun _ _ => sound_during hsound).post ?_ d tr
    ⟨rfl, rfl⟩
  rintro ⟨result, changed⟩ d' tr' ⟨rfl, ⟨before, hbegun, rfl⟩, hout⟩
  obtain ⟨happlies, hall⟩ : Sound codec store.path d' before := sound_begun hbegun hsound
  -- a successful write makes the two agree, a harmless failure leaves them
  have hfile : (∀ e, result = .error e → f store.state = store.state) → Harmless before →
      Reopens codec store.path d' (f store.state) := by
    intro hlast hharmless
    cases result with
    | ok u => exact reopens_iff.mpr (load_of_written hcodec hout)
    | error e =>
      rw [hlast e rfl]
      exact (reopens_congr hout).mpr (hmemory ((harmless_begun hbegun).mp hharmless))
  refine ⟨rfl, ⟨applies_updated happlies, fun hharmless => ?_⟩, fun hharmless => ?_⟩
  · obtain ⟨hlast, hbefore⟩ := harmless_updated_iff.mp hharmless
    exact (hall hbefore).updated hlast (hfile hlast hbefore)
  · obtain ⟨hlast, hbefore⟩ := harmless_updated_iff.mp hharmless
    exact hfile hlast hbefore

theorem sound_updates (hcodec : codec.ReadsBack) (changes : List (State → State))
    (store : StateStore) :
    Obeys (fileSystem codec store.path) (.always (Sound codec store.path)) (Agreed codec store)
      (store.updates changes) fun _ => Sound codec store.path := by
  induction changes generalizing store with
  | nil => exact obeys_ret (stable_fileSystem _) fun _ _ h => h.1
  | cons f rest ih =>
    refine obeys_bind (agreed_update hcodec store f) fun r => ?_
    obtain ⟨result, changed⟩ := r
    rintro d tr ⟨hpath, hagreed⟩
    have hchanged := ih changed
    rw [show changed.path = store.path from hpath] at hchanged
    exact hchanged d tr hagreed

/-- A failed update leaves the file, but not the memory. -/
theorem done_of_steps {path : String} {s : State} {result : Except StateError Unit}
    {changed : StateStore}
    (h : Steps (fileSystem codec path) ⟨(⟨path, s⟩ : StateStore).update f, d, tr⟩
      ⟨.ret (result, changed), d', tr'⟩) : Done codec ⟨path, s⟩ f d tr (result, changed) d' tr' :=
  obeys_update ⟨path, s⟩ f d tr d tr ⟨rfl, rfl⟩ _ h

end Updates

/-- An update that returns `Err` has done nothing exactly when its closure changed nothing and
memory and file agreed before. In a run from a state that was just opened, all updates are all or
nothing exactly when the closures of those that fail change nothing. -/
theorem update_all_or_nothing_iff (codec : StateCodec) (path : String)
    (hcodec : codec.ReadsBack) :
    (∀ (s : State) (f : State → State) (d d' : Directory) (e : StateError)
      (changed : StateStore) (tr : Trace FileCall FileReply Directory),
      Steps (fileSystem codec path) ⟨(⟨path, s⟩ : StateStore).update f, d, []⟩
        ⟨.ret (.error e, changed), d', tr⟩ →
      ((changed.state = s ∧ Reopens codec path d' changed.state) ↔
        (f s = s ∧ Reopens codec path d s))) ∧
    ∀ (s₀ : State) (d₀ : Directory) (changes : List (State → State))
      (x : Config FileCall FileReply Directory StateStore), Reopens codec path d₀ s₀ →
      Steps (fileSystem codec path) ⟨(⟨path, s₀⟩ : StateStore).updates changes, d₀, []⟩ x →
      (AllOrNothing codec path x.trace ↔ Harmless x.trace) := by
  constructor
  · intro s f d d' e changed tr h
    obtain ⟨hchanged, -, hfile⟩ := done_of_steps h
    have hstate : changed.state = f s := congrArg StateStore.state hchanged
    rw [hstate, reopens_congr hfile]
    constructor
    · rintro ⟨hsame, hreopens⟩
      rw [hsame] at hreopens
      exact ⟨hsame, hreopens⟩
    · rintro ⟨hsame, hreopens⟩
      rw [hsame]
      exact ⟨rfl, hreopens⟩
  · intro s₀ d₀ changes x hopen hrun
    have hstart : Agreed codec ⟨path, s₀⟩ d₀ [] :=
      ⟨⟨by simp [Applies], fun _ => ⟨by simp, by simp⟩⟩, fun _ => hopen⟩
    obtain ⟨happlies, hsound⟩ := (sound_updates hcodec changes ⟨path, s₀⟩).always
      (fun _ _ _ h => h) hstart hrun
    refine ⟨fun hall d f before e after hmem => ?_, hsound⟩
    rw [← happlies d f before _ after hmem]
    exact (hall.failed d f before e after hmem).1

/-- A directory in which no temporary file can be created. -/
def fullDirectory : Directory := emptyDirectory.set ".tmpV5h0Qk" (some [])

/-- An update of a store with a missing file that fails. -/
theorem steps_failed_update :
    let run := play (Directory.respond sampleCodec "state.json") 4
      ⟨(⟨"state.json", {}⟩ : StateStore).update fun s => { s with lastSeenUid := some 1 },
        fullDirectory, []⟩
    Steps (fileSystem sampleCodec "state.json")
      ⟨(⟨"state.json", {}⟩ : StateStore).update fun s => { s with lastSeenUid := some 1 },
        fullDirectory, []⟩
      ⟨.ret (.error (.io "too many temporary files exist"),
        ⟨"state.json", { lastSeenUid := some 1 }⟩), run.world, run.trace⟩ :=
  steps_play_ret (fileSystem_respond sampleCodec "state.json") rfl

/-- The update that fails, alone and as a run. -/
theorem update_all_or_nothing_iff_failed :
    (({ lastSeenUid := some 1 } : State) = {} ∧
        Reopens sampleCodec "state.json" (play (Directory.respond sampleCodec "state.json") 4
          ⟨(⟨"state.json", {}⟩ : StateStore).update fun s => { s with lastSeenUid := some 1 },
            fullDirectory, []⟩).world { lastSeenUid := some 1 } ↔
      ({ lastSeenUid := some 1 } : State) = {} ∧
        Reopens sampleCodec "state.json" fullDirectory {}) ∧
    (AllOrNothing sampleCodec "state.json" (sampleUpdate 6).trace ↔
      Harmless (sampleUpdate 6).trace) :=
  ⟨(update_all_or_nothing_iff sampleCodec "state.json" sampleCodec_readsBack).1 {}
      (fun s => { s with lastSeenUid := some 1 }) fullDirectory _ _ _ _ steps_failed_update,
    (update_all_or_nothing_iff sampleCodec "state.json" sampleCodec_readsBack).2 {} emptyDirectory
      [fun s => { s with lastSeenUid := some 1 }] (sampleUpdate 6) sampleCodec_reopens
      (steps_play_free (fileSystem_respond sampleCodec "state.json") 6 _)⟩

/-- The bookmark stays in memory although it could not be written. -/
theorem not_all_or_nothing :
    ¬ ∀ (codec : StateCodec) (path : String) (s : State) (f : State → State)
      (d d' : Directory) (e : StateError) (changed : StateStore)
      (tr : Trace FileCall FileReply Directory),
      codec.ReadsBack → Reopens codec path d s →
      Steps (fileSystem codec path) ⟨(⟨path, s⟩ : StateStore).update f, d, []⟩
        ⟨.ret (.error e, changed), d', tr⟩ →
      changed.state = s ∧ Reopens codec path d' changed.state := by
  intro hall
  have hsame := (hall sampleCodec "state.json" {} (fun s => { s with lastSeenUid := some 1 })
    fullDirectory _ _ _ _ sampleCodec_readsBack (reopens_iff.mpr rfl) steps_failed_update).1
  cases hsame

/-! ## Section 2: The store as the daemon sees it -/

/-- What the world of the daemon says of an update is what the store does: the state in memory
and the one that the file stands for. -/
theorem answers_update {codec : StateCodec} {path : String} {d d' : Directory} {w : World}
    {change : StateChange} {result : Except StateError Unit} {changed : StateStore}
    {tr : Trace FileCall FileReply Directory} (hcodec : codec.ReadsBack)
    (hdisk : Reopens codec path d w.disk)
    (h : Steps (fileSystem codec path) ⟨(⟨path, w.memory⟩ : StateStore).update change.apply, d, []⟩
      ⟨.ret (result, changed), d', tr⟩) :
    ∃ disk, Reopens codec path d' disk ∧
      World.Answers w (.update change) result { w with memory := changed.state, disk } := by
  obtain ⟨hchanged, -, hfile⟩ := done_of_steps h
  have hstate : changed.state = change.apply w.memory := congrArg StateStore.state hchanged
  cases result with
  | ok u =>
    refine ⟨change.apply w.memory, reopens_iff.mpr (load_of_written hcodec hfile), ?_⟩
    rw [hstate]
    rfl
  | error e =>
    refine ⟨w.disk, (reopens_congr hfile).mpr hdisk, ?_⟩
    rw [hstate]
    rfl

end ImapSieve
