import ImapSieve.Storage.Draft
import ImapSieve.System.Calls
import ImapSieve.System.Commands

/-!
# The State File of the Process

The process goes about its state file as the store does, whatever it is interrupted by.

- `draft_protocol`: the state file is replaced only by a file that was written in full and synced,
  and from the making of this file to its rename the process does nothing else.
- `survives_power_losses`: so the state file outlives losses of power, with which everything that
  was not synced is lost and the latest renames may be, too.
-/

namespace ImapSieve

open Effects

/-! ## Section 1: The process and its draft -/

def SystemCall.isFile {E : Type} : SystemCall E → Bool
  | .file _ => true
  | _ => false

/-- What the process may ask for: while there is a draft, nothing but what the store does. -/
inductive Draft.Permits {E : Type} (path : String) : Draft → SystemCall E → Prop where
  | file {q : Draft} {c : FileCall} (h : q.Allows path c) : Permits path q (.file c)
  | other {c : SystemCall E} (h : c.isFile = false) : Permits path .none c

def Draft.follow {E : Type} : Draft → (c : SystemCall E) → SystemReply E c → Draft
  | q, .file c, r => q.next c r
  | q, _, _ => q

/-- The draft of the process, read off what it has asked for. -/
def draftOf {E : Type} : Trace (SystemCall E) (SystemReply E) (SystemWorld E) → Draft
  | [] => .none
  | .restarted _ :: _ => .none
  | .called _ c r :: tr => (draftOf tr).follow c r

/-- The monitor of the process. -/
def storing {E : Type} (path : String) :
    Monitor (SystemCall E) (SystemReply E) (SystemWorld E) Draft where
  start := .none
  next q _ c r := q.follow c r
  allows q c := q.Permits path c
  loops _ := True

theorem state_storing {E : Type} (path : String)
    (tr : Trace (SystemCall E) (SystemReply E) (SystemWorld E)) :
    (storing path).state tr = draftOf tr := by
  induction tr with
  | nil => rfl
  | cons e tr ih =>
    cases e with
    | restarted w => rfl
    | called w c r => exact congrArg (fun q => Draft.follow q c r) ih

section Walks

variable {A E : Type} {S : Surroundings (SystemCall E) (SystemReply E) (SystemWorld E)}
  {path : String} {α β : Type}

/-- Without calls of the file system there is no draft. -/
theorem walks_unfiled {p : SystemProgram E α} {P : α → Prop}
    (h : Obeys S (Monitor.only fun c => c.isFile = false) (fun _ _ => True) p fun a _ _ => P a) :
    (storing path).Walks S .none p fun a q => P a ∧ q = .none := by
  refine (Monitor.walks_of_only h (fun _ hc => Draft.Permits.other hc) trivial ?_).post
    fun _ _ hq => ⟨hq.2, hq.1⟩
  intro c w r hc
  cases c with
  | file c => cases hc
  | _ => rfl

/-- The calls of the store are those of the process. -/
theorem walks_filed {p : FileProgram α} {P : α → Draft → Prop}
    (h : (drafting path).Walks anything .none p P) :
    (storing (E := E) path).Walks S .none (onFile p) P := by
  refine Monitor.walks_embed (M := storing path) (N := drafting path) ?_ ?_ ?_ h
  · intro q c hc
    exact Draft.Permits.file hc
  · intro q
    trivial
  · intro q w c r
    rfl

/-- Only updates make calls of the file system, and only they change the store. -/
theorem unfiled_handler (crates : Crates A E) (account : Account) {c : Call} (t : Process)
    (hc : ∀ change, c ≠ .update change) :
    Obeys S (Monitor.only fun c => c.isFile = false) (fun _ _ => True)
      (crates.handler account c t) fun rt _ _ => rt.2.store = t.store := by
  have hnet : ∀ {ρ : Type} {f : ρ → SystemProgram E (Reply c × Process)} (p : NetProgram ρ),
      (∀ r, ∃ x, f r = .ret x ∧ x.2.store = t.store) →
      Obeys S (Monitor.only fun c => c.isFile = false) (fun _ _ => True) (onNet p >>= f)
        fun rt _ _ => rt.2.store = t.store := by
    intro ρ f p hf
    refine Monitor.only_bind (P := fun _ => True) (makes_onNet (fun _ => rfl) p) fun r _ => ?_
    obtain ⟨x, hx, hstore⟩ := hf r
    rw [hx]
    exact Monitor.only_ret hstore
  cases c with
  | update change => exact absurd rfl (hc change)
  | connect => exact hnet _ fun _ => ⟨_, rfl, rfl⟩
  | idle timeout => exact hnet _ fun _ => ⟨_, rfl, rfl⟩
  | capabilities => exact hnet _ fun _ => ⟨_, rfl, rfl⟩
  | select mailbox => exact hnet _ fun _ => ⟨_, rfl, rfl⟩
  | fetchUidRange mailbox start since => exact hnet _ fun _ => ⟨_, rfl, rfl⟩
  | command cmd => exact hnet _ fun _ => ⟨_, rfl, rfl⟩
  | send mail =>
    change Obeys _ _ _ (crates.lettre.sendMail mail >>= fun result => .ret (result, t)) _
    rw [Lettre.sendMail]
    cases crates.lettre.envelope mail with
    | error e => exact Monitor.only_ret rfl
    | ok envelope => exact Monitor.only_call rfl fun _ _ _ _ => Monitor.only_ret rfl
  | sleep delay => exact Monitor.only_call rfl fun _ _ _ _ => Monitor.only_ret rfl
  | genRange jitter => exact Monitor.only_call rfl fun _ _ _ _ => Monitor.only_ret rfl
  | stamp => exact Monitor.only_call rfl fun _ _ _ _ => Monitor.only_ret rfl
  | currentScript => exact Monitor.only_call rfl fun _ _ _ _ => Monitor.only_ret rfl
  | state => exact Monitor.only_ret rfl
  | evaluate script context => exact Monitor.only_ret rfl
  | deleting uid => exact Monitor.only_ret rfl
  | executed uid result => exact Monitor.only_ret rfl

/-- Every call of the supervisor finds no draft and leaves none. -/
theorem stores_handler (crates : Crates A E) (account : Account) (c : Call) (t : Process)
    (hpath : t.store.path = path) :
    (storing path).Walks S .none (crates.handler account c t)
      fun rt q => rt.2.store.path = path ∧ q = .none := by
  by_cases hc : ∃ change, c = .update change
  · obtain ⟨change, rfl⟩ := hc
    refine Monitor.walks_bind (walks_filed (drafts_update t.store hpath change.apply)) ?_
    rintro ⟨result, store⟩ q ⟨hstore, rfl⟩
    exact Monitor.walks_ret ⟨hstore, rfl⟩
  · refine (walks_unfiled (unfiled_handler crates account t fun change h => hc ⟨change, h⟩)).post
      fun rt q h => ⟨?_, h.2⟩
    rw [h.1, hpath]

theorem stores_openStore (crates : Crates A E) :
    (storing path).Walks S .none (crates.openStore path).run
      fun r q => (∀ store, r = .ok store → store.path = path) ∧ q = .none := by
  refine Monitor.walks_bindExcept (P := fun r q =>
    (∀ store, r = .ok (.ok store) → store.path = path) ∧ q = .none) ?_
    (fun _ _ h => ⟨nofun, h.2⟩) ?_
  · refine Monitor.walks_bind (walks_filed (drafts_open crates.codec path)) ?_
    rintro r q ⟨hstore, rfl⟩
    refine Monitor.walks_ret ⟨?_, rfl⟩
    rintro store ⟨⟩
    exact hstore store rfl
  · rintro (e | store) q ⟨hstore, rfl⟩
    · exact Monitor.walks_ret ⟨nofun, rfl⟩
    · refine Monitor.walks_ret ⟨?_, rfl⟩
      rintro _ ⟨⟩
      exact hstore store rfl

theorem stores_prepare (crates : Crates A E) (cfg : Setup) :
    (storing path).Walks S .none (crates.prepare path cfg).run
      fun r q => (∀ store, r = .ok store → store.path = path) ∧ q = .none := by
  refine Monitor.walks_bindExcept (walks_unfiled (makes_loadScript crates rfl fun _ => rfl))
    (fun _ _ h => ⟨nofun, h.2⟩) ?_
  rintro _ _ ⟨-, rfl⟩
  refine Monitor.walks_bindExcept (walks_unfiled (makes_spawnWatcher cfg.watch rfl))
    (fun _ _ h => ⟨nofun, h.2⟩) ?_
  rintro _ _ ⟨-, rfl⟩
  refine Monitor.walks_bindExcept (stores_openStore crates) (fun _ _ h => ⟨nofun, h.2⟩) ?_
  rintro store _ ⟨hstore, rfl⟩
  have hsmtp : Makes S (fun c => c.isFile = false) (cfg.config.smtp.forM crates.makeSmtp).run := by
    cases cfg.config.smtp with
    | none => exact makes_ret _
    | some smtp => exact makes_makeSmtp crates smtp fun _ => rfl
  refine Monitor.walks_bindExcept (walks_unfiled hsmtp) (fun _ _ h => ⟨nofun, h.2⟩) ?_
  rintro _ _ ⟨-, rfl⟩
  refine Monitor.walks_ret ⟨?_, rfl⟩
  rintro _ ⟨⟩
  exact hstore store rfl

theorem stores_run (crates : Crates A E) (cfg : Setup) :
    (storing path).Walks S .none (crates.run path cfg) fun _ q => q = .none := by
  refine Monitor.walks_bind (stores_prepare crates cfg) ?_
  rintro (exit | store) q ⟨hstore, rfl⟩
  · exact Monitor.walks_ret rfl
  · refine Monitor.walks_bind (Monitor.walks_handle
      (J := fun t q => t.store.path = path ∧ q = .none) (fun _ _ _ => trivial) ?_
      (Supervisor.run cfg.config.settings) ⟨hstore store rfl, rfl⟩)
      fun _ _ h => Monitor.walks_ret h.2
    rintro c t q ⟨hpath, rfl⟩
    exact stores_handler crates cfg.account c t hpath

end Walks

/-! ## Section 2: Runs -/

section Runs

variable {A E : Type} {crates : Crates A E} {path : String} {others : Server → Server → Prop}
  {cfg : Setup} {w₀ : SystemWorld E}
  {x : Config (SystemCall E) (SystemReply E) (SystemWorld E) Exit}

/-- The rule for invariants of all lives of the process. A call that is answered was permitted by
the draft. -/
theorem drafts_invariant
    {I : Assertion (SystemCall E) (SystemReply E) (SystemWorld E)}
    (hx : Lives (systemWorld crates path others) (crates.run path) w₀ cfg x) (hinit : I w₀ [])
    (hcall : ∀ w tr c r w', I w tr → (draftOf tr).Permits path c →
      (systemWorld crates path others).answers w c r w' → I w' (.called w c r :: tr))
    (hdrift : ∀ w w' tr, I w tr → (systemWorld crates path others).drifts w w' → I w' tr)
    (hlost : ∀ w tr, I w tr → I w.restart (.restarted w :: tr)) : I x.world x.trace := by
  refine hx.invariant (K := fun _ => (storing path).contract) (I := fun _ => I)
    (fun cfg => stores_run crates cfg) rfl (fun _ _ _ _ => rfl) (fun _ => hinit) ?_
    (fun _ _ w w' tr _ h hd => hdrift w w' tr h hd) ?_
  · intro cfg p w tr c r w' _ h hallow hans
    refine hcall w tr c r w' h ?_ hans
    rw [← state_storing path]
    exact hallow
  · rintro cfg cfg' p w _ tr _ h rfl
    exact hlost w tr h

end Runs

/-- In all lives of the process, the state file is only ever replaced by a temporary file into which
the whole state was written and which was synced. From serialising the state to the rename, or to
the unlinking after a failure, the process does nothing else. -/
theorem draft_protocol {A E : Type} (crates : Crates A E) (path : String)
    (others : Server → Server → Prop) (w₀ : SystemWorld E) (cfg : Setup)
    (x : Config (SystemCall E) (SystemReply E) (SystemWorld E) Exit)
    (hx : Lives (systemWorld crates path others) (crates.run path) w₀ cfg x) :
    Along (fun _ c _ before => (draftOf before).Permits path c) x.trace :=
  drafts_invariant hx along_nil (fun _ _ _ _ _ h hallow _ => along_called hallow h)
    (fun _ _ _ h _ => h) fun _ _ h => along_restarted h

/-- The process has processed its first message. -/
theorem draft_protocol_processed :
    Along (fun _ c _ before => (draftOf before).Permits "state.json" c) (sampleProcess 60).trace :=
  draft_protocol sampleCrates "state.json" _ sampleSystem sampleSetup _ (lives_sampleProcess 60)

/-! ## Section 3: What is on the disk -/

/-- The files that a call leaves with contents which are not on the disk, if those in `unsynced`
have been so before. -/
def FileCall.leaves :
    (c : FileCall) → FileReply c → (String → Bool) → String → Bool
  | .createTemp, .ok tmp, unsynced, name => name = tmp || unsynced name
  | .write tmp _, _, unsynced, name => name = tmp || unsynced name
  | .syncAll tmp, .ok (), unsynced, name => name ≠ tmp && unsynced name
  | .rename tmp target, .ok (), unsynced, name =>
      if name = target then unsynced tmp else unsynced name
  | _, _, unsynced, name => unsynced name

/-- The files whose contents are not on the disk yet. At the start everything is. -/
def unsynced {E : Type} :
    Trace (SystemCall E) (SystemReply E) (SystemWorld E) → String → Bool
  | [], _ => false
  | .restarted _ :: tr, name => unsynced tr name
  | .called _ (.file c) r :: tr, name => c.leaves r (unsynced tr) name
  | .called _ _ _ :: tr, name => unsynced tr name

/-- The state file is on the disk, and so is a draft that was synced. -/
structure OnDisk (path : String) (q : Draft) (unsynced : String → Bool) : Prop where
  state : unsynced path = false
  synced : ∀ name, q = .synced name → unsynced name = false
  other : ∀ name, q.file? = some name → name ≠ path

/-- What the store may ask for keeps the state file on the disk. -/
theorem OnDisk.call {codec : StateCodec} {path : String} {q : Draft} {unsynced : String → Bool}
    (h : OnDisk path q unsynced) {d d' : Directory} {c : FileCall} {r : FileReply c}
    (hallow : q.Allows path c) (hans : Directory.Answers codec path d c r d') :
    OnDisk path (q.next c r) (c.leaves r unsynced) := by
  -- a temporary file that is written to
  have hwritten : ∀ {tmp : String} (q' : Draft), tmp ≠ path → (∀ name, q' ≠ .synced name) →
      q'.file? = some tmp → OnDisk path q' fun name => name = tmp || unsynced name := by
    intro tmp q' hne hunsynced hfile
    refine ⟨by simp [hne.symm, h.state], fun name hname => absurd hname (hunsynced name), ?_⟩
    intro name hname
    rw [hfile] at hname
    cases hname
    exact hne
  cases hallow with
  | createDirAll => exact h
  | read => exact h
  | updating f before after => exact h
  | updated f before result after => exact h
  | toVec state =>
    rcases r with e | bytes
    · exact h
    · exact ⟨h.state, nofun, nofun⟩
  | createTemp bytes =>
    rcases r with e | tmp
    · exact ⟨h.state, nofun, nofun⟩
    · exact hwritten (.writing tmp bytes) hans.1 nofun rfl
  | @write tmp rest hmore =>
    have hne : tmp ≠ path := h.other tmp rfl
    rcases r with (_ | _ | message) | (_ | n)
    · exact hwritten (.doomed tmp) hne nofun rfl
    · exact hwritten (.writing tmp rest) hne nofun rfl
    · exact hwritten (.doomed tmp) hne nofun rfl
    · exact hwritten (.doomed tmp) hne nofun rfl
    · exact hwritten (.writing tmp (rest.drop (n + 1))) hne nofun rfl
  | syncAll tmp =>
    rcases r with e | ⟨⟩
    · exact ⟨h.state, nofun, h.other⟩
    · refine ⟨by simp [FileCall.leaves, h.state], ?_, h.other⟩
      rintro name ⟨⟩
      simp [FileCall.leaves]
  | rename tmp =>
    rcases r with e | ⟨⟩
    · exact ⟨h.state, nofun, h.other⟩
    · exact ⟨(if_pos rfl).trans (h.synced tmp rfl), nofun, nofun⟩
  | unlink tmp => exact ⟨h.state, nofun, nofun⟩

/-- The state file is on the disk at all times. -/
theorem lives_onDisk {A E : Type} {crates : Crates A E} {path : String}
    {others : Server → Server → Prop} {cfg : Setup} {w₀ : SystemWorld E}
    {x : Config (SystemCall E) (SystemReply E) (SystemWorld E) Exit}
    (hx : Lives (systemWorld crates path others) (crates.run path) w₀ cfg x) :
    OnDisk path (draftOf x.trace) (unsynced x.trace) := by
  refine drafts_invariant (I := fun _ tr => OnDisk path (draftOf tr) (unsynced tr)) hx
    ⟨rfl, nofun, nofun⟩ ?_ (fun _ _ _ h _ => h) fun _ _ h => ⟨h.state, nofun, nofun⟩
  intro w tr c r w' h hallow hans
  rw [draftOf]
  generalize draftOf tr = q at h hallow ⊢
  cases hallow with
  | file hallow =>
    obtain ⟨d, hans, -⟩ := hans
    exact h.call hallow hans
  | other hc =>
    cases c with
    | file c => cases hc
    | _ => exact h

/-! ## Section 4: Losses of power -/

/-- The directory at some time of the run up to now, and what had been called by then. -/
def Past {E : Type} (w : SystemWorld E)
    (tr : Trace (SystemCall E) (SystemReply E) (SystemWorld E)) (past : Directory)
    (before : Trace (SystemCall E) (SystemReply E) (SystemWorld E)) : Prop :=
  past = w.directory ∧ before = tr ∨ ∃ v c r, .called v c r :: before <:+ tr ∧ past = v.directory

/-- What a loss of power may leave in the directory. Renames are not synced: each file may be the
one that had this name at some earlier time. What was not on the disk by then is lost, and there
may be anything in its place. -/
def PowerLoss {E : Type} (w : SystemWorld E)
    (tr : Trace (SystemCall E) (SystemReply E) (SystemWorld E)) (d : Directory) : Prop :=
  ∀ name, ∃ past before, Past w tr past before ∧ (unsynced before name = false → d name = past name)

/-- What may become of a world in which the process lives, with any number of losses of power. -/
inductive Outlasts {A E : Type} (crates : Crates A E) (path : String)
    (others : Server → Server → Prop) (w₀ : SystemWorld E) : SystemWorld E → Prop where
  | start : Outlasts crates path others w₀ w₀
  | powerLoss {w : SystemWorld E} {cfg : Setup}
      {x : Config (SystemCall E) (SystemReply E) (SystemWorld E) Exit} {d : Directory}
      (h : Outlasts crates path others w₀ w)
      (hx : Lives (systemWorld crates path others) (crates.run path) w cfg x)
      (hd : PowerLoss x.world x.trace d) :
      Outlasts crates path others w₀ { x.world.restart with directory := d }

section Losses

variable {A E : Type} {crates : Crates A E} {path : String} {others : Server → Server → Prop}
  {origin : World} {w₀ : SystemWorld E} {cfg : Setup}
  {x : Config (SystemCall E) (SystemReply E) (SystemWorld E) Exit}

/-- All earlier versions of the state file were on the disk and had grown. -/
theorem versions_of_lives (hcodec : crates.codec.ReadsBack)
    (hstart : Begins crates path w₀ [] origin [])
    (hx : Lives (systemWorld crates path others) (crates.run path) w₀ cfg x) :
    Along (fun w _ _ before => Grown crates.codec path origin.disk w.directory ∧
      unsynced before path = false) x.trace := by
  refine hx.invariant (K := fun _ => (storing path).contract)
    (I := fun _ _ tr => Along (fun (w : SystemWorld E) _ _ before =>
      Grown crates.codec path origin.disk w.directory ∧ unsynced before path = false) tr)
    (fun cfg => stores_run crates cfg) rfl (fun _ _ _ _ => rfl) (fun _ => along_nil) ?_ ?_ ?_
  · intro cfg p w tr c r w' hx h _ _
    exact along_called ⟨grown_of_lives hcodec hstart hx, (lives_onDisk hx).state⟩ h
  · intro cfg p w w' tr _ h _
    exact h
  · intro cfg cfg' p w w' tr _ h _
    exact along_restarted h

/-- Whatever a loss of power leaves, the state file has grown. -/
theorem grown_of_powerLoss (hcodec : crates.codec.ReadsBack)
    (hstart : Begins crates path w₀ [] origin [])
    (hx : Lives (systemWorld crates path others) (crates.run path) w₀ cfg x) {d : Directory}
    (hd : PowerLoss x.world x.trace d) : Grown crates.codec path origin.disk d := by
  obtain ⟨past, before, hpast, hcontent⟩ := hd path
  obtain ⟨⟨s, hreopens, hgrown⟩, hsynced⟩ :
      Grown crates.codec path origin.disk past ∧ unsynced before path = false := by
    rcases hpast with ⟨rfl, rfl⟩ | ⟨v, c, r, hsuffix, rfl⟩
    · exact ⟨grown_of_lives hcodec hstart hx, (lives_onDisk hx).state⟩
    · exact versions_of_lives hcodec hstart hx v c r before hsuffix
  exact ⟨s, (reopens_congr (hcontent hsynced)).mpr hreopens, hgrown⟩

/-- The next process begins like the daemon. -/
theorem begins_powerLoss (hcodec : crates.codec.ReadsBack)
    (hstart : Begins crates path w₀ [] origin [])
    (hx : Lives (systemWorld crates path others) (crates.run path) w₀ cfg x) {d : Directory}
    (hd : PowerLoss x.world x.trace d) :
    ∃ origin', Begins crates path { x.world.restart with directory := d } [] origin' [] ∧
      origin.disk.Extends origin'.disk := by
  obtain ⟨s, hreopens, hgrown⟩ := grown_of_powerLoss hcodec hstart hx hd
  obtain ⟨p, v, tr, -, hremains⟩ := anywhere_of_lives hcodec hstart hx
  refine ⟨{ v with memory := s, disk := s, permit := false }, ?_, hgrown⟩
  exact { hremains with permit := rfl, disk := hreopens, issued := .slnil, reloaded := rfl }

end Losses

/-- However often the process is killed and power is lost, with all that was not synced and with
any of the renames, the next process begins like the daemon: `StateStore::open` succeeds, the
UIDVALIDITY is the one that was set, and the bookmark has not gone back behind the start. -/
theorem survives_power_losses {A E : Type} (crates : Crates A E) (path : String)
    (others : Server → Server → Prop) (hcodec : crates.codec.ReadsBack) {w₀ w : SystemWorld E}
    {origin : World} (hstart : Begins crates path w₀ [] origin [])
    (hw : Outlasts crates path others w₀ w) :
    ∃ origin', Begins crates path w [] origin' [] ∧ origin.disk.Extends origin'.disk := by
  induction hw with
  | start => exact ⟨origin, hstart, .refl _⟩
  | @powerLoss w cfg x d _ hx hd ih =>
    obtain ⟨origin₁, hbegins, hextends⟩ := ih
    -- the life that was lost is that of a daemon which started there
    obtain ⟨origin₂, hbegins', hextends'⟩ := begins_powerLoss hcodec hbegins hx hd
    exact ⟨origin₂, hbegins', hextends.trans hextends'⟩

/-- What is in the directory after power was lost while a draft was written: anything in the place
of the draft, and the first state file. -/
def lostDirectory : Directory :=
  ((sampleProcess 36).world.directory.set ".tmpV5h0Qk" (some [7])).set "state.json"
    (some (jsonText { lastSeenUid := some 0 }))

theorem powerLoss_lostDirectory :
    PowerLoss (sampleProcess 36).world (sampleProcess 36).trace lostDirectory := by
  have hsteps : Steps (systemWorld sampleCrates "state.json" fun _ _ => False) (sampleProcess 1)
      (sampleProcess 36) := steps_play_free answers_sampleProcess 35 (sampleProcess 1)
  intro name
  by_cases hstate : name = "state.json"
  · subst hstate
    refine ⟨sampleSystem.directory, [], .inr ⟨sampleSystem, .readScript, .ok "discard;",
      hsteps.trace_suffix, rfl⟩, fun _ => ?_⟩
    rw [lostDirectory, set_self]
    exact (set_self emptyDirectory "state.json" _).symm
  · refine ⟨_, _, .inl ⟨rfl, rfl⟩, fun hsynced => ?_⟩
    by_cases htmp : name = ".tmpV5h0Qk"
    · subst htmp
      have hunsynced : unsynced (sampleProcess 36).trace ".tmpV5h0Qk" = true := by decide +kernel
      rw [hunsynced] at hsynced
      cases hsynced
    · rw [lostDirectory, set_of_ne hstate, set_of_ne htmp]

theorem survives_power_losses_halfway :
    ∃ origin, Begins sampleCrates "state.json"
        { (sampleProcess 36).world.restart with directory := lostDirectory } [] origin [] ∧
      sampleOrigin.disk.Extends origin.disk :=
  survives_power_losses sampleCrates "state.json" (fun _ _ => False) sampleCrates_readsBack
    sampleSystem_begins (.powerLoss .start (lives_sampleProcess 36) powerLoss_lostDirectory)

end ImapSieve
