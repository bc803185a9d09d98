import ImapSieve.System.Relation

/-!
# State Updates of the Process

An update of the state store makes many calls, any of which may fail, and the process may be lost
between them. The daemon makes one: it has the update behind it as soon as the new file is there.
-/

namespace ImapSieve

open Effects

variable {A E : Type} {host : Host A E} {cfg : Settings} {t : Process}

/-! ## Section 1: While an update is under way -/

section Update

variable {change : StateChange} {k : Except StateError Unit → Program (Except CoreError Unit)}
  {d₀ : Directory}

/-- While an update is under way, the daemon still has what the directory was at its start. -/
def Pending (host : Host A E) (t : Process) (d₀ : Directory) :
    Relating (SystemCall E) (SystemReply E) (SystemWorld E) Call Reply World :=
  fun w' tr' w tr => Represents host t { w' with directory := d₀ } tr' w tr

/-- The store has come to the directory `d`, and the daemon is at its update. -/
def Updating (host : Host A E) (cfg : Settings) (t : Process) (d₀ : Directory)
    (p : Program (Except CoreError Unit)) :
    Relating (SystemCall E) (SystemReply E) (SystemWorld E) FileCall FileReply Directory :=
  fun w' tr' d _ => w'.directory = d ∧ Matched (host.Serving cfg) (Pending host t d₀) p w' tr'

theorem absorbs_updating (p : Program (Except CoreError Unit)) :
    Absorbs (fileSystem host.crates.codec host.path) host.system
      (Updating host cfg t d₀ p) := by
  rintro w' w'' tr' d ftr ⟨hdirectory, hmatched⟩ hd
  have hpending : Absorbs host.daemon host.system (Pending host t d₀) :=
    fun w' w'' tr' w tr h hd => absorbs_represents host t { w' with directory := d₀ }
      { w'' with directory := d₀ } tr' w tr h ⟨{ hd.1 with directory := rfl }, hd.2⟩
  exact ⟨d, .refl, hd.1.directory.trans hdirectory,
    stable_matched (closed_serving host cfg) hpending p _ _ _ hmatched hd⟩

/-- The calls of the store are those of the file system. -/
theorem updating_call {p : Program (Except CoreError Unit)} {α : Type} {c : FileCall}
    {k : FileReply c → FileProgram α} {q : FileProgram α} {u : Unit} :
    Obeys host.system
      (.always (Somewhere (Steps (fileSystem host.crates.codec host.path) ⟨q, d₀, []⟩)
        (Updating host cfg t d₀ p)))
      (Matched (Steps (fileSystem host.crates.codec host.path) ⟨q, d₀, []⟩)
        (Updating host cfg t d₀ p) (.call c k))
      (.call (.file c) fun r => .ret (r, u)) fun rt =>
        Matched (Steps (fileSystem host.crates.codec host.path) ⟨q, d₀, []⟩)
          (Updating host cfg t d₀ p) (k rt.1) := by
  refine obeys_relay (fun _ => Updating host cfg t d₀ p) (fun _ _ hx hstep => hx.tail hstep)
    (fun _ => absorbs_updating p) (fun _ _ _ _ _ h => h) (t := u) (.file c)
    id ?_
  rintro w' tr' r v' d ftr - ⟨rfl, w, tr, hx, hpending⟩ ⟨⟨d', hans, rfl⟩, -⟩
  exact ⟨d', hans, rfl, w, tr, hx, Represents.quiet hpending rfl⟩

/-- A program of the store comes to where it may come by itself. -/
theorem updating_onFile (host : Host A E) (cfg : Settings) (t : Process) (d₀ : Directory)
    (p : Program (Except CoreError Unit)) {α : Type} (q : FileProgram α) :
    Obeys host.system
      (.always (Somewhere (Steps (fileSystem host.crates.codec host.path) ⟨q, d₀, []⟩)
        (Updating host cfg t d₀ p)))
      (Matched (Steps (fileSystem host.crates.codec host.path) ⟨q, d₀, []⟩)
        (Updating host cfg t d₀ p) q)
      (onFile q) fun a =>
        Matched (Steps (fileSystem host.crates.codec host.path) ⟨q, d₀, []⟩)
          (Updating host cfg t d₀ p) (.ret a) := by
  have hclosed : Closed (fileSystem host.crates.codec host.path)
      (Steps (fileSystem host.crates.codec host.path) ⟨q, d₀, []⟩) :=
    fun _ _ hx hstep => hx.tail hstep
  refine obeys_bind (obeys_handle_matched hclosed (fun _ => absorbs_updating p)
    (fun _ _ _ _ _ h => h) (fun _ _ _ => updating_call) q ()) fun at' => ?_
  exact obeys_ret (stable_matched hclosed (absorbs_updating p) _) fun _ _ h => h

/-- The state file is as it was at the start of the update. -/
theorem represents_of_pending {w' : SystemWorld E}
    {tr' : Trace (SystemCall E) (SystemReply E) (SystemWorld E)} {w : World} {tr : History}
    (h : Pending host t d₀ w' tr' w tr) (hfile : w'.directory host.path = d₀ host.path) :
    Represents host t w' tr' w tr :=
  { h with disk := (reopens_congr hfile).mpr h.disk }

/-- The state file has the new contents: the daemon has its update behind it. -/
theorem represents_of_written (hcodec : host.crates.codec.ReadsBack) {w' : SystemWorld E}
    {tr' : Trace (SystemCall E) (SystemReply E) (SystemWorld E)} {w : World} {tr : History}
    (h : Pending host t d₀ w' tr' w tr)
    (hfile : Written host.crates.codec host.path (change.apply t.store.state) w'.directory) :
    Represents host
      { t with store := { t.store with state := change.apply t.store.state } } w' tr'
      { w with memory := change.apply w.memory, disk := change.apply w.memory }
      (.called w (.update change) (.ok ()) :: tr) := by
  have hmemory : t.store.state = w.memory := h.memory
  rw [hmemory] at hfile ⊢
  exact { h.called with
    disk := reopens_iff.mpr (load_of_written hcodec hfile)
    memory := rfl }

/-- At all times the state file is the old one or the new one. -/
theorem file_of_steps {codec : StateCodec} {store : StateStore} {f : State → State}
    {x : Config FileCall FileReply Directory (Except StateError Unit × StateStore)}
    (h : Steps (fileSystem codec store.path) ⟨store.update f, d₀, []⟩ x) :
    x.world store.path = d₀ store.path ∨ Written codec store.path (f store.state) x.world := by
  have hfile : Obeys (fileSystem codec store.path) (.always fun d _ =>
      d store.path = d₀ store.path ∨ Written codec store.path (f store.state) d)
      (fun d tr => d = d₀ ∧ tr = []) (store.update f) (Done codec store f d₀ []) := by
    refine (obeys_update store f d₀ []).weaken ?_
    rintro d tr (⟨rfl, -⟩ | ⟨-, hfile⟩)
    · exact .inl rfl
    · exact hfile
  refine hfile.always ?_ ⟨rfl, rfl⟩ h
  rintro ⟨result, changed⟩ d tr ⟨-, -, hout⟩
  cases result with
  | ok u => exact .inr hout
  | error e => exact .inl hout

/-- The daemon may be where the update has come to. -/
theorem somewhere_of_updating (hcodec : host.crates.codec.ReadsBack)
    (hpath : t.store.path = host.path) {w' : SystemWorld E}
    {tr' : Trace (SystemCall E) (SystemReply E) (SystemWorld E)}
    (h : Somewhere (Steps (fileSystem host.crates.codec host.path)
      ⟨t.store.update change.apply, d₀, []⟩) (Updating host cfg t d₀ (.call (.update change) k))
      w' tr') :
    Somewhere (host.Serving cfg) (Remains host.crates host.path) w' tr' := by
  obtain ⟨q, d, ftr, hsteps, rfl, w, tr, hx, hpending⟩ := h
  rw [← hpath] at hsteps
  rcases file_of_steps hsteps with hfile | hfile
  · rw [hpath] at hfile
    exact ⟨_, w, tr, hx, (represents_of_pending hpending hfile).toRemains⟩
  · rw [hpath] at hfile
    have hstep : Step host.daemon ⟨.call (.update change) k, w, tr⟩
        ⟨k (.ok ()), { w with memory := change.apply w.memory, disk := change.apply w.memory },
          .called w (.update change) (.ok ()) :: tr⟩ := .call ⟨rfl, trivial⟩
    exact ⟨_, _, _, closed_serving host cfg _ _ hx hstep,
      (represents_of_written hcodec hpending hfile).toRemains⟩

/-- What an update returns is what the daemon's update returns. -/
theorem stands_of_updated (hcodec : host.crates.codec.ReadsBack)
    (hpath : t.store.path = host.path) {w' : SystemWorld E}
    {tr' : Trace (SystemCall E) (SystemReply E) (SystemWorld E)}
    {result : Except StateError Unit} {changed : StateStore}
    (h : Matched (Steps (fileSystem host.crates.codec host.path)
      ⟨t.store.update change.apply, d₀, []⟩) (Updating host cfg t d₀ (.call (.update change) k))
      (.ret (result, changed)) w' tr') :
    host.Stands cfg { t with store := changed } (k result) w' tr' := by
  obtain ⟨d, ftr, hsteps, rfl, w, tr, hx, hpending⟩ := h
  rw [← hpath] at hsteps
  obtain ⟨rfl, -, hout⟩ : Done host.crates.codec t.store change.apply d₀ [] (result, changed)
    w'.directory ftr := obeys_update t.store change.apply d₀ [] d₀ [] ⟨rfl, rfl⟩ _ hsteps
  rw [hpath] at hout
  have hmemory : t.store.state = w.memory := hpending.memory
  cases result with
  | ok u =>
    exact ⟨_, _, closed_serving host cfg _ _ hx (.call ⟨rfl, trivial⟩),
      represents_of_written hcodec hpending hout⟩
  | error e =>
    refine ⟨{ w with memory := change.apply w.memory }, _,
      closed_serving host cfg _ _ hx (.call ⟨rfl, trivial⟩), ?_⟩
    exact { (represents_of_pending hpending hout).called with
      memory := congrArg change.apply hmemory }

theorem answering_update (hcodec : host.crates.codec.ReadsBack) {account : Account} :
    host.Answering cfg (.update change) k t (host.crates.handler account (.update change) t) := by
  change host.Answering cfg (.update change) k t
    (onFile (t.store.update change.apply) >>= fun x => .ret (x.1, { t with store := x.2 }))
  refine obeys_bind (M := fun x => host.Stands cfg { t with store := x.2 } (k x.1)) ?_
    fun x => obeys_ret (stable_stands host cfg _ _) fun _ _ h => h
  rintro w₀ tr₀ ⟨v₀, vtr₀, hx₀, hrep₀⟩
  have hpath : t.store.path = host.path := hrep₀.path
  have hupdate := updating_onFile host cfg t w₀.directory (.call (.update change) k)
    (t.store.update change.apply)
  refine (hupdate.weaken fun _ _ => somewhere_of_updating hcodec hpath).post
    (fun x _ _ => stands_of_updated hcodec hpath) w₀ tr₀ ?_
  exact ⟨w₀.directory, [], .refl, rfl, v₀, vtr₀, hx₀, hrep₀⟩

end Update

end ImapSieve
