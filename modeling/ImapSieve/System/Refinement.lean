import ImapSieve.Mail.NullSender
import ImapSieve.System.Connection
import ImapSieve.System.Update

/-!
# The Process Does What the Daemon Does

`run_refines`: wherever the process comes, with all its losses and restarts, the daemon may have
come to a place that it stands for, with the same server, the same mail and the same state on
disk; and it has put the daemon's commands on the wire, in their order.

What holds over all runs of the daemon is thereby a result about the process.
-/

namespace ImapSieve

open Effects

variable {A E : Type} {host : Host A E} {cfg : Settings} {t : Process}

/-! ## Section 1: The supervisor -/

/-- All calls of the supervisor are answered like the world of the daemon answers them. -/
theorem answering_handler (hcodec : host.crates.codec.ReadsBack) (account : Account)
    (c : Call) (k : Reply c → Program (Except CoreError Unit)) (t : Process) :
    host.Answering cfg c k t (host.crates.handler account c t) := by
  cases c with
  | connect => exact answering_connect
  | sleep delay => exact answering_sleep
  | genRange jitter => exact answering_genRange
  | capabilities => exact answering_capabilities
  | select mailbox => exact answering_select
  | fetchUidRange mailbox start since => exact answering_fetchUidRange
  | command cmd => exact answering_command fun _ _ => properFlags_of_serving
  | idle timeout => exact answering_idle
  | send mail => exact answering_send
  | stamp => exact answering_stamp
  | state => exact answering_state
  | update change => exact answering_update hcodec
  | currentScript => exact answering_currentScript
  | evaluate script context => exact answering_evaluate
  | deleting uid => exact answering_deleting
  | executed uid result => exact answering_executed

/-- Where the daemon is when the process ends: at its own end, or still at its start. -/
inductive Host.Ends (host : Host A E) (cfg : Settings) :
    Exit → Assertion (SystemCall E) (SystemReply E) (SystemWorld E)
  | returned {w' : SystemWorld E} {tr' : Trace (SystemCall E) (SystemReply E) (SystemWorld E)}
      {result : Except CoreError Unit}
      (h : Matched (host.Serving cfg) (Remains host.crates host.path) (.ret result) w' tr') :
      host.Ends cfg (exitOf result) w' tr'
  | unstarted {w' : SystemWorld E} {tr' : Trace (SystemCall E) (SystemReply E) (SystemWorld E)}
      {context : String}
      (h : Matched (host.Serving cfg) (Remains host.crates host.path) (Supervisor.run cfg) w' tr') :
      host.Ends cfg (.failed context) w' tr'

theorem absorbs_remains (host : Host A E) :
    Absorbs host.daemon host.system (Remains host.crates host.path) := by
  intro w' w'' tr' w tr h hd
  obtain ⟨hdrift, hremains⟩ := h.drifts hd
  exact ⟨_, .single hdrift, hremains⟩

theorem stable_ends (host : Host A E) (cfg : Settings) (exit : Exit) :
    Stable host.system (host.Ends cfg exit) := by
  have hstable := stable_matched (closed_serving host cfg) (absorbs_remains host)
  intro w' w'' tr' h hd
  cases h with
  | returned h => exact .returned (hstable _ _ _ _ h hd)
  | unstarted h => exact .unstarted (hstable _ _ _ _ h hd)

theorem obeys_supervise (hcodec : host.crates.codec.ReadsBack) (cfg : Setup)
    (store : StateStore) :
    Obeys host.system (host.keeps cfg.config.settings)
      (host.Stands cfg.config.settings ⟨⟨false⟩, store⟩ (Supervisor.run cfg.config.settings))
      (host.crates.supervise cfg store) (host.Ends cfg.config.settings) := by
  refine obeys_bind (obeys_handle_matched (closed_serving host _) (absorbs_represents host)
    (fun _ _ _ _ _ h => h.toRemains) (answering_handler hcodec cfg.account)
    (Supervisor.run cfg.config.settings) ⟨⟨false⟩, store⟩) ?_
  rintro ⟨result, t⟩
  exact obeys_ret (stable_stands host _ t _) fun _ _ h =>
    .returned (Matched.mono (fun _ _ _ _ hrep => hrep.toRemains) h)

/-! ## Section 2: `daemon::run` -/

/-- The process was started and has not opened its store yet. -/
structure Begins (crates : Crates A E) (path : String) (w' : SystemWorld E)
    (tr' : Trace (SystemCall E) (SystemReply E) (SystemWorld E)) (w : World) (tr : History) : Prop
    extends Remains crates path w' tr' w tr where
  reloaded : w.memory = w.disk

/-- It has its script. -/
structure Loaded (host : Host A E) (w' : SystemWorld E)
    (tr' : Trace (SystemCall E) (SystemReply E) (SystemWorld E)) (w : World) (tr : History) : Prop
    extends Begins host.crates host.path w' tr' w tr where
  installed : host.Installed w'.handle

theorem absorbs_begins (host : Host A E) :
    Absorbs host.daemon host.system (Begins host.crates host.path) := by
  intro w' w'' tr' w tr h hd
  obtain ⟨hdrift, hremains⟩ := h.toRemains.drifts hd
  exact ⟨_, .single hdrift, hremains, h.reloaded⟩

theorem absorbs_loaded (host : Host A E) :
    Absorbs host.daemon host.system (Loaded host) := by
  intro w' w'' tr' w tr h hd
  obtain ⟨hdrift, hremains⟩ := h.toRemains.drifts hd
  exact ⟨_, .single hdrift, ⟨hremains, h.reloaded⟩, installed_of_drifts hd h.installed⟩

/-- The daemon is at its start. -/
def Host.Boots (host : Host A E) (cfg : Settings)
    (rel : Relating (SystemCall E) (SystemReply E) (SystemWorld E) Call Reply World) :
    Assertion (SystemCall E) (SystemReply E) (SystemWorld E) :=
  Matched (host.Serving cfg) rel (Supervisor.run cfg)

/-- A preparation has gone on, or it has ended the process. -/
def Preparing (host : Host A E) (cfg : Settings) {α : Type}
    (M : α → Assertion (SystemCall E) (SystemReply E) (SystemWorld E)) :
    Except Exit α → Assertion (SystemCall E) (SystemReply E) (SystemWorld E)
  | .ok a => M a
  | .error exit => host.Ends cfg exit

theorem obeys_preparing_bind {α β : Type} {p : ExceptT Exit (SystemProgram E) α}
    {f : α → ExceptT Exit (SystemProgram E) β}
    {P : Assertion (SystemCall E) (SystemReply E) (SystemWorld E)}
    {M : α → Assertion (SystemCall E) (SystemReply E) (SystemWorld E)}
    {N : β → Assertion (SystemCall E) (SystemReply E) (SystemWorld E)}
    (hp : Obeys host.system (host.keeps cfg) P p.run (Preparing host cfg M))
    (hf : ∀ a, Obeys host.system (host.keeps cfg) (M a) (f a).run (Preparing host cfg N)) :
    Obeys host.system (host.keeps cfg) P (p >>= f).run (Preparing host cfg N) :=
  obeys_bindExcept (stable_ends host cfg) hp hf fun _ _ _ h => h

/-- A preparation that ends the process. -/
theorem obeys_unprepared {α : Type} {context : String}
    {rel : Relating (SystemCall E) (SystemReply E) (SystemWorld E) Call Reply World}
    {M : α → Assertion (SystemCall E) (SystemReply E) (SystemWorld E)}
    (habsorbs : Absorbs host.daemon host.system rel)
    (hlost : ∀ w' tr' w tr, rel w' tr' w tr → Remains host.crates host.path w' tr' w tr) :
    Obeys host.system (host.keeps cfg) (host.Boots cfg rel)
      (throw (.failed context) : ExceptT Exit (SystemProgram E) α).run (Preparing host cfg M) :=
  obeys_ret (stable_matched (closed_serving host cfg) habsorbs _) fun _ _ h =>
    .unstarted (Matched.mono hlost h)

/-- A call of a preparation. -/
theorem obeys_lift {α : Type} {p : SystemProgram E α}
    {P : Assertion (SystemCall E) (SystemReply E) (SystemWorld E)}
    {M : α → Assertion (SystemCall E) (SystemReply E) (SystemWorld E)}
    (hM : ∀ a, Stable host.system (M a)) (hp : Obeys host.system (host.keeps cfg) P p M) :
    Obeys host.system (host.keeps cfg) P (ExceptT.lift p : ExceptT Exit (SystemProgram E) α).run
      (Preparing host cfg M) :=
  obeys_bind hp fun a => obeys_ret (hM a) fun _ _ h => h

/-- A call that neither changes the world nor is a command. -/
theorem obeys_quiet {rel : Relating (SystemCall E) (SystemReply E) (SystemWorld E) Call Reply World}
    {p : Program (Except CoreError Unit)} {d : SystemCall E}
    (habsorbs : Absorbs host.daemon host.system rel)
    (hlost : ∀ w' tr' w tr, rel w' tr' w tr → Remains host.crates host.path w' tr' w tr)
    (hquiet : ∀ w' tr' r w tr, rel w' tr' w tr → rel w' (.called w' d r :: tr') w tr)
    (hans : ∀ w' r v', SystemWorld.Answers host.crates.codec host.path w' d r v' → v' = w') :
    Obeys host.system (host.keeps cfg) (Matched (host.Serving cfg) rel p) (systemCall d)
      fun _ => Matched (host.Serving cfg) rel p := by
  have hstable := stable_matched (closed_serving host cfg) habsorbs p
  refine obeys_call hstable (fun _ _ h => ⟨p, Matched.mono hlost h⟩) ?_
    fun r => obeys_ret hstable fun _ _ h => h
  rintro w' tr' r v' ⟨w, tr, hx, hrel⟩ h
  rw [hans w' r v' h.1]
  exact ⟨w, tr, hx, hquiet _ _ _ _ _ hrel⟩

theorem obeys_loadScript (cfg : Settings) :
    Obeys host.system (host.keeps cfg) (host.Boots cfg (Begins host.crates host.path))
      host.crates.loadScript.run
      (Preparing host cfg fun _ => host.Boots cfg (Loaded host)) := by
  have hbegins := stable_matched (closed_serving host cfg) (absorbs_begins host)
  have hloaded := stable_matched (closed_serving host cfg) (absorbs_loaded host)
  refine obeys_preparing_bind (obeys_lift (fun _ => hbegins _) (obeys_quiet (absorbs_begins host)
    (fun _ _ _ _ h => h.toRemains) (fun _ _ _ _ _ h => ⟨h.toRemains.quiet rfl, h.reloaded⟩)
    fun _ _ _ h => h)) fun text => ?_
  cases hload : (⟨host.crates.compile, ""⟩ : ScriptLoader).load text with
  | error e => exact obeys_unprepared (absorbs_begins host) fun _ _ _ _ h => h.toRemains
  | ok script =>
    refine obeys_lift (fun _ => hloaded _) (obeys_call (hbegins _)
      (fun _ _ h => ⟨_, Matched.mono (fun _ _ _ _ h => h.toRemains) h⟩) ?_
      fun _ => obeys_ret (hloaded _) fun _ _ h => h)
    rintro w' tr' ⟨⟩ v' ⟨w, tr, hx, hrel⟩ ⟨hans, hkind⟩
    cases hans
    have hdrift : host.daemon.drifts w { w with script } :=
      ⟨⟨rfl, rfl, rfl, rfl, id, [], by simp⟩, .inl rfl⟩
    exact ⟨{ w with script }, tr, closed_serving host cfg _ _ hx (.drift hdrift),
      ⟨{ hrel.toRemains.quiet rfl with script := rfl }, hrel.reloaded⟩, ⟨text, hload⟩, hkind⟩

theorem obeys_spawnWatcher (cfg : Settings) (watch : Bool) :
    Obeys host.system (host.keeps cfg) (host.Boots cfg (Loaded host))
      (spawnWatcher watch).run
      (Preparing host cfg fun _ => host.Boots cfg (Loaded host)) := by
  have hloaded := stable_matched (closed_serving host cfg) (absorbs_loaded host)
  cases watch with
  | false => exact obeys_ret (hloaded _) fun _ _ h => h
  | true =>
    refine obeys_preparing_bind (obeys_lift (fun _ => hloaded _)
      (obeys_quiet (d := .spawnWatcher) (absorbs_loaded host) (fun _ _ _ _ h => h.toRemains)
        (fun _ _ _ _ _ h => ⟨⟨h.toRemains.quiet rfl, h.reloaded⟩, h.installed⟩)
        fun _ _ _ h => h)) ?_
    rintro (e | ⟨⟩)
    · exact obeys_unprepared (absorbs_loaded host) fun _ _ _ _ h => h.toRemains
    · exact obeys_ret (hloaded _) fun _ _ h => h

/-- A call of the store while it is opened. -/
theorem obeys_file {α : Type} {c : FileCall} {k : FileReply c → FileProgram α}
    {M : FileReply c → Assertion (SystemCall E) (SystemReply E) (SystemWorld E)}
    {Q : α → Assertion (SystemCall E) (SystemReply E) (SystemWorld E)}
    (hans : ∀ w' tr' r d, host.Boots cfg (Loaded host) w' tr' →
      Directory.Answers host.crates.codec host.path w'.directory c r d →
        M r { w' with directory := d } (.called w' (.file c) r :: tr'))
    (hk : ∀ r, Obeys host.system (host.keeps cfg) (M r) (onFile (k r)) Q) :
    Obeys host.system (host.keeps cfg) (host.Boots cfg (Loaded host))
      (onFile (.call c k)) Q := by
  refine obeys_call (stable_matched (closed_serving host cfg) (absorbs_loaded host) _)
    (fun _ _ h => ⟨_, Matched.mono (fun _ _ _ _ h => h.toRemains) h⟩) ?_ hk
  rintro w' tr' r v' h ⟨⟨d, hd, rfl⟩, -⟩
  exact hans w' tr' r d h hd

/-- What was read is what the daemon has read again. -/
theorem represents_of_loaded {w' : SystemWorld E}
    {tr' : Trace (SystemCall E) (SystemReply E) (SystemWorld E)} {w : World} {tr : History}
    (h : Loaded host w' tr' w tr) {s : State}
    (hload : host.crates.codec.load (w'.directory host.path) = .ok s) :
    Represents host ⟨⟨false⟩, ⟨host.path, s⟩⟩ w' tr' w tr where
  toRemains := h.toRemains
  installed := h.installed
  path := rfl
  memory := by
    have hdisk := reopens_iff.mp h.disk
    rw [hload] at hdisk
    exact (Except.ok.inj hdisk).trans h.reloaded.symm
  selected := by simp

/-- The store that is opened holds what the daemon has read again. -/
theorem obeys_openStore (cfg : Settings) :
    Obeys host.system (host.keeps cfg) (host.Boots cfg (Loaded host))
      (host.crates.openStore host.path).run
      (Preparing host cfg fun store =>
        host.Stands cfg ⟨⟨false⟩, store⟩ (Supervisor.run cfg)) := by
  have hloaded := stable_matched (closed_serving host cfg) (absorbs_loaded host)
  have hstands := fun store => stable_stands host cfg ⟨⟨false⟩, store⟩ (Supervisor.run cfg)
  -- a store that is opened stands for the daemon; if it is not, the daemon stays at its start
  let Opened : Except StateError StateStore →
      Assertion (SystemCall E) (SystemReply E) (SystemWorld E) := fun
    | .ok store => host.Stands cfg ⟨⟨false⟩, store⟩ (Supervisor.run cfg)
    | .error _ => host.Boots cfg (Loaded host)
  have hstable : ∀ r, Stable host.system (Opened r) := by
    rintro (e | store)
    · exact hloaded _
    · exact hstands store
  refine obeys_preparing_bind (M := fun r => Opened r) (obeys_lift hstable ?_) ?_
  · rw [run_open]
    refine obeys_file (M := fun _ => host.Boots cfg (Loaded host)) ?_ ?_
    · rintro w' tr' r d ⟨w, tr, hx, hrel⟩ rfl
      exact ⟨w, tr, hx, ⟨hrel.toRemains.quiet rfl, hrel.reloaded⟩, hrel.installed⟩
    rintro (e | ⟨⟩)
    · exact obeys_ret (hloaded _) fun _ _ h => h
    refine obeys_file (c := .read host.path) (M := fun contents w' tr' =>
      ∃ r, afterRead host.crates.codec host.path contents = .ret r ∧ Opened r w' tr') ?_ ?_
    · rintro w' tr' contents d ⟨w, tr, hx, hrel⟩ hans
      have hread : Loaded host w'
          (.called w' (.file (.read host.path)) contents :: tr') w tr :=
        ⟨⟨hrel.toRemains.quiet rfl, hrel.reloaded⟩, hrel.installed⟩
      rcases contents with e | bytes
      · obtain ⟨hnone, rfl⟩ := hans
        cases e with
        | notFound =>
          -- a missing file stands for the default state
          refine ⟨_, rfl, w, tr, hx, represents_of_loaded hread ?_⟩
          rw [hnone rfl]
          rfl
        | interrupted => exact ⟨_, rfl, w, tr, hx, hread⟩
        | other message => exact ⟨_, rfl, w, tr, hx, hread⟩
      · obtain ⟨hsome, rfl⟩ := hans
        refine ⟨_, rfl, ?_⟩
        cases hload : host.crates.codec.load (some bytes) with
        | error e => exact ⟨w, tr, hx, hread⟩
        | ok s => exact ⟨w, tr, hx, represents_of_loaded hread (by rw [hsome, hload])⟩
    · rintro contents w' tr' ⟨r, hr, h⟩
      rw [hr]
      exact obeys_ret (hstable r) (fun _ _ h => h) w' tr' h
  · rintro (e | store)
    · exact obeys_unprepared (absorbs_loaded host) fun _ _ _ _ h => h.toRemains
    · exact obeys_ret (hstands store) fun _ _ h => h

theorem obeys_makeSmtp (smtp : SmtpConfig) :
    Obeys host.system (host.keeps cfg) (host.Stands cfg t (Supervisor.run cfg))
      (host.crates.makeSmtp smtp).run
      (Preparing host cfg fun _ => host.Stands cfg t (Supervisor.run cfg)) := by
  have hstands := stable_stands host cfg t (Supervisor.run cfg)
  refine obeys_preparing_bind (M := fun _ => host.Stands cfg t (Supervisor.run cfg))
    (obeys_lift (fun _ => hstands) ?_) ?_
  · unfold resolveSecret
    split
    · exact obeys_ret hstands fun _ _ h => h
    · split
      · next command _ =>
        refine obeys_bind (obeys_quiet (d := .output command) (absorbs_represents host t)
          (fun _ _ _ _ h => h.toRemains) (fun _ _ _ _ _ h => h.quiet rfl) fun _ _ _ h => h)
          fun r => obeys_ret hstands fun _ _ h => h
      · exact obeys_ret hstands fun _ _ h => h
  · rintro (e | password)
    · exact obeys_unprepared (absorbs_represents host t) fun _ _ _ _ h => h.toRemains
    · cases hrelay : host.crates.relay smtp password with
      | error e =>
        simp only [hrelay]
        exact obeys_unprepared (absorbs_represents host t) fun _ _ _ _ h => h.toRemains
      | ok u =>
        simp only [hrelay]
        exact obeys_ret hstands fun _ _ h => h

/-- What is prepared is the store that the daemon starts with. -/
theorem obeys_prepare (cfg : Setup) :
    Obeys host.system (host.keeps cfg.config.settings)
      (host.Boots cfg.config.settings (Begins host.crates host.path))
      (host.crates.prepare host.path cfg).run
      (Preparing host cfg.config.settings fun store =>
        host.Stands cfg.config.settings ⟨⟨false⟩, store⟩
          (Supervisor.run cfg.config.settings)) := by
  refine obeys_preparing_bind (obeys_loadScript _) fun _ => ?_
  refine obeys_preparing_bind (obeys_spawnWatcher _ cfg.watch) fun _ => ?_
  refine obeys_preparing_bind (obeys_openStore _) fun store => ?_
  refine obeys_preparing_bind (M := fun _ => host.Stands cfg.config.settings ⟨⟨false⟩, store⟩
    (Supervisor.run cfg.config.settings)) ?_ fun _ =>
      obeys_ret (stable_stands host _ _ _) fun _ _ h => h
  cases cfg.config.smtp with
  | none => exact obeys_ret (stable_stands host _ _ _) fun _ _ h => h
  | some smtp => exact obeys_makeSmtp smtp

theorem obeys_run (hcodec : host.crates.codec.ReadsBack) (cfg : Setup) :
    Obeys host.system (host.keeps cfg.config.settings)
      (host.Boots cfg.config.settings (Begins host.crates host.path))
      (host.crates.run host.path cfg) (host.Ends cfg.config.settings) := by
  refine obeys_bind (obeys_prepare cfg) fun result => ?_
  cases result with
  | error exit => exact obeys_ret (stable_ends host _ exit) fun _ _ h => h
  | ok store => exact obeys_supervise hcodec cfg store

/-! ## Section 3: Runs of the process -/

/-- After a loss the next process starts where the next daemon does. -/
theorem begins_restart {w' v' : SystemWorld E}
    {tr' : Trace (SystemCall E) (SystemReply E) (SystemWorld E)} (cfg' : Settings)
    (h : Somewhere (host.Serving cfg) (Remains host.crates host.path) w' tr')
    (hlost : host.system.restarts w' v') :
    host.Boots cfg' (Begins host.crates host.path) v' (.restarted w' :: tr') := by
  obtain ⟨p, w, tr, hx, hremains⟩ := h
  obtain ⟨rfl, -⟩ := hlost
  have hrestart : host.daemon.restarts w w.restart := ⟨rfl, trivial⟩
  exact ⟨w.restart, _, Lives.restart cfg' hx hrestart,
    { hremains with permit := rfl, issued := hremains.issued }, rfl⟩

section Runs

variable {w₀ : SystemWorld E} {cfg : Setup}
  {x : Config (SystemCall E) (SystemReply E) (SystemWorld E) Exit}

theorem somewhere_of_ends {exit : Exit} {w' : SystemWorld E}
    {tr' : Trace (SystemCall E) (SystemReply E) (SystemWorld E)}
    (h : host.Ends cfg.config.settings exit w' tr') :
    Somewhere (host.Serving cfg.config.settings) (Remains host.crates host.path) w' tr' := by
  cases h with
  | returned h => exact ⟨_, h⟩
  | unstarted h => exact ⟨_, h⟩

theorem lives_complies (hcodec : host.crates.codec.ReadsBack)
    (hstart : Begins host.crates host.path w₀ [] host.origin [])
    (hx : Lives host.system (host.crates.run host.path) w₀ cfg x) :
    (host.keeps cfg.config.settings).Complies (host.Ends cfg.config.settings) x :=
  Lives.recovers (fun cfg => obeys_run hcodec cfg)
    (fun _ _ _ _ => somewhere_of_ends)
    (fun cfg => ⟨host.origin, [], .start cfg.config.settings, hstart⟩)
    (fun _ cfg' _ _ _ h hlost => begins_restart cfg'.config.settings h hlost) hx

/-- There is a daemon somewhere that the process stands for. -/
theorem somewhere_of_lives (host : Host A E) (hcodec : host.crates.codec.ReadsBack)
    (hstart : Begins host.crates host.path w₀ [] host.origin [])
    (hx : Lives host.system (host.crates.run host.path) w₀ cfg x) :
    Somewhere (host.Serving cfg.config.settings) (Remains host.crates host.path)
      x.world x.trace := by
  have hcomplies := lives_complies hcodec hstart hx
  obtain ⟨p, w', tr'⟩ := x
  cases p with
  | ret exit => exact somewhere_of_ends hcomplies
  | call c k => exact hcomplies
  | iter body s k => exact hcomplies

/-- With whatever scripts, there is one next to others that change anything. -/
theorem anywhere_of_lives {crates : Crates A E} {path : String} {others : Server → Server → Prop}
    {origin : World} (hcodec : crates.codec.ReadsBack) (hstart : Begins crates path w₀ [] origin [])
    (hx : Lives (systemWorld crates path others) (crates.run path) w₀ cfg x) :
    Somewhere ((Host.anywhere crates path others origin).Serving cfg.config.settings)
      (Remains crates path) x.world x.trace :=
  somewhere_of_lives (.anywhere crates path others origin) hcodec hstart
    (hx.within (within_anywhere crates path others origin))

end Runs

/-- The process refines the daemon. Wherever the process comes, being lost and started again any
number of times, there is a run of the daemon to a place that the process stands for: the server is
the same, and so is the mail that was sent; the state file stands for the state on disk; the
commands on the wire are commands of the daemon, in its order. When the process ends, the daemon
has ended with the result that the exit tells, or the process could not be set up. If the scripts
that are installed set proper flags, the daemon is next to the same others, and else to others that
may change anything. -/
theorem run_refines (host : Host A E) (hcodec : host.crates.codec.ReadsBack) {w₀ : SystemWorld E}
    (hstart : Begins host.crates host.path w₀ [] host.origin []) {cfg : Setup}
    {x : Config (SystemCall E) (SystemReply E) (SystemWorld E) Exit}
    (hx : Lives host.system (host.crates.run host.path) w₀ cfg x) :
    ∃ y, host.Serving cfg.config.settings y ∧
      Remains host.crates host.path x.world x.trace y.world y.trace ∧
      ∀ exit, x.prog = .ret exit →
        (∃ result, y.prog = .ret result ∧ exit = exitOf result) ∨
          y.prog = Supervisor.run cfg.config.settings ∧ ∃ context, exit = .failed context := by
  have hcomplies := lives_complies hcodec hstart hx
  obtain ⟨p, w', tr'⟩ := x
  cases p with
  | ret exit =>
    -- the daemon has ended, or it has not started
    cases hcomplies with
    | returned h =>
      obtain ⟨w, tr, hy, hremains⟩ := h
      refine ⟨_, hy, hremains, fun exit hexit => ?_⟩
      cases hexit
      exact .inl ⟨_, rfl, rfl⟩
    | unstarted h =>
      obtain ⟨w, tr, hy, hremains⟩ := h
      refine ⟨_, hy, hremains, fun exit hexit => ?_⟩
      cases hexit
      exact .inr ⟨rfl, _, rfl⟩
  | call c k =>
    obtain ⟨p, w, tr, hy, hremains⟩ := hcomplies
    exact ⟨_, hy, hremains, fun exit hexit => by cases hexit⟩
  | iter body s k =>
    obtain ⟨p, w, tr, hy, hremains⟩ := hcomplies
    exact ⟨_, hy, hremains, fun exit hexit => by cases hexit⟩

/-! ## Section 4: A run of the process -/

/-- The states of a process that processes its first message. -/
def sampleStates : List State :=
  [{ lastSeenUid := some 0 },
    { selectedMailbox := some "INBOX", uidvalidity := some 1, lastSeenUid := some 0,
      highestmodseq := some 2 },
    { selectedMailbox := some "INBOX", uidvalidity := some 1, lastSeenUid := some 1,
      highestmodseq := some 2 }]

/-- `engine.compile` on a script that discards, and on an empty one. -/
def sampleCompile (text : String) : Except SieveError CompiledScript :=
  if text = "discard;" then .ok ⟨⟨fun _ _ _ => .event .discard fun _ => .done⟩⟩
  else if text = "" then .ok ⟨⟨fun _ _ _ => .event (.keep [] 0) fun _ => .done⟩⟩
  else .error (.compile "not a sample")

def sampleCrates : Crates String (Option String × List String) where
  lettre := sampleLettre
  codec := jsonCodec sampleStates
  compile := sampleCompile
  relay _ _ := .ok ()

theorem sampleCrates_readsBack : sampleCrates.codec.ReadsBack :=
  jsonCodec_readsBack (by decide +kernel)

def sampleSetup : Setup where
  config :=
    { imap :=
        { host := "imap.example.org", port := 993, password := some "secret",
          passwordCommand := none }
      smtp := none }
  username := "me"

/-- One message is in `INBOX`, and the bookmark is 0. -/
def sampleSystem : SystemWorld (Option String × List String) where
  server := sampleServer 1
  selected := none
  outbox := []
  directory := emptyDirectory.set "state.json" (some (jsonText { lastSeenUid := some 0 }))
  handle := ⟨⟨fun _ _ _ => .done⟩⟩
  permit := false

/-- The world of the daemon for it. -/
def sampleOrigin : World :=
  { sampleWorld (sampleServer 1) .done with
    memory := { lastSeenUid := some 0 }
    disk := { lastSeenUid := some 0 } }

theorem sampleSystem_begins :
    Begins sampleCrates "state.json" sampleSystem [] sampleOrigin [] where
  server := rfl
  script := rfl
  permit := rfl
  sent := .nil
  disk := reopens_iff.mpr (by decide +kernel)
  issued := .slnil
  reloaded := rfl

/-- How FETCH shows the message. -/
def sampleView (m : StoredMessage) : FetchItem where
  uid := some m.uid
  body := some [72, 105]
  size := some 2
  flags := []
  envelope := some ⟨some [⟨some (Text.encode "sender".toList),
    some (Text.encode "example.org".toList)⟩], none⟩

/-- The first `n` steps of the process. -/
def sampleProcess (n : Nat) : Config (SystemCall (Option String × List String))
    (SystemReply (Option String × List String)) (SystemWorld (Option String × List String)) Exit :=
  play (SystemWorld.respond sampleCrates.codec "state.json" "discard;" ["IDLE"] sampleView) n
    ⟨sampleCrates.run "state.json" sampleSetup, sampleSystem, []⟩

theorem answers_sampleProcess (w : SystemWorld (Option String × List String))
    (c : SystemCall (Option String × List String)) :
    (systemWorld sampleCrates "state.json" fun _ _ => False).answers w c
      (w.respond sampleCrates.codec "state.json" "discard;" ["IDLE"] sampleView c).1
      (w.respond sampleCrates.codec "state.json" "discard;" ["IDLE"] sampleView c).2 :=
  SystemWorld.answers_respond _ _ _ _ _ w c

theorem reachable_sampleProcess (n : Nat) :
    Reachable (systemWorld sampleCrates "state.json" fun _ _ => False)
      (sampleCrates.run "state.json" sampleSetup) sampleSystem (sampleProcess n) :=
  Reachable.start.steps (steps_play_free answers_sampleProcess n _)

theorem lives_sampleProcess (n : Nat) :
    Lives (systemWorld sampleCrates "state.json" fun _ _ => False)
      (sampleCrates.run "state.json") sampleSystem sampleSetup (sampleProcess n) :=
  (reachable_sampleProcess n).lives

def sampleHost : Host String (Option String × List String) :=
  .careful sampleCrates "state.json" (fun _ _ => False) sampleOrigin

/-- A script that discards sets no flags. -/
theorem hygienic_discard :
    CompiledScript.Hygienic ⟨⟨fun _ _ _ => .event .discard fun _ => .done⟩⟩ := by
  intro context actions hactions action haction op flags hflags
  unfold evaluate at hactions
  split at hactions
  · cases hactions
  · cases hactions
    rw [List.mem_singleton.mp haction] at hflags
    cases hflags

/-- Whether a script is about to be installed. -/
def installing (x : Config (SystemCall (Option String × List String))
    (SystemReply (Option String × List String)) (SystemWorld (Option String × List String)) Exit) :
    Bool :=
  match x.prog with
  | .call (.install _) _ => true
  | _ => false

theorem admits_of_not_installing {kind : CompiledScript → Prop}
    {h : SystemWorld (Option String × List String) →
      (c : SystemCall (Option String × List String)) →
        SystemReply _ c × SystemWorld (Option String × List String)}
    {x : Config (SystemCall (Option String × List String))
      (SystemReply (Option String × List String)) (SystemWorld (Option String × List String)) Exit}
    (hx : installing x = false) : (installs kind).admits h x := by
  obtain ⟨p, w, tr⟩ := x
  cases p with
  | call c k =>
    cases c with
    | install script => cases hx
    | _ => trivial
  | _ => trivial

/-- The process installs a script that discards. -/
theorem lives_sampleHost :
    Lives sampleHost.system (sampleCrates.run "state.json") sampleSystem sampleSetup
      (sampleProcess 29) := by
  have hinstalling : ∀ i < 29, i ≠ 1 → installing (sampleProcess i) = false := by decide +kernel
  refine (Reachable.start.steps (steps_play answers_sampleProcess _ 29 _ ?_)).lives
  intro i hi
  by_cases h : i = 1
  · subst h
    exact hygienic_discard
  · exact admits_of_not_installing (hinstalling i hi h)

/-- The process has discarded its first message. -/
theorem run_refines_discard :
    ∃ y, sampleHost.Serving sampleSetup.config.settings y ∧
      Remains sampleCrates "state.json" (sampleProcess 29).world (sampleProcess 29).trace
        y.world y.trace ∧
      ∀ exit, (sampleProcess 29).prog = .ret exit →
        (∃ result, y.prog = .ret result ∧ exit = exitOf result) ∨
          y.prog = Supervisor.run sampleSetup.config.settings ∧
            ∃ context, exit = .failed context :=
  run_refines sampleHost sampleCrates_readsBack sampleSystem_begins lives_sampleHost

example : wireCommands (sampleProcess 29).trace = [.uidStore "1" "+FLAGS (\\Deleted)"] := by
  decide +kernel

end ImapSieve
