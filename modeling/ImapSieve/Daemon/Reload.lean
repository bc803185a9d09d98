import ImapSieve.Daemon.NewMail
import ImapSieve.Effects.Duo
import ImapSieve.Protocol.Supervision
import ImapSieve.ScriptLoader

/-!
# Batches and the Reloaded Script

The watcher thread may reload the script at any time, also between two messages of a batch.
The daemon looks at the handle once in a batch, after the FETCH, and evaluates all its
messages with what it found. What it finds was installed by the latest reload that succeeded,
and it compiled.
-/

namespace ImapSieve

open Effects

/-! ## Section 1: Attempts to reload -/

/-- Where the watcher is. -/
inductive Attempt where
  | waiting
  /-- A change of the script was received. -/
  | due
  /-- The script was read and compiled. -/
  | compiled (script : CompiledScript)
  | stored
  | failed (e : LoaderError)

def Attempt.next (l : ScriptLoader) (a : Attempt) (c : LoaderCall) (r : LoaderReply c) : Attempt :=
  match a with
  | .waiting =>
      match c, r with
      | .recv, some (.ok event) => if l.concerns event then .due else .waiting
      | _, _ => .waiting
  | .due =>
      match c, r with
      | .readToString _, text =>
          match l.compiled text with
          | .ok script => .compiled script
          | .error e => .failed e
      | _, _ => .due
  | .compiled _ => .stored
  | .stored => .waiting
  | .failed _ => .waiting

inductive Attempt.Allows (l : ScriptLoader) : Attempt → LoaderCall → Prop where
  | recv : Allows l .waiting .recv
  | read : Allows l .due (.readToString l.path)
  | store (script : CompiledScript) : Allows l (.compiled script) (.store script)
  | succeed : Allows l .stored (.report (.ok ()))
  | fail (e : LoaderError) : Allows l (.failed e) (.report (.error e))

def Attempt.Loops : Attempt → Prop
  | .waiting => True
  | _ => False

/-- The attempts as a monitor. -/
def attempting (l : ScriptLoader) : Monitor LoaderCall LoaderReply Loading Attempt where
  start := .waiting
  next a _ c r := a.next l c r
  allows := Attempt.Allows l
  loops := Attempt.Loops

/-- How a reload ends. -/
def ReloadOver : Except LoaderError Unit → Attempt → Prop
  | .ok (), a => a = .stored
  | .error e, a => a = .failed e

section Watcher

variable {S : Surroundings LoaderCall LoaderReply Loading} {l : ScriptLoader}

theorem walks_reload : (attempting l).Walks S .due l.reload.run ReloadOver := by
  rw [ScriptLoader.run_reload]
  refine Monitor.walks_call .read fun w text w' _ => ?_
  change (attempting l).Walks S (Attempt.next l .due (.readToString l.path) text) _ _
  simp only [Attempt.next]
  cases l.compiled text with
  | error e => exact Monitor.walks_ret rfl
  | ok script =>
    exact Monitor.walks_call (Attempt.Allows.store script) fun w r w' _ => Monitor.walks_ret rfl

/-- A received event, and what the watcher makes of it. -/
theorem walks_event (event : WatchEvent) :
    (attempting l).Walks S (if l.concerns event then .due else .waiting)
      (if l.concerns event then do
          let result ← l.reload.run
          (LoaderCall.report result).ask
          return .inl ()
        else return (.inl () : Unit ⊕ Unit)) fun next a => next = .inl () ∧ a = .waiting := by
  cases l.concerns event with
  | false => exact Monitor.walks_ret ⟨rfl, rfl⟩
  | true =>
    refine Monitor.walks_bind walks_reload ?_
    rintro (e | u) a rfl
    · exact Monitor.walks_call (Attempt.Allows.fail e) fun _ _ _ _ => Monitor.walks_ret ⟨rfl, rfl⟩
    · exact Monitor.walks_call Attempt.Allows.succeed fun _ _ _ _ => Monitor.walks_ret ⟨rfl, rfl⟩

theorem walks_watch : (attempting l).Walks S .waiting l.watch fun _ _ => True := by
  refine Monitor.walks_loop (I := fun _ a => a = .waiting) rfl ?_ ?_
  · rintro _ a rfl
    trivial
  · rintro _ a rfl
    refine Monitor.walks_call .recv fun w r w' _ => ?_
    rcases r with _ | e | event
    · exact Monitor.walks_ret trivial
    · exact Monitor.walks_ret rfl
    · refine (walks_event event).post ?_
      rintro _ a ⟨rfl, rfl⟩
      rfl

end Watcher

/-! ## Section 2: What reloads do to the handle -/

/-- The histories of the watcher. -/
abbrev LoaderHistory := Trace LoaderCall LoaderReply Loading

/-- The script in the handle when the watcher received its latest event. -/
def handleAtEvent : LoaderHistory → Option CompiledScript
  | [] => none
  | .restarted _ :: tr => handleAtEvent tr
  | .called w c _ :: tr =>
      match c with
      | .recv => some w.handle
      | _ => handleAtEvent tr

/-- A reload that has failed has changed nothing: the handle is as it was before. -/
def FailureKeeps (w : Loading) (c : LoaderCall) (_ : LoaderReply c) (before : LoaderHistory) :
    Prop :=
  ∀ e, c = .report (.error e) → handleAtEvent before = some w.handle

/-- The script is one that compiled. -/
def ScriptLoader.Compiles (l : ScriptLoader) (script : CompiledScript) : Prop :=
  ∃ text, l.compile text = .ok script

theorem compiles_of_compiled {l : ScriptLoader} {text : Except String String}
    {script : CompiledScript} (h : l.compiled text = .ok script) : l.Compiles script := by
  rcases text with e | text
  · cases h
  · cases hcompile : l.compile text with
    | error e => simp [ScriptLoader.compiled, hcompile] at h
    | ok script' =>
      simp only [ScriptLoader.compiled, hcompile, Except.ok.injEq] at h
      exact ⟨text, by rw [hcompile, h]⟩

/-- What is known while the watcher is at an attempt. -/
def Attempt.Sound (l : ScriptLoader) (w : Loading) (tr : LoaderHistory) : Attempt → Prop
  | .waiting | .stored => True
  | .due | .failed _ => handleAtEvent tr = some w.handle
  | .compiled script => handleAtEvent tr = some w.handle ∧ l.Compiles script

section Handle

variable {l : ScriptLoader} {w₀ w w' : Loading} {tr : LoaderHistory}

theorem Attempt.Sound.same {a : Attempt} (h : a.Sound l w tr) (hhandle : w'.handle = w.handle) :
    a.Sound l w' tr := by
  cases a <;> simp only [Attempt.Sound, hhandle] at h ⊢ <;> exact h

/-- What the watcher knows after a call, and what that call leaves in the handle. -/
theorem attempt_call {a : Attempt} {c : LoaderCall} {r : LoaderReply c} (hallow : a.Allows l c)
    (hans : w.Answers c r w') (h : a.Sound l w tr) (hhandle : l.Compiles w.handle) :
    (a.next l c r).Sound l w' (.called w c r :: tr) ∧ l.Compiles w'.handle := by
  cases hallow with
  | recv =>
    cases hans
    refine ⟨?_, hhandle⟩
    rcases r with _ | e | event
    · trivial
    · trivial
    · simp only [Attempt.next]
      split
      · rfl
      · trivial
  | read =>
    -- the text is compiled, and nothing is stored yet
    have hsame : w' = w := by
      rcases r with e | text
      · exact hans
      · exact hans.2
    subst hsame
    refine ⟨?_, hhandle⟩
    simp only [Attempt.next]
    cases hcompiled : l.compiled r with
    | error e => exact h
    | ok script => exact ⟨h, compiles_of_compiled hcompiled⟩
  | store script =>
    -- what is stored was compiled
    cases hans
    exact ⟨trivial, h.2⟩
  | succeed =>
    cases hans
    exact ⟨trivial, hhandle⟩
  | fail e =>
    cases hans
    exact ⟨trivial, hhandle⟩

theorem attempt_sound (hload : l.Compiles w₀.handle) (hx : Visits loaderWorld l.watch w₀ w tr) :
    ((attempting l).state tr).Sound l w tr ∧ l.Compiles w.handle := by
  refine hx.invariant
    (I := fun w tr => ((attempting l).state tr).Sound l w tr ∧ l.Compiles w.handle)
    (walks_watch (l := l)) rfl (fun _ _ _ _ => rfl) ⟨trivial, hload⟩ ?_ ?_ ?_
  · intro w tr c r w' _ h hallow hans
    exact attempt_call hallow hans h.1 h.2
  · intro w w' tr _ h hdrift
    have hhandle : w'.handle = w.handle := hdrift
    exact ⟨h.1.same hhandle, hhandle ▸ h.2⟩
  · intro w w' tr _ _ hr
    exact hr.elim

/-- Reloads that fail keep the handle. -/
theorem failure_keeps (hload : l.Compiles w₀.handle) (hx : Visits loaderWorld l.watch w₀ w tr) :
    Along FailureKeeps tr := by
  refine hx.invariant (I := fun _ tr => Along FailureKeeps tr)
    (walks_watch (l := l)) rfl (fun _ _ _ _ => rfl) along_nil ?_ (fun _ _ _ _ h _ => h) ?_
  · intro w tr c r w' hat h hallow hans
    refine along_called ?_ h
    rintro e rfl
    have hsound := (attempt_sound hload hat).1
    have hfailed : Attempt.Allows l ((attempting l).state tr) (.report (.error e)) := hallow
    generalize (attempting l).state tr = a at hsound hfailed
    cases hfailed with
    | fail e => exact hsound
  · intro w w' tr _ _ hr
    exact hr.elim

end Handle

/-! ## Section 3: The script of a batch -/

/-- The script of the batch that the daemon is in. -/
def Phase.script? : Phase → Option CompiledScript
  | .evaluating b _ _ _ | .executing b _ _ _ _ _ | .advancing b _ _ _ | .idling b _ _ =>
      some b.script
  | _ => none

@[simp] theorem script?_enter (b : Batch) (done rest : List MessageContext) :
    (Phase.enter b done rest).script? = some b.script := by
  cases rest <;> rfl

/-- How the script of the batch after a call comes about. -/
inductive Scripts (ph : Phase) : (c : Call) → Reply c → Option CompiledScript → Prop where
  | nothing {c : Call} {r : Reply c} : Scripts ph c r none
  | same {c : Call} {r : Reply c} (hfetch : c.isFetch = false) (htake : c ≠ .currentScript) :
      Scripts ph c r ph.script?
  | taken {f : Fetch} (script : CompiledScript) (h : ph = .fetched f) :
      Scripts ph .currentScript script (some script)

theorem scripts_next {cfg : Settings} {ph : Phase} {w : World} {c : Call} {r : Reply c}
    (hallow : ph.Allows cfg c) : Scripts ph c r (ph.next cfg w c r).script? := by
  have hmoves := moves_next (w := w) (r := r) hallow
  generalize ph.next cfg w c r = ph' at hmoves ⊢
  cases hmoves with
  | taken script =>
    rw [script?_enter]
    exact .taken script rfl
  | evaluated actions => exact .same rfl (by simp)
  | unevaluated e => exact .same rfl (by simp)
  | performed hnext =>
    refine .same (isFetch_of_nextCall hnext) ?_
    rintro rfl
    cases ofOp_of_nextCall hnext
  | executed => exact .same rfl (by simp)
  | unexecuted e => exact .same rfl (by simp)
  | advanced =>
    rw [script?_enter]
    exact .same rfl (by simp)
  | _ => exact .nothing

theorem enter_ne_fetched {b : Batch} {done rest : List MessageContext} {f : Fetch} :
    Phase.enter b done rest ≠ .fetched f := by
  cases rest <;> simp [Phase.enter]

/-- Nothing but an answered FETCH leads to where the script is taken. -/
theorem next_ne_fetched {cfg : Settings} {ph : Phase} {w : World} {c : Call} {r : Reply c}
    (hallow : ph.Allows cfg c) (hc : answersFetch (.called w c r) = false) (f : Fetch) :
    ph.next cfg w c r ≠ .fetched f := by
  have hmoves := moves_next (w := w) (r := r) hallow
  generalize ph.next cfg w c r = ph' at hmoves ⊢
  cases hmoves with
  | fetched reply => cases hc
  | taken script => exact enter_ne_fetched
  | advanced => exact enter_ne_fetched
  | _ => simp

/-- Messages that are evaluated without a FETCH between them are evaluated with one script. -/
def OneScript (tr : History) : Prop :=
  ∀ w₁ script₁ msg₁ r₁ w₂ script₂ msg₂ r₂ between before,
    .called w₂ (.evaluate script₂ msg₂) r₂ ::
      (between ++ .called w₁ (.evaluate script₁ msg₁) r₁ :: before) <:+ tr →
    (∀ e ∈ between, answersFetch e = false) → script₁ = script₂

section OneScript

variable {S : Surroundings Call Reply World} {cfg : Settings} {w₀ w : World} {tr : History}

/-- Every call of a run is allowed by its phase. -/
theorem allows_along (hx : Comes S cfg w₀ w tr) :
    Along (fun _ c _ before => (phaseOf cfg before).Allows cfg c) tr :=
  daemon_along hx fun _ _ _ _ _ _ hallow _ => hallow

/-- From an evaluation on, until the next FETCH, no other script is taken. -/
theorem script_since {w₁ : World} {script : CompiledScript} {msg : MessageContext}
    {r₁ : Except SieveError (List SieveAction)} {before : History}
    (hallow : Along (fun _ c _ before => (phaseOf cfg before).Allows cfg c) tr)
    (between : History) (hsuffix : between ++ .called w₁ (.evaluate script msg) r₁ :: before <:+ tr)
    (hbetween : ∀ e ∈ between, answersFetch e = false) :
    let ph := phaseOf cfg (between ++ .called w₁ (.evaluate script msg) r₁ :: before)
    (∀ f, ph ≠ .fetched f) ∧ ∀ script', ph.script? = some script' → script' = script := by
  induction between with
  | nil =>
    -- after the evaluation the batch still goes by its script
    have hnow := hallow w₁ (.evaluate script msg) r₁ before hsuffix
    refine ⟨next_ne_fetched hnow rfl, fun script' hscript => ?_⟩
    obtain ⟨b, done, rest, hph, rfl⟩ := evaluating_of_evaluate hnow
    simp only [List.nil_append, phaseOf_called, hph] at hscript
    rcases r₁ with e | actions <;> exact (Option.some.inj hscript).symm
  | cons e between ih =>
    obtain ⟨hnot, hscript⟩ := ih ((List.suffix_cons _ _).trans hsuffix)
      fun e he => hbetween e (List.mem_cons_of_mem _ he)
    cases e with
    | restarted w => exact ⟨fun f => by simp, fun script' h => by cases h⟩
    | called w c r =>
      -- only an answered FETCH leads to where another script could be taken
      have hnow := hallow w c r _ hsuffix
      refine ⟨next_ne_fetched hnow (hbetween _ List.mem_cons_self), fun script' h => ?_⟩
      rw [List.cons_append, phaseOf_called] at h
      have hscripts := scripts_next (w := w) (r := r) hnow
      generalize Phase.script? (Phase.next _ _ _ _ _) = new at h hscripts
      cases hscripts with
      | nothing => cases h
      | same => exact hscript script' h
      | taken _ hph => exact absurd hph (hnot _)

theorem oneScript_of_comes (hx : Comes S cfg w₀ w tr) : OneScript tr := by
  intro w₁ script₁ msg₁ r₁ w₂ script₂ msg₂ r₂ between before hsuffix hbetween
  have hallow := allows_along hx
  have hsince := (script_since hallow between ((List.suffix_cons _ _).trans hsuffix) hbetween).2
  obtain ⟨b, done, rest, hph, rfl⟩ := evaluating_of_evaluate (hallow w₂ _ r₂ _ hsuffix)
  exact (hsince b.script (by rw [hph]; rfl)).symm

end OneScript

/-! ## Section 4: The daemon beside the watcher -/

/-- The daemon and the watcher. -/
abbrev Reloading :=
  Duo Call Reply World (Except CoreError Unit) LoaderCall LoaderReply Loading Unit

/-- The calls of both. -/
abbrev ReloadLog := Log Call Reply World LoaderCall LoaderReply Loading

/-- The daemon sees the handle. -/
def Loading.see (l : Loading) (w : World) : World := { w with script := l.handle }

/-- The daemon's world, where nobody but the watcher changes the script. -/
def heldWorld : Surroundings Call Reply World :=
  daemonWorld.under { drift := fun w w' => w'.script = w.script }

/-- The script of the latest reload that succeeded, or else the one loaded at the start. -/
def installed (initial : CompiledScript) : ReloadLog → CompiledScript
  | [] => initial
  | .inl _ :: log => installed initial log
  | .inr (.restarted _) :: log => installed initial log
  | .inr (.called _ c _) :: log =>
      match c with
      | .store script => script
      | _ => installed initial log

/-- The entry starts a batch, or takes the script of one. -/
def beginsBatch : Entry Call Reply World → Bool
  | .called _ (.fetchUidRange _ _ _) _ | .called _ .currentScript _ => true
  | _ => false

/-- The script was taken in the batch in progress, and at that moment it was the one installed
by the latest reload. -/
def TakenInstalled (initial script : CompiledScript) (log : ReloadLog) : Prop :=
  ∃ since w before, log = since ++ .inl (.called w .currentScript script) :: before ∧
    (∀ e, .inl e ∈ since → beginsBatch e = false) ∧ installed initial before = script

/-- Every message is evaluated with a script that was the installed one when it was taken. -/
def EvaluatesInstalled (initial : CompiledScript) (log : ReloadLog) : Prop :=
  ∀ w script msg r before, .inl (.called w (.evaluate script msg) r) :: before <:+ log →
    TakenInstalled initial script before

/-- The daemon never touches the script. -/
theorem World.Answers.script {w w' : World} {c : Call} {r : Reply c} (h : w.Answers c r w') :
    w'.script = w.script := by
  cases h.writes with
  | _ => rfl

section Duo

variable {cfg : Settings} {l : ScriptLoader} {w₀ : World} {start : Loading} {d : Reloading}

/-- Runs of the daemon beside the watcher, from the script loaded at the start. -/
abbrev Watched (cfg : Settings) (l : ScriptLoader) (w₀ : World) (start : Loading) :
    Reloading → Prop :=
  Duo.Runs heldWorld loaderWorld Loading.see (Supervisor.run cfg) l.watch w₀ start

/-- For the daemon alone a reload is a change that comes from outside. -/
theorem drifts_see (w : World) (l : Loading) : daemonWorld.drifts w (l.see w) :=
  ⟨rfl, rfl, rfl, rfl, id, [], by simp [Loading.see]⟩

theorem watched_main (hd : Watched cfg l w₀ start d) :
    Reachable daemonWorld (Supervisor.run cfg) (start.see w₀) d.main :=
  hd.reachable_main (fun h => h.of_under) drifts_see

/-- The handle that the daemon sees holds what was installed. -/
theorem installed_of_watched (hd : Watched cfg l w₀ start d) :
    installed start.handle d.log = d.side.world.handle ∧
      d.main.world.script = d.side.world.handle := by
  refine hd.invariant (I := fun w _ w' _ log =>
    installed start.handle log = w'.handle ∧ w.script = w'.handle) ⟨rfl, rfl⟩ ?_ ?_ ?_ ?_
  -- the daemon only reads the handle
  · rintro d c k r w - - hans ⟨hinstalled, hseen⟩
    exact ⟨hinstalled, hans.1.script.trans hseen⟩
  · rintro w w₁ tr w' tr' log hdrift ⟨hinstalled, hseen⟩
    exact ⟨hinstalled, hdrift.2.trans hseen⟩
  -- the watcher installs what it stores
  · rintro w tr w' tr' log c r w₁' hans ⟨hinstalled, -⟩
    refine ⟨?_, rfl⟩
    cases c with
    | store script => cases hans; rfl
    | recv => cases hans; exact hinstalled
    | readToString path =>
      rcases r with e | text
      · cases hans; exact hinstalled
      · obtain ⟨-, rfl⟩ := hans; exact hinstalled
    | report result => cases hans; exact hinstalled
  · rintro w tr w' tr' log w₁' hquiet ⟨hinstalled, -⟩
    refine ⟨hinstalled.trans ?_, rfl⟩
    rcases hquiet with rfl | hdrift
    · rfl
    · exact hdrift.symm

/-- Calls of the watcher, and calls of the daemon within the batch, come after the script was
taken. -/
theorem TakenInstalled.cons {initial script : CompiledScript} {log : ReloadLog}
    (h : TakenInstalled initial script log)
    {e : Entry Call Reply World ⊕ Entry LoaderCall LoaderReply Loading}
    (he : ∀ e', e = .inl e' → beginsBatch e' = false) :
    TakenInstalled initial script (e :: log) := by
  obtain ⟨since, w, before, rfl, hsince, hinstalled⟩ := h
  refine ⟨e :: since, w, before, rfl, fun e' hmem => ?_, hinstalled⟩
  rcases List.mem_cons.mp hmem with rfl | hold
  · exact he e' rfl
  · exact hsince e' hold

/-- The batch in progress goes by a script that was the installed one when it was taken. -/
theorem taken_of_watched (hd : Watched cfg l w₀ start d) {script : CompiledScript}
    (hscript : (phaseOf cfg d.main.trace).script? = some script) :
    TakenInstalled start.handle script d.log := by
  refine hd.invariant (I := fun _ tr _ _ log => ∀ script,
    (phaseOf cfg tr).script? = some script → TakenInstalled start.handle script log)
    ?_ ?_ (fun _ _ _ _ _ _ _ h => h) ?_ (fun _ _ _ _ _ _ _ h => h) script hscript
  · intro script hscript
    cases hscript
  · intro d c k r w hd hprog hans h script hscript
    have hscripts := scripts_next (w := d.main.world) (r := r)
      (allows_of_call admissible_daemonWorld (watched_main hd) hprog).1
    rw [phaseOf_called] at hscript
    generalize Phase.script? (Phase.next _ _ _ _ _) = new at hscript hscripts
    cases hscripts with
    | nothing => cases hscript
    | same hfetch htake =>
      -- the same batch goes on
      refine (h script hscript).cons ?_
      rintro e' ⟨⟩
      cases c with
      | fetchUidRange mailbox start since => cases hfetch
      | currentScript => exact absurd rfl htake
      | _ => rfl
    | taken script' hph =>
      -- the script is taken now: it is the one in the handle
      cases hscript
      obtain ⟨hinstalled, hseen⟩ := installed_of_watched hd
      refine ⟨[], d.main.world, d.log, rfl, fun e hmem => (by cases hmem), ?_⟩
      exact hinstalled.trans (hseen.symm.trans hans.1.1.symm)
  · intro w tr w' tr' log c r w₁' _ h script hscript
    exact (h script hscript).cons (by rintro e' ⟨⟩)

theorem evaluates_of_watched (hd : Watched cfg l w₀ start d) :
    EvaluatesInstalled start.handle d.log := by
  -- the latest entry is an evaluation, or the old ones are to be looked at
  have hold : ∀ {e log}, EvaluatesInstalled start.handle log →
      (∀ w script msg r, e = .inl (.called w (.evaluate script msg) r) →
        TakenInstalled start.handle script log) → EvaluatesInstalled start.handle (e :: log) := by
    intro e log h hnow w script msg r before hsuffix
    rcases List.suffix_cons_iff.mp hsuffix with heq | hsuffix
    · cases heq
      exact hnow w script msg r rfl
    · exact h w script msg r before hsuffix
  refine hd.invariant (I := fun _ _ _ _ log => EvaluatesInstalled start.handle log)
    ?_ ?_ (fun _ _ _ _ _ _ _ h => h) ?_ (fun _ _ _ _ _ _ _ h => h)
  · intro w script msg r before hsuffix
    cases List.suffix_nil.mp hsuffix
  · intro d c k r w hd hprog _ h
    refine hold h ?_
    rintro w script msg r ⟨⟩
    -- the script is that of the batch, which was taken from the handle
    have hallow := (allows_of_call admissible_daemonWorld (watched_main hd) hprog).1
    obtain ⟨b, done, rest, hph, rfl⟩ := evaluating_of_evaluate hallow
    exact taken_of_watched hd (by rw [hph]; rfl)
  · intro w tr w' tr' log c r w₁' _ h
    exact hold h (by rintro w script msg r ⟨⟩)

/-- Batches under hot reload. In every interleaving of the daemon with the watcher and with
changes of the script file, from a script that was loaded at the start: messages of one batch
are evaluated with one script; it was the one installed by the latest reload that succeeded, or
loaded at the start, at the moment the batch took it; a reload that fails leaves the handle as
it was; and the handle, which holds what was installed last, holds a script that compiled. -/
theorem batches_on_installed_script (cfg : Settings) (l : ScriptLoader) (w₀ : World)
    (text : Except String String) (start : Loading) (hload : l.load text = .ok start.handle)
    (d : Reloading) (hd : Watched cfg l w₀ start d) :
    OneScript d.main.trace ∧ EvaluatesInstalled start.handle d.log ∧
      Along FailureKeeps d.side.trace ∧
      d.main.world.script = installed start.handle d.log ∧ l.Compiles d.main.world.script := by
  have hcompiles := compiles_of_compiled hload
  obtain ⟨hinstalled, hseen⟩ := installed_of_watched hd
  have hside := hd.reachable_side.visits
  refine ⟨oneScript_of_comes (watched_main hd).visits, evaluates_of_watched hd,
    failure_keeps hcompiles hside, hseen.trans hinstalled.symm, ?_⟩
  rw [hseen]
  exact (attempt_sound hcompiles hside).2

end Duo

/-! ## Section 5: A reload between two messages -/

/-- A loader that knows two scripts. -/
def sampleLoader : ScriptLoader where
  compile text :=
    if text = "keep;" then .ok ⟨⟨fun _ _ _ => .done⟩⟩
    else if text = "discard;" then .ok ⟨⟨fun _ _ _ => .event .discard fun _ => .done⟩⟩
    else .error (.compile "unknown command")
  path := "rules.sieve"

/-- A player that reports a change of the script at every turn. -/
def Loading.respond (w : Loading) : (c : LoaderCall) → LoaderReply c × Loading
  | .recv => (some (.ok ⟨.modify, ["rules.sieve"]⟩), w)
  | .readToString _ =>
      match w.file with
      | some text => (.ok text, w)
      | none => (.error "not found", w)
  | .store script => ((), { w with handle := script })
  | .report _ => ((), w)

theorem answers_loading (w : Loading) (c : LoaderCall) :
    w.Answers c (w.respond c).1 (w.respond c).2 := by
  cases c with
  | readToString path =>
    cases hfile : w.file <;> simp [Loading.respond, Loading.Answers, hfile]
  | _ => rfl

/-- The daemon has processed nothing yet, and two messages are in the mailbox. -/
def waitingWorld : World :=
  { sampleWorld (sampleServer 2) .done with
    memory := { uidvalidity := some 1, lastSeenUid := some 0 }
    disk := { uidvalidity := some 1, lastSeenUid := some 0 } }

/-- The script file holds `keep`, which is loaded. -/
def keepLoaded : Loading := ⟨some "keep;", ⟨⟨fun _ _ _ => .done⟩⟩⟩

/-- The daemon has evaluated and executed the first message of the batch. -/
def firstEvaluated : Reloading :=
  Duo.playMain (World.respond { idle := true }) 13
    ⟨⟨Supervisor.run (sampleSettings 10), keepLoaded.see waitingWorld, []⟩,
      ⟨sampleLoader.watch, keepLoaded, []⟩, []⟩

/-- The script is changed to `discard` and reloaded, and the daemon makes `n` more steps. -/
def reloadedRun (n : Nat) : Reloading :=
  let x := firstEvaluated.main
  let z := firstEvaluated.side
  let changed : Loading := { z.world with file := some "discard;" }
  let d := Duo.playSide Loading.see Loading.respond 5
    ⟨⟨x.prog, changed.see x.world, x.trace⟩, ⟨z.prog, changed, z.trace⟩, firstEvaluated.log⟩
  d.playMain (World.respond { idle := true }) n

theorem watched_reloadedRun (n : Nat) :
    Watched (sampleSettings 10) sampleLoader waitingWorld keepLoaded (reloadedRun n) := by
  have hmain : ∀ w c, heldWorld.answers w c (World.respond { idle := true } w c).1
      (World.respond { idle := true } w c).2 := fun w c => ⟨answers_respond _ w c, trivial⟩
  have hfirst : Watched (sampleSettings 10) sampleLoader waitingWorld keepLoaded firstEvaluated :=
    Duo.Runs.start.playMain hmain 13
  have hdrift : loaderWorld.drifts firstEvaluated.side.world
      { firstEvaluated.side.world with file := some "discard;" } := rfl
  exact ((hfirst.step (.side (.drift hdrift))).playSide answers_loading 5).playMain hmain n

/-- The second message is evaluated with the script of the first one, although `discard` is
installed by then. -/
theorem batches_on_installed_script_reloaded :
    (evaluatedUids (reloadedRun 4).main.trace = [2, 1] ∧
      evaluate (reloadedRun 4).main.world.script
        (StoredMessage.toContext ⟨1, 1, [], sampleContent⟩) = .ok [.discard]) ∧
      OneScript (reloadedRun 4).main.trace :=
  ⟨⟨by decide, by decide⟩, (batches_on_installed_script (sampleSettings 10) sampleLoader
    waitingWorld (.ok "keep;") keepLoaded rfl _ (watched_reloadedRun 4)).1⟩

end ImapSieve
