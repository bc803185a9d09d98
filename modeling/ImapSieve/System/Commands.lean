import ImapSieve.System.Refinement

/-!
# The Other Commands

`daemon::status`, `daemon::check` and `daemon::test_rule`, after `Config::load`. They return what
they print.

- `status` prints the state that the daemon would resume from, and it never goes back
  (`status_grows`).
- `check` accepts the scripts that the daemon would start with (`check_ok_iff`).
- `test_rule` runs the script without an envelope. It predicts what the daemon does with a message
  if and only if the message has no sender and no recipients (`testRule_predicts_iff`).
-/

namespace ImapSieve

open Effects Text

/-! ## Section 1: `status` -/

/-- `u.to_string()`, or `"n/a"` -/
def orNotAvailable : Option Nat → String
  | some u => toString u
  | none => "n/a"

/-- The lines that `status` prints. -/
def State.report (s : State) (configPath path mailbox : String) : List String :=
  ["config:     " ++ configPath, "state:      " ++ path, "mailbox:    " ++ mailbox,
    "uidvalidity:" ++ orNotAvailable s.uidvalidity, "last_uid:   " ++ orNotAvailable s.lastSeenUid]

/-- `daemon::status` -/
def status (codec : StateCodec) (configPath path mailbox : String) : Persistent (List String) := do
  let store ← StateStore.open codec path
  return store.state.report configPath path mailbox

/-- `status` returns, and unless a call of `StateStore::open` fails, it reports the state `s`. -/
def Reports (codec : StateCodec) (configPath path mailbox : String) (d : Directory) (s : State) :
    Prop :=
  (∃ r d' tr, Steps (openable codec path) ⟨(status codec configPath path mailbox).run, d, []⟩
    ⟨.ret r, d', tr⟩) ∧
  ∀ r d' tr, Steps (openable codec path) ⟨(status codec configPath path mailbox).run, d, []⟩
    ⟨.ret r, d', tr⟩ → r = .ok (s.report configPath path mailbox)

/-- `status` reports what the store reopens with. -/
theorem reports_of_reopens {codec : StateCodec} {path : String} {d : Directory} {s : State}
    (h : Reopens codec path d s) (configPath mailbox : String) :
    Reports codec configPath path mailbox d s := by
  obtain ⟨⟨opened, d₁, tr₁, hopen⟩, hall⟩ := h
  rw [Reports, status, ExceptT.run_bind]
  constructor
  · obtain rfl := hall opened d₁ tr₁ hopen
    exact ⟨_, d₁, tr₁, hopen.bind _⟩
  · intro r d' tr hsteps
    obtain ⟨opened', d₂, tr₂, hopen', hrest⟩ := steps_bind_ret hsteps
    obtain rfl := hall opened' d₂ tr₂ hopen'
    exact Prog.ret.inj (steps_ret (P := fun _ _ => True) trivial (stable_openable _) hrest).1

section Grows

variable {A E : Type} {host : Host A E} {cfg : Settings}
  {x : Config Call Reply World (Except CoreError Unit)}

/-- The state of the daemon grows over all its lives, and its file stays behind its memory. -/
theorem origin_extends (hloaded : host.origin.memory = host.origin.disk)
    (hx : host.Serving cfg x) :
    host.origin.disk.Extends x.world.disk ∧ x.world.disk.Extends x.world.memory := by
  refine serves_invariant (I := fun _ w _ =>
    host.origin.disk.Extends w.disk ∧ w.disk.Extends w.memory) hx ?_ ?_ ?_ ?_
  · intro cfg
    rw [hloaded]
    exact ⟨.refl _, .refl _⟩
  · intro cfg p w tr c r w' hat h hallow hans
    have hgrows := grows_call (serves_sound (admissible_under _) hat) hallow hans.1 h.2
    exact ⟨h.1.trans hgrows.disk, hgrows.behind⟩
  · intro cfg w w' tr h hdrift
    rw [hdrift.1.disk, hdrift.1.memory]
    exact h
  · rintro cfg cfg' w w' tr h ⟨rfl, -⟩
    exact ⟨h.1, .refl _⟩

/-- The state file stands for a state that has grown since the start. -/
def Grown (codec : StateCodec) (path : String) (start : State) (d : Directory) : Prop :=
  ∃ s, Reopens codec path d s ∧ start.Extends s

variable {crates : Crates A E} {path : String} {others : Server → Server → Prop} {origin : World}
  {w₀ : SystemWorld E} {setup : Setup}
  {y : Config (SystemCall E) (SystemReply E) (SystemWorld E) Exit}

/-- For the state file it does not matter what others do to the server. -/
theorem grown_of_lives (hcodec : crates.codec.ReadsBack)
    (hstart : Begins crates path w₀ [] origin [])
    (hy : Lives (systemWorld crates path others) (crates.run path) w₀ setup y) :
    Grown crates.codec path origin.disk y.world.directory := by
  obtain ⟨p, w, tr, hx, hremains⟩ := anywhere_of_lives hcodec hstart hy
  exact ⟨w.disk, hremains.disk, (origin_extends hstart.reloaded hx).1⟩

end Grows

/-- Whenever `status` is run, whatever has become of the process since it was first started, it
reports the state that the process would resume from. The UIDVALIDITY is still the one that was
set, and the bookmark has not gone back. -/
theorem status_grows {A E : Type} (crates : Crates A E) (path : String)
    (others : Server → Server → Prop) (hcodec : crates.codec.ReadsBack) {w₀ : SystemWorld E}
    {origin : World} (hstart : Begins crates path w₀ [] origin []) {cfg : Setup}
    {x : Config (SystemCall E) (SystemReply E) (SystemWorld E) Exit}
    (hx : Lives (systemWorld crates path others) (crates.run path) w₀ cfg x)
    (configPath mailbox : String) :
    ∃ s, Reports crates.codec configPath path mailbox x.world.directory s ∧
      Reopens crates.codec path x.world.directory s ∧ origin.disk.Extends s := by
  obtain ⟨s, hreopens, hgrown⟩ := grown_of_lives hcodec hstart hx
  exact ⟨s, reports_of_reopens hreopens configPath mailbox, hreopens, hgrown⟩

/-- The process has processed its first message. -/
theorem status_grows_processed :
    ∃ s, Reports sampleCrates.codec "config.toml" "state.json" "INBOX"
        (sampleProcess 60).world.directory s ∧
      Reopens sampleCrates.codec "state.json" (sampleProcess 60).world.directory s ∧
      sampleOrigin.disk.Extends s :=
  status_grows sampleCrates "state.json" _ sampleCrates_readsBack sampleSystem_begins
    (lives_sampleProcess 60) "config.toml" "INBOX"

/-! ## Section 2: `check` -/

/-- `daemon::check`, given what reading the script gave -/
def Crates.check {A E : Type} (crates : Crates A E) (scriptPath : String) :
    Except String String → Except String String
  | .error _ => .error "reading sieve script"
  | .ok text =>
      match crates.compile text with
      | .error _ => .error "compiling sieve script"
      | .ok _ => .ok ("OK: sieve script at " ++ scriptPath ++ " compiled cleanly")

/-- A script passes the check if and only if the daemon starts with it. -/
theorem check_ok_iff {A E : Type} (crates : Crates A E) (scriptPath : String)
    (text : Except String String) :
    (∃ line, crates.check scriptPath text = .ok line) ↔
      ∃ script, (⟨crates.compile, ""⟩ : ScriptLoader).load text = .ok script := by
  cases text with
  | error e => simp [Crates.check, ScriptLoader.load, ScriptLoader.compiled]
  | ok text =>
    cases hcompile : crates.compile text with
    | error e => simp [Crates.check, ScriptLoader.load, ScriptLoader.compiled, hcompile]
    | ok script => simp [Crates.check, ScriptLoader.load, ScriptLoader.compiled, hcompile]

/-! ## Section 3: `test_rule` -/

/-- The message that a rule is tested on. -/
def testContext (raw : List UInt8) : MessageContext where
  uid := 0
  mailbox := "test"
  headers := parseHeaders raw
  envelopeFrom := none
  envelopeTo := []
  raw := some raw
  flags := []
  size := 0

/-- `daemon::test_rule`, given what reading the script and the message gave. The actions are what
is printed. -/
def Crates.testRule {A E : Type} (crates : Crates A E) (scriptText : Except String String)
    (raw : Except String (List UInt8)) : Except String (List SieveAction) := do
  let text ← scriptText
  let compiled ← (crates.compile text).mapError SieveError.display
  let raw ← raw
  (evaluate compiled (testContext raw)).mapError SieveError.display

/-- The Return-Path of the message, without its brackets, if it is there and not empty. -/
def returnPath (raw : List UInt8) : Option String :=
  (((parseHeaders raw).lookup "return-path").map fun s =>
    String.ofList (stripBrackets s.toList)).filter fun s => s ≠ ""

/-- A script that discards what has no envelope. -/
def envelopeScript : CompiledScript :=
  ⟨⟨fun _ sender to' => if sender = none ∧ to' = [] then .event .discard fun _ => .done else .done⟩⟩

theorem evaluate_envelopeScript {msg : MessageContext} {raw : List UInt8}
    (hraw : msg.raw = some raw) :
    evaluate envelopeScript msg = .ok [.discard] ↔
      msg.envelopeFrom = none ∧ msg.envelopeTo = [] := by
  by_cases h : msg.envelopeFrom = none ∧ msg.envelopeTo = []
  · simp [evaluate, hraw, envelopeScript, h, collect, handleEvent, implicitKeep, inferCopy,
      SieveAction.isDisposition, SieveAction.isFileInto]
  · simp [evaluate, hraw, envelopeScript, h, collect, implicitKeep, inferCopy,
      SieveAction.isDisposition, SieveAction.isFileInto]

/-- The sender is missing if the Return-Path says nothing and the ENVELOPE has none. -/
theorem envelopeFrom_eq_none_iff (item : FetchItem) (raw : List UInt8) :
    ({ item with body := some raw } : FetchItem).toContext.envelopeFrom = none ↔
      returnPath raw = none ∧ item.fromAddresses = [] := by
  change ((returnPath raw).or (item.envelope.bind fun env => env.«from».bind fun addrs =>
    addrs.head?.map addrToString)) = none ↔ _
  rw [Option.or_eq_none_iff, FetchItem.fromAddresses]
  refine and_congr_right fun _ => ?_
  cases item.envelope with
  | none => simp
  | some env => cases henv : env.«from» <;> simp [henv]

theorem testRule_of_compile {A E : Type} {crates : Crates A E} {text : String}
    {script : CompiledScript} (h : crates.compile text = .ok script) (raw : List UInt8) :
    crates.testRule (.ok text) (.ok raw) =
      (evaluate script (testContext raw)).mapError SieveError.display := by
  change ((crates.compile text).mapError SieveError.display >>= fun compiled =>
    (evaluate compiled (testContext raw)).mapError SieveError.display) = _
  rw [h]
  rfl

/-- `test_rule` predicts what every script does with a message that the daemon fetches if and only
if the message has neither Return-Path nor sender nor recipients. -/
theorem testRule_predicts_iff {A E : Type} (crates : Crates A E) (item : FetchItem)
    (raw : List UInt8) :
    (∀ compile text script, compile text = .ok script →
      ({ crates with compile } : Crates A E).testRule (.ok text) (.ok raw) =
        (evaluate script ({ item with body := some raw } : FetchItem).toContext).mapError
          SieveError.display) ↔
      returnPath raw = none ∧ item.fromAddresses = [] ∧ item.envelopeTo = [] := by
  rw [← and_assoc, ← envelopeFrom_eq_none_iff]
  set msg := ({ item with body := some raw } : FetchItem).toContext with hmsg
  have hraw : msg.raw = some raw := rfl
  constructor
  · intro h
    have htest : evaluate envelopeScript (testContext raw) = .ok [.discard] :=
      (evaluate_envelopeScript rfl).mpr ⟨rfl, rfl⟩
    have hsame := h (fun _ => .ok envelopeScript) "" envelopeScript rfl
    rw [testRule_of_compile rfl, htest] at hsame
    refine (evaluate_envelopeScript hraw).mp ?_
    cases hresult : evaluate envelopeScript msg with
    | error e =>
      rw [hresult] at hsame
      cases hsame
    | ok actions =>
      rw [hresult] at hsame
      exact congrArg _ (Except.ok.inj hsame).symm
  · -- a script sees nothing of a message but its text and its envelope
    rintro ⟨hfrom, hto⟩ compile text script hcompile
    have hto' : msg.envelopeTo = [] := hto
    rw [testRule_of_compile hcompile]
    simp only [evaluate, hraw, hfrom, hto', testContext]

end ImapSieve
