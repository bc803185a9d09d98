import ImapSieve.System.Calls
import ImapSieve.System.Refinement

/-!
# How the Process Ends

`main` turns every error into the exit code 1. The supervisor survives all errors but a changed
UIDVALIDITY, which has an exit code of its own, so 1 means that the process could not be set up:
it has not asked for anything over the network (`failed_unconnected`).
-/

namespace ImapSieve

open Effects

variable {A E : Type} {S : Surroundings (SystemCall E) (SystemReply E) (SystemWorld E)}
  {α β : Type}

/-! ## Section 1: Preparations -/

/-- The call goes over the network, to the mail server or to the relay. -/
def SystemCall.isRemote : SystemCall E → Bool
  | .net _ | .sendRaw _ _ => true
  | _ => false

/-- Nothing goes over the network before the supervisor runs. -/
theorem makes_prepare (crates : Crates A E) (path : String) (cfg : Setup) :
    Makes S (fun c => c.isRemote = false) (crates.prepare path cfg).run := by
  refine makes_bindExcept (makes_loadScript crates rfl fun _ => rfl) fun _ => ?_
  refine makes_bindExcept (makes_spawnWatcher cfg.watch rfl) fun _ => ?_
  refine makes_bindExcept (makes_openStore crates path fun _ => rfl) fun store => ?_
  refine makes_bindExcept ?_ fun _ => makes_ret _
  cases cfg.config.smtp with
  | none => exact makes_ret _
  | some smtp => exact makes_makeSmtp crates smtp fun _ => rfl

/-! ## Section 2: What the supervisor returns -/

/-- The only error is that of a changed UIDVALIDITY. -/
def OkOrChanged (result : Except CoreError Unit) : Prop :=
  ∀ e, result = .error e → ∃ cached server, e = .uidValidityChanged cached server

theorem okOrChanged_ok : OkOrChanged (.ok ()) := by
  rintro e ⟨⟩

theorem yields_afterSession (backoff : Backoff) (result : Except CoreError Unit) :
    Yields (fun x => ∀ result, x = .inr result → OkOrChanged result)
      (Supervisor.afterSession backoff result) := by
  -- what the supervisor does with an error that it survives
  have hwait : ∀ f : Option Backoff → Program (Backoff ⊕ Except CoreError Unit),
      f none = .ret (.inr (.ok ())) → (∀ backoff, f (some backoff) = .ret (.inl backoff)) →
      Yields (fun x => ∀ result, x = .inr result → OkOrChanged result)
        (Supervisor.waitNextDelay backoff >>= f) := by
    intro f hnone hsome
    refine yields_bind (yields_true _) ?_
    rintro (_ | backoff) -
    · rw [hnone]
      exact yields_ret (by rintro _ ⟨⟩; exact okOrChanged_ok)
    · rw [hsome]
      exact yields_ret (by rintro _ ⟨⟩)
  cases result with
  | ok u => exact yields_ret (by rintro _ ⟨⟩; exact okOrChanged_ok)
  | error e =>
    cases e with
    | uidValidityChanged cached server =>
      refine yields_ret ?_
      rintro _ ⟨⟩ _ ⟨⟩
      exact ⟨cached, server, rfl⟩
    | _ => exact hwait _ rfl fun _ => rfl

/-- The supervisor returns no other error. -/
theorem yields_supervisor (cfg : Settings) : Yields OkOrChanged (Supervisor.run cfg) := by
  refine yields_loop fun backoff => yields_bind (yields_true _) ?_
  rintro (_ | backoff) -
  · exact yields_ret (by rintro _ ⟨⟩; exact okOrChanged_ok)
  · exact yields_bind (yields_true _) fun result _ => yields_afterSession backoff result

theorem code_exitOf {result : Except CoreError Unit} (h : OkOrChanged result) :
    (exitOf result).code ≠ 1 := by
  rcases result with e | ⟨⟩
  · obtain ⟨cached, server, rfl⟩ := h e rfl
    simp [exitOf, Exit.code]
  · simp [exitOf, Exit.code]

/-! ## Section 3: Runs -/

/-- Whether the process has asked for anything over the network. -/
def remoteUse : Monitor (SystemCall E) (SystemReply E) (SystemWorld E) Bool where
  start := false
  next q _ c _ := q || c.isRemote
  allows _ _ := True
  loops _ := True

def goesOut : Entry (SystemCall E) (SystemReply E) (SystemWorld E) → Bool
  | .called _ c _ => c.isRemote
  | .restarted _ => false

/-- Since the process was started, nothing was asked for over the network. -/
def Unconnected (tr : Trace (SystemCall E) (SystemReply E) (SystemWorld E)) : Prop :=
  ∀ e ∈ sinceStart tr, goesOut e = false

theorem state_remoteUse (tr : Trace (SystemCall E) (SystemReply E) (SystemWorld E)) :
    remoteUse.state tr = (sinceStart tr).any goesOut := by
  induction tr with
  | nil => rfl
  | cons e tr ih =>
    cases e with
    | restarted w => rfl
    | called w c r =>
      rw [sinceStart, List.takeWhile_cons_of_pos rfl, List.any_cons, Bool.or_comm]
      exact congrArg (· || c.isRemote) ih

theorem walks_remoteUse (p : SystemProgram E α) (q : Bool) :
    remoteUse.Walks S q p fun _ _ => True := by
  intro w tr _ x _
  obtain ⟨p', w', tr'⟩ := x
  cases p' with
  | ret a => trivial
  | call c k => trivial
  | iter body s k => trivial

theorem walks_run_code (crates : Crates A E) (path : String) (cfg : Setup) :
    remoteUse.Walks S false (crates.run path cfg) fun exit q => exit.code = 1 → q = false := by
  have hprepare : remoteUse.Walks S false (crates.prepare path cfg).run
      fun _ q => q = false ∧ True := by
    refine Monitor.walks_of_only (makes_prepare crates path cfg) (fun _ _ => trivial)
      trivial ?_
    intro c w r hc
    exact hc
  refine Monitor.walks_bind hprepare ?_
  rintro (exit | store) q ⟨rfl, -⟩
  · exact Monitor.walks_ret fun _ => rfl
  · refine Monitor.walks_bind (Monitor.walks_handle_yields (J := fun _ _ => True)
      (fun _ _ _ => trivial) (fun c t q _ => walks_remoteUse _ q) (yields_supervisor _) trivial) ?_
    rintro ⟨result, t⟩ q ⟨-, hresult⟩
    exact Monitor.walks_ret fun hcode => absurd hcode (code_exitOf hresult)

/-- A process that ends with the exit code 1 has asked for nothing over the network since it was
started. -/
theorem failed_unconnected {crates : Crates A E} {path : String}
    {others : Server → Server → Prop} {w₀ : SystemWorld E} {cfg : Setup}
    {x : Config (SystemCall E) (SystemReply E) (SystemWorld E) Exit}
    (hx : Lives (systemWorld crates path others) (crates.run path) w₀ cfg x) {exit : Exit}
    (hexit : x.prog = .ret exit) (hcode : exit.code = 1) : Unconnected x.trace := by
  have hcomp := hx.complies (fun cfg => walks_run_code crates path cfg) rfl fun _ _ _ _ => rfl
  rw [Contract.Complies, hexit] at hcomp
  have hstate : remoteUse.state x.trace = false := hcomp hcode
  rw [state_remoteUse, List.any_eq_false] at hstate
  exact fun e he => Bool.eq_false_iff.mpr (hstate e he)

/-- The process that cannot load its script, for a semicolon is missing. -/
def brokenProcess : Config (SystemCall (Option String × List String))
    (SystemReply (Option String × List String)) (SystemWorld (Option String × List String)) Exit :=
  play (SystemWorld.respond sampleCrates.codec "state.json" "discard" ["IDLE"] sampleView) 1
    ⟨sampleCrates.run "state.json" sampleSetup, sampleSystem, []⟩

theorem failed_unconnected_broken : Unconnected brokenProcess.trace :=
  have hreachable : Reachable (systemWorld sampleCrates "state.json" fun _ _ => False)
      (sampleCrates.run "state.json" sampleSetup) sampleSystem brokenProcess :=
    Reachable.start.steps (steps_play_free
      (SystemWorld.answers_respond sampleCrates.codec "state.json" "discard" ["IDLE"] sampleView)
      1 _)
  failed_unconnected hreachable.lives rfl rfl

end ImapSieve
