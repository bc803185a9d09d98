import ImapSieve.Protocol.Sound

/-!
# The Protocol of the Supervisor

The phases say where a session is. `Stage` says where the supervisor is around it: which
backoff it goes by, whether a delay is to be drawn or waited for, whether shutdown was
noticed. Phases and stages are two monitors of the same program, and `walks_daemon` says
that it is walked through by both: it returns `Ok` right after a shutdown notification, and
an error only for a changed UIDVALIDITY.
-/

namespace ImapSieve

open Effects

/-! ## Section 1: Stages -/

inductive Stage where
  /-- In the connect loop. -/
  | connecting (backoff : Backoff)
  /-- The connection failed; a delay is to be drawn. -/
  | refused (backoff : Backoff)
  /-- A session runs or, in the phase `offline`, has failed. -/
  | inSession (backoff : Backoff)
  /-- The delay is to be waited for. -/
  | waiting (delay : Nat) (backoff : Backoff)
  /-- Shutdown was noticed: nothing may follow. -/
  | leaving

/-- The delay of the backoff for a draw is to be waited for. -/
def Stage.wait (backoff : Backoff) (r : ℚ) : Stage :=
  .waiting (backoff.nextDelay r).1 (backoff.nextDelay r).2

/-- The stage after the call `c` was answered with `r`. -/
def Stage.next (st : Stage) (c : Call) (r : Reply c) : Stage :=
  match st with
  | .connecting backoff =>
      match c, r with
      | .connect, .notified => .leaving
      | .connect, .finished (.ok ()) => .inSession backoff.reset
      | .connect, .finished (.error _) => .refused backoff
      | _, _ => .connecting backoff
  | .refused backoff =>
      match c, r with
      | .genRange _, r => .wait backoff r
      | _, _ => .refused backoff
  | .inSession backoff =>
      match c, r with
      | .genRange _, r => .wait backoff r
      | .idle _, .notified => .leaving
      | _, _ => .inSession backoff
  | .waiting delay backoff =>
      match c, r with
      | .sleep _, .notified => .leaving
      | .sleep _, .finished () => .connecting backoff
      | _, _ => .waiting delay backoff
  | .leaving => .leaving

/-- The calls of sessions. -/
def Call.ofSession : Call → Bool
  | .connect | .sleep _ | .genRange _ => false
  | _ => true

/-- The call may be made in the stage. -/
inductive Stage.Allows : Stage → Call → Prop where
  | connect (backoff : Backoff) : Allows (.connecting backoff) .connect
  | retry (backoff : Backoff) : Allows (.refused backoff) (.genRange backoff.cfg.jitter)
  | reconnect (backoff : Backoff) : Allows (.inSession backoff) (.genRange backoff.cfg.jitter)
  | sleep (delay : Nat) (backoff : Backoff) : Allows (.waiting delay backoff) (.sleep delay)
  | session {backoff : Backoff} {c : Call} (hc : c.ofSession = true) :
      Allows (.inSession backoff) c

/-- Loops start their rounds in the connect loop and in sessions. -/
def Stage.Loops : Stage → Prop
  | .connecting _ | .inSession _ => True
  | _ => False

/-- The stages as a monitor. -/
def stages (cfg : Settings) : Monitor Call Reply World Stage where
  start := .connecting (Backoff.new cfg.backoffCfg)
  next st _ c r := st.next c r
  allows := Stage.Allows
  loops := Stage.Loops

/-- The stage after the calls answered so far. -/
def stageOf (cfg : Settings) (tr : History) : Stage := (stages cfg).state tr

@[simp] theorem stageOf_restarted (cfg : Settings) (w : World) (tr : History) :
    stageOf cfg (.restarted w :: tr) = .connecting (Backoff.new cfg.backoffCfg) := rfl

@[simp] theorem stageOf_called (cfg : Settings) (w : World) (c : Call) (r : Reply c)
    (tr : History) : stageOf cfg (.called w c r :: tr) = (stageOf cfg tr).next c r := rfl

/-! ## Section 2: Parts of a session that run to their own end -/

/-- The calls without a `select!` on the shutdown notification. -/
def Call.uncut : Call → Bool
  | .connect | .sleep _ | .genRange _ | .idle _ => false
  | _ => true

/-- Every call is without a `select!`, and what is returned satisfies `P`. -/
def Uncut {α : Type} (S : Surroundings Call Reply World) (p : Program α) (P : α → Prop) : Prop :=
  Obeys S (Monitor.only fun c => c.uncut = true) (fun _ _ => True) p fun a _ _ => P a

/-- An error is one that a reconnect may cure. -/
def Curable {α : Type} : Except CoreError α → Prop
  | .ok _ => True
  | .error e => e.Recoverable

section Uncut

variable {S : Surroundings Call Reply World} {α β : Type}

theorem uncut_ret {a : α} {P : α → Prop} (h : P a) : Uncut S (.ret a) P :=
  Monitor.only_ret h

theorem uncut_call {c : Call} {k : Reply c → Program α} {P : α → Prop} (hc : c.uncut = true)
    (hk : ∀ w r w', S.answers w c r w' → Uncut S (k r) P) : Uncut S (.call c k) P :=
  Monitor.only_call hc hk

theorem uncut_bind {p : Program α} {f : α → Program β} {P : α → Prop} {P' : β → Prop}
    (hp : Uncut S p P) (hf : ∀ a, P a → Uncut S (f a) P') : Uncut S (p >>= f) P' :=
  Monitor.only_bind hp hf

/-- `?`: an error is passed on. -/
theorem uncut_bindExcept {p : Async α} {f : α → Async β} (hp : Uncut S p.run Curable)
    (hf : ∀ a, Uncut S (f a).run Curable) : Uncut S (p >>= f).run Curable := by
  rw [ExceptT.run_bind]
  refine uncut_bind hp ?_
  rintro (e | a) hcurable
  · exact uncut_ret hcurable
  · exact hf a

theorem uncut_throw {e : CoreError} (h : e.Recoverable) :
    Uncut S (throw e : Async α).run Curable :=
  uncut_ret h

/-- A call that cannot fail. -/
theorem uncut_ask {c : Call} {f : Reply c → Async β} {P : Except CoreError β → Prop}
    (hc : c.uncut = true) (hf : ∀ r, Uncut S (f r).run P) :
    Uncut S (ExceptT.lift (ask c) >>= f).run P :=
  uncut_call hc fun _ r _ _ => hf r

theorem recoverable_of_isImap {e : CoreError} (h : e.IsImap) : e.Recoverable := by
  obtain ⟨message, rfl⟩ := h
  simp [CoreError.Recoverable]

theorem uncut_update (change : StateChange) : Uncut S (update change).run Curable := by
  refine uncut_call rfl fun _ r _ _ => ?_
  cases r with
  | ok u => exact uncut_ret trivial
  | error e => exact uncut_ret (by simp [Curable, CoreError.Recoverable])

theorem uncut_runOps (ops : List Op) : Uncut S (runOps ops).run fun _ => True := by
  refine only_runOps (fun _ _ _ _ => rfl) fun c hc _ => ?_
  cases c <;> first | rfl | cases hc

/-- A batch runs to its own end. -/
theorem uncut_processMessages (p : MessageProcessor) (script : CompiledScript)
    (todo : List MessageContext) (results : List ProcessingResult) :
    Uncut S (p.processMessages script todo results).run Curable := by
  induction todo generalizing results with
  | nil => exact uncut_ret trivial
  | cons msg rest ih =>
    rw [MessageProcessor.processMessages]
    refine uncut_ask rfl fun r => ?_
    cases r with
    | error e => exact uncut_ret trivial
    | ok actions =>
      dsimp only
      rw [execute_eq_runOps]
      -- neither the execution nor the update can be cut
      refine uncut_bindExcept ?_ fun result => uncut_ask rfl fun _ => ?_
      · refine uncut_bind (uncut_runOps _) fun result _ => ?_
        exact uncut_ret trivial
      · cases result with
        | error e => exact uncut_ret trivial
        | ok u => exact uncut_bindExcept (uncut_update _) fun _ => ih _

theorem uncut_runBatch (hS : Admissible S) (p : MessageProcessor) :
    Uncut S p.runBatch.run Curable := by
  refine uncut_ask rfl fun state => ?_
  cases state.lastSeenUid with
  | none => exact uncut_throw (by simp [CoreError.Recoverable])
  | some uid =>
    refine uncut_bindExcept (uncut_call rfl fun w r w' hans => ?_) fun messages =>
      uncut_ask rfl fun script => uncut_processMessages p script _ _
    cases r with
    | ok messages => exact uncut_ret trivial
    | error e => exact uncut_ret (recoverable_of_isImap (hS.answers hans).1)

theorem uncut_processPending (hS : Admissible S) (cfg : Settings) (caps : Capabilities) :
    Uncut S (SessionManager.processPending cfg caps).run Curable :=
  uncut_bindExcept (uncut_runBatch hS _) fun _ => uncut_ret trivial

theorem uncut_seedLastSeenUid (status : MailboxStatus) :
    Uncut S (SessionManager.seedLastSeenUid status).run Curable := by
  refine uncut_ask rfl fun state => ?_
  cases state.lastSeenUid with
  | none => exact uncut_update _
  | some uid => exact uncut_ret trivial

theorem uncut_checkUidvalidity (cfg : Settings) (status : MailboxStatus) :
    Uncut S (SessionManager.checkUidvalidity cfg status).run fun _ => True := by
  have hpersist : Uncut S (update (.session status cfg.mailbox)).run fun _ => True :=
    (uncut_update _).post fun _ _ _ _ => trivial
  refine uncut_ask rfl fun state => ?_
  cases state.uidvalidity with
  | none => exact hpersist
  | some cached =>
    by_cases hne : cached ≠ status.uidvalidity
    · simp only [if_pos hne]
      exact uncut_ret trivial
    · simp only [if_neg hne]
      exact hpersist

end Uncut

/-! ## Section 3: The supervisor and its sessions -/

section Walks

variable {S : Surroundings Call Reply World} {cfg : Settings} {backoff : Backoff}

/-- Phases and stages at once. -/
def course (cfg : Settings) : Monitor Call Reply World (Phase × Stage) :=
  (phases cfg).prod (stages cfg)

@[simp] theorem state_course (cfg : Settings) (tr : History) :
    (course cfg).state tr = (phaseOf cfg tr, stageOf cfg tr) := by
  rw [course, Monitor.state_prod, state_phases, stageOf]

/-- A part of a session that runs to its own end keeps the stage. -/
theorem walks_part {α : Type} {ph : Phase} {p : Program α} {P : α → Phase → Prop}
    {P' : α → Prop} (hp : Walks S cfg ph p P) (huncut : Uncut S p P') :
    (course cfg).Walks S (ph, .inSession backoff) p fun a q =>
      P a q.1 ∧ q.2 = .inSession backoff ∧ P' a := by
  refine (walks_iff.mp hp).prod (Monitor.walks_of_only huncut ?_ trivial ?_)
  · intro c hc
    exact .session (by cases c <;> first | rfl | cases hc)
  · intro c w r hc
    cases c <;> first | rfl | cases hc

/-- A session ends on shutdown, or with an error and its delay not drawn yet. -/
def SessionOver (backoff : Backoff) (result : Except CoreError Unit) (q : Phase × Stage) : Prop :=
  match result with
  | .ok () => q = (.offline, .leaving)
  | .error e => q.2 = .inSession backoff ∧ CheckFails e q.1

/-- A call of the session's setup leads to the next phase, or ends the session. -/
def SetupOver {α : Type} (backoff : Backoff) (next : α → Phase) :
    Except CoreError α → Phase × Stage → Prop
  | .ok a, q => q = (next a, .inSession backoff)
  | .error e, q => SessionOver backoff (.error e) q

/-- A round of the IDLE loop goes round before IDLE, or ends the session. -/
def RoundOver (backoff : Backoff) (s : Session) :
    Unit ⊕ Except CoreError Unit → Phase × Stage → Prop
  | .inl (), q => BatchEnds s (.ok ()) q.1 ∧ q.2 = .inSession backoff
  | .inr result, q => SessionOver backoff result q

theorem follows_processPending (hS : Admissible S) (s : Session) :
    (course cfg).Walks S (.ready s, .inSession backoff)
      (SessionManager.processPending cfg s.caps).run fun r q =>
        match r with
        | .ok () => BatchEnds s (.ok ()) q.1 ∧ q.2 = .inSession backoff
        | .error e => SessionOver backoff (.error e) q := by
  refine (walks_part (walks_processPending s) (uncut_processPending hS cfg s.caps)).post ?_
  rintro (e | u) q ⟨hends, hstage, hcurable⟩
  · exact ⟨hstage, .inl ⟨hends, hcurable⟩⟩
  · exact ⟨hends, hstage⟩

theorem follows_idleRound (hS : Admissible S) (b : Batch) (done : List MessageContext)
    (allOk : Bool) :
    (course cfg).Walks S (.idling b done allOk, .inSession backoff)
      (SessionManager.idleRound cfg b.caps) (RoundOver backoff b.toSession) := by
  have hpending : (course cfg).Walks S (.ready b.toSession, .inSession backoff) (do
      match ← (SessionManager.processPending cfg b.caps).run with
      | .ok () => return .inl ()
      | .error e => return (.inr (.error e) : Unit ⊕ Except CoreError Unit))
      (RoundOver backoff b.toSession) := by
    refine Monitor.walks_bind (follows_processPending hS b.toSession) ?_
    rintro (e | u) q h
    · exact Monitor.walks_ret h
    · exact Monitor.walks_ret h
  refine Monitor.walks_call ⟨.idle b done allOk, .session rfl⟩ fun w r w' hans => ?_
  cases r with
  | notified => exact Monitor.walks_ret rfl
  | finished r =>
    cases r with
    | error e =>
      have he : e.Recoverable := recoverable_of_isImap (hS.answers hans).1
      exact Monitor.walks_ret ⟨rfl, .inl ⟨rfl, he⟩⟩
    | ok ev =>
      cases ev with
      | exist count => exact hpending
      | interrupted => exact hpending
      | disconnected =>
        exact Monitor.walks_ret ⟨rfl, .inl ⟨rfl, by simp [CoreError.Recoverable]⟩⟩

theorem follows_session (hS : Admissible S) :
    (course cfg).Walks S (.connected, .inSession backoff) (SessionManager.run cfg).run
      (SessionOver backoff) := by
  -- the reply to a call of the setup may be an error of the server
  have hfail : ∀ e : CoreError, e.IsImap →
      SessionOver backoff (.error e) (.offline, .inSession backoff) :=
    fun e he => ⟨rfl, .inl ⟨rfl, recoverable_of_isImap he⟩⟩
  refine Monitor.walks_bindExcept (P := SetupOver backoff fun caps =>
    if caps.idle then .capable caps else .offline) ?_ (fun e q h => h) ?_
  · refine Monitor.walks_call ⟨.capabilities, .session rfl⟩ fun w r w' hans => ?_
    cases r with
    | error e => exact Monitor.walks_ret (hfail e (hS.answers hans).1)
    | ok caps => exact Monitor.walks_ret rfl
  intro caps q hq
  obtain rfl : q = (if caps.idle then .capable caps else .offline, .inSession backoff) := hq
  cases hidle : caps.idle with
  | false => exact Monitor.walks_ret ⟨rfl, .inl ⟨rfl, by simp [CoreError.Recoverable]⟩⟩
  | true =>
    refine Monitor.walks_bindExcept (P := SetupOver backoff fun status =>
      .selected ⟨caps, status⟩) ?_ (fun e q h => h) ?_
    · refine Monitor.walks_call ⟨.select caps, .session rfl⟩ fun w r w' hans => ?_
      cases r with
      | error e => exact Monitor.walks_ret (hfail e (hS.answers hans).1)
      | ok status => exact Monitor.walks_ret rfl
    rintro status q rfl
    refine Monitor.walks_bindExcept (walks_part (walks_checkUidvalidity ⟨caps, status⟩)
      (uncut_checkUidvalidity cfg status)) (fun e q h => ⟨h.2.1, h.1⟩) ?_
    rintro u ⟨ph, st⟩ ⟨rfl, rfl, -⟩
    refine Monitor.walks_bindExcept (walks_part (walks_seedLastSeenUid ⟨caps, status⟩)
      (uncut_seedLastSeenUid status)) (fun e q h => ⟨h.2.1, .inl ⟨h.1, h.2.2⟩⟩) ?_
    rintro u ⟨ph, st⟩ ⟨rfl, rfl, -⟩
    refine Monitor.walks_bindExcept (follows_processPending hS ⟨caps, status⟩)
      (fun e q h => h) ?_
    intro u q hends
    -- the IDLE loop
    refine Monitor.walks_loop (I := fun _ q =>
      BatchEnds ⟨caps, status⟩ (.ok ()) q.1 ∧ q.2 = .inSession backoff) hends ?_ ?_
    · rintro _ ⟨ph, st⟩ ⟨⟨b, done, allOk, -, rfl⟩, rfl⟩
      exact ⟨trivial, trivial⟩
    · rintro _ ⟨ph, st⟩ ⟨⟨b, done, allOk, hb, rfl⟩, rfl⟩
      have hround : (course cfg).Walks S (.idling b done allOk, .inSession backoff)
          (SessionManager.idleRound cfg b.caps) (RoundOver backoff b.toSession) :=
        follows_idleRound hS b done allOk
      rw [hb] at hround
      refine hround.post ?_
      rintro (_ | result) q h
      · exact h
      · exact h

/-- The wait for the next delay ends on shutdown, or goes on to connect. -/
def WaitOver : Option Backoff → Phase × Stage → Prop
  | none, q => q = (.offline, .leaving)
  | some backoff, q => q = (.offline, .connecting backoff)

theorem follows_waitNextDelay {st : Stage} (hallow : st.Allows (.genRange backoff.cfg.jitter))
    (hnext : ∀ r, st.next (.genRange backoff.cfg.jitter) r = .wait backoff r) :
    (course cfg).Walks S (.offline, st) (Supervisor.waitNextDelay backoff) WaitOver := by
  refine Monitor.walks_call ⟨.genRange _, hallow⟩ fun w r w' _ => ?_
  change (course cfg).Walks S (.offline, st.next (.genRange backoff.cfg.jitter) r) _ _
  rw [hnext r]
  refine Monitor.walks_call ⟨.sleep _, .sleep _ _⟩ fun w slept w' _ => ?_
  cases slept with
  | notified => exact Monitor.walks_ret rfl
  | finished u => exact Monitor.walks_ret rfl

/-- The connect loop ends on shutdown, or connected. -/
def ConnectOver : Option Backoff → Phase × Stage → Prop
  | none, q => q = (.offline, .leaving)
  | some backoff, q => q = (.connected, .inSession backoff)

theorem follows_connect :
    (course cfg).Walks S (.offline, .connecting backoff)
      (Prog.loop Supervisor.connectRound backoff) ConnectOver := by
  refine Monitor.walks_loop (I := fun backoff q => q = (.offline, .connecting backoff)) rfl ?_ ?_
  · rintro backoff q rfl
    exact ⟨trivial, trivial⟩
  · rintro backoff q rfl
    refine Monitor.walks_call ⟨.connect, .connect _⟩ fun w r w' _ => ?_
    cases r with
    | notified => exact Monitor.walks_ret rfl
    | finished r =>
      cases r with
      | ok u => exact Monitor.walks_ret rfl
      | error e =>
        -- the connection was refused
        change (course cfg).Walks S (.offline, .refused backoff)
          (Supervisor.waitNextDelay backoff >>= _) _
        refine Monitor.walks_bind (follows_waitNextDelay (.retry backoff) fun _ => rfl) ?_
        rintro (_ | backoff) q rfl
        · exact Monitor.walks_ret rfl
        · exact Monitor.walks_ret rfl

/-- The supervisor returns `Ok` after shutdown was noticed, and an error only for a changed
UIDVALIDITY. -/
def DaemonEnds (result : Except CoreError Unit) (q : Phase × Stage) : Prop :=
  (result = .ok () ∧ q = (.offline, .leaving)) ∨
    ∃ cached server backoff, result = .error (.uidValidityChanged cached server) ∧
      q = (.stopped cached server, .inSession backoff)

/-- A round of the reconnect loop goes on to connect, or ends the supervisor. -/
def ReconnectOver : Backoff ⊕ Except CoreError Unit → Phase × Stage → Prop
  | .inl backoff, q => q = (.offline, .connecting backoff)
  | .inr result, q => DaemonEnds result q

theorem follows_afterSession {result : Except CoreError Unit} {q : Phase × Stage}
    (h : SessionOver backoff result q) :
    (course cfg).Walks S q (Supervisor.afterSession backoff result) ReconnectOver := by
  obtain ⟨ph, st⟩ := q
  -- what the supervisor does with an error that it survives
  have hwait : ∀ f : Option Backoff → Program (Backoff ⊕ Except CoreError Unit),
      f none = .ret (.inr (.ok ())) → (∀ backoff, f (some backoff) = .ret (.inl backoff)) →
      ph = .offline → st = .inSession backoff →
      (course cfg).Walks S (ph, st) (Supervisor.waitNextDelay backoff >>= f) ReconnectOver := by
    rintro f hnone hsome rfl rfl
    refine Monitor.walks_bind (follows_waitNextDelay (.reconnect backoff) fun _ => rfl) ?_
    rintro (_ | backoff) q rfl
    · rw [hnone]
      exact Monitor.walks_ret (.inl ⟨rfl, rfl⟩)
    · rw [hsome]
      exact Monitor.walks_ret rfl
  cases result with
  | ok u => exact Monitor.walks_ret (.inl ⟨rfl, h⟩)
  | error e =>
    obtain ⟨hstage, ⟨hph, hrec⟩ | ⟨cached, server, hph, rfl⟩⟩ := h
    · cases e with
      | uidValidityChanged cached server => exact absurd rfl (hrec cached server)
      | _ =>
        -- the catch-all arm
        exact hwait _ rfl (fun _ => rfl) hph hstage
    · simp only at hph hstage
      subst hph hstage
      exact Monitor.walks_ret (.inr ⟨cached, server, backoff, rfl, rfl⟩)

/-- The daemon is followed through its phases and stages. -/
theorem walks_daemon (cfg : Settings) (hS : Admissible S) :
    (course cfg).Walks S (course cfg).start (Supervisor.run cfg) DaemonEnds := by
  refine Monitor.walks_loop (I := fun backoff q => q = (.offline, .connecting backoff)) rfl ?_ ?_
  · rintro backoff q rfl
    exact ⟨trivial, trivial⟩
  · rintro backoff q rfl
    refine Monitor.walks_bind follows_connect ?_
    rintro (_ | backoff) q rfl
    · exact Monitor.walks_ret (.inl ⟨rfl, rfl⟩)
    · refine Monitor.walks_bind (follows_session hS) fun result q hover => ?_
      refine (follows_afterSession hover).post ?_
      rintro (backoff | result) q h
      · exact h
      · exact h

end Walks

/-! ## Section 4: Runs of the daemon -/

/-- Where a configuration of the daemon is: its next call is allowed by phase and stage, or it
is before a round of a loop, or it has returned. -/
theorem daemon_follows {S : Surroundings Call Reply World} {cfg : Settings} {w₀ : World}
    {x : Config Call Reply World (Except CoreError Unit)} (hS : Admissible S)
    (hx : Reachable S (Supervisor.run cfg) w₀ x) :
    (course cfg).contract.Complies (fun a _ tr => DaemonEnds a (phaseOf cfg tr, stageOf cfg tr))
      x := by
  have hcomp := Monitor.complies (walks_daemon cfg hS) hx
  simpa only [state_course] using hcomp

section Follows

variable {S : Surroundings Call Reply World} {cfg : Settings} {w₀ : World}
  {x : Config Call Reply World (Except CoreError Unit)}

/-- The next call is allowed by phase and stage. -/
theorem allows_of_call (hS : Admissible S) (hx : Reachable S (Supervisor.run cfg) w₀ x)
    {c : Call} {k : Reply c → Program (Except CoreError Unit)} (hprog : x.prog = .call c k) :
    (phaseOf cfg x.trace).Allows cfg c ∧ (stageOf cfg x.trace).Allows c := by
  have hcomp := daemon_follows hS hx
  simp only [Contract.Complies, hprog, Monitor.contract, state_course] at hcomp
  exact hcomp

/-- Phase and stage fit what was returned. -/
theorem ends_of_ret (hS : Admissible S) (hx : Reachable S (Supervisor.run cfg) w₀ x)
    {result : Except CoreError Unit} (hprog : x.prog = .ret result) :
    DaemonEnds result (phaseOf cfg x.trace, stageOf cfg x.trace) := by
  have hcomp := daemon_follows hS hx
  rwa [Contract.Complies, hprog] at hcomp

/-- Outside of a finished stage and phase the supervisor has not returned. -/
theorem prog_ne_ret (hS : Admissible S) (hx : Reachable S (Supervisor.run cfg) w₀ x)
    (hph : ∀ cached server, phaseOf cfg x.trace ≠ .stopped cached server)
    (hst : stageOf cfg x.trace ≠ .leaving) (result : Except CoreError Unit) :
    x.prog ≠ .ret result := by
  intro hret
  rcases ends_of_ret hS hx hret with ⟨-, hq⟩ | ⟨cached, server, backoff, -, hq⟩
  · exact hst (Prod.mk.inj hq).2
  · exact hph cached server (Prod.mk.inj hq).1

/-- Once shutdown was noticed, the supervisor has returned `Ok`. -/
theorem prog_of_leaving (hS : Admissible S) (hx : Reachable S (Supervisor.run cfg) w₀ x)
    (hstage : stageOf cfg x.trace = .leaving) : x.prog = .ret (.ok ()) := by
  have hcomp := daemon_follows hS hx
  obtain ⟨p, w, tr⟩ := x
  simp only at hstage
  cases p with
  | ret result =>
    -- it has returned, and with an error the stage would still be that of the session
    rcases ends_of_ret hS hx rfl with ⟨rfl, -⟩ | ⟨cached, server, backoff, -, hq⟩
    · rfl
    · have hsession : stageOf cfg tr = .inSession backoff := (Prod.mk.inj hq).2
      rw [hstage] at hsession
      cases hsession
  | call c k =>
    -- no call is made any more
    have hallow : (stageOf cfg tr).Allows c := (allows_of_call hS hx rfl).2
    rw [hstage] at hallow
    cases hallow
  | iter body s k =>
    have hloops : (stageOf cfg tr).Loops := by
      simp only [Contract.Complies, Monitor.contract, state_course] at hcomp
      exact hcomp.2
    rw [hstage] at hloops
    exact hloops.elim

end Follows

/-- The invariant rule for the daemon, with calls that both phase and stage allow. -/
theorem course_invariant {S : Surroundings Call Reply World} {cfg : Settings} {w₀ w : World}
    {tr : History} {I : Assertion Call Reply World} (hS : Admissible S)
    (hx : Comes S cfg w₀ w tr) (hinit : I w₀ [])
    (hcall : ∀ w tr c r w', Comes S cfg w₀ w tr → I w tr → (phaseOf cfg tr).Allows cfg c →
      (stageOf cfg tr).Allows c → S.answers w c r w' → I w' (.called w c r :: tr))
    (hdrift : ∀ w w' tr, I w tr → S.drifts w w' → I w' tr)
    (hlost : ∀ w w' tr, I w tr → S.restarts w w' → I w' (.restarted w :: tr)) : I w tr := by
  refine hx.invariant (walks_daemon cfg hS) rfl (fun _ _ _ _ => rfl) hinit ?_
    (fun w w' tr _ => hdrift w w' tr) fun w w' tr _ => hlost w w' tr
  intro w tr c r w' hat h hallow
  simp only [Monitor.contract, state_course] at hallow
  exact hcall w tr c r w' hat h hallow.1 hallow.2

end ImapSieve
