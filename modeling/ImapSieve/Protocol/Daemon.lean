import ImapSieve.Protocol.Phase

/-!
# The Daemon Keeps to its Protocol

`Supervisor.run` obeys the contract `protocol` in any surroundings. The proof walks through
the program once, from the operations of the executor up to the reconnect loop; each lemma
says in which phases its part of the program ends.
-/

namespace ImapSieve

open Effects

/-! ## Section 1: Assertions about the phase -/

variable {S : Surroundings Call Reply World} {cfg : Settings}

/-- The trace has come to the phase. -/
def At (cfg : Settings) (ph : Phase) : Assertion Call Reply World := fun _ tr => phaseOf cfg tr = ph

/-- The program returns in a phase that fits its result. -/
def EndsIn {α : Type} (cfg : Settings) (P : α → Phase → Prop) : α → Assertion Call Reply World :=
  fun a _ tr => P a (phaseOf cfg tr)

/-- A triple about phases. -/
abbrev Walks {α : Type} (S : Surroundings Call Reply World) (cfg : Settings) (ph : Phase)
    (p : Program α) (P : α → Phase → Prop) : Prop :=
  Obeys S (protocol cfg) (At cfg ph) p (EndsIn cfg P)

/-- Such a triple is about the monitor of the phases. -/
theorem walks_iff {α : Type} {ph : Phase} {p : Program α} {P : α → Phase → Prop} :
    Walks S cfg ph p P ↔ (phases cfg).Walks S ph p P := by
  simp only [Monitor.Walks, Monitor.contract, state_phases]
  rfl

theorem walks_ret {α : Type} {ph : Phase} {a : α} {P : α → Phase → Prop} (h : P a ph) :
    Walks S cfg ph (.ret a) P :=
  walks_iff.mpr (Monitor.walks_ret h)

theorem walks_call {α : Type} {ph : Phase} {c : Call} {k : Reply c → Program α}
    {P : α → Phase → Prop} (hallow : ph.Allows cfg c)
    (hk : ∀ w r, Walks S cfg (ph.next cfg w c r) (k r) P) : Walks S cfg ph (.call c k) P :=
  walks_iff.mpr (Monitor.walks_call hallow fun w r _ _ => walks_iff.mp (hk w r))

/-- One call of a fallible program. -/
theorem walks_ask {β : Type} {ph : Phase} {c : Call} {f : Reply c → Async β}
    {P : Except CoreError β → Phase → Prop} (hallow : ph.Allows cfg c)
    (hk : ∀ w r, Walks S cfg (ph.next cfg w c r) (f r).run P) :
    Walks S cfg ph (ExceptT.lift (ask c) >>= f).run P :=
  walks_call hallow hk

/-- A call leads to the next phase. -/
theorem walks_perform {ph : Phase} {c : Call} (hallow : ph.Allows cfg c) :
    Walks S cfg ph (ask c) fun r ph' => ∃ w, ph' = ph.next cfg w c r :=
  walks_call hallow fun w _ => walks_ret ⟨w, rfl⟩

/-- Sequencing: whatever phase the first part ends in, the second part goes on from there. -/
theorem walks_bind {α β : Type} {ph : Phase} {p : Program α} {f : α → Program β}
    {P : α → Phase → Prop} {Q : β → Phase → Prop} (hp : Walks S cfg ph p P)
    (hf : ∀ a ph', P a ph' → Walks S cfg ph' (f a) Q) : Walks S cfg ph (p >>= f) Q :=
  walks_iff.mpr (Monitor.walks_bind (walks_iff.mp hp) fun a ph' hP => walks_iff.mp (hf a ph' hP))

theorem walks_bindExcept {α β : Type} {ph : Phase} {p : Async α} {f : α → Async β}
    {P : Except CoreError α → Phase → Prop} {Q : Except CoreError β → Phase → Prop}
    (hp : Walks S cfg ph p.run P) (herr : ∀ e ph', P (.error e) ph' → Q (.error e) ph')
    (hf : ∀ a ph', P (.ok a) ph' → Walks S cfg ph' (f a).run Q) :
    Walks S cfg ph (p >>= f).run Q :=
  walks_iff.mpr (Monitor.walks_bindExcept (walks_iff.mp hp) herr fun a ph' hP =>
    walks_iff.mp (hf a ph' hP))

/-- A loop whose rounds start in phases that allow it. -/
theorem walks_loop {σ ρ : Type} {ph : Phase} {body : σ → Program (σ ⊕ ρ)} {s : σ}
    {I : σ → Phase → Prop} {Q : ρ → Phase → Prop} (hI : I s ph)
    (hloops : ∀ s ph, I s ph → ph.Loops)
    (hbody : ∀ s ph, I s ph → Walks S cfg ph (body s) fun
      | .inl s', ph' => I s' ph'
      | .inr r, ph' => Q r ph') : Walks S cfg ph (Prog.loop body s) Q := by
  refine walks_iff.mpr (Monitor.walks_loop hI hloops fun s ph h => ?_)
  refine (walks_iff.mp (hbody s ph h)).post ?_
  rintro (s' | r) ph' h
  · exact h
  · exact h

/-! ## Section 2: Execution and batches -/

/-- The operations are over: done, or stopped by an error. -/
def Settled (b : Batch) (done : List MessageContext) (msg : MessageContext)
    (rest : List MessageContext) (actions : List SieveAction) (result : Except CoreError Unit)
    (ph : Phase) : Prop :=
  ∃ ops, ph = .executing b done msg rest actions ops ∧ nextCall ops = none ∧ outcome ops = result

theorem walks_settled {b : Batch} {done : List MessageContext} {msg : MessageContext}
    {rest : List MessageContext} {actions : List SieveAction} (ops : List Op)
    (h : nextCall ops = none) :
    Walks S cfg (.executing b done msg rest actions ops) (runOps ops).run
      (Settled b done msg rest actions) := by
  rw [run_runOps_none h]
  exact walks_ret ⟨ops, rfl, h, rfl⟩

/-- The executor goes through its operations. -/
theorem walks_runOps (b : Batch) (done : List MessageContext) (msg : MessageContext)
    (rest : List MessageContext) (actions : List SieveAction) (ops : List Op) :
    Walks S cfg (.executing b done msg rest actions ops) (runOps ops).run
      (Settled b done msg rest actions) := by
  induction ops with
  -- by induction on the operations: each makes the call that the phase has next
  | nil => exact walks_settled [] rfl
  | cons op ops ih =>
    have hsend : ∀ mail, Walks S cfg (.executing b done msg rest actions (.send mail :: ops))
        (runOps (.send mail :: ops)).run (Settled b done msg rest actions) := by
      intro mail
      refine walks_call (.perform rfl) fun w r => ?_
      cases r with
      | ok u => exact ih
      | error e => exact walks_settled [.refuse e] rfl
    cases op with
    | need cmd =>
      refine walks_call (.perform rfl) fun w r => ?_
      cases r with
      | ok u => exact ih
      | error e => exact walks_settled [.refuse e] rfl
    | attempt cmd => exact walks_call (.perform rfl) fun w r => ih
    | send mail => exact hsend mail
    | notice to' reason => exact walks_call (.perform rfl) fun w stamp => hsend _
    | refuse e => exact walks_settled _ rfl
    | deleting uid => exact walks_call (.perform rfl) fun w r => ih

/-- A batch ends before IDLE with `Ok`, or with the session's end. -/
def BatchEnds (s : Session) (result : Except CoreError Unit) (ph : Phase) : Prop :=
  match result with
  | .ok () => ∃ b done allOk, b.toSession = s ∧ ph = .idling b done allOk
  | .error _ => ph = .offline

theorem walks_update {ph : Phase} {change : StateChange}
    (hallow : ph.Allows cfg (.update change)) {P : Except CoreError Unit → Phase → Prop}
    (hok : ∀ w, P (.ok ()) (ph.next cfg w (.update change) (.ok ())))
    (herr : ∀ w e, P (.error (.state e)) (ph.next cfg w (.update change) (.error e))) :
    Walks S cfg ph (update change).run P := by
  refine walks_call hallow fun w r => ?_
  cases r with
  | ok u => exact walks_ret (hok w)
  | error e => exact walks_ret (herr w e)

/-- The loop over the messages of a batch. -/
theorem walks_processMessages (b : Batch) (done todo : List MessageContext)
    (results : List ProcessingResult) :
    Walks S cfg (.enter b done todo)
      ((cfg.processor b.caps).processMessages b.script todo results).run
      (fun r ph => BatchEnds b.toSession (r.map fun _ => ()) ph) := by
  induction todo generalizing done results with
  | nil => exact walks_ret ⟨b, done, true, rfl, rfl⟩
  | cons msg rest ih =>
    rw [MessageProcessor.processMessages]
    refine walks_ask (.evaluate b done msg rest) fun w r => ?_
    cases r with
    | error e => exact walks_ret ⟨b, done, false, rfl, rfl⟩
    | ok actions =>
      dsimp only
      rw [execute_eq_runOps]
      -- the executor, then the mark of its return, then the bookmark
      refine walks_bindExcept (P := fun r ph => ∃ result, r = .ok result ∧
        Settled b done msg rest actions result ph) ?_ ?_ ?_
      · refine walks_bind (walks_runOps b done msg rest actions _) ?_
        intro result ph hsettled
        exact walks_ret ⟨result, rfl, hsettled⟩
      · rintro e ph ⟨result, hresult, -⟩
        cases hresult
      · rintro result ph ⟨result', hresult, ops, rfl, hnone, rfl⟩
        cases hresult
        refine walks_ask (.executed hnone) fun w r => ?_
        cases outcome ops with
        | error e => exact walks_ret ⟨b, done, false, rfl, rfl⟩
        | ok u =>
          refine walks_bindExcept (walks_update (P := fun r ph => match r with
            | .ok () => ph = .enter b (done ++ [msg]) rest
            | .error _ => ph = .offline) (.advance b done msg rest) (fun _ => rfl) fun _ _ => rfl)
            (fun e ph h => h) ?_
          rintro _ ph rfl
          exact ih (done ++ [msg]) _

/-- One batch. -/
theorem walks_processPending (s : Session) :
    Walks S cfg (.ready s) (SessionManager.processPending cfg s.caps).run (BatchEnds s) := by
  refine walks_bindExcept (P := fun r ph => BatchEnds s (r.map fun _ => ()) ph) ?_
    (fun e ph h => h) fun results ph h => walks_ret h
  refine walks_ask (.read s) fun w state => ?_
  cases hseen : state.lastSeenUid with
  | none =>
    simp only [Phase.next, hseen]
    exact walks_ret rfl
  | some uid =>
    simp only [Phase.next, hseen]
    refine walks_bindExcept (walks_perform (.fetch s state uid)) ?_ ?_
    · rintro e ph ⟨w, rfl⟩
      rfl
    · rintro reply ph ⟨w, rfl⟩
      refine walks_ask (.script ⟨s, uid, w, reply⟩) fun w₁ script => ?_
      exact walks_processMessages ⟨⟨s, uid, w, reply⟩, script⟩ [] _ []

/-! ## Section 3: Sessions -/

/-- A session ends offline, or stopped with its error. -/
def SessionEnds (result : Except CoreError Unit) (ph : Phase) : Prop :=
  ph = .offline ∨
    ∃ cached server, ph = .stopped cached server ∧
      result = .error (.uidValidityChanged cached server)

/-- Every error but that of a changed UIDVALIDITY may be cured by a reconnect. -/
def CoreError.Recoverable (e : CoreError) : Prop :=
  ∀ cached server, e ≠ .uidValidityChanged cached server

/-- The check of UIDVALIDITY fails offline, or stopped with the values that differ. -/
def CheckFails (e : CoreError) (ph : Phase) : Prop :=
  (ph = .offline ∧ e.Recoverable) ∨
    ∃ cached server, ph = .stopped cached server ∧ e = .uidValidityChanged cached server

theorem CheckFails.sessionEnds {e : CoreError} {ph : Phase} (h : CheckFails e ph) :
    SessionEnds (.error e) ph := by
  rcases h with ⟨rfl, -⟩ | ⟨cached, server, rfl, rfl⟩
  · exact .inl rfl
  · exact .inr ⟨cached, server, rfl, rfl⟩

/-- A round of the IDLE loop ends before IDLE, or offline with the session's end. -/
def RoundEnds (s : Session) : Unit ⊕ Except CoreError Unit → Phase → Prop
  | .inl () => BatchEnds s (.ok ())
  | .inr _ => fun ph => ph = .offline

theorem walks_idleRound (b : Batch) (done : List MessageContext) (allOk : Bool) :
    Walks S cfg (.idling b done allOk) (SessionManager.idleRound cfg b.caps)
      (RoundEnds b.toSession) := by
  -- the batch after new messages, or after the time-out
  have hpending : Walks S cfg (.ready b.toSession) (do
      match ← (SessionManager.processPending cfg b.caps).run with
      | .ok () => return .inl ()
      | .error e => return (.inr (.error e) : Unit ⊕ Except CoreError Unit))
      (RoundEnds b.toSession) := by
    refine walks_bind (walks_processPending b.toSession) ?_
    rintro (e | u) ph h
    · exact walks_ret h
    · exact walks_ret h
  refine walks_call (.idle b done allOk) fun w r => ?_
  cases r with
  | notified => exact walks_ret rfl
  | finished r =>
    cases r with
    | error e => exact walks_ret rfl
    | ok ev =>
      cases ev with
      | exist count => exact hpending
      | interrupted => exact hpending
      | disconnected => exact walks_ret rfl

/-- The check of UIDVALIDITY ends with the value persisted, or with the session's end. -/
theorem walks_checkUidvalidity (s : Session) :
    Walks S cfg (.selected s) (SessionManager.checkUidvalidity cfg s.status).run fun r ph =>
      match r with
      | .ok () => ph = .validated s
      | .error e => CheckFails e ph := by
  have hpersist : Walks S cfg (.checked s) (update (.session s.status cfg.mailbox)).run fun r ph =>
      match r with
      | .ok () => ph = .validated s
      | .error e => CheckFails e ph :=
    walks_update (.persist s) (fun _ => rfl) fun _ _ => .inl ⟨rfl, by simp [CoreError.Recoverable]⟩
  refine walks_ask (.check s) fun w state => ?_
  cases hcached : state.uidvalidity with
  | none =>
    simp only [Phase.next, hcached]
    exact hpersist
  | some cached =>
    by_cases hne : cached ≠ s.status.uidvalidity
    · simp only [Phase.next, hcached, if_pos hne]
      exact walks_ret (.inr ⟨cached, _, rfl, rfl⟩)
    · simp only [Phase.next, hcached, if_neg hne]
      exact hpersist

theorem walks_seedLastSeenUid (s : Session) :
    Walks S cfg (.validated s) (SessionManager.seedLastSeenUid s.status).run fun r ph =>
      match r with
      | .ok () => ph = .ready s
      | .error _ => ph = .offline := by
  refine walks_ask (.lookUp s) fun w state => ?_
  cases hseen : state.lastSeenUid.isNone with
  | true =>
    simp only [Phase.next, hseen]
    exact walks_update (.seed s) (fun _ => rfl) fun _ _ => rfl
  | false =>
    simp only [Phase.next, hseen]
    exact walks_ret rfl

/-- The IDLE loop of a session. -/
theorem walks_idleLoop {s : Session} {ph : Phase} (h : BatchEnds s (.ok ()) ph) :
    Walks S cfg ph (Prog.loop (fun _ => SessionManager.idleRound cfg s.caps) ()) SessionEnds := by
  refine walks_loop (I := fun _ ph => BatchEnds s (.ok ()) ph) h ?_ ?_
  · rintro _ ph ⟨b, done, allOk, -, rfl⟩
    trivial
  · rintro _ ph ⟨b, done, allOk, rfl, rfl⟩
    refine (walks_idleRound b done allOk).post ?_
    rintro (_ | result) w tr hends
    · exact hends
    · exact .inl hends

theorem walks_session : Walks S cfg .connected (SessionManager.run cfg).run SessionEnds := by
  refine walks_bindExcept (walks_perform .capabilities) ?_ ?_
  · rintro e ph ⟨w, rfl⟩
    exact .inl rfl
  · rintro caps ph ⟨w, rfl⟩
    cases hidle : caps.idle with
    | false =>
      -- the required extension is missing
      simp only [Phase.next, hidle]
      exact walks_ret (.inl rfl)
    | true =>
      -- SELECT, the check of UIDVALIDITY, the seeding, the first batch, the IDLE loop
      simp only [Phase.next, hidle]
      refine walks_bindExcept (walks_perform (.select caps)) ?_ ?_
      · rintro e ph ⟨w, rfl⟩
        exact .inl rfl
      · rintro status ph ⟨w, rfl⟩
        refine walks_bindExcept (walks_checkUidvalidity ⟨caps, status⟩)
          (fun e ph h => h.sessionEnds) ?_
        rintro _ ph rfl
        refine walks_bindExcept (walks_seedLastSeenUid ⟨caps, status⟩) (fun e ph h => .inl h) ?_
        rintro _ ph rfl
        refine walks_bindExcept (walks_processPending ⟨caps, status⟩) (fun e ph h => .inl h) ?_
        rintro _ ph hends
        exact walks_idleLoop (s := ⟨caps, status⟩) hends

/-! ## Section 4: The supervisor -/

theorem walks_waitNextDelay (backoff : Backoff) :
    Walks S cfg .offline (Supervisor.waitNextDelay backoff) fun _ ph => ph = .offline := by
  refine walks_call (.genRange _) fun w r => ?_
  refine walks_call (.sleep _) fun w slept => ?_
  cases slept with
  | notified => exact walks_ret rfl
  | finished u => exact walks_ret rfl

/-- The connect loop ends connected, or offline on shutdown. -/
def ConnectEnds : Option Backoff → Phase → Prop
  | none, ph => ph = .offline
  | some _, ph => ph = .connected

theorem walks_connect (backoff : Backoff) :
    Walks S cfg .offline (Prog.loop Supervisor.connectRound backoff) ConnectEnds := by
  refine walks_loop (I := fun _ ph => ph = .offline) rfl (fun _ _ hph => hph ▸ trivial) ?_
  rintro backoff ph rfl
  refine walks_call .connect fun w r => ?_
  cases r with
  | notified => exact walks_ret rfl
  | finished r =>
    cases r with
    | ok u => exact walks_ret rfl
    | error e =>
      change Walks S cfg .offline (Supervisor.waitNextDelay backoff >>= _) _
      refine walks_bind (walks_waitNextDelay backoff) ?_
      rintro (_ | backoff) ph rfl
      · exact walks_ret rfl
      · exact walks_ret rfl

/-- A round of the reconnect loop goes round offline, or ends it like a session. -/
def ReconnectEnds : Backoff ⊕ Except CoreError Unit → Phase → Prop
  | .inl _, ph => ph = .offline
  | .inr result, ph => SessionEnds result ph

theorem walks_afterSession (backoff : Backoff) {result : Except CoreError Unit} {ph : Phase}
    (h : SessionEnds result ph) :
    Walks S cfg ph (Supervisor.afterSession backoff result) ReconnectEnds := by
  -- what the supervisor does with an error that it survives
  have hwait : ∀ f : Option Backoff → Program (Backoff ⊕ Except CoreError Unit),
      f none = .ret (.inr (.ok ())) → (∀ backoff, f (some backoff) = .ret (.inl backoff)) →
      ph = .offline → Walks S cfg ph (Supervisor.waitNextDelay backoff >>= f) ReconnectEnds := by
    rintro f hnone hsome rfl
    refine walks_bind (walks_waitNextDelay backoff) ?_
    rintro (_ | backoff) ph rfl
    · rw [hnone]
      exact walks_ret (.inl rfl)
    · rw [hsome]
      exact walks_ret rfl
  cases result with
  | ok u => exact walks_ret h
  | error e =>
    cases e with
    | uidValidityChanged cached server => exact walks_ret h
    | _ =>
      -- the catch-all arm
      exact hwait _ rfl (fun _ => rfl) (h.resolve_right (by simp))

/-- The daemon keeps to its protocol. -/
theorem walks_supervisor (cfg : Settings) :
    Walks S cfg .offline (Supervisor.run cfg) SessionEnds := by
  refine walks_loop (I := fun _ ph => ph = .offline) rfl (fun _ _ hph => hph ▸ trivial) ?_
  rintro backoff ph rfl
  refine walks_bind (walks_connect backoff) ?_
  rintro (_ | backoff) ph rfl
  · exact walks_ret (.inl rfl)
  · refine walks_bind walks_session ?_
    intro result ph hends
    refine (walks_afterSession backoff hends).post ?_
    rintro (backoff | result) w tr hends
    · exact hends
    · exact hends

/-! ## Section 5: Invariants of the daemon -/

/-- A process that has not called yet is offline, whatever its settings. -/
theorem phaseOf_of_sinceStart {tr : History} (h : sinceStart tr = []) :
    phaseOf cfg tr = .offline := by
  cases tr with
  | nil => rfl
  | cons e tr =>
    cases e with
    | restarted w => rfl
    | called w c r => cases h

/-- The daemon comes to the world `w` with the trace `tr`. -/
abbrev Comes (S : Surroundings Call Reply World) (cfg : Settings) (w₀ : World) :
    Assertion Call Reply World :=
  Visits S (Supervisor.run cfg) w₀

/-- Runs of the daemon on one state file, started again with other settings each time. -/
abbrev Serves (S : Surroundings Call Reply World) (w₀ : World) (cfg : Settings)
    (x : Config Call Reply World (Except CoreError Unit)) : Prop :=
  Lives S Supervisor.run w₀ cfg x

section Runs

variable {w₀ w : World} {tr : History}

/-- The invariant rule for the daemon under changing settings. -/
theorem serves_invariant {I : Settings → Assertion Call Reply World}
    {x : Config Call Reply World (Except CoreError Unit)} (hx : Serves S w₀ cfg x)
    (hinit : ∀ cfg, I cfg w₀ [])
    (hcall : ∀ cfg p w tr c r w', Serves S w₀ cfg ⟨p, w, tr⟩ → I cfg w tr →
      (phaseOf cfg tr).Allows cfg c → S.answers w c r w' → I cfg w' (.called w c r :: tr))
    (hdrift : ∀ cfg w w' tr, I cfg w tr → S.drifts w w' → I cfg w' tr)
    (hlost : ∀ cfg cfg' w w' tr, I cfg w tr → S.restarts w w' → I cfg' w' (.restarted w :: tr)) :
    I cfg x.world x.trace :=
  hx.invariant (P := fun _ tr => sinceStart tr = []) (K := protocol)
    (Q := fun cfg => EndsIn cfg SessionEnds)
    (fun cfg => (walks_supervisor cfg).pre fun _ _ h => phaseOf_of_sinceStart h)
    rfl (fun _ _ _ _ => rfl) hinit hcall (fun cfg _ w w' tr _ => hdrift cfg w w' tr)
    fun cfg cfg' _ w w' tr _ => hlost cfg cfg' w w' tr

/-- The invariant rule for the daemon: what holds at the start and is preserved by every call
that the phase allows, by drift and by restarts holds wherever the daemon comes. -/
theorem daemon_invariant {I : Assertion Call Reply World} (hx : Comes S cfg w₀ w tr)
    (hinit : I w₀ [])
    (hcall : ∀ w tr c r w', Comes S cfg w₀ w tr → I w tr → (phaseOf cfg tr).Allows cfg c →
      S.answers w c r w' → I w' (.called w c r :: tr))
    (hdrift : ∀ w w' tr, Comes S cfg w₀ w tr → I w tr → S.drifts w w' → I w' tr)
    (hlost : ∀ w w' tr, Comes S cfg w₀ w tr → I w tr → S.restarts w w' →
      I w' (.restarted w :: tr)) : I w tr :=
  hx.invariant (walks_supervisor cfg) rfl (fun _ _ _ _ => rfl) hinit hcall hdrift hlost

/-- What holds of every call when it is made holds of every call of a run. -/
theorem daemon_along {P : World → (c : Call) → Reply c → History → Prop}
    (hx : Comes S cfg w₀ w tr)
    (hcall : ∀ w tr c r w', Comes S cfg w₀ w tr → (phaseOf cfg tr).Allows cfg c →
      S.answers w c r w' → P w c r tr) : Along P tr :=
  daemon_invariant (I := fun _ tr => Along P tr) hx along_nil
    (fun w tr c r w' hat h hallow hans => along_called (hcall w tr c r w' hat hallow hans) h)
    (fun _ _ _ _ h _ => h) fun _ _ _ _ h _ => along_restarted h

/-- Whatever the daemon does next, its phase allows it; where it has returned, its session has
ended. -/
theorem daemon_complies {x : Config Call Reply World (Except CoreError Unit)}
    (hx : Reachable S (Supervisor.run cfg) w₀ x) :
    (protocol cfg).Complies (EndsIn cfg SessionEnds) x :=
  hx.complies (walks_supervisor cfg) rfl fun _ _ _ _ => rfl

end Runs

/-! ## Section 6: Runs to compute with -/

/-- The settings of the sample runs. -/
def sampleSettings (batchSize : Nat) : Settings where
  mailbox := "INBOX"
  smtp := false
  backoffCfg := ⟨1000, 60000, 0⟩
  idleTimeout := 1740000
  batchSize := batchSize

/-- The first `n` steps of a run in which nothing fails. -/
def sampleDaemon (caps : Capabilities) (batchSize : Nat) (w : World) (n : Nat) :
    Config Call Reply World (Except CoreError Unit) :=
  play (World.respond caps) n ⟨Supervisor.run (sampleSettings batchSize), w, []⟩

/-- The run `x` goes on for `n` steps after others changed the server to `server`. -/
def resume (caps : Capabilities) (server : Server)
    (x : Config Call Reply World (Except CoreError Unit)) (n : Nat) :
    Config Call Reply World (Except CoreError Unit) :=
  play (World.respond caps) n ⟨x.prog, { x.world with server := server }, x.trace⟩

/-- The daemon is in IDLE on an empty mailbox when a message arrives, and makes `n` steps. -/
def arrivalRun (n : Nat) : Config Call Reply World (Except CoreError Unit) :=
  resume { idle := true } (sampleServer 1)
    (sampleDaemon { idle := true } 10 (sampleWorld (sampleServer 0) .done) 13) n

section Samples

variable {reg : Regime Call Reply World} {caps : Capabilities} {n : Nat}

theorem reachable_play {main : Program (Except CoreError Unit)} {w : World}
    {x : Config Call Reply World (Except CoreError Unit)}
    (hx : Reachable (daemonWorld.under reg) main w x)
    (hreg : ∀ i < n, reg.admits (World.respond caps) (play (World.respond caps) i x)) :
    Reachable (daemonWorld.under reg) main w (play (World.respond caps) n x) :=
  hx.steps (steps_play (fun w c => answers_respond caps w c) reg n x hreg)

/-- Without a regime any play is a run. -/
theorem reachable_freePlay {main : Program (Except CoreError Unit)} {w : World}
    {x : Config Call Reply World (Except CoreError Unit)} (hx : Reachable daemonWorld main w x) :
    Reachable daemonWorld main w (play (World.respond caps) n x) :=
  hx.steps (steps_play_free (fun w c => answers_respond caps w c) n x)

theorem reachable_sampleDaemon (batchSize : Nat) (w : World)
    (hreg : ∀ i < n, reg.admits (World.respond caps) (sampleDaemon caps batchSize w i)) :
    Reachable (daemonWorld.under reg) (Supervisor.run (sampleSettings batchSize)) w
      (sampleDaemon caps batchSize w n) :=
  reachable_play .start hreg

theorem reachable_resume {main : Program (Except CoreError Unit)} {w : World}
    {x : Config Call Reply World (Except CoreError Unit)}
    (hx : Reachable (daemonWorld.under reg) main w x) (server : Server)
    (hdrift : reg.drift x.world { x.world with server := server })
    (hreg : ∀ i < n, reg.admits (World.respond caps) (resume caps server x i)) :
    Reachable (daemonWorld.under reg) main w (resume caps server x n) :=
  reachable_play (hx.step (.drift ⟨⟨rfl, rfl, rfl, rfl, id, [], by simp⟩, hdrift⟩)) hreg

theorem reachable_arrivalRun
    (hbefore : ∀ i < 13, reg.admits (World.respond { idle := true })
      (sampleDaemon { idle := true } 10 (sampleWorld (sampleServer 0) .done) i))
    (hdrift : ∀ w w', reg.drift w w')
    (hafter : ∀ i < n, reg.admits (World.respond { idle := true }) (arrivalRun i)) :
    Reachable (daemonWorld.under reg) (Supervisor.run (sampleSettings 10))
      (sampleWorld (sampleServer 0) .done) (arrivalRun n) :=
  reachable_resume (reachable_sampleDaemon 10 _ hbefore) (sampleServer 1) (hdrift _ _) hafter

end Samples

end ImapSieve
