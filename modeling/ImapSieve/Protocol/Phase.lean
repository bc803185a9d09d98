import ImapSieve.Effects.Monitor
import ImapSieve.Executor.Operations
import ImapSieve.Session
import ImapSieve.World

/-!
# The Protocol of the Daemon

Where the daemon is can be read off the calls answered so far. `phaseOf` does that: from the
connect loop through the setup of a session and the batches to the execution of one message,
operation by operation. `Phase.Allows` says which calls are made in a phase, and `Phase.next`
where the reply leads; `Phase.Moves` lists the moves that can be, for proofs by cases.

`Supervisor.run` keeps to this protocol in any surroundings, which is proved once, in
`ImapSieve.Protocol.Daemon`. What holds over all runs of the daemon is then proved about
the phases.
-/

namespace ImapSieve

open Effects

/-! ## Section 1: Phases -/

/-- What a session knows after its SELECT. -/
structure Session where
  caps : Capabilities
  status : MailboxStatus

/-- An answered FETCH: the bookmark it started from, the world in which it was answered, and
the answer. -/
structure Fetch extends Session where
  bookmark : Nat
  snapshot : World
  reply : List MessageContext

/-- A batch, with the script it took. -/
structure Batch extends Fetch where
  script : CompiledScript

/-- The messages of the batch: `messages.truncate(self.batch_size)`. -/
def Batch.messages (b : Batch) (cfg : Settings) : List MessageContext := b.reply.take cfg.batchSize

inductive Phase where
  /-- In the connect loop or waiting for a delay. -/
  | offline
  | connected
  | capable (caps : Capabilities)
  /-- SELECT was answered; the cached UIDVALIDITY is to be checked. -/
  | selected (s : Session)
  /-- The UIDVALIDITY did not match: nothing may follow. -/
  | stopped (cached server : Nat)
  /-- The UIDVALIDITY is to be persisted. -/
  | checked (s : Session)
  /-- The UIDVALIDITY is persisted; the bookmark is to be looked up. -/
  | validated (s : Session)
  | seeding (s : Session)
  /-- A batch is to be run. -/
  | ready (s : Session)
  /-- The state was read; FETCH is next. -/
  | ranged (s : Session) (state : State) (bookmark : Nat)
  | fetched (f : Fetch)
  /-- The messages `done` are processed, `msg` is to be evaluated. -/
  | evaluating (b : Batch) (done : List MessageContext) (msg : MessageContext)
      (rest : List MessageContext)
  /-- The operations `ops` of `msg` are left to do. -/
  | executing (b : Batch) (done : List MessageContext) (msg : MessageContext)
      (rest : List MessageContext) (actions : List SieveAction) (ops : List Op)
  /-- `msg` was executed; the bookmark is to be advanced. -/
  | advancing (b : Batch) (done : List MessageContext) (msg : MessageContext)
      (rest : List MessageContext)
  /-- The batch is over, with every result `Ok` or not; IDLE is next. -/
  | idling (b : Batch) (done : List MessageContext) (allOk : Bool)

/-- Go on with the messages left in the batch. -/
def Phase.enter (b : Batch) (done : List MessageContext) : List MessageContext → Phase
  | [] => .idling b done true
  | msg :: rest => .evaluating b done msg rest

/-! ## Section 2: Transitions -/

/-- The phase after the call `c` was answered with `r` in the world `w`. A reply that ends the
session leads back to the connect loop. -/
def Phase.next (cfg : Settings) (ph : Phase) (w : World) (c : Call) (r : Reply c) : Phase :=
  match ph with
  | .offline =>
      match c, r with
      | .connect, .finished (.ok ()) => .connected
      | _, _ => .offline
  | .connected =>
      match c, r with
      | .capabilities, .ok caps => if caps.idle then .capable caps else .offline
      | _, _ => .offline
  | .capable caps =>
      match c, r with
      | .select _, .ok status => .selected ⟨caps, status⟩
      | _, _ => .offline
  | .selected s =>
      match c, r with
      | .state, state =>
          match state.uidvalidity with
          | some cached =>
              if cached ≠ s.status.uidvalidity then .stopped cached s.status.uidvalidity
              else .checked s
          | none => .checked s
      | _, _ => .offline
  | .stopped cached server => .stopped cached server
  | .checked s =>
      match c, r with
      | .update _, .ok () => .validated s
      | _, _ => .offline
  | .validated s =>
      match c, r with
      | .state, state => if state.lastSeenUid.isNone then .seeding s else .ready s
      | _, _ => .offline
  | .seeding s =>
      match c, r with
      | .update _, .ok () => .ready s
      | _, _ => .offline
  | .ready s =>
      match c, r with
      | .state, state =>
          match state.lastSeenUid with
          | some uid => .ranged s state uid
          | none => .offline
      | _, _ => .offline
  | .ranged s _ bookmark =>
      match c, r with
      | .fetchUidRange _ _ _, .ok reply => .fetched ⟨s, bookmark, w, reply⟩
      | _, _ => .offline
  | .fetched f =>
      match c, r with
      | .currentScript, script => .enter ⟨f, script⟩ [] (f.reply.take cfg.batchSize)
      | _, _ => .offline
  | .evaluating b done msg rest =>
      match c, r with
      | .evaluate _ _, .ok actions =>
          .executing b done msg rest actions
            ((cfg.processor b.caps).executor.operations msg actions)
      | _, _ => .idling b done false
  | .executing b done msg rest actions ops =>
      match c, r with
      | .executed _ (.ok ()), () => .advancing b done msg rest
      | .executed _ (.error _), () => .idling b done false
      | c, r => .executing b done msg rest actions (proceed ops c r)
  | .advancing b done msg rest =>
      match c, r with
      | .update _, .ok () => .enter b (done ++ [msg]) rest
      | _, _ => .offline
  | .idling b _ _ =>
      match c, r with
      | .idle _, .finished (.ok (.exist _)) => .ready b.toSession
      | .idle _, .finished (.ok .interrupted) => .ready b.toSession
      | _, _ => .offline

/-- The call may be made in the phase. -/
inductive Phase.Allows (cfg : Settings) : Phase → Call → Prop where
  | connect : Allows cfg .offline .connect
  | genRange (jitter : ℚ) : Allows cfg .offline (.genRange jitter)
  | sleep (delay : Nat) : Allows cfg .offline (.sleep delay)
  | capabilities : Allows cfg .connected .capabilities
  | select (caps : Capabilities) : Allows cfg (.capable caps) (.select cfg.mailbox)
  | check (s : Session) : Allows cfg (.selected s) .state
  | persist (s : Session) : Allows cfg (.checked s) (.update (.session s.status cfg.mailbox))
  | lookUp (s : Session) : Allows cfg (.validated s) .state
  | seed (s : Session) : Allows cfg (.seeding s) (.update (.seed (s.status.uidnext - 1)))
  | read (s : Session) : Allows cfg (.ready s) .state
  | fetch (s : Session) (state : State) (bookmark : Nat) :
      Allows cfg (.ranged s state bookmark)
        (.fetchUidRange cfg.mailbox (MessageProcessor.startUid bookmark)
          ((cfg.processor s.caps).changedSince state))
  | script (f : Fetch) : Allows cfg (.fetched f) .currentScript
  | evaluate (b : Batch) (done : List MessageContext) (msg : MessageContext)
      (rest : List MessageContext) :
      Allows cfg (.evaluating b done msg rest) (.evaluate b.script msg)
  | perform {b : Batch} {done : List MessageContext} {msg : MessageContext}
      {rest : List MessageContext} {actions : List SieveAction} {ops : List Op} {c : Call}
      (h : nextCall ops = some c) : Allows cfg (.executing b done msg rest actions ops) c
  | executed {b : Batch} {done : List MessageContext} {msg : MessageContext}
      {rest : List MessageContext} {actions : List SieveAction} {ops : List Op}
      (h : nextCall ops = none) :
      Allows cfg (.executing b done msg rest actions ops) (.executed msg.uid (outcome ops))
  | advance (b : Batch) (done : List MessageContext) (msg : MessageContext)
      (rest : List MessageContext) :
      Allows cfg (.advancing b done msg rest) (.update (.advance msg.uid))
  | idle (b : Batch) (done : List MessageContext) (allOk : Bool) :
      Allows cfg (.idling b done allOk) (.idle cfg.idleTimeout)

/-- The loops of the supervisor start their rounds offline, that of a session before IDLE. -/
def Phase.Loops : Phase → Prop
  | .offline | .idling _ _ _ => True
  | _ => False

/-! ## Section 3: Where a call is made -/

section Allows

variable {cfg : Settings} {ph : Phase}

theorem offline_of_connect (h : ph.Allows cfg .connect) : ph = .offline := by
  cases h with
  | connect => rfl
  | perform hnext => cases ofOp_of_nextCall hnext

theorem capable_of_select {mailbox : String} (h : ph.Allows cfg (.select mailbox)) :
    ∃ caps, ph = .capable caps ∧ mailbox = cfg.mailbox := by
  cases h with
  | select caps => exact ⟨caps, rfl, rfl⟩
  | perform hnext => cases ofOp_of_nextCall hnext

theorem checked_of_session {status : MailboxStatus} {mailbox : String}
    (h : ph.Allows cfg (.update (.session status mailbox))) :
    ∃ s, ph = .checked s ∧ status = s.status ∧ mailbox = cfg.mailbox := by
  cases h with
  | persist s => exact ⟨s, rfl, rfl, rfl⟩
  | perform hnext => cases ofOp_of_nextCall hnext

theorem seeding_of_seed {uid : Nat} (h : ph.Allows cfg (.update (.seed uid))) :
    ∃ s, ph = .seeding s ∧ uid = s.status.uidnext - 1 := by
  cases h with
  | seed s => exact ⟨s, rfl, rfl⟩
  | perform hnext => cases ofOp_of_nextCall hnext

theorem advancing_of_advance {uid : Nat} (h : ph.Allows cfg (.update (.advance uid))) :
    ∃ b done msg rest, ph = .advancing b done msg rest ∧ uid = msg.uid := by
  cases h with
  | advance b done msg rest => exact ⟨b, done, msg, rest, rfl, rfl⟩
  | perform hnext => cases ofOp_of_nextCall hnext

theorem ranged_of_fetch {mailbox : String} {start : Nat} {since : Option Nat}
    (h : ph.Allows cfg (.fetchUidRange mailbox start since)) :
    ∃ s state bookmark, ph = .ranged s state bookmark ∧ mailbox = cfg.mailbox ∧
      start = MessageProcessor.startUid bookmark ∧
      since = (cfg.processor s.caps).changedSince state := by
  cases h with
  | fetch s state bookmark => exact ⟨s, state, bookmark, rfl, rfl, rfl, rfl⟩
  | perform hnext => cases ofOp_of_nextCall hnext

theorem evaluating_of_evaluate {script : CompiledScript} {msg : MessageContext}
    (h : ph.Allows cfg (.evaluate script msg)) :
    ∃ b done rest, ph = .evaluating b done msg rest ∧ script = b.script := by
  cases h with
  | evaluate b done msg rest => exact ⟨b, done, rest, rfl, rfl⟩
  | perform hnext => cases ofOp_of_nextCall hnext

theorem idling_of_idle {timeout : Nat} (h : ph.Allows cfg (.idle timeout)) :
    ∃ b done allOk, ph = .idling b done allOk := by
  cases h with
  | idle b done allOk => exact ⟨b, done, allOk, rfl⟩
  | perform hnext => cases ofOp_of_nextCall hnext

/-- Success is reported for the message that is executed. -/
theorem executing_of_executed {uid : Nat} {result : Except CoreError Unit}
    (h : ph.Allows cfg (.executed uid result)) :
    ∃ b done msg rest actions ops, ph = .executing b done msg rest actions ops ∧ uid = msg.uid ∧
      result = outcome ops := by
  generalize hc : Call.executed uid result = c at h
  cases h with
  | executed hnone =>
    cases hc
    exact ⟨_, _, _, _, _, _, rfl, rfl, rfl⟩
  | perform hnext =>
    subst hc
    cases ofOp_of_nextCall hnext
  | _ => cases hc

end Allows

/-! ## Section 4: Where a call leads -/

/-- What a call with its reply may lead to. -/
inductive Phase.Moves (cfg : Settings) (w : World) :
    Phase → (c : Call) → Reply c → Phase → Prop where
  /-- The daemon is in the connect loop, or goes back to it. -/
  | offline {ph : Phase} {c : Call} {r : Reply c} : Moves cfg w ph c r .offline
  | connected : Moves cfg w .offline .connect (.finished (.ok ())) .connected
  | capable {caps : Capabilities} (h : caps.idle = true) :
      Moves cfg w .connected .capabilities (.ok caps) (.capable caps)
  | selected {caps : Capabilities} (status : MailboxStatus) :
      Moves cfg w (.capable caps) (.select cfg.mailbox) (.ok status) (.selected ⟨caps, status⟩)
  | stopped {s : Session} {state : State} {cached : Nat} (h : state.uidvalidity = some cached)
      (hne : cached ≠ s.status.uidvalidity) :
      Moves cfg w (.selected s) .state state (.stopped cached s.status.uidvalidity)
  | checked {s : Session} {state : State}
      (h : ∀ cached, state.uidvalidity = some cached → cached = s.status.uidvalidity) :
      Moves cfg w (.selected s) .state state (.checked s)
  | validated (s : Session) :
      Moves cfg w (.checked s) (.update (.session s.status cfg.mailbox)) (.ok ()) (.validated s)
  | unseeded {s : Session} {state : State} (h : state.lastSeenUid = none) :
      Moves cfg w (.validated s) .state state (.seeding s)
  | resumed {s : Session} {state : State} {uid : Nat} (h : state.lastSeenUid = some uid) :
      Moves cfg w (.validated s) .state state (.ready s)
  | seeded (s : Session) :
      Moves cfg w (.seeding s) (.update (.seed (s.status.uidnext - 1))) (.ok ()) (.ready s)
  | ranged {s : Session} {state : State} {uid : Nat} (h : state.lastSeenUid = some uid) :
      Moves cfg w (.ready s) .state state (.ranged s state uid)
  | fetched {s : Session} {state : State} {bookmark : Nat} (reply : List MessageContext) :
      Moves cfg w (.ranged s state bookmark)
        (.fetchUidRange cfg.mailbox (MessageProcessor.startUid bookmark)
          ((cfg.processor s.caps).changedSince state)) (.ok reply)
        (.fetched ⟨s, bookmark, w, reply⟩)
  | taken {f : Fetch} (script : CompiledScript) :
      Moves cfg w (.fetched f) .currentScript script
        (.enter ⟨f, script⟩ [] (f.reply.take cfg.batchSize))
  | evaluated {b : Batch} {done : List MessageContext} {msg : MessageContext}
      {rest : List MessageContext} (actions : List SieveAction) :
      Moves cfg w (.evaluating b done msg rest) (.evaluate b.script msg) (.ok actions)
        (.executing b done msg rest actions
          ((cfg.processor b.caps).executor.operations msg actions))
  | unevaluated {b : Batch} {done : List MessageContext} {msg : MessageContext}
      {rest : List MessageContext} (e : SieveError) :
      Moves cfg w (.evaluating b done msg rest) (.evaluate b.script msg) (.error e)
        (.idling b done false)
  | performed {b : Batch} {done : List MessageContext} {msg : MessageContext}
      {rest : List MessageContext} {actions : List SieveAction} {ops : List Op} {c : Call}
      {r : Reply c} (h : nextCall ops = some c) :
      Moves cfg w (.executing b done msg rest actions ops) c r
        (.executing b done msg rest actions (proceed ops c r))
  | executed {b : Batch} {done : List MessageContext} {msg : MessageContext}
      {rest : List MessageContext} {actions : List SieveAction} {ops : List Op} {r : Unit} :
      Moves cfg w (.executing b done msg rest actions ops) (.executed msg.uid (.ok ())) r
        (.advancing b done msg rest)
  | unexecuted {b : Batch} {done : List MessageContext} {msg : MessageContext}
      {rest : List MessageContext} {actions : List SieveAction} {ops : List Op} (e : CoreError)
      {r : Unit} :
      Moves cfg w (.executing b done msg rest actions ops) (.executed msg.uid (.error e)) r
        (.idling b done false)
  | advanced {b : Batch} {done : List MessageContext} {msg : MessageContext}
      {rest : List MessageContext} :
      Moves cfg w (.advancing b done msg rest) (.update (.advance msg.uid)) (.ok ())
        (.enter b (done ++ [msg]) rest)
  /-- IDLE has ended and the connection still stands. -/
  | woken {b : Batch} {done : List MessageContext} {allOk : Bool} {ev : IdleEvent} :
      Moves cfg w (.idling b done allOk) (.idle cfg.idleTimeout) (.finished (.ok ev))
        (.ready b.toSession)

theorem next_executing {b : Batch} {done rest : List MessageContext} {msg : MessageContext}
    {actions : List SieveAction} {ops : List Op} {cfg : Settings} {w : World} {c : Call}
    (h : nextCall ops = some c) (r : Reply c) :
    (Phase.executing b done msg rest actions ops).next cfg w c r =
      .executing b done msg rest actions (proceed ops c r) := by
  have hop := ofOp_of_nextCall h
  cases c <;> first | rfl | cases hop

/-- A call that is allowed leads where the moves say. -/
theorem moves_next {cfg : Settings} {ph : Phase} {w : World} {c : Call} {r : Reply c}
    (hallow : ph.Allows cfg c) : ph.Moves cfg w c r (ph.next cfg w c r) := by
  cases hallow with
  | connect =>
    rcases r with _ | e | u
    · exact .offline
    · exact .offline
    · exact .connected
  | genRange jitter => exact .offline
  | sleep delay => exact .offline
  | capabilities =>
    rcases r with e | caps
    · exact .offline
    · simp only [Phase.next]
      split
      · next hidle => exact .capable hidle
      · exact .offline
  | select caps =>
    rcases r with e | status
    · exact .offline
    · exact .selected status
  | check s =>
    simp only [Phase.next]
    split
    · next cached hcached =>
      split
      · next hne => exact .stopped hcached hne
      · next heq =>
        refine .checked fun c hc => ?_
        rw [hcached] at hc
        cases hc
        exact not_not.mp heq
    · next hnone =>
      refine .checked fun c hc => ?_
      rw [hnone] at hc
      cases hc
  | persist s =>
    rcases r with e | u
    · exact .offline
    · exact .validated s
  | lookUp s =>
    simp only [Phase.next]
    split
    · next hnone => exact .unseeded (Option.isNone_iff_eq_none.mp hnone)
    · next hsome =>
      obtain ⟨uid, huid⟩ := Option.ne_none_iff_exists'.mp (by simpa using hsome)
      exact .resumed huid
  | seed s =>
    rcases r with e | u
    · exact .offline
    · exact .seeded s
  | read s =>
    simp only [Phase.next]
    split
    · next uid huid => exact .ranged huid
    · exact .offline
  | fetch s state bookmark =>
    rcases r with e | reply
    · exact .offline
    · exact .fetched reply
  | script f => exact .taken r
  | evaluate b done msg rest =>
    rcases r with e | actions
    · exact .unevaluated e
    · exact .evaluated actions
  | perform hnext =>
    rw [next_executing hnext]
    exact .performed hnext
  | @executed b done msg rest actions ops hnone =>
    -- the result that is reported is a variable here: it decides between two moves
    generalize outcome ops = result at r ⊢
    cases result with
    | error e => exact .unexecuted e
    | ok u => exact .executed
  | advance b done msg rest =>
    rcases r with e | u
    · exact .offline
    · exact .advanced
  | idle b done allOk =>
    rcases r with _ | e | ev
    · exact .offline
    · exact .offline
    · cases ev with
      | exist count => exact .woken
      | interrupted => exact .woken
      | disconnected => exact .offline

/-! ## Section 5: The phase of a trace -/

/-- The phase after the calls answered so far. -/
def phaseOf (cfg : Settings) : History → Phase
  | [] => .offline
  | .restarted _ :: _ => .offline
  | .called w c r :: tr => (phaseOf cfg tr).next cfg w c r

@[simp] theorem phaseOf_nil (cfg : Settings) : phaseOf cfg [] = .offline := rfl

@[simp] theorem phaseOf_restarted (cfg : Settings) (w : World) (tr : History) :
    phaseOf cfg (.restarted w :: tr) = .offline := rfl

@[simp] theorem phaseOf_called (cfg : Settings) (w : World) (c : Call) (r : Reply c)
    (tr : History) :
    phaseOf cfg (.called w c r :: tr) = (phaseOf cfg tr).next cfg w c r := rfl

/-- The protocol as a contract: calls are those of the phase, and rounds of loops start where
the phase lets them. -/
def protocol (cfg : Settings) : Contract Call Reply World where
  allows c _ tr := (phaseOf cfg tr).Allows cfg c
  loops _ tr := (phaseOf cfg tr).Loops

/-- The protocol as a monitor. -/
def phases (cfg : Settings) : Monitor Call Reply World Phase where
  start := .offline
  next := Phase.next cfg
  allows ph c := ph.Allows cfg c
  loops := Phase.Loops

@[simp] theorem state_phases (cfg : Settings) (tr : History) :
    (phases cfg).state tr = phaseOf cfg tr := by
  induction tr with
  | nil => rfl
  | cons e tr ih =>
    cases e with
    | restarted w => rfl
    | called w c r =>
      simp only [Monitor.state, phaseOf_called, ih]
      rfl

end ImapSieve
