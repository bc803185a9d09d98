import ImapSieve.Protocol.Known

/-!
# UIDVALIDITY and the Growth of the State

The state file only ever grows: a persisted UIDVALIDITY stays, and the UID bookmark never
goes back (`State.Extends`). A session whose SELECT reports another UIDVALIDITY than the
cached one reads the state and ends the supervisor.

Nothing is assumed about the server here, and any state write may fail.
-/

namespace ImapSieve

open Effects

/-! ## Section 1: Growth of the state -/

/-- What is set in `s` is set in `s'`: the UIDVALIDITY to the same value, the bookmark to one
at least as high. -/
structure State.Extends (s s' : State) : Prop where
  uidvalidity : ∀ v, s.uidvalidity = some v → s'.uidvalidity = some v
  lastSeenUid : ∀ u, s.lastSeenUid = some u → ∃ u', s'.lastSeenUid = some u' ∧ u ≤ u'

theorem State.Extends.refl (s : State) : s.Extends s :=
  ⟨fun _ h => h, fun u h => ⟨u, h, le_rfl⟩⟩

theorem State.Extends.trans {s₁ s₂ s₃ : State} (h₁ : s₁.Extends s₂) (h₂ : s₂.Extends s₃) :
    s₁.Extends s₃ where
  uidvalidity v hv := h₂.uidvalidity v (h₁.uidvalidity v hv)
  lastSeenUid u hu := by
    obtain ⟨u₂, hu₂, hle₂⟩ := h₁.lastSeenUid u hu
    obtain ⟨u₃, hu₃, hle₃⟩ := h₂.lastSeenUid u₂ hu₂
    exact ⟨u₃, hu₃, hle₂.trans hle₃⟩

section Steps

variable {cfg : Settings} {ph : Phase} {w w' : World} {tr : History} {c : Call} {r : Reply c}

/-- Every update of the daemon lets the state grow. -/
theorem extends_apply (hsound : ph.Sound cfg w tr) {change : StateChange}
    (hallow : ph.Allows cfg (.update change)) : w.memory.Extends (change.apply w.memory) := by
  cases hallow with
  | persist s =>
    refine ⟨fun v hv => ?_, fun u hu => ⟨u, hu, le_rfl⟩⟩
    rw [apply_session_uidvalidity, hsound.2 v hv]
  | seed s =>
    refine ⟨fun v hv => hv, fun u hu => ?_⟩
    rw [hsound.2] at hu
    cases hu
  | perform hnext =>
    cases ofOp_of_nextCall hnext
  | advance b done msg rest =>
    refine ⟨fun v hv => hv, fun u hu => ⟨_, apply_advance_lastSeenUid _ _, ?_⟩⟩
    rw [hu, Option.getD_some]
    exact le_max_right _ _

/-- Only updates change what is stored. -/
theorem World.Answers.stored (h : w.Answers c r w') (hc : ∀ change, c ≠ .update change) :
    w'.memory = w.memory ∧ w'.disk = w.disk := by
  cases h.writes with
  | updated disk => exact absurd rfl (hc _)
  | _ => exact ⟨rfl, rfl⟩

/-- What a step may do to the state: memory and disk grow, and the disk stays behind the
memory. -/
structure World.Grows (w w' : World) : Prop where
  memory : w.memory.Extends w'.memory
  disk : w.disk.Extends w'.disk
  behind : w'.disk.Extends w'.memory

theorem grows_of_stored (hbehind : w.disk.Extends w.memory)
    (h : w'.memory = w.memory ∧ w'.disk = w.disk) : w.Grows w' := by
  refine ⟨?_, ?_, ?_⟩
  · rw [h.1]
    exact .refl _
  · rw [h.2]
    exact .refl _
  · rw [h.1, h.2]
    exact hbehind

theorem memory_extends (hsound : ph.Sound cfg w tr) (hallow : ph.Allows cfg c)
    (hans : w.Answers c r w') : w.memory.Extends w'.memory := by
  by_cases hupdate : ∃ change, c = .update change
  · obtain ⟨change, rfl⟩ := hupdate
    rw [hans.update.2.2.1]
    exact extends_apply hsound hallow
  · rw [(hans.stored fun change hc => hupdate ⟨change, hc⟩).1]
    exact .refl _

theorem grows_call (hsound : ph.Sound cfg w tr) (hallow : ph.Allows cfg c)
    (hans : w.Answers c r w') (hbehind : w.disk.Extends w.memory) : w.Grows w' := by
  have hmemory := memory_extends hsound hallow hans
  by_cases hupdate : ∃ change, c = .update change
  · obtain ⟨change, rfl⟩ := hupdate
    obtain ⟨-, -, -, ⟨-, hdisk⟩ | ⟨-, hdisk⟩⟩ := hans.update
    · exact ⟨hmemory, hdisk ▸ hbehind.trans hmemory, hdisk ▸ .refl _⟩
    · exact ⟨hmemory, hdisk ▸ .refl _, hdisk ▸ hbehind.trans hmemory⟩
  · exact grows_of_stored hbehind (hans.stored fun change hc => hupdate ⟨change, hc⟩)

end Steps

/-! ## Section 2: Growth over runs -/

/-- The process has just loaded its state file. -/
def World.Loaded (w : World) : Prop := w.memory = w.disk

section Runs

variable {S : Surroundings Call Reply World} {cfg : Settings} {w₀ w : World} {tr : History}
  {x y : Config Call Reply World (Except CoreError Unit)}

/-- The disk stays behind the memory. -/
theorem disk_extends_memory (hS : Admissible S) (hload : w₀.Loaded) (hx : Comes S cfg w₀ w tr) :
    w.disk.Extends w.memory := by
  refine daemon_invariant (I := fun w _ => w.disk.Extends w.memory) hx ?_ ?_ ?_ ?_
  · rw [hload]
    exact .refl _
  · intro w tr c r w' hat h hallow hans
    exact (grows_call (daemon_sound hS hat) hallow (hS.answers hans) h).behind
  · intro w w' tr _ h hdrift
    exact (grows_of_stored h ⟨(hS.drifts hdrift).memory, (hS.drifts hdrift).disk⟩).behind
  · intro w w' tr _ _ hr
    cases hS.restarts hr
    exact .refl _

/-- The state file grows with every step. -/
theorem disk_extends_of_moves (hS : Admissible S) (hload : w₀.Loaded)
    (hx : Reachable S (Supervisor.run cfg) w₀ x) (h : Moves S (Supervisor.run cfg) x y) :
    x.world.disk.Extends y.world.disk := by
  have hbehind := disk_extends_memory hS hload hx.visits
  have hsound := daemon_sound hS hx.visits
  have hcomp := daemon_complies hx
  cases h with
  | step hstep =>
    cases hstep with
    | call hans => exact (grows_call hsound hcomp (hS.answers hans) hbehind).disk
    | unroll => exact .refl _
    | drift hdrift =>
      rw [(hS.drifts hdrift).disk]
      exact .refl _
  | restart hr =>
    cases hS.restarts hr
    exact .refl _

theorem disk_extends (hS : Admissible S) (hload : w₀.Loaded)
    (hx : Reachable S (Supervisor.run cfg) w₀ x) (h : Continues S (Supervisor.run cfg) x y) :
    x.world.disk.Extends y.world.disk := by
  induction h with
  | refl => exact .refl _
  | tail hpath hmove ih =>
    exact ih.trans (disk_extends_of_moves hS hload (hx.continues hpath) hmove)

end Runs

/-! ## Section 3: The SELECT of a session -/

/-- The status that the latest SELECT of the process reported. -/
def lastSelect : History → Option MailboxStatus
  | [] => none
  | .restarted _ :: _ => none
  | .called _ c r :: tr =>
      match c, r with
      | .select _, .ok status => some status
      | _, _ => lastSelect tr

theorem lastSelect_called {w : World} {c : Call} {r : Reply c} {tr : History}
    (hc : ∀ mailbox, c ≠ .select mailbox) : lastSelect (.called w c r :: tr) = lastSelect tr := by
  cases c with
  | select mailbox => exact absurd rfl (hc mailbox)
  | _ => rfl

section Runs

variable {S : Surroundings Call Reply World} {cfg : Settings} {w₀ w : World} {tr : History}

/-- The session of a phase is the one that the latest SELECT began. -/
theorem serves_lastSelect {x : Config Call Reply World (Except CoreError Unit)}
    (hx : Serves S w₀ cfg x) {s : Session}
    (hs : (phaseOf cfg x.trace).known.session? = some s) : lastSelect x.trace = some s.status := by
  have h : ∀ s, (phaseOf cfg x.trace).known.session? = some s →
      lastSelect x.trace = some s.status := by
    refine serves_invariant (I := fun cfg _ tr =>
      ∀ s, (phaseOf cfg tr).known.session? = some s → lastSelect tr = some s.status) hx ?_ ?_ ?_ ?_
    · intro cfg s hs
      cases hs
    · intro cfg p w tr c r w' _ h hallow _ s hknown
      rw [phaseOf_called] at hknown
      have hlearns := learns_next (w := w) (r := r) hallow
      generalize ((phaseOf cfg tr).next cfg w c r).known = k at hknown hlearns
      -- the session stays until the next SELECT, also over FETCHes and IDLE
      cases hlearns with
      | nothing => cases hknown
      | same hc => rw [lastSelect_called hc, h s hknown]
      | back hph => rw [lastSelect_called (by simp), h s (by rw [hph]; exact hknown)]
      | caps caps => cases hknown
      | session status hph =>
        cases hknown
        rfl
      | fetch reply hph => rw [lastSelect_called (by simp), h s (by rw [hph]; exact hknown)]
    · intro cfg w w' tr h _
      exact h
    · intro cfg cfg' w w' tr _ _ s hs
      cases hs
  exact h s hs

theorem lastSelect_session (hx : Comes S cfg w₀ w tr) {s : Session}
    (hs : (phaseOf cfg tr).known.session? = some s) : lastSelect tr = some s.status := by
  obtain ⟨p, hx⟩ := hx
  exact serves_lastSelect hx.lives hs

/-- The calls that act on messages: IMAP commands and sends. -/
def Call.acts : Call → Bool
  | .command _ | .send _ => true
  | _ => false

/-- Messages are acted on while one of them is executed. -/
theorem executing_of_acts {ph : Phase} {c : Call} (hallow : ph.Allows cfg c) (hc : c.acts = true) :
    ∃ b done msg rest actions ops, ph = .executing b done msg rest actions ops ∧
      nextCall ops = some c := by
  cases hallow with
  | perform hnext => exact ⟨_, _, _, _, _, _, rfl, hnext⟩
  | _ => cases hc

/-! ## Section 4: Sessions with another UIDVALIDITY -/

/-- The trace `new` after a SELECT that was answered in the world `w₁` and did not match: the
state is read once, and nothing is stored. -/
def Mismatched (cfg : Settings) (w₁ : World) (cached : Nat) (status : MailboxStatus)
    (new : History) (w : World) (tr : History) : Prop :=
  w.memory = w₁.memory ∧ w.disk = w₁.disk ∧
    ((new = [] ∧ ∃ caps, phaseOf cfg tr = .selected ⟨caps, status⟩) ∨
      ∃ w₂, new = [.called w₂ .state w₁.memory] ∧
        phaseOf cfg tr = .stopped cached status.uidvalidity)

theorem mismatched (hS : Admissible S) {w₁ : World} {mailbox : String} {status : MailboxStatus}
    {cached : Nat} {before : History} (hcached : w₁.memory.uidvalidity = some cached)
    (hne : cached ≠ status.uidvalidity) (hx : Comes S cfg w₀ w tr) :
    ∀ new : History, tr = new ++ .called w₁ (.select mailbox) (.ok status) :: before →
      (∀ e ∈ new, e.isCall = true) → Mismatched cfg w₁ cached status new w tr := by
  refine daemon_invariant (I := fun w tr => ∀ new : History,
    tr = new ++ .called w₁ (.select mailbox) (.ok status) :: before →
      (∀ e ∈ new, e.isCall = true) → Mismatched cfg w₁ cached status new w tr) hx ?_ ?_ ?_ ?_
  · intro new htrace
    simp at htrace
  · intro w tr c r w' _ h hallow hans new htrace hcalls
    cases new with
    | nil =>
      -- the SELECT itself
      obtain ⟨hentry, rfl⟩ := List.cons.inj htrace
      cases hentry
      have hstored := (hS.answers hans).stored (by simp)
      refine ⟨hstored.1, hstored.2, .inl ⟨rfl, ?_⟩⟩
      rw [phaseOf_called]
      obtain ⟨caps, hph, -⟩ := capable_of_select hallow
      exact ⟨caps, by rw [hph]; rfl⟩
    | cons e new =>
      obtain ⟨rfl, rfl⟩ := List.cons.inj htrace
      obtain ⟨hmemory, hdisk, ⟨rfl, caps, hph⟩ | ⟨w₂, rfl, hph⟩⟩ :=
        h new rfl fun e he => hcalls e (List.mem_cons_of_mem _ he)
      · -- the state is read, and the cached value found
        rw [hph] at hallow
        cases hallow with
        | check s =>
          obtain ⟨rfl, rfl⟩ := hS.answers hans
          refine ⟨hmemory, hdisk, .inr ⟨w', by rw [hmemory], ?_⟩⟩
          rw [phaseOf_called, hph]
          simp only [Phase.next, hmemory, hcached, if_pos hne]
      · rw [hph] at hallow
        cases hallow
  · intro w w' tr _ h hdrift new htrace hcalls
    obtain ⟨hmemory, hdisk, hnew⟩ := h new htrace hcalls
    exact ⟨(hS.drifts hdrift).memory.trans hmemory, (hS.drifts hdrift).disk.trans hdisk, hnew⟩
  · intro w w' tr _ _ _ new htrace hcalls
    cases new with
    | nil => cases htrace
    | cons e new =>
      obtain ⟨rfl, -⟩ := List.cons.inj htrace
      cases hcalls _ List.mem_cons_self

end Runs

/-- The program that is left in the phase `selected` reads the state next. -/
theorem prog_of_selected {S : Surroundings Call Reply World} {cfg : Settings} {w₀ : World}
    {x : Config Call Reply World (Except CoreError Unit)}
    (hx : Reachable S (Supervisor.run cfg) w₀ x) {s : Session}
    (hph : phaseOf cfg x.trace = .selected s) : ∃ k, x.prog = .call .state k := by
  have hcomp := daemon_complies hx
  obtain ⟨p, w, tr⟩ := x
  cases p with
  | ret a =>
    rcases (hcomp : SessionEnds a (phaseOf cfg tr)) with hoff | ⟨c, s, hstop, -⟩
    · rw [hph] at hoff
      cases hoff
    · rw [hph] at hstop
      cases hstop
  | call c k =>
    have hallow : (phaseOf cfg tr).Allows cfg c := hcomp
    rw [hph] at hallow
    cases hallow with
    | check s => exact ⟨k, rfl⟩
  | iter body s k =>
    have hloops : (phaseOf cfg tr).Loops := hcomp
    rw [hph] at hloops
    exact hloops.elim

/-- In the phase `stopped` the supervisor has returned the error. -/
theorem prog_of_stopped {S : Surroundings Call Reply World} {cfg : Settings} {w₀ : World}
    {x : Config Call Reply World (Except CoreError Unit)}
    (hx : Reachable S (Supervisor.run cfg) w₀ x) {cached server : Nat}
    (hph : phaseOf cfg x.trace = .stopped cached server) :
    x.prog = .ret (.error (.uidValidityChanged cached server)) := by
  have hcomp := daemon_complies hx
  obtain ⟨p, w, tr⟩ := x
  cases p with
  | ret a =>
    rcases (hcomp : SessionEnds a (phaseOf cfg tr)) with hoff | ⟨c, s, hstop, hresult⟩
    · rw [hph] at hoff
      cases hoff
    · rw [hph] at hstop
      cases hstop
      rw [hresult]
  | call c k =>
    have hallow : (phaseOf cfg tr).Allows cfg c := hcomp
    rw [hph] at hallow
    cases hallow
  | iter body s k =>
    have hloops : (phaseOf cfg tr).Loops := hcomp
    rw [hph] at hloops
    exact hloops.elim

/-- UIDVALIDITY guard and monotone state. The state file only grows; after a SELECT that does
not match the cached UIDVALIDITY the daemon reads the state and returns the error; messages
are acted on only after a SELECT that reported the persisted value. -/
theorem uidvalidity_guard (cfg : Settings) (w₀ : World) (hload : w₀.Loaded)
    (x : Config Call Reply World (Except CoreError Unit))
    (hx : Reachable daemonWorld (Supervisor.run cfg) w₀ x) :
    (∀ y, Continues daemonWorld (Supervisor.run cfg) x y → x.world.disk.Extends y.world.disk) ∧
    (∀ new w₁ mailbox status tr cached,
      x.trace = new ++ .called w₁ (.select mailbox) (.ok status) :: tr →
      (∀ e ∈ new, e.isCall = true) → w₁.memory.uidvalidity = some cached →
      cached ≠ status.uidvalidity →
        x.world.memory = w₁.memory ∧ x.world.disk = w₁.disk ∧
        ((new = [] ∧ ∃ k, x.prog = .call .state k) ∨
          ∃ w₂, new = [.called w₂ .state w₁.memory] ∧
            x.prog = .ret (.error (.uidValidityChanged cached status.uidvalidity)))) ∧
    Along (fun w c _ before => c.acts = true →
      ∃ status, lastSelect before = some status ∧ w.disk.uidvalidity = some status.uidvalidity)
      x.trace := by
  have hS := admissible_daemonWorld
  refine ⟨fun y hy => disk_extends hS hload hx hy, ?_, ?_⟩
  -- after a SELECT that does not match: the state is read, and the error returned
  · intro new w₁ mailbox status tr cached htrace hcalls hcached hne
    obtain ⟨hmemory, hdisk, hnew⟩ := mismatched hS hcached hne hx.visits new htrace hcalls
    refine ⟨hmemory, hdisk, ?_⟩
    rcases hnew with ⟨rfl, caps, hph⟩ | ⟨w₂, rfl, hph⟩
    · exact .inl ⟨rfl, prog_of_selected hx hph⟩
    · exact .inr ⟨w₂, rfl, prog_of_stopped hx hph⟩
  -- what acts on messages is done in a live session
  · refine daemon_along hx.visits ?_
    intro w tr c r w' hat hallow _ hc
    obtain ⟨b, done, msg, rest, actions, ops, hph, -⟩ := executing_of_acts hallow hc
    have hsound := daemon_sound hS hat
    rw [hph] at hsound
    refine ⟨b.status, lastSelect_session hat (by rw [hph]; rfl), ?_⟩
    rw [hsound.1.live.stored, hsound.1.live.uidvalidity]

/-- A state file of another UIDVALIDITY than the sample server's. -/
def staleWorld : World :=
  { sampleWorld (sampleServer 0) .done with
    memory := { uidvalidity := some 7, lastSeenUid := some 4 }
    disk := { uidvalidity := some 7, lastSeenUid := some 4 } }

/-- With a stale state file the daemon stops after six steps, its file as it was. -/
theorem uidvalidity_guard_stale :
    (sampleDaemon { idle := true } 10 staleWorld 6).prog =
        .ret (.error (.uidValidityChanged 7 1)) ∧
      (sampleDaemon { idle := true } 10 staleWorld 6).world.disk = staleWorld.disk := by
  have h := (uidvalidity_guard (sampleSettings 10) staleWorld rfl
    (sampleDaemon { idle := true } 10 staleWorld 6) (reachable_freePlay .start)).2.1
    [.called _ .state _] _ "INBOX" _ _ 7 rfl (by simp [Entry.isCall]) rfl (by decide)
  obtain ⟨-, hdisk, ⟨hnil, -⟩ | ⟨_, -, hprog⟩⟩ := h
  · cases hnil
  · exact ⟨hprog, hdisk⟩

end ImapSieve
