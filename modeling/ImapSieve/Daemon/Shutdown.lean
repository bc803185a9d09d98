import ImapSieve.Daemon.NewMail
import ImapSieve.Protocol.Supervision

/-!
# Shutdown Is Never Lost and Never Cuts a Message

The shutdown notification is a permit: `notify_one` sets it, and a `select!` that is left for
it takes it. From any moment at which it is set, the supervisor keeps it until it takes it
and returns `Ok`; connections and IDLE are no longer waited for, so that at most one more
batch is started; and it is taken between batches only.
-/

namespace ImapSieve

open Effects

/-! ## Section 1: Where the notification is awaited -/

/-- The `select!` was left for the shutdown notification, and what it waited for was dropped. -/
inductive Notified : (c : Call) → Reply c → Prop where
  | connect : Notified .connect .notified
  | sleep (delay : Nat) : Notified (.sleep delay) .notified
  | idle (timeout : Nat) : Notified (.idle timeout) .notified

/-- The sites whose `select!` is biased to the notification. -/
def Call.biased : Call → Bool
  | .connect | .idle _ => true
  | _ => false

/-- A batch is in progress. -/
def Phase.inBatch : Phase → Bool
  | .ranged _ _ _ | .fetched _ | .evaluating _ _ _ _ | .executing _ _ _ _ _ _
  | .advancing _ _ _ _ => true
  | _ => false

/-- A batch is about to start. -/
def Phase.isReady : Phase → Bool
  | .ready _ => true
  | _ => false

/-- The number of batches that were started. -/
def batchStarts (cfg : Settings) : History → Nat
  | [] => 0
  | .restarted _ :: tr => batchStarts cfg tr
  | .called _ _ _ :: tr => batchStarts cfg tr + (phaseOf cfg tr).isReady.toNat

/-- How many batches may still start while the notification is pending: that of a session which
has not reached it yet. -/
def Phase.batchesLeft : Phase → Nat
  | .connected | .capable _ | .selected _ | .checked _ | .validated _ | .seeding _
  | .ready _ => 1
  | _ => 0

section Steps

variable {cfg : Settings} {ph : Phase} {w w' : World} {c : Call} {r : Reply c}

theorem batchesLeft_le_one (ph : Phase) : ph.batchesLeft ≤ 1 := by
  cases ph <;> simp [Phase.batchesLeft]

theorem left_enter (b : Batch) (done rest : List MessageContext) :
    (Phase.enter b done rest).batchesLeft = 0 := by
  cases rest <;> rfl

/-- While the notification is pending, a biased `select!` is left for it. -/
theorem notified_of_biased (hans : w.Answers c r w') (hpermit : w.permit = true)
    (hc : c.biased = true) : Notified c r := by
  cases c with
  | connect =>
    rcases r with _ | e | u
    · exact .connect
    · exact absurd hpermit (by simp [hans.1])
    · exact absurd hpermit (by simp [hans.1])
  | idle timeout =>
    rcases r with _ | e | ev
    · exact .idle timeout
    · exact absurd hpermit (by simp [hans.2.1])
    · exact absurd hpermit (by simp [hans.1])
  | _ => cases hc

/-- A pending notification stays, or a `select!` is left for it. -/
theorem permit_or_notified (hans : w.Answers c r w') (hpermit : w.permit = true) :
    w'.permit = true ∨ Notified c r := by
  cases hans.writes with
  | connectLeft => exact .inr .connect
  | sleepLeft delay => exact .inr (.sleep delay)
  | idleLeft timeout => exact .inr (.idle timeout)
  | _ => exact .inl hpermit

/-- A session goes on to its one batch, and a batch to its end. -/
theorem batchesLeft_next (hallow : ph.Allows cfg c) (hans : w.Answers c r w')
    (hpermit : w.permit = true) :
    (ph.next cfg w c r).batchesLeft + ph.isReady.toNat ≤ ph.batchesLeft := by
  by_cases hbiased : c.biased = true
  · -- a biased `select!` is left for the notification
    have hnotified := notified_of_biased hans hpermit hbiased
    cases hnotified with
    | connect =>
      rw [offline_of_connect hallow]
      exact le_rfl
    | sleep delay => cases hbiased
    | idle timeout =>
      obtain ⟨b, done, allOk, rfl⟩ := idling_of_idle hallow
      exact le_rfl
  · have hmoves := moves_next (w := w) (r := r) hallow
    generalize ph.next cfg w c r = ph' at hmoves ⊢
    cases hmoves with
    | offline => cases ph <;> simp [Phase.batchesLeft, Phase.isReady]
    | connected => exact absurd rfl hbiased
    | woken => exact absurd rfl hbiased
    | taken script => exact (left_enter _ _ _).le
    | advanced => exact (left_enter _ _ _).le
    | _ => simp [Phase.batchesLeft, Phase.isReady]

end Steps

/-! ## Section 2: From the notification on -/

/-- What holds from a pending notification on, `before` being the trace at that moment. -/
structure LeavesSoon (cfg : Settings) (before : History) (w : World) (tr : History) : Prop where
  /-- The notification is pending, or shutdown was noticed. -/
  kept : w.permit = true ∨ stageOf cfg tr = .leaving
  /-- Neither a connection nor IDLE was waited for to its end. -/
  biased : ∃ new, tr = new ++ before ∧
    ∀ w c r, .called w c r ∈ new → c.biased = true → Notified c r
  starts : batchStarts cfg tr + (phaseOf cfg tr).batchesLeft ≤ batchStarts cfg before + 1

/-- A `select!` that is left for the notification leads out of the supervisor. -/
theorem leaving_of_notified {st : Stage} {c : Call} {r : Reply c} (hallow : st.Allows c)
    (h : Notified c r) : st.next c r = .leaving := by
  cases h with
  | connect =>
    cases hallow with
    | connect backoff => rfl
    | session hc => cases hc
  | sleep delay =>
    cases hallow with
    | sleep delay backoff => rfl
    | session hc => cases hc
  | idle timeout =>
    cases hallow with
    | session hc => rfl

section Runs

variable {S : Surroundings Call Reply World} {cfg : Settings} {w₀ : World}
  {x y : Config Call Reply World (Except CoreError Unit)} {before : History}

theorem leavesSoon_step (hS : Admissible S) (hx : Reachable S (Supervisor.run cfg) w₀ x)
    (h : LeavesSoon cfg before x.world x.trace) (hstep : Step S x y) :
    LeavesSoon cfg before y.world y.trace := by
  cases hstep with
  | @call c k w w' tr r hans =>
    have hallow : (phaseOf cfg tr).Allows cfg c ∧ (stageOf cfg tr).Allows c :=
      allows_of_call hS hx rfl
    -- a supervisor on its way out makes no call, so the notification is still pending
    have hpermit : w.permit = true := by
      rcases h.kept with hpermit | hleaving
      · exact hpermit
      · have hnone := hallow.2
        rw [hleaving] at hnone
        cases hnone
    obtain ⟨new, rfl, hbiased⟩ := h.biased
    refine ⟨?_, ⟨.called w c r :: new, rfl, ?_⟩, ?_⟩
    · rcases permit_or_notified (hS.answers hans) hpermit with hkept | hnotified
      · exact .inl hkept
      · exact .inr (leaving_of_notified hallow.2 hnotified)
    · intro w₁ c₁ r₁ hmem hc
      rcases List.mem_cons.mp hmem with heq | hold
      · cases heq
        exact notified_of_biased (hS.answers hans) hpermit hc
      · exact hbiased w₁ c₁ r₁ hold hc
    -- a batch that starts now is the one that was left
    · have hleft := batchesLeft_next hallow.1 (hS.answers hans) hpermit
      have hstarts : batchStarts cfg (new ++ before) +
          (phaseOf cfg (new ++ before)).batchesLeft ≤ batchStarts cfg before + 1 := h.starts
      rw [phaseOf_called, batchStarts]
      omega
  | unroll => exact h
  | drift hdrift => exact { h with kept := h.kept.imp_left (hS.drifts hdrift).permit }

theorem leavesSoon_of_steps (hS : Admissible S) (hx : Reachable S (Supervisor.run cfg) w₀ x)
    (hpermit : x.world.permit = true) (hy : Steps S x y) :
    LeavesSoon cfg x.trace y.world y.trace := by
  induction hy with
  | refl =>
    have hleft := batchesLeft_le_one (phaseOf cfg x.trace)
    exact ⟨.inl hpermit, ⟨[], rfl, fun _ _ _ hmem => by cases hmem⟩, by omega⟩
  | tail hpath hstep ih => exact leavesSoon_step hS (hx.steps hpath) ih hstep

/-- The notification is taken between batches. -/
theorem notified_outside (hx : Reachable S (Supervisor.run cfg) w₀ x) :
    Along (fun _ c r before => Notified c r → (phaseOf cfg before).inBatch = false) x.trace := by
  refine daemon_along hx.visits ?_
  intro w tr c r w' _ hallow _ hnotified
  generalize phaseOf cfg tr = ph at hallow
  cases hnotified with
  | connect =>
    rw [offline_of_connect hallow]
    rfl
  | sleep delay =>
    cases hallow with
    | sleep delay => rfl
    | perform hnext => cases ofOp_of_nextCall hnext
  | idle timeout =>
    obtain ⟨b, done, allOk, rfl⟩ := idling_of_idle hallow
    rfl

/-- Shutdown is never lost and never cuts a message. From any moment at which the notification
is pending, on any run of the process: it stays pending until the supervisor has returned
`Ok`; what the supervisor returns is `Ok`, or the error of a changed UIDVALIDITY in the
session in progress, as no connection is made any more; at most one further batch starts; and
the notification is taken, and the supervisor returns, only between batches. -/
theorem shutdown_not_lost (cfg : Settings) (w₀ : World)
    (x y : Config Call Reply World (Except CoreError Unit))
    (hx : Reachable daemonWorld (Supervisor.run cfg) w₀ x) (hpermit : x.world.permit = true)
    (hy : Steps daemonWorld x y) :
    (y.world.permit = true ∨ y.prog = .ret (.ok ())) ∧
    (∀ result, y.prog = .ret result → result = .ok () ∨
      ∃ cached server, result = .error (.uidValidityChanged cached server) ∧
        phaseOf cfg y.trace = .stopped cached server) ∧
    (∃ new, y.trace = new ++ x.trace ∧
      ∀ w c r, .called w c r ∈ new → c.biased = true → Notified c r) ∧
    batchStarts cfg y.trace ≤ batchStarts cfg x.trace + 1 ∧
    Along (fun _ c r before => Notified c r → (phaseOf cfg before).inBatch = false) y.trace ∧
    ((phaseOf cfg y.trace).inBatch = true → ∀ result, y.prog ≠ .ret result) := by
  have hS := admissible_daemonWorld
  have hreach := hx.steps hy
  have hsoon := leavesSoon_of_steps hS hx hpermit hy
  refine ⟨?_, ?_, hsoon.biased, ?_, notified_outside hreach, ?_⟩
  -- where shutdown was noticed, the supervisor has returned
  · exact hsoon.kept.imp_right (prog_of_leaving hS hreach)
  · intro result hret
    rcases ends_of_ret hS hreach hret with ⟨hok, -⟩ | ⟨cached, server, backoff, herr, hq⟩
    · exact .inl hok
    · exact .inr ⟨cached, server, herr, (Prod.mk.inj hq).1⟩
  · have hstarts := hsoon.starts
    omega
  -- it returns offline or stopped, never within a batch
  · intro hbatch result hret
    rcases ends_of_ret hS hreach hret with ⟨-, hq⟩ | ⟨cached, server, backoff, -, hq⟩
    · rw [(Prod.mk.inj hq).1] at hbatch
      cases hbatch
    · rw [(Prod.mk.inj hq).1] at hbatch
      cases hbatch

end Runs

/-- The notification may arrive at any time. -/
theorem drifts_notify (w : World) : w.Drifts { w with permit := true } :=
  ⟨rfl, rfl, rfl, rfl, fun _ => rfl, [], by simp⟩

/-- Shutdown is notified while the first batch evaluates its message, and the daemon makes `n`
more steps. -/
def shutdownRun (n : Nat) : Config Call Reply World (Except CoreError Unit) :=
  let x := oldMailRun 12
  play (World.respond { idle := true }) n ⟨x.prog, { x.world with permit := true }, x.trace⟩

/-- The message is executed all the same, and then the supervisor returns. -/
theorem shutdown_not_lost_in_batch :
    ((shutdownRun 5).prog = .ret (.ok ()) ∧ executedUids (shutdownRun 5).trace = [1]) ∧
      batchStarts (sampleSettings 10) (shutdownRun 5).trace ≤
        batchStarts (sampleSettings 10) (shutdownRun 0).trace + 1 := by
  have hbefore : Reachable daemonWorld (Supervisor.run (sampleSettings 10))
      (sampleWorld (sampleServer 1) .done) (oldMailRun 12) := reachable_freePlay .start
  have hx : Reachable daemonWorld (Supervisor.run (sampleSettings 10))
      (sampleWorld (sampleServer 1) .done) (shutdownRun 0) :=
    hbefore.step (.drift (drifts_notify _))
  have hy : Steps daemonWorld (shutdownRun 0) (shutdownRun 5) :=
    steps_play_free (fun w c => answers_respond _ w c) 5 _
  exact ⟨⟨rfl, by decide⟩, (shutdown_not_lost _ _ _ _ hx rfl hy).2.2.2.1⟩

end ImapSieve
