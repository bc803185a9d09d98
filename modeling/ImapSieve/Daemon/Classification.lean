import ImapSieve.Daemon.Shutdown

/-!
# How the Supervisor Classifies the Ends of Sessions

A changed UIDVALIDITY and a missing IDLE extension are conditions that no reconnect can cure.
The supervisor names only the first; the second falls to the arm that waits and connects
again. Where the server offers IDLE, the supervisor stops with an error exactly at a changed
UIDVALIDITY, returns `Ok` only when shutdown was notified, and meets every other error with a
wait and a new connection on the same state.
-/

namespace ImapSieve

open Effects

/-! ## Section 1: Ends of attempts -/

/-- The session has ended in a condition that a reconnect cannot cure, with its error: the
UIDVALIDITY has changed, or IDLE is not offered. -/
inductive Incurable (cfg : Settings) (tr : History) : CoreError → Prop where
  | changed {cached server : Nat} (hph : phaseOf cfg tr = .stopped cached server) :
      Incurable cfg tr (.uidValidityChanged cached server)
  | missing {w : World} {caps : Capabilities} {before : History}
      (htrace : tr = .called w .capabilities (.ok caps) :: before) (hidle : caps.idle = false) :
      Incurable cfg tr (.missingCapability "IDLE")

/-- The connection was refused, or the session on it has ended with an error, and the error is
one that a reconnect may cure. -/
def AttemptFailed (cfg : Settings) (tr : History) : Prop :=
  ((∃ backoff, stageOf cfg tr = .refused backoff) ∨
    (∃ backoff, stageOf cfg tr = .inSession backoff) ∧ phaseOf cfg tr = .offline) ∧
    ∀ e, ¬ Incurable cfg tr e

/-- The last call was left for the shutdown notification. -/
def EndsNotified (tr : History) : Prop :=
  ∃ w c r before, tr = .called w c r :: before ∧ Notified c r

/-- The same state is in memory and on disk. -/
def World.SameStored (w w' : World) : Prop := w'.memory = w.memory ∧ w'.disk = w.disk

/-- What follows a failed attempt in the world `w`, newest call first: a delay is drawn and
waited for, and unless shutdown is notified meanwhile, the next connection is made on the same
state. -/
inductive Retried (w : World) (x : Config Call Reply World (Except CoreError Unit)) :
    History → Prop where
  | failed (hstored : w.SameStored x.world) (hprog : ∀ result, x.prog ≠ .ret result) :
      Retried w x []
  | drawn {w₁ : World} {jitter r : ℚ} (hstored : w.SameStored x.world)
      (hprog : ∀ result, x.prog ≠ .ret result) :
      Retried w x [.called w₁ (.genRange jitter) r]
  | slept {w₁ w₂ : World} {jitter r : ℚ} {delay : Nat} (hstored : w.SameStored x.world)
      (hprog : ∀ result, x.prog ≠ .ret result) :
      Retried w x [.called w₂ (.sleep delay) (.finished ()), .called w₁ (.genRange jitter) r]
  | notified {w₁ w₂ : World} {jitter r : ℚ} {delay : Nat} (hstored : w.SameStored x.world)
      (hprog : x.prog = .ret (.ok ())) :
      Retried w x [.called w₂ (.sleep delay) .notified, .called w₁ (.genRange jitter) r]
  | connecting {w₁ w₂ w₃ : World} {jitter r : ℚ} {delay : Nat} {outcome : Reply .connect}
      (new : History) (hstored : w.SameStored w₃) :
      Retried w x (new ++ [.called w₃ .connect outcome, .called w₂ (.sleep delay) (.finished ()),
        .called w₁ (.genRange jitter) r])

/-- The supervisor has classified what happened so far. -/
structure Classified (S : Surroundings Call Reply World) (cfg : Settings)
    (x : Config Call Reply World (Except CoreError Unit)) : Prop where
  /-- It stops at the first session that ends incurably, with its error: no call follows. -/
  stops : ∀ e, Incurable cfg x.trace e → x.prog = .ret (.error e)
  /-- It stops with an error nowhere else. -/
  incurable : ∀ e, x.prog = .ret (.error e) → Incurable cfg x.trace e
  /-- It returns `Ok` only after shutdown was notified. -/
  notified : x.prog = .ret (.ok ()) → EndsNotified x.trace
  /-- Every other error leads to a wait and a new connection. -/
  retried : AttemptFailed cfg x.trace → ∀ y, Steps S x y →
    ∃ new, y.trace = new ++ x.trace ∧ Retried x.world y new

/-- Every CAPABILITY response offers IDLE. -/
def OffersIdle (_ : World) : (c : Call) → Reply c → World → Prop
  | .capabilities, .ok caps, _ => caps.idle = true
  | _, _, _ => True

/-- The daemon's world with a server that offers IDLE. -/
def idleWorld : Surroundings Call Reply World := daemonWorld.under { call := OffersIdle }

/-! ## Section 2: Where a failed attempt leads -/

/-- Outside of sessions nothing is open. -/
def Stage.Outside : Stage → Prop
  | .inSession _ => False
  | _ => True

theorem offline_next {st : Stage} {ph : Phase} {w : World} {c : Call} {r : Reply c}
    {cfg : Settings} (hallow : st.Allows c) (hph : ph.Allows cfg c) (hout : (st.next c r).Outside) :
    ph.next cfg w c r = .offline := by
  cases hallow with
  | connect backoff =>
    rw [offline_of_connect hph]
    rcases r with _ | e | u
    · rfl
    · rfl
    · exact hout.elim
  | retry backoff =>
    cases hph with
    | genRange => rfl
    | perform hnext => cases ofOp_of_nextCall hnext
  | reconnect backoff =>
    cases hph with
    | genRange => rfl
    | perform hnext => cases ofOp_of_nextCall hnext
  | sleep delay backoff =>
    cases hph with
    | sleep => rfl
    | perform hnext => cases ofOp_of_nextCall hnext
  | @session backoff c hc =>
    -- of the calls of a session only IDLE can be left for the notification
    cases c with
    | idle timeout =>
      obtain ⟨b, done, allOk, rfl⟩ := idling_of_idle hph
      rcases r with _ | r
      · rfl
      · exact hout.elim
    | connect => cases hc
    | sleep delay => cases hc
    | genRange jitter => cases hc
    | _ => exact hout.elim

/-- Shutdown is noticed nowhere but where a `select!` is left for it. -/
theorem notified_of_leaving {st : Stage} {c : Call} {r : Reply c} (hallow : st.Allows c)
    (hleaving : st.next c r = .leaving) : Notified c r := by
  cases hallow with
  | connect backoff =>
    rcases r with _ | e | u
    · exact .connect
    · cases hleaving
    · cases hleaving
  | retry backoff => cases hleaving
  | reconnect backoff => cases hleaving
  | sleep delay backoff =>
    rcases r with _ | u
    · exact .sleep delay
    · cases hleaving
  | @session backoff c hc =>
    cases c with
    | idle timeout =>
      rcases r with _ | r
      · exact .idle timeout
      · cases hleaving
    | connect => cases hc
    | sleep delay => cases hc
    | genRange jitter => cases hc
    | _ => cases hleaving

section Runs

variable {S : Surroundings Call Reply World} {cfg : Settings} {w₀ w : World} {tr : History}
  {x y z : Config Call Reply World (Except CoreError Unit)}

theorem offline_of_outside (hS : Admissible S) (hx : Comes S cfg w₀ w tr)
    (hout : (stageOf cfg tr).Outside) : phaseOf cfg tr = .offline := by
  refine course_invariant (I := fun _ tr => (stageOf cfg tr).Outside → phaseOf cfg tr = .offline)
    hS hx (fun _ => rfl) ?_ (fun _ _ _ h _ => h) (fun _ _ _ _ _ _ => rfl) hout
  intro w tr c r w' _ _ hph hallow _ hnext
  exact offline_next hallow hph hnext

theorem endsNotified_of_leaving (hS : Admissible S) (hx : Comes S cfg w₀ w tr)
    (hleaving : stageOf cfg tr = .leaving) : EndsNotified tr := by
  refine course_invariant (I := fun _ tr => stageOf cfg tr = .leaving → EndsNotified tr)
    hS hx ?_ ?_ (fun _ _ _ h _ => h) ?_ hleaving
  · intro hstart
    cases hstart
  · intro w tr c r w' _ _ _ hallow _ hnext
    exact ⟨w, c, r, tr, rfl, notified_of_leaving hallow hnext⟩
  · intro w w' tr _ _ hstart
    cases hstart

/-! ## Section 3: Retries -/

/-- The daemon is on its way from the failed attempt to the next connection. -/
inductive Waiting (cfg : Settings) : Phase → Stage → History → Prop where
  | refused (backoff : Backoff) : Waiting cfg .offline (.refused backoff) []
  | failed (backoff : Backoff) : Waiting cfg .offline (.inSession backoff) []
  | drawn {w₁ : World} {jitter r : ℚ} (delay : Nat) (backoff : Backoff) :
      Waiting cfg .offline (.waiting delay backoff) [.called w₁ (.genRange jitter) r]
  | slept {w₁ w₂ : World} {jitter r : ℚ} {delay : Nat} (backoff : Backoff) :
      Waiting cfg .offline (.connecting backoff)
        [.called w₂ (.sleep delay) (.finished ()), .called w₁ (.genRange jitter) r]
  | notified {w₁ w₂ : World} {jitter r : ℚ} {delay : Nat} :
      Waiting cfg .offline .leaving
        [.called w₂ (.sleep delay) .notified, .called w₁ (.genRange jitter) r]

/-- The next connection after the attempt that failed in the world `w` was tried. -/
def Reconnected (w : World) (new : History) : Prop :=
  ∃ newer w₁ w₂ w₃ jitter r delay outcome, w.SameStored w₃ ∧
    new = newer ++ [.called w₃ .connect outcome, .called w₂ (.sleep delay) (.finished ()),
      .called w₁ (.genRange jitter) r]

/-- What a call does on the way. -/
theorem waiting_next {ph : Phase} {st : Stage} {new : History} {w' : World} {c : Call}
    {r : Reply c} (h : Waiting cfg ph st new) (hph : ph.Allows cfg c) (hst : st.Allows c) :
    (c ≠ .connect ∧ (∀ change, c ≠ .update change) ∧
      Waiting cfg (ph.next cfg w' c r) (st.next c r) (.called w' c r :: new)) ∨
    ∃ w₁ w₂ jitter draw delay outcome, .called w' c r :: new =
      [.called w' .connect outcome, .called w₂ (.sleep delay) (.finished ()),
        .called w₁ (.genRange jitter) draw] := by
  cases h with
  | refused backoff =>
    cases hst with
    | retry => exact .inl ⟨by simp, by simp, .drawn _ _⟩
  | failed backoff =>
    -- offline no session makes a call, so the next delay is drawn
    cases hst with
    | reconnect => exact .inl ⟨by simp, by simp, .drawn _ _⟩
    | session hc => cases hph <;> cases hc
  | drawn delay backoff =>
    cases hst with
    | sleep =>
      rcases r with _ | u
      · exact .inl ⟨by simp, by simp, .notified⟩
      · exact .inl ⟨by simp, by simp, .slept _⟩
  | slept backoff =>
    cases hst with
    | connect => exact .inr ⟨_, _, _, _, _, _, rfl⟩
  | notified => cases hst

/-- Since the attempt failed in `x`, the daemon has been on its way to the next connection, or
it has tried that. -/
def Retrying (cfg : Settings) (x y : Config Call Reply World (Except CoreError Unit)) : Prop :=
  ∃ new, y.trace = new ++ x.trace ∧
    (x.world.SameStored y.world ∧ Waiting cfg (phaseOf cfg y.trace) (stageOf cfg y.trace) new ∨
      Reconnected x.world new)

theorem retrying_step (hS : Admissible S) (hy : Reachable S (Supervisor.run cfg) w₀ y)
    (h : Retrying cfg x y) (hstep : Step S y z) : Retrying cfg x z := by
  obtain ⟨new, hnew, hcase⟩ := h
  cases hstep with
  | @call c k w w' tr r hans =>
    obtain ⟨hph, hst⟩ := allows_of_call hS hy rfl
    refine ⟨.called w c r :: new, congrArg (.called w c r :: ·) hnew, ?_⟩
    rcases hcase with ⟨hsame, hwaiting⟩ | ⟨newer, w₁, w₂, w₃, jitter, draw, delay, outcome, hrest⟩
    -- still on the way: the call goes on, or it is the connection
    · rcases waiting_next hwaiting hph hst with ⟨hc, hupdate, hnext⟩ |
        ⟨w₁, w₂, jitter, draw, delay, outcome, heq⟩
      · obtain ⟨hmemory, hdisk⟩ := (hS.answers hans).stored hupdate
        exact .inl ⟨⟨hmemory.trans hsame.1, hdisk.trans hsame.2⟩, hnext⟩
      · exact .inr ⟨[], w₁, w₂, w, jitter, draw, delay, outcome, hsame, heq⟩
    -- the connection was tried before
    · obtain ⟨hsame, rfl⟩ := hrest
      exact .inr ⟨_, w₁, w₂, w₃, jitter, draw, delay, outcome, hsame,
        (List.cons_append ..).symm⟩
  | unroll => exact ⟨new, hnew, hcase⟩
  | drift hdrift =>
    refine ⟨new, hnew, hcase.imp_left fun ⟨hsame, hwaiting⟩ => ⟨⟨?_, ?_⟩, hwaiting⟩⟩
    · exact (hS.drifts hdrift).memory.trans hsame.1
    · exact (hS.drifts hdrift).disk.trans hsame.2

theorem retrying_of_failed (hS : Admissible S) (hx : Reachable S (Supervisor.run cfg) w₀ x)
    (hfailed : AttemptFailed cfg x.trace) (hy : Steps S x y) : Retrying cfg x y := by
  induction hy with
  | refl =>
    -- the attempt has just failed: at the connection, or in its session
    refine ⟨[], rfl, .inl ⟨⟨rfl, rfl⟩, ?_⟩⟩
    rcases hfailed.1 with ⟨backoff, hstage⟩ | ⟨⟨backoff, hstage⟩, hphase⟩
    · rw [offline_of_outside hS hx.visits (by rw [hstage]; trivial), hstage]
      exact .refused backoff
    · rw [hphase, hstage]
      exact .failed backoff
  | tail hpath hstep ih => exact retrying_step hS (hx.steps hpath) ih hstep

/-- The daemon retries after a failed attempt. -/
theorem retried_of_failed (hS : Admissible S) (hx : Reachable S (Supervisor.run cfg) w₀ x)
    (hfailed : AttemptFailed cfg x.trace) (hy : Steps S x y) :
    ∃ new, y.trace = new ++ x.trace ∧ Retried x.world y new := by
  obtain ⟨new, hnew, hcase⟩ := retrying_of_failed hS hx hfailed hy
  refine ⟨new, hnew, ?_⟩
  have hreach := hx.steps hy
  rcases hcase with ⟨hsame, hwaiting⟩ |
      ⟨newer, w₁, w₂, w₃, jitter, draw, delay, outcome, hsame, rfl⟩
  -- on the way the supervisor does not return, unless shutdown was noticed
  · have hend := prog_ne_ret hS hreach
    have hleaving := prog_of_leaving hS hreach
    generalize phaseOf cfg y.trace = ph at hwaiting hend
    generalize stageOf cfg y.trace = st at hwaiting hend hleaving
    cases hwaiting with
    | refused backoff => exact .failed hsame (hend (by simp) (by simp))
    | failed backoff => exact .failed hsame (hend (by simp) (by simp))
    | drawn delay backoff => exact .drawn hsame (hend (by simp) (by simp))
    | slept backoff => exact .slept hsame (hend (by simp) (by simp))
    | notified => exact .notified hsame (hleaving rfl)
  · exact .connecting newer hsame

/-! ## Section 4: The classification -/

/-- Where IDLE is offered no session ends for lack of it. -/
theorem not_missing {before : History} {caps : Capabilities} {w₁ : World}
    (hx : Comes idleWorld cfg w₀ w tr)
    (htrace : tr = .called w₁ .capabilities (.ok caps) :: before) : caps.idle = true := by
  have hoffers : Along (fun w c r _ => ∃ w', OffersIdle w c r w') tr :=
    daemon_along hx fun w tr c r w' _ _ hans => ⟨w', hans.2⟩
  obtain ⟨w', hidle⟩ := hoffers w₁ .capabilities (.ok caps) before (htrace ▸ List.suffix_rfl)
  exact hidle

/-- Where every CAPABILITY response offers IDLE, the supervisor classifies every outcome. -/
theorem outcomes_classified (cfg : Settings) (w₀ : World)
    (x : Config Call Reply World (Except CoreError Unit))
    (hx : Reachable idleWorld (Supervisor.run cfg) w₀ x) : Classified idleWorld cfg x := by
  have hS : Admissible idleWorld := admissible_under _
  refine ⟨?_, ?_, ?_, fun hfailed y hy => retried_of_failed hS hx hfailed hy⟩
  -- of the two incurable ends the missing extension does not occur
  · rintro e (hph | ⟨htrace, hidle⟩)
    · exact prog_of_stopped hx hph
    · rw [not_missing hx.visits htrace] at hidle
      cases hidle
  · intro e hret
    rcases ends_of_ret hS hx hret with ⟨hok, -⟩ | ⟨cached, server, backoff, herr, hq⟩
    · cases hok
    · cases herr
      exact .changed (Prod.mk.inj hq).1
  · intro hret
    rcases ends_of_ret hS hx hret with ⟨-, hq⟩ | ⟨cached, server, backoff, herr, -⟩
    · exact endsNotified_of_leaving hS hx.visits (Prod.mk.inj hq).2
    · cases herr

end Runs

/-- The first `n` steps on a server with the given capabilities and no mailboxes. -/
def emptyServerRun (caps : Capabilities) (n : Nat) :
    Config Call Reply World (Except CoreError Unit) :=
  sampleDaemon caps 10 (sampleWorld ⟨fun _ => none⟩ .done) n

/-- The session that fails for lack of the mailbox is followed by a wait and a connection. -/
theorem outcomes_classified_failed :
    AttemptFailed (sampleSettings 10) (emptyServerRun { idle := true } 5).trace ∧
      ∃ new, (emptyServerRun { idle := true } 10).trace =
          new ++ (emptyServerRun { idle := true } 5).trace ∧
        Retried (emptyServerRun { idle := true } 5).world (emptyServerRun { idle := true } 10)
          new := by
  have hreg : ∀ w c, OffersIdle w c (w.respond { idle := true } c).1
      (w.respond { idle := true } c).2 := by
    rintro w (_ | _ | _ | _ | _ | _ | _ | _ | _ | _ | _ | _ | _ | _ | _ | _) <;> trivial
  have hx : Reachable idleWorld (Supervisor.run (sampleSettings 10))
      (sampleWorld ⟨fun _ => none⟩ .done) (emptyServerRun { idle := true } 5) :=
    reachable_sampleDaemon 10 _ fun i _ => admits_of_regular hreg _
  have hfailed : AttemptFailed (sampleSettings 10) (emptyServerRun { idle := true } 5).trace := by
    refine ⟨.inr ⟨⟨_, rfl⟩, rfl⟩, ?_⟩
    rintro e (hph | ⟨htrace, -⟩)
    · cases hph
    · cases htrace
  have hy : Steps idleWorld (emptyServerRun { idle := true } 5)
      (emptyServerRun { idle := true } 10) :=
    steps_play (h := World.respond { idle := true }) (fun w c => answers_respond _ w c)
      { call := OffersIdle } 5 _ fun i _ => admits_of_regular hreg _
  exact ⟨hfailed, (outcomes_classified (sampleSettings 10) _ _ hx).retried hfailed _ hy⟩

/-- Where IDLE is not offered, the supervisor does not stop: it connects again. -/
theorem not_outcomes_classified :
    ∃ x y, Reachable daemonWorld (Supervisor.run (sampleSettings 10))
        (sampleWorld ⟨fun _ => none⟩ .done) x ∧
      Incurable (sampleSettings 10) x.trace (.missingCapability "IDLE") ∧
      ¬ Classified daemonWorld (sampleSettings 10) x ∧ Steps daemonWorld x y ∧
      ∃ w before, y.trace = .called w .connect (.finished (.ok ())) :: before ∧
        x.trace <:+ before := by
  have hmissing : Incurable (sampleSettings 10) (emptyServerRun {} 4).trace
      (.missingCapability "IDLE") := .missing rfl rfl
  have hagain : Steps daemonWorld (emptyServerRun {} 4) (emptyServerRun {} 9) :=
    steps_play_free (h := World.respond {}) (fun w c => answers_respond _ w c) 5 _
  refine ⟨emptyServerRun {} 4, emptyServerRun {} 9, reachable_freePlay .start, hmissing, ?_,
    hagain, _, _, rfl, ?_⟩
  · intro hclassified
    cases hclassified.stops _ hmissing
  · exact ⟨[_, _], rfl⟩

end ImapSieve
