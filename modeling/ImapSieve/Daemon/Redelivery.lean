import ImapSieve.Daemon.Validity
import ImapSieve.Effects.Account

/-!
# Repeated Deliveries

A message may be executed more than once: after a restart, and when FETCH delivers it although the
bookmark has passed it. `executions_bounded` says that there is no other way. Over all runs, with
any failures, the successful executions of a message are at most one more than the restarts and
the deliveries too many.

The daemon owes the executions that are still to come: those of the messages left in the batch, or
one as long as the bookmark is below the message.
-/

namespace ImapSieve

open Effects

/-! ## Section 1: Costs and payments -/

/-- The messages with the UID `v`. -/
def occurrences (v : Nat) (messages : List MessageContext) : Nat :=
  messages.countP fun msg => msg.uid = v

/-- The bookmark has not passed the message `v`. -/
def World.unseen (v : Nat) (w : World) : Nat :=
  match w.memory.lastSeenUid with
  | some l => if v ≤ l then 0 else 1
  | none => 1

/-- The message `v` was executed. -/
def executions (v : Nat) : Entry Call Reply World → Nat
  | .called _ (.executed uid (.ok ())) _ => if uid = v then 1 else 0
  | _ => 0

/-- A restart counts once. Of the deliveries in an answer the first is in order, if the bookmark
has not passed the message. -/
def redeliveries (v : Nat) : Entry Call Reply World → Nat
  | .restarted _ => 1
  | .called w (.fetchUidRange _ _ _) (.ok reply) => occurrences v reply - w.unseen v
  | _ => 0

/-- The messages of the batch that are not executed yet. -/
def Phase.todo (cfg : Settings) : Phase → List MessageContext
  | .fetched f => f.reply.take cfg.batchSize
  | .evaluating _ _ msg rest | .executing _ _ msg rest _ _ => msg :: rest
  | .advancing _ _ _ rest => rest
  | _ => []

/-- The bookmark is about to pass the message that was executed. -/
def Phase.unseen (v : Nat) (w : World) : Phase → Nat
  | .advancing _ _ msg _ => if msg.uid = v then 0 else w.unseen v
  | _ => w.unseen v

/-- The executions that are still to come. -/
def Phase.owed (cfg : Settings) (v : Nat) (w : World) (ph : Phase) : Nat :=
  max (occurrences v (ph.todo cfg)) (ph.unseen v w)

/-! ## Section 2: Steps -/

theorem unseen_le (v : Nat) (w : World) : w.unseen v ≤ 1 := by
  unfold World.unseen
  split
  · split <;> simp
  · rfl

theorem unseen_eq_zero {v l : Nat} {w : World} (h : w.memory.lastSeenUid = some l) (hle : v ≤ l) :
    w.unseen v = 0 := by
  simp [World.unseen, h, hle]

/-- The bookmark does not go back. -/
theorem unseen_mono {w w' : World} (h : w.memory.Extends w'.memory) (v : Nat) :
    w'.unseen v ≤ w.unseen v := by
  cases hlast : w.memory.lastSeenUid with
  | none =>
    have hone : w.unseen v = 1 := by simp [World.unseen, hlast]
    rw [hone]
    exact unseen_le v w'
  | some l =>
    obtain ⟨l', hl', hle⟩ := h.lastSeenUid l hlast
    by_cases hv : v ≤ l
    · rw [unseen_eq_zero hl' (hv.trans hle)]
      exact Nat.zero_le _
    · have hone : w.unseen v = 1 := by simp [World.unseen, hlast, hv]
      rw [hone]
      exact unseen_le v w'

theorem phase_unseen_le (v : Nat) (w : World) (ph : Phase) : ph.unseen v w ≤ w.unseen v := by
  cases ph with
  | advancing b done msg rest =>
    simp only [Phase.unseen]
    split
    · exact Nat.zero_le _
    · rfl
  | _ => exact le_rfl

@[simp] theorem todo_enter (cfg : Settings) (b : Batch) (done rest : List MessageContext) :
    (Phase.enter b done rest).todo cfg = rest := by
  cases rest <;> rfl

section Steps

variable {cfg : Settings} {ph : Phase} {w w' : World} {tr : History} {c : Call} {r : Reply c}
  {v : Nat}

/-- Only FETCH adds to the batch. -/
theorem todo_next (hallow : ph.Allows cfg c) :
    ((ph.next cfg w c r).todo cfg).Sublist (ph.todo cfg) ∨
      ∃ s state bookmark reply, ph = .ranged s state bookmark ∧
        ph.next cfg w c r = .fetched ⟨s, bookmark, w, reply⟩ ∧
        redeliveries v (.called w c r) = occurrences v reply - w.unseen v := by
  have hmoves := moves_next (w := w) (r := r) hallow
  generalize hnext : ph.next cfg w c r = ph' at hmoves
  cases hmoves with
  | fetched reply => exact .inr ⟨_, _, _, reply, rfl, rfl, rfl⟩
  | taken script =>
    rw [todo_enter]
    exact .inl (.refl _)
  | advanced =>
    rw [todo_enter]
    exact .inl (.refl _)
  | evaluated actions => exact .inl (.refl _)
  | performed hop => exact .inl (.refl _)
  | executed => exact .inl (List.sublist_cons_self _ _)
  | _ => exact .inl (List.nil_sublist _)

/-- The bookmark passes the message that was executed, whether or not the state is written. -/
theorem unseen_next (hsound : ph.Sound cfg w tr) (hallow : ph.Allows cfg c)
    (hans : w.Answers c r w') (v : Nat) : (ph.next cfg w c r).unseen v w' ≤ ph.unseen v w := by
  have hle : w'.unseen v ≤ w.unseen v := unseen_mono (memory_extends hsound hallow hans) v
  have hnext := (phase_unseen_le v w' (ph.next cfg w c r)).trans hle
  cases hallow with
  | advance b done msg rest =>
    by_cases huid : msg.uid = v
    · have hmemory := hans.update.2.2.1
      have hzero : w'.unseen v = 0 := by
        refine unseen_eq_zero (l := max msg.uid (w.memory.lastSeenUid.getD 0)) ?_ ?_
        · rw [hmemory, apply_advance_lastSeenUid]
        · rw [huid]
          exact le_max_left _ _
      have := phase_unseen_le v w' ((Phase.advancing b done msg rest).next cfg w _ r)
      omega
    · simpa [Phase.unseen, huid] using hnext
  | _ => exact hnext

/-- No call overdraws. -/
theorem owed_call (hsound : ph.Sound cfg w tr) (hallow : ph.Allows cfg c)
    (hans : w.Answers c r w') (v : Nat) :
    executions v (.called w c r) + (ph.next cfg w c r).owed cfg v w' ≤
      ph.owed cfg v w + redeliveries v (.called w c r) := by
  have hunseen := unseen_next hsound hallow hans v
  by_cases hexec : ∃ uid, c = .executed uid (.ok ())
  · obtain ⟨uid, rfl⟩ := hexec
    obtain ⟨b, done, msg, rest, actions, ops, rfl, rfl, -⟩ := executing_of_executed hallow
    have hmemory : w'.unseen v = w.unseen v := by
      simp [World.unseen, (hans.stored fun _ hc => by cases hc).1]
    have hunseen' : w.unseen v ≤ 1 := unseen_le v w
    simp only [executions, Phase.next, Phase.owed, Phase.todo, Phase.unseen, occurrences,
      List.countP_cons, decide_eq_true_eq, hmemory, redeliveries]
    split <;> omega
  · have hnone : executions v (.called w c r) = 0 := by
      cases c with
      | executed uid result =>
        rcases result with e | ⟨⟩
        · rfl
        · exact absurd ⟨uid, rfl⟩ hexec
      | _ => rfl
    rw [hnone, Nat.zero_add]
    rcases todo_next (v := v) (w := w) (r := r) hallow with hsub | hfetch
    · have htodo : occurrences v ((ph.next cfg w c r).todo cfg) ≤ occurrences v (ph.todo cfg) :=
        hsub.countP_le
      simp only [Phase.owed]
      omega
    · obtain ⟨s, state, bookmark, reply, rfl, hnext, hpay⟩ := hfetch
      have htake : occurrences v (reply.take cfg.batchSize) ≤ occurrences v reply :=
        (List.take_sublist _ _).countP_le
      rw [hnext] at hunseen ⊢
      rw [hpay]
      simp only [Phase.owed, Phase.todo, Phase.unseen] at hunseen ⊢
      omega

end Steps

/-! ## Section 3: Runs -/

section Runs

variable {S : Surroundings Call Reply World} {cfg : Settings} {w₀ : World}
  {x : Config Call Reply World (Except CoreError Unit)}

/-- What the daemon owes is covered. -/
theorem serves_solvent (hS : Admissible S) (hx : Serves S w₀ cfg x) (v : Nat) :
    Solvent (executions v) (redeliveries v) (fun w tr => (phaseOf cfg tr).owed cfg v w) 1 x.world
      x.trace := by
  have hoffline : ∀ (cfg : Settings) w, Phase.offline.owed cfg v w ≤ 1 := by
    intro cfg w
    simpa [Phase.owed, Phase.todo, occurrences, Phase.unseen] using unseen_le v w
  refine serves_invariant (I := fun cfg w tr => Solvent (executions v) (redeliveries v)
    (fun w tr => (phaseOf cfg tr).owed cfg v w) 1 w tr) hx ?_ ?_ ?_ ?_
  · exact fun cfg => solvent_nil (hoffline cfg w₀)
  · intro cfg p w tr c r w' hat h hallow hans
    exact h.cons (owed_call (serves_sound hS hat) hallow (hS.answers hans) v)
  · intro cfg w w' tr h hdrift
    refine h.mono (le_of_eq ?_)
    have hmemory : w'.memory = w.memory := (hS.drifts hdrift).memory
    cases phaseOf cfg tr <;> simp [Phase.owed, Phase.todo, Phase.unseen, World.unseen, hmemory]
  · intro cfg cfg' w w' tr h _
    -- the state file may be behind, and then the message is owed once more
    have hpaid : total (executions v) tr ≤ 1 + total (redeliveries v) tr := h.total_le
    have hnew := hoffline cfg' w'
    simp only [Solvent, total_cons, executions, redeliveries]
    change 0 + _ + Phase.offline.owed cfg' v w' ≤ _
    omega

/-- No message is executed successfully a second time but for a restart, or for a FETCH that has
delivered it although the bookmark had passed it or twice in one answer. -/
theorem executions_bounded (hS : Admissible S) (hx : Serves S w₀ cfg x) (v : Nat) :
    total (executions v) x.trace ≤ 1 + total (redeliveries v) x.trace :=
  (serves_solvent hS hx v).total_le

end Runs

/-- Every time the daemon polls the mailbox, FETCH delivers the message that has arrived. -/
theorem executions_bounded_arrival :
    total (executions 1) (arrivalRun 30).trace ≤ 1 + total (redeliveries 1) (arrivalRun 30).trace :=
  have hserves : Serves (daemonWorld.under {}) (sampleWorld (sampleServer 0) .done)
      (sampleSettings 10) (arrivalRun 30) :=
    (reachable_arrivalRun (fun _ _ => admits_of_regular (fun _ _ => trivial) _)
      (fun _ _ => trivial) fun _ _ => admits_of_regular (fun _ _ => trivial) _).lives
  executions_bounded (admissible_under _) hserves 1

-- the bound is reached
example : total (executions 1) (arrivalRun 30).trace = 4 ∧
    total (redeliveries 1) (arrivalRun 30).trace = 3 := by
  decide +kernel

end ImapSieve
