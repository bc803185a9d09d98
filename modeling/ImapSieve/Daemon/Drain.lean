import ImapSieve.Daemon.NewMail

/-!
# Draining before IDLE

`process_pending` makes one pass: one FETCH, whose answer is truncated to the batch size. It
never looks at what the server announces meanwhile. So the daemon goes to sleep with nothing
left to do exactly where the mail above the bookmark fits into one batch and CHANGEDSINCE
hides none of it (`Mailbox.Fits`), and where nothing is announced before IDLE.
-/

namespace ImapSieve

open Effects

/-! ## Section 1: One batch takes everything -/

namespace Mailbox

variable {b : Mailbox} {u batchSize : Nat} {since : Option Nat} {reply : List MessageContext}
  {m : StoredMessage}

/-- The messages above the bookmark `u`. -/
def above (b : Mailbox) (u : Nat) : List StoredMessage := b.messages.filter fun m => u < m.uid

/-- CHANGEDSINCE hides none of the messages above the bookmark. UIDs are 32-bit numbers. -/
def Visible (b : Mailbox) (u : Nat) (since : Option Nat) : Prop :=
  ∀ m ∈ b.above u, m.uid < 2 ^ 32 ∧ changedAfter since m = true

/-- What is above the bookmark fits into a batch, and CHANGEDSINCE hides none of it. -/
def Fits (b : Mailbox) (u : Nat) (since : Option Nat) (batchSize : Nat) : Prop :=
  (b.above u).length ≤ batchSize ∧ b.Visible u since

instance (b : Mailbox) (u : Nat) (since : Option Nat) : Decidable (b.Visible u since) :=
  inferInstanceAs (Decidable (∀ m ∈ b.above u, _))

instance (b : Mailbox) (u : Nat) (since : Option Nat) (batchSize : Nat) :
    Decidable (b.Fits u since batchSize) :=
  inferInstanceAs (Decidable (_ ∧ _))

theorem mem_above : m ∈ b.above u ↔ m ∈ b.messages ∧ u < m.uid := by
  simp [above]

/-- With mail above the bookmark, nothing else is in the range of the next FETCH. -/
theorem Visible.inRange_iff (h : b.Visible u since) (hm : m ∈ b.above u) {m' : StoredMessage} :
    (b.inRange (MessageProcessor.startUid u) m' = true ↔ u < m'.uid) ∧
      (MessageProcessor.startUid u ≤ m'.uid ↔ u < m'.uid) := by
  obtain ⟨hmem, hlt⟩ := mem_above.mp hm
  have hbound : u + 1 < 2 ^ 32 := lt_of_le_of_lt hlt (h m hm).1
  have hstart : MessageProcessor.startUid u = u + 1 := Nat.mod_eq_of_lt hbound
  rw [hstart]
  refine ⟨⟨fun hrange => ?_, fun hlt' => ?_⟩, Nat.succ_le_iff⟩
  · rcases Bool.or_eq_true_iff.mp hrange with hfrom | hhighest
    · exact of_decide_eq_true hfrom
    · have hle : m.uid ≤ m'.uid := of_decide_eq_true (List.all_eq_true.mp hhighest m hmem)
      exact hlt.trans_le hle
  · exact Bool.or_eq_true_iff.mpr (.inl (decide_eq_true hlt'))

theorem Visible.fetch_eq (h : b.Visible u since) (hm : m ∈ b.above u) :
    b.fetch (MessageProcessor.startUid u) since = b.above u ∧
      b.fetchFrom (MessageProcessor.startUid u) since = b.above u := by
  have hvisible : ∀ m' ∈ b.messages, u < m'.uid → changedAfter since m' = true :=
    fun m' hm' hlt => (h m' (mem_above.mpr ⟨hm', hlt⟩)).2
  refine ⟨List.filter_congr fun m' hm' => ?_, List.filter_congr fun m' hm' => ?_⟩
  · rw [Bool.eq_iff_iff, Bool.and_eq_true, (h.inRange_iff hm).1, decide_eq_true_iff]
    exact ⟨And.left, fun hlt => ⟨hlt, hvisible m' hm' hlt⟩⟩
  · rw [Bool.eq_iff_iff, Bool.and_eq_true, decide_eq_true_iff, (h.inRange_iff hm).2,
      decide_eq_true_iff]
    exact ⟨And.left, fun hlt => ⟨hlt, hvisible m' hm' hlt⟩⟩

/-- With mail above the bookmark, the answer is that mail, in some order. -/
theorem Visible.fetched_iff (h : b.Visible u since) (hm : m ∈ b.above u) :
    b.Fetched (MessageProcessor.startUid u) since reply ↔
      reply.Perm ((b.above u).map StoredMessage.toContext) := by
  rw [Fetched, (h.fetch_eq hm).1, (h.fetch_eq hm).2, or_self]

/-- The batch takes everything above the bookmark. -/
theorem Fits.mem_take (h : b.Fits u since batchSize)
    (hfetched : b.Fetched (MessageProcessor.startUid u) since reply) (hm : m ∈ b.above u) :
    m.toContext ∈ reply.take batchSize := by
  have hperm := (h.2.fetched_iff hm).mp hfetched
  have hlength : reply.length ≤ batchSize := by
    rw [hperm.length_eq, List.length_map]
    exact h.1
  rw [List.take_of_length_le hlength]
  exact hperm.mem_iff.mpr (List.mem_map_of_mem hm)

end Mailbox

/-- The condition on a FETCH: one batch will do. -/
def FetchFits (cfg : Settings) (w : World) : (c : Call) → Reply c → World → Prop
  | .fetchUidRange _ _ since, _, _ =>
      ∀ box ∈ w.box, ∀ u ∈ w.memory.lastSeenUid, box.Fits u since cfg.batchSize
  | _, _, _ => True

instance (cfg : Settings) (w : World) (c : Call) (r : Reply c) (w' : World) :
    Decidable (FetchFits cfg w c r w') :=
  match c, r with
  | .fetchUidRange _ _ _, _ => inferInstanceAs (Decidable (∀ box ∈ w.box, _))
  | .connect, _ | .sleep _, _ | .genRange _, _ | .capabilities, _ | .select _, _
  | .command _, _ | .idle _, _ | .send _, _ | .stamp, _ | .state, _ | .update _, _
  | .currentScript, _ | .evaluate _ _, _ | .deleting _, _ | .executed _ _, _ => isTrue trivial

/-! ## Section 2: Announcements -/

/-- The calls during which what is announced is forgotten. -/
def Call.forgets : Call → Bool
  | .connect | .fetchUidRange _ _ _ | .idle _ => true
  | _ => false

theorem World.Answers.announced {w w' : World} {c : Call} {r : Reply c} (h : w.Answers c r w')
    (hc : c.forgets = false) : w'.announced = w.announced := by
  cases h.writes with
  | connected => cases hc
  | fetched => cases hc
  | idleLeft timeout => cases hc
  | idled => cases hc
  | _ => rfl

section Announced

variable {S : Surroundings Call Reply World} {cfg : Settings} {w₀ w w' : World} {tr : History}

/-- A batch goes on from call to call, or begins with its FETCH. -/
theorem announced_next {ph : Phase} {c : Call} {r : Reply c} (hallow : ph.Allows cfg c)
    (hans : w.Answers c r w') (h : ph.known.fetch?.isSome → w.announced = some []) :
    ((ph.next cfg w c r).known.fetch?).isSome → w'.announced = some [] := by
  intro hsome
  cases hforgets : c.forgets with
  | false =>
    -- what is announced stays, and the batch was in progress before the call
    rw [hans.announced hforgets]
    refine h ?_
    have hlearns := learns_next (w := w) (r := r) hallow
    generalize (ph.next cfg w c r).known = k at hlearns hsome
    cases hlearns with
    | same hc => exact hsome
    | fetch reply hph => cases hforgets
    | _ => cases hsome
  | true =>
    -- only the FETCH leads into a batch
    cases hallow with
    | fetch s state bookmark =>
      rcases r with e | reply
      · cases hsome
      · obtain ⟨-, rfl⟩ := hans
        rfl
    | connect => rcases r with _ | _ | _ <;> cases hsome
    | idle b done allOk =>
      rcases r with _ | e | ev
      · cases hsome
      · cases hsome
      · cases ev <;> cases hsome
    | @perform b done msg rest actions ops c hnext =>
      have hop := ofOp_of_nextCall hnext
      cases c <;> first | (cases hop; done) | cases hforgets
    | _ => cases hforgets

/-- Where others announce nothing, nothing is announced during a batch. -/
theorem announced_of_comes (hS : Admissible S)
    (hsilent : ∀ {w w'}, S.drifts w w' → w'.announced = w.announced) (hx : Comes S cfg w₀ w tr) :
    (phaseOf cfg tr).known.fetch?.isSome → w.announced = some [] := by
  refine daemon_invariant
    (I := fun w tr => (phaseOf cfg tr).known.fetch?.isSome → w.announced = some []) hx ?_ ?_ ?_ ?_
  · intro hsome
    cases hsome
  · intro w tr c r w' _ h hallow hans
    exact announced_next hallow (hS.answers hans) h
  · intro w w' tr _ h hdrift hsome
    rw [hsilent hdrift]
    exact h hsome
  · intro w w' tr _ _ _ hsome
    cases hsome

end Announced

/-! ## Section 3: Nothing is left at IDLE -/

/-- What was above the bookmark when the latest FETCH was answered. -/
def lastPending (tr : History) : Option (List StoredMessage) :=
  (lastFetch tr).bind fun snapshot => snapshot.box.bind fun box =>
    snapshot.memory.lastSeenUid.map box.above

/-- Everything that was above the bookmark when the latest FETCH was answered is executed, and
everything announced since. -/
def Drained (w : World) (tr : History) : Prop :=
  (∃ ms ∈ lastPending tr, ∀ m ∈ ms, Executed (sinceFetch tr) m.uid) ∧
    ∀ uid ∈ w.announced.getD [], Executed (sinceFetch tr) uid

theorem executed_iff {tr : History} {uid : Nat} : Executed tr uid ↔ uid ∈ executedUids tr := by
  constructor
  · rintro ⟨w, hmem⟩
    exact List.mem_filterMap.mpr ⟨_, hmem, rfl⟩
  · intro h
    obtain ⟨w, r, hmem⟩ := mem_executedUids h
    exact ⟨w, hmem⟩

instance (tr : History) (uid : Nat) : Decidable (Executed tr uid) :=
  decidable_of_iff' _ executed_iff

instance (w : World) (tr : History) : Decidable (Drained w tr) :=
  inferInstanceAs (Decidable (_ ∧ _))

/-- The entry of a message that failed. -/
def Entry.fails : Entry Call Reply World → Bool
  | .called _ (.evaluate _ _) (.error _) => true
  | .called _ (.executed _ (.error _)) _ => true
  | _ => false

theorem failed_iff {tr : History} : Failed tr ↔ tr.any Entry.fails = true := by
  rw [List.any_eq_true]
  constructor
  · rintro (⟨w, script, msg, e, hmem⟩ | ⟨w, uid, e, hmem⟩)
    · exact ⟨_, hmem, rfl⟩
    · exact ⟨_, hmem, rfl⟩
  · rintro ⟨entry, hmem, hfails⟩
    unfold Entry.fails at hfails
    split at hfails
    · exact .inl ⟨_, _, _, _, hmem⟩
    · exact .inr ⟨_, _, _, hmem⟩
    · cases hfails

instance (tr : History) : Decidable (Failed tr) := decidable_of_iff' _ failed_iff

/-- Runs in which every FETCH finds no more than a batch, and nothing is announced between a
FETCH and the next IDLE. -/
def quietWorld (cfg : Settings) : Surroundings Call Reply World :=
  daemonWorld.under
    { call := FetchFits cfg, drift := fun w w' => w'.announced = w.announced }

/-- The session drains before it sleeps. Where every FETCH finds no more than a batch and
nothing is announced in between, nothing is left at IDLE if every result was `Ok`. -/
theorem drains_before_idle (cfg : Settings) (w₀ : World)
    (x : Config Call Reply World (Except CoreError Unit))
    (hx : Reachable (quietWorld cfg) (Supervisor.run cfg) w₀ x) {timeout : Nat}
    {k : Reply (.idle timeout) → Program (Except CoreError Unit)}
    (hidle : x.prog = .call (.idle timeout) k) (hok : ¬ Failed (sinceFetch x.trace)) :
    Drained x.world x.trace := by
  have hS : Admissible (quietWorld cfg) := admissible_under _
  have hsound := daemon_sound hS hx.visits
  have hannounced := announced_of_comes hS (fun hd => hd.2) hx.visits
  -- every FETCH has found no more than a batch, so the batch holds all of it
  have hfits : ∀ f, (phaseOf cfg x.trace).known.fetch? = some f → ∃ box,
      f.snapshot.box = some box ∧
        ∀ m ∈ box.above f.bookmark, m.toContext ∈ f.reply.take cfg.batchSize := by
    intro f hf
    refine daemon_fetch (F := fun f => ∃ box, f.snapshot.box = some box ∧
      ∀ m ∈ box.above f.bookmark, m.toContext ∈ f.reply.take cfg.batchSize) hS hx.visits ?_ hf
    intro w tr s bookmark reply w' hat hph hans
    have hsound := daemon_sound hS hat
    rw [hph] at hsound
    obtain ⟨⟨box, hbox, hfetched⟩, -⟩ := hS.answers hans
    exact ⟨box, hbox, fun m hm =>
      (hans.2 box hbox bookmark hsound.2.2).mem_take hfetched hm⟩
  -- IDLE is called at the end of a batch
  have hallow : (phaseOf cfg x.trace).Allows cfg (.idle timeout) := by
    have hcomp := daemon_complies hx
    rw [Contract.Complies, hidle] at hcomp
    exact hcomp
  generalize phaseOf cfg x.trace = ph at hsound hannounced hfits hallow
  cases hallow with
  | perform hnext =>
    cases ofOp_of_nextCall hnext
  | idle b done allOk =>
    obtain ⟨rest, hat, hall, hfailed⟩ := hsound
    -- nothing has failed, so the whole batch is processed
    have hdone : done = b.messages cfg := by
      cases allOk with
      | true =>
        have hmessages := hat.messages
        rwa [hall rfl, List.append_nil] at hmessages
      | false => exact absurd (hfailed rfl) hok
    obtain ⟨box, hbox, htaken⟩ := hfits _ rfl
    refine ⟨⟨box.above b.bookmark, ?_, fun m hm => ?_⟩, ?_⟩
    · rw [lastPending, hat.last, Option.bind_some, hbox, Option.bind_some, hat.fetch.lastSeen]
      rfl
    · have hmem : m.toContext ∈ done := hdone ▸ htaken m hm
      exact (hat.processed _ hmem).2
    · intro uid huid
      rw [hannounced rfl] at huid
      cases huid

/-- A message arrives during IDLE, and is processed before the next IDLE. -/
theorem drains_before_idle_arrival :
    Drained (arrivalRun 8).world (arrivalRun 8).trace :=
  drains_before_idle (sampleSettings 10) (sampleWorld (sampleServer 0) .done) (arrivalRun 8)
    (reachable_resume (reachable_sampleDaemon 10 _ (by decide)) (sampleServer 1) rfl (by decide))
    rfl (by decide)

/-- Two messages arrive during IDLE, and a batch holds one. -/
def backlogRun (n : Nat) : Config Call Reply World (Except CoreError Unit) :=
  resume { idle := true } (sampleServer 2)
    (sampleDaemon { idle := true } 1 (sampleWorld (sampleServer 0) .done) 13) n

/-- While a message is evaluated, the arrival of the next one is announced. -/
def announcedRun (n : Nat) : Config Call Reply World (Except CoreError Unit) :=
  play (World.respond { idle := true }) n
    ⟨(arrivalRun 4).prog,
      { (arrivalRun 4).world with server := sampleServer 2, announced := some [2] },
      (arrivalRun 4).trace⟩

/-- With a backlog of two and a batch of one the daemon sleeps on the second message, and so
it does on a message that was announced while a batch of ten was processed. -/
theorem not_drains_before_idle :
    (∃ x, Reachable daemonWorld (Supervisor.run (sampleSettings 1))
        (sampleWorld (sampleServer 0) .done) x ∧ (∃ t k, x.prog = .call (.idle t) k) ∧
        ¬ Failed (sinceFetch x.trace) ∧ x.world.announced = some [] ∧
        ¬ Drained x.world x.trace) ∧
      ∃ x, Reachable daemonWorld (Supervisor.run (sampleSettings 10))
        (sampleWorld (sampleServer 0) .done) x ∧ (∃ t k, x.prog = .call (.idle t) k) ∧
        ¬ Failed (sinceFetch x.trace) ∧ x.world.announced = some [2] ∧
        ¬ Drained x.world x.trace := by
  refine ⟨⟨backlogRun 8, ?_, ⟨_, _, rfl⟩, by decide, by decide, by decide⟩,
    announcedRun 4, ?_, ⟨_, _, rfl⟩, by decide, by decide, by decide⟩
  · refine reachable_freePlay ((reachable_freePlay .start).step (.drift ?_))
    exact ⟨rfl, rfl, rfl, rfl, id, [], rfl⟩
  · refine reachable_freePlay (Reachable.step (x := arrivalRun 4) ?_ (.drift ?_))
    · refine reachable_freePlay ((reachable_freePlay .start).step (.drift ?_))
      exact ⟨rfl, rfl, rfl, rfl, id, [], rfl⟩
    · exact ⟨rfl, rfl, rfl, rfl, id, [2], rfl⟩

end ImapSieve
