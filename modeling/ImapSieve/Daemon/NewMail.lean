import ImapSieve.Daemon.Validity

/-!
# Only New Mail Is Processed

`UID FETCH u+1:*` also gives the message with the highest UID when that lies at or below the
bookmark, and the batch loop does not filter the answer. So a batch holds only new mail
exactly where that message is new, or hidden by CHANGEDSINCE (`Mailbox.HighestNew`).

Where every FETCH meets this condition and the process is not lost, every message is executed
successfully at most once (`executed_once`): a UID that was executed lies below the bookmark
or is one of those that the current batch has taken (`Phase.Covers`).
-/

namespace ImapSieve

open Effects

/-! ## Section 1: The range of a FETCH -/

namespace Mailbox

variable {b : Mailbox} {start u : Nat} {since : Option Nat} {reply : List MessageContext}
  {msg : MessageContext}

/-- Nothing at or below the bookmark `u` is in the range of the next FETCH: its lower end is
computed without overflow, or everything is hidden, and the message with the highest UID is
new or hidden. -/
def HighestNew (b : Mailbox) (u : Nat) (since : Option Nat) : Prop :=
  (u + 1 < 2 ^ 32 ∨ ∀ m ∈ b.messages, changedAfter since m = false) ∧
    ∀ m ∈ b.messages, (∀ m' ∈ b.messages, m'.uid ≤ m.uid) → changedAfter since m = true →
      u < m.uid

instance (b : Mailbox) (u : Nat) (since : Option Nat) : Decidable (b.HighestNew u since) :=
  inferInstanceAs (Decidable (_ ∧ _))

theorem fetchFrom_sublist (b : Mailbox) (start : Nat) (since : Option Nat) :
    b.fetchFrom start since ⊆ b.fetch start since := by
  intro m hm
  obtain ⟨hmem, htest⟩ := List.mem_filter.mp hm
  refine List.mem_filter.mpr ⟨hmem, ?_⟩
  simp only [Bool.and_eq_true, decide_eq_true_eq] at htest
  simp [inRange, htest.1, htest.2]

/-- An answer to FETCH holds messages of the mailbox that are in the range. -/
theorem mem_of_fetched (h : b.Fetched start since reply) (hmsg : msg ∈ reply) :
    ∃ m ∈ b.fetch start since, m.toContext = msg := by
  rcases h with hperm | hperm
  · exact List.mem_map.mp (hperm.mem_iff.mp hmsg)
  · obtain ⟨m, hm, hmsg⟩ := List.mem_map.mp (hperm.mem_iff.mp hmsg)
    exact ⟨m, b.fetchFrom_sublist start since hm, hmsg⟩

theorem nodup_of_fetched (h : b.Fetched start since reply) :
    (reply.map MessageContext.uid).Nodup := by
  have hfilter : ∀ test : StoredMessage → Bool,
      (((b.messages.filter test).map StoredMessage.toContext).map MessageContext.uid).Nodup := by
    intro test
    rw [List.map_map]
    exact b.nodup_uids.sublist (List.filter_sublist.map StoredMessage.uid)
  rcases h with hperm | hperm
  · exact (hperm.map _).nodup_iff.mpr (hfilter _)
  · exact (hperm.map _).nodup_iff.mpr (hfilter _)

/-- Under the condition an answer holds new messages only. -/
theorem HighestNew.lt (h : b.HighestNew u since)
    (hfetched : b.Fetched (MessageProcessor.startUid u) since reply) (hmsg : msg ∈ reply) :
    u < msg.uid := by
  obtain ⟨m, hm, rfl⟩ := mem_of_fetched hfetched hmsg
  obtain ⟨hmem, htest⟩ := List.mem_filter.mp hm
  obtain ⟨hrange, hvisible⟩ := Bool.and_eq_true_iff.mp htest
  rcases Bool.or_eq_true_iff.mp hrange with hstart | hhighest
  · rcases h.1 with hbound | hhidden
    · rw [MessageProcessor.startUid, Nat.mod_eq_of_lt hbound] at hstart
      exact of_decide_eq_true hstart
    · rw [hhidden m hmem] at hvisible
      cases hvisible
  · exact h.2 m hmem (by simpa using hhighest) hvisible

end Mailbox

/-- The condition on a FETCH: the batch is empty anyway, or nothing old is in its range. -/
def FetchesNew (cfg : Settings) (w : World) : (c : Call) → Reply c → World → Prop
  | .fetchUidRange _ _ since, _, _ => cfg.batchSize = 0 ∨
      ∀ box ∈ w.box, ∀ u ∈ w.memory.lastSeenUid, box.HighestNew u since
  | _, _, _ => True

instance (cfg : Settings) (w : World) (c : Call) (r : Reply c) (w' : World) :
    Decidable (FetchesNew cfg w c r w') :=
  match c, r with
  | .fetchUidRange _ _ _, _ => inferInstanceAs (Decidable (cfg.batchSize = 0 ∨ _))
  | .connect, _ | .sleep _, _ | .genRange _, _ | .capabilities, _ | .select _, _
  | .command _, _ | .idle _, _ | .send _, _ | .stamp, _ | .state, _ | .update _, _
  | .currentScript, _ | .evaluate _ _, _ | .deleting _, _ | .executed _ _, _ => isTrue trivial

/-- The batch of the FETCH holds new messages only. -/
def Fetch.New (cfg : Settings) (f : Fetch) : Prop :=
  ∀ msg ∈ f.reply.take cfg.batchSize, f.bookmark < msg.uid

theorem new_of_comes {S : Surroundings Call Reply World} {cfg : Settings} {w₀ w : World}
    {tr : History} (hS : Admissible S)
    (hnew : ∀ {w c r w'}, S.answers w c r w' → FetchesNew cfg w c r w')
    (hx : Comes S cfg w₀ w tr) {f : Fetch} (hf : (phaseOf cfg tr).known.fetch? = some f) :
    f.New cfg := by
  refine daemon_fetch (F := Fetch.New cfg) hS hx ?_ hf
  intro w tr s bookmark reply w' hat hph hans msg hmsg
  have hsound := daemon_sound hS hat
  rw [hph] at hsound
  have hcond : cfg.batchSize = 0 ∨ ∀ box ∈ w.box, ∀ u ∈ w.memory.lastSeenUid,
      box.HighestNew u _ := hnew hans
  obtain ⟨⟨box, hbox, hfetched⟩, -⟩ := hS.answers hans
  rcases hcond with hzero | hcond
  · rw [hzero, List.take_zero] at hmsg
    cases hmsg
  · exact (hcond box hbox bookmark hsound.2.2).lt hfetched (List.mem_of_mem_take hmsg)

/-! ## Section 2: Executed at most once -/

/-- The UIDs for which `execute` returned `Ok`, newest first. -/
def executedUids (tr : History) : List Nat :=
  tr.filterMap fun
    | .called _ (.executed uid (.ok ())) _ => some uid
    | _ => none

/-- The messages of the batch that were executed successfully. -/
def Phase.taken : Phase → List MessageContext
  | .evaluating _ done _ _ | .executing _ done _ _ _ _ | .idling _ done _ => done
  | .advancing _ done msg _ => done ++ [msg]
  | _ => []

/-- The bookmark that the phase goes by: that of its batch, or the stored one. -/
def Phase.baseline (ph : Phase) (w : World) : Option Nat :=
  match ph.known.fetch? with
  | some f => some f.bookmark
  | none => w.memory.lastSeenUid

/-- The UID is at or below the bookmark, or one of those taken by the batch. -/
def Phase.Covers (ph : Phase) (w : World) (uid : Nat) : Prop :=
  (∃ l, ph.baseline w = some l ∧ uid ≤ l) ∨ ∃ msg ∈ ph.taken, msg.uid = uid

section Covers

variable {cfg : Settings} {ph : Phase} {w w' : World} {tr : History} {uid : Nat} {c : Call}
  {r : Reply c}

/-- In the middle of a batch. -/
theorem covers_enter {b : Batch} {done rest : List MessageContext} :
    (Phase.enter b done rest).Covers w uid ↔
      (∃ l, some b.bookmark = some l ∧ uid ≤ l) ∨ ∃ msg ∈ done, msg.uid = uid := by
  cases rest <;> rfl

/-- The stored bookmark has passed the UID. -/
def World.Passed (w : World) (uid : Nat) : Prop := ∃ l, w.memory.lastSeenUid = some l ∧ uid ≤ l

theorem World.Passed.extends (h : w.Passed uid) (hgrows : w.memory.Extends w'.memory) :
    w'.Passed uid := by
  obtain ⟨l, hl, hle⟩ := h
  obtain ⟨l', hl', hle'⟩ := hgrows.lastSeenUid l hl
  exact ⟨l', hl', hle.trans hle'⟩

theorem covers_of_passed (h : w.Passed uid) (hfetch : ph.known.fetch? = none) :
    ph.Covers w uid := by
  refine .inl ?_
  rw [Phase.baseline, hfetch]
  exact h

/-- Outside of a batch the UID is passed. -/
theorem passed_of_covers (h : ph.Covers w uid) (hfetch : ph.known.fetch? = none) :
    w.Passed uid := by
  rcases h with hle | ⟨msg, hmsg, -⟩
  · rwa [Phase.baseline, hfetch] at hle
  · cases ph <;> first | (cases hmsg; done) | cases hfetch

/-- In a batch the UID is passed once its messages are. -/
theorem passed_of_batch {b : Batch} {done rest : List MessageContext}
    (hat : b.At cfg done rest w tr)
    (h : (∃ l, some b.bookmark = some l ∧ uid ≤ l) ∨ ∃ msg ∈ done, msg.uid = uid) :
    w.Passed uid := by
  refine ⟨_, hat.bookmark, ?_⟩
  rcases h with ⟨l, hl, hle⟩ | ⟨msg, hmsg, rfl⟩
  · cases hl
    exact hle.trans (bookmark_le_reached b done)
  · exact uid_le_reached b hmsg

/-- Every call keeps a UID covered. -/
theorem covers_next (hsound : ph.Sound cfg w tr) (hallow : ph.Allows cfg c)
    (hans : w.Answers c r w') (h : ph.Covers w uid) : (ph.next cfg w c r).Covers w' uid := by
  have hgrows := memory_extends hsound hallow hans
  -- into a phase outside of a batch
  have hout : ∀ ph' : Phase, ph'.known.fetch? = none → w.Passed uid → ph'.Covers w' uid :=
    fun ph' hfetch hpassed => covers_of_passed (hpassed.extends hgrows) hfetch
  have hstay : ph.known.fetch? = none → (∀ s state bookmark, ph ≠ .ranged s state bookmark) →
      (ph.next cfg w c r).known.fetch? = none := fetch?_next_none hallow
  cases hallow with
  | fetch s state bookmark =>
    obtain ⟨hlive, hmemory, hbookmark⟩ := hsound
    have hpassed := passed_of_covers h rfl
    rcases r with e | reply
    -- the batch did not begin
    · exact hout _ rfl hpassed
    · refine .inl ⟨bookmark, rfl, ?_⟩
      obtain ⟨l, hl, hle⟩ := hpassed
      rw [hmemory, hbookmark] at hl
      cases hl
      exact hle
  | script f =>
    simp only [Phase.next]
    exact covers_enter.mpr h
  | evaluate b done msg rest => rcases r with e | actions <;> exact h
  | perform hnext =>
    rw [next_executing hnext]
    exact h
  | @executed b done msg rest actions ops hnone =>
    cases houtcome : outcome ops with
    | error e => exact h
    | ok u =>
      rcases h with hle | ⟨m, hm, huid⟩
      · exact .inl hle
      · exact .inr ⟨m, List.mem_append_left _ hm, huid⟩
  | advance b done msg rest =>
    obtain ⟨hat, -⟩ := hsound
    have hmemory := hans.update.2.2.1
    rcases r with e | u
    · -- the write failed, but the memory has passed the message
      refine covers_of_passed ?_ rfl
      rcases h with hle | ⟨m, hm, rfl⟩
      · exact (passed_of_batch hat (.inl hle)).extends hgrows
      · rcases List.mem_append.mp hm with hdone | hmsg
        · exact (passed_of_batch hat (.inr ⟨m, hdone, rfl⟩)).extends hgrows
        · rw [List.mem_singleton.mp hmsg]
          exact ⟨_, by rw [hmemory, apply_advance_lastSeenUid], le_max_left _ _⟩
    · simp only [Phase.next]
      exact covers_enter.mpr h
  | idle b done allOk =>
    obtain ⟨rest, hat, -⟩ := hsound
    have hpassed : w.Passed uid := passed_of_batch hat h
    refine hout _ ?_ hpassed
    rcases r with _ | e | ev
    · rfl
    · rfl
    · cases ev <;> rfl
  | _ => exact hout _ (hstay rfl (by simp)) (passed_of_covers h rfl)

end Covers

section Once

variable {S : Surroundings Call Reply World} {cfg : Settings} {w₀ w : World} {tr : History}

theorem executedUids_called (w : World) (c : Call) (r : Reply c) (tr : History) :
    executedUids (.called w c r :: tr) = executedUids tr ∨
      ∃ uid, c = .executed uid (.ok ()) ∧
        executedUids (.called w c r :: tr) = uid :: executedUids tr := by
  cases c with
  | executed uid result =>
    cases result with
    | error e => exact .inl rfl
    | ok u => exact .inr ⟨uid, rfl, rfl⟩
  | _ => exact .inl rfl

/-- The message at hand is not among those that the batch is done with. -/
theorem not_done {b : Batch} {done rest : List MessageContext} {msg : MessageContext}
    (hat : b.At cfg done (msg :: rest) w tr) : ∀ m ∈ done, m.uid ≠ msg.uid := by
  obtain ⟨box, -, hfetched⟩ := hat.fetch.fetched
  have hnodup : ((done ++ msg :: rest).map MessageContext.uid).Nodup := by
    rw [hat.messages]
    exact (Mailbox.nodup_of_fetched hfetched).sublist ((List.take_sublist _ _).map _)
  rw [List.map_append, List.map_cons] at hnodup
  intro m hm heq
  exact List.disjoint_of_nodup_append hnodup (List.mem_map_of_mem hm)
    (heq ▸ List.mem_cons_self)

/-- In a batch of new mail the message at hand is not covered. -/
theorem not_covers_current {b : Batch} {done rest : List MessageContext} {msg : MessageContext}
    {actions : List SieveAction} {ops : List Op} (hat : b.At cfg done (msg :: rest) w tr)
    (hnew : b.toFetch.New cfg) :
    ¬ (Phase.executing b done msg rest actions ops).Covers w msg.uid := by
  rintro (⟨l, hl, hle⟩ | ⟨m, hm, huid⟩)
  · cases hl
    exact absurd (hnew msg hat.mem_messages) (by simpa using hle)
  · exact not_done hat m hm huid

/-- Where every FETCH is of new mail and the process is not lost, no message is executed
successfully a second time. -/
theorem executed_once (hS : Admissible S)
    (hnew : ∀ {w c r w'}, S.answers w c r w' → FetchesNew cfg w c r w')
    (hkeep : ∀ w w', ¬ S.restarts w w') (hx : Comes S cfg w₀ w tr) :
    (executedUids tr).Nodup ∧ ∀ uid ∈ executedUids tr, (phaseOf cfg tr).Covers w uid := by
  refine daemon_invariant (I := fun w tr => (executedUids tr).Nodup ∧
    ∀ uid ∈ executedUids tr, (phaseOf cfg tr).Covers w uid) hx ?_ ?_ ?_ ?_
  · exact ⟨List.nodup_nil, fun uid huid => by cases huid⟩
  · rintro w tr c r w' hat ⟨hnodup, hcovers⟩ hallow hans
    have hsound := daemon_sound hS hat
    have hnext : ∀ uid ∈ executedUids tr, ((phaseOf cfg tr).next cfg w c r).Covers w' uid :=
      fun uid huid => covers_next hsound hallow (hS.answers hans) (hcovers uid huid)
    rcases executedUids_called w c r tr with heq | ⟨uid, rfl, heq⟩
    · rw [heq]
      exact ⟨hnodup, hnext⟩
    -- one more was executed: it was not covered before, and it is now
    · rw [heq, phaseOf_called]
      obtain ⟨b, done, msg, rest, actions, ops, hph, rfl, hok⟩ := executing_of_executed hallow
      have hfetch : b.toFetch.New cfg := new_of_comes hS hnew hat (by rw [hph]; rfl)
      rw [hph] at hsound hcovers
      refine ⟨List.nodup_cons.mpr ⟨fun hmem => ?_, hnodup⟩, fun uid huid => ?_⟩
      · exact not_covers_current hsound.1 hfetch (hcovers msg.uid hmem)
      · rcases List.mem_cons.mp huid with rfl | huid
        · rw [hph]
          exact .inr ⟨msg, List.mem_append_right _ List.mem_cons_self, rfl⟩
        · exact hnext uid huid
  · rintro w w' tr hat ⟨hnodup, hcovers⟩ hdrift
    refine ⟨hnodup, fun uid huid => ?_⟩
    have h := hcovers uid huid
    rwa [Phase.Covers, Phase.baseline, ← (hS.drifts hdrift).memory] at h
  · intro w w' tr _ _ hr
    exact absurd hr (hkeep w w')

end Once

/-! ## Section 3: Only new mail -/

/-- The UID is above the bookmark with which the batch fetched. -/
def AboveBookmark (tr : History) (uid : Nat) : Prop :=
  ∃ snapshot u, lastFetch tr = some snapshot ∧ snapshot.memory.lastSeenUid = some u ∧ u < uid

/-- What is evaluated is above the bookmark, and what is acted on was evaluated in the same
batch. -/
def OnlyNewMail (_ : World) (c : Call) (_ : Reply c) (before : History) : Prop :=
  (∀ script msg, c = .evaluate script msg → AboveBookmark before msg.uid) ∧
    (c.acts = true → ∃ msg, Evaluated (sinceFetch before) msg ∧ AboveBookmark before msg.uid ∧
      ∀ cmd, c = .command cmd → cmd.About msg.uid)

/-- The UIDs that were evaluated, newest first. -/
def evaluatedUids (tr : History) : List Nat :=
  tr.filterMap fun
    | .called _ (.evaluate _ msg) _ => some msg.uid
    | _ => none

theorem mem_executedUids {tr : History} {uid : Nat} (h : uid ∈ executedUids tr) :
    ∃ w r, .called w (.executed uid (.ok ())) r ∈ tr := by
  obtain ⟨e, he, heq⟩ := List.mem_filterMap.mp h
  split at heq
  · cases heq
    exact ⟨_, _, he⟩
  · cases heq

theorem mem_evaluatedUids {tr : History} {uid : Nat} (h : uid ∈ evaluatedUids tr) :
    ∃ w script msg r, .called w (.evaluate script msg) r ∈ tr ∧ msg.uid = uid := by
  obtain ⟨e, he, heq⟩ := List.mem_filterMap.mp h
  split at heq
  · cases heq
    exact ⟨_, _, _, _, he, rfl⟩
  · cases heq

/-- No evaluation and no execution fails. -/
def Succeeds : (c : Call) → Reply c → Prop
  | .evaluate _ _, .error _ => False
  | .executed _ result, _ => result = .ok ()
  | _, _ => True

instance (c : Call) (r : Reply c) : Decidable (Succeeds c r) :=
  match c, r with
  | .evaluate _ _, .error _ => isFalse id
  | .executed _ (.ok ()), _ => isTrue rfl
  | .executed _ (.error _), _ => isFalse (by simp [Succeeds])
  | .evaluate _ _, .ok _ | .connect, _ | .sleep _, _ | .genRange _, _ | .capabilities, _
  | .select _, _ | .fetchUidRange _ _ _, _ | .command _, _ | .idle _, _ | .send _, _ | .stamp, _
  | .state, _ | .update _, _ | .currentScript, _ | .deleting _, _ => isTrue trivial

/-- Runs in which every FETCH is of new mail. -/
def newMailWorld (cfg : Settings) : Surroundings Call Reply World :=
  daemonWorld.under { call := FetchesNew cfg }

/-- Runs in which, moreover, nothing fails and the process is not lost. -/
def smoothWorld (cfg : Settings) : Surroundings Call Reply World :=
  daemonWorld.under
    { call := fun w c r w' => FetchesNew cfg w c r w' ∧ Succeeds c r
      restart := fun _ => False }

section NewMail

variable {S : Surroundings Call Reply World} {cfg : Settings} {w₀ w : World} {tr : History}

/-- The messages of a batch of new mail are above its bookmark. -/
theorem aboveBookmark_of_at {b : Batch} {done rest : List MessageContext} {msg : MessageContext}
    (hat : b.At cfg done (msg :: rest) w tr) (hnew : b.toFetch.New cfg) :
    AboveBookmark tr msg.uid :=
  ⟨b.snapshot, b.bookmark, hat.last, hat.fetch.lastSeen, hnew msg hat.mem_messages⟩

theorem onlyNewMail_of_comes (hS : Admissible S)
    (hnew : ∀ {w c r w'}, S.answers w c r w' → FetchesNew cfg w c r w')
    (hx : Comes S cfg w₀ w tr) : Along OnlyNewMail tr := by
  refine daemon_along hx ?_
  intro w tr c r w' hat hallow _
  have hsound := daemon_sound hS hat
  have hfetch : ∀ f, (phaseOf cfg tr).known.fetch? = some f → f.New cfg :=
    fun f hf => new_of_comes hS hnew hat hf
  refine ⟨?_, fun hacts => ?_⟩
  · rintro script msg rfl
    obtain ⟨b, done, rest, hph, -⟩ := evaluating_of_evaluate hallow
    rw [hph] at hsound
    exact aboveBookmark_of_at hsound (hfetch _ (by rw [hph]; rfl))
  · obtain ⟨b, done, msg, rest, actions, ops, hph, hnext⟩ := executing_of_acts hallow hacts
    rw [hph] at hsound
    obtain ⟨hbatch, hevaluated, habout⟩ := hsound
    refine ⟨msg, hevaluated, aboveBookmark_of_at hbatch (hfetch _ (by rw [hph]; rfl)), ?_⟩
    rintro cmd rfl
    exact about_of_nextCall habout hnext

/-- The message that was evaluated and is being executed. -/
def Phase.current : Phase → List Nat
  | .executing _ _ msg _ _ _ => [msg.uid]
  | _ => []

theorem current_enter (b : Batch) (done rest : List MessageContext) :
    (Phase.enter b done rest).current = [] := by
  cases rest <;> rfl

/-- Only evaluations and the returns of `execute` change the message at hand. -/
theorem current_next {ph : Phase} {c : Call} {r : Reply c} (hallow : ph.Allows cfg c)
    (hevaluate : ∀ script msg, c ≠ .evaluate script msg)
    (hexecuted : ∀ uid result, c ≠ .executed uid result) :
    (ph.next cfg w c r).current = ph.current := by
  have hmoves := moves_next (w := w) (r := r) hallow
  generalize heq : ph.next cfg w c r = ph' at hmoves ⊢
  cases hmoves with
  | offline =>
    -- the message at hand is not left before its execution returns
    cases hallow with
    | perform hnext =>
      rw [next_executing hnext] at heq
      cases heq
    | executed hnone => exact absurd rfl (hexecuted _ _)
    | _ => rfl
  | taken script => exact current_enter _ _ _
  | evaluated actions => exact absurd rfl (hevaluate _ _)
  | executed => exact absurd rfl (hexecuted _ _)
  | unexecuted e => exact absurd rfl (hexecuted _ _)
  | advanced => exact current_enter _ _ _
  | _ => rfl

/-- Where nothing fails, what was evaluated was executed, but for the message at hand. -/
theorem evaluatedUids_eq (hsmooth : ∀ {w c r w'}, S.answers w c r w' → Succeeds c r)
    (hkeep : ∀ w w', ¬ S.restarts w w') (hx : Comes S cfg w₀ w tr) :
    evaluatedUids tr = (phaseOf cfg tr).current ++ executedUids tr := by
  refine daemon_invariant
    (I := fun _ tr => evaluatedUids tr = (phaseOf cfg tr).current ++ executedUids tr) hx rfl ?_
    (fun _ _ _ _ h _ => h) fun w w' _ _ _ hr => absurd hr (hkeep w w')
  intro w tr c r w' _ h hallow hans
  have hsucceeds : Succeeds c r := hsmooth hans
  rw [phaseOf_called]
  by_cases hevaluate : ∃ script msg, c = .evaluate script msg
  -- an evaluated message is the one at hand
  · obtain ⟨script, msg, rfl⟩ := hevaluate
    rcases r with e | actions
    · exact hsucceeds.elim
    obtain ⟨b, done, rest, hph, -⟩ := evaluating_of_evaluate hallow
    rw [hph] at h ⊢
    exact congrArg (msg.uid :: ·) h
  · by_cases hexecuted : ∃ uid result, c = .executed uid result
    -- its execution has returned
    · obtain ⟨uid, result, rfl⟩ := hexecuted
      obtain rfl : result = .ok () := hsucceeds
      obtain ⟨b, done, msg, rest, actions, ops, hph, rfl, -⟩ := executing_of_executed hallow
      rw [hph] at h ⊢
      exact h
    · have hcurrent : ((phaseOf cfg tr).next cfg w c r).current = (phaseOf cfg tr).current :=
        current_next hallow (fun script msg hc => hevaluate ⟨script, msg, hc⟩)
          fun uid result hc => hexecuted ⟨uid, result, hc⟩
      rw [hcurrent]
      cases c with
      | evaluate script msg => exact absurd ⟨script, msg, rfl⟩ hevaluate
      | executed uid result => exact absurd ⟨uid, result, rfl⟩ hexecuted
      | _ => exact h

/-- Where every FETCH is of new mail, nothing fails and the process is not lost, no message is
evaluated a second time. -/
theorem evaluated_once (hS : Admissible S)
    (hnew : ∀ {w c r w'}, S.answers w c r w' → FetchesNew cfg w c r w')
    (hsmooth : ∀ {w c r w'}, S.answers w c r w' → Succeeds c r)
    (hkeep : ∀ w w', ¬ S.restarts w w') (hx : Comes S cfg w₀ w tr) : (evaluatedUids tr).Nodup := by
  obtain ⟨hnodup, hcovers⟩ := executed_once hS hnew hkeep hx
  have hsound := daemon_sound hS hx
  have hfetch : ∀ f, (phaseOf cfg tr).known.fetch? = some f → f.New cfg :=
    fun f hf => new_of_comes hS hnew hx hf
  rw [evaluatedUids_eq hsmooth hkeep hx]
  generalize phaseOf cfg tr = ph at hcovers hsound hfetch
  cases ph with
  | executing b done msg rest actions ops =>
    refine List.nodup_cons.mpr ⟨fun hmem => ?_, hnodup⟩
    exact not_covers_current hsound.1 (hfetch _ rfl) (hcovers msg.uid hmem)
  | _ => exact hnodup

end NewMail

/-- Only new mail is processed. Where every FETCH meets the condition, everything that is
evaluated or acted on is above the bookmark of its batch; and where, moreover, nothing fails
and the process is not lost, nothing is evaluated or executed twice. -/
theorem only_new_mail (cfg : Settings) (w₀ : World) :
    (∀ x, Reachable (newMailWorld cfg) (Supervisor.run cfg) w₀ x → Along OnlyNewMail x.trace) ∧
    ∀ x, Reachable (smoothWorld cfg) (Supervisor.run cfg) w₀ x →
      (evaluatedUids x.trace).Nodup ∧ (executedUids x.trace).Nodup := by
  refine ⟨fun x hx => ?_, fun x hx => ?_⟩
  · exact onlyNewMail_of_comes (admissible_under _) (fun hans => hans.2) hx.visits
  · have hS : Admissible (smoothWorld cfg) := admissible_under _
    have hkeep : ∀ w w', ¬ (smoothWorld cfg).restarts w w' := fun _ _ hr => hr.2
    exact ⟨evaluated_once hS (fun hans => hans.2.1) (fun hans => hans.2.2) hkeep hx.visits,
      (executed_once hS (fun hans => hans.2.1) hkeep hx.visits).1⟩

/-- A message arrives during IDLE and is processed once. -/
theorem only_new_mail_arrival :
    (evaluatedUids (arrivalRun 7).trace).Nodup ∧ (executedUids (arrivalRun 7).trace).Nodup :=
  (only_new_mail (sampleSettings 10) (sampleWorld (sampleServer 0) .done)).2 (arrivalRun 7)
    (reachable_arrivalRun (by decide) (fun _ _ => trivial) (by decide))

/-- The first run on a mailbox with one message. -/
def oldMailRun (n : Nat) : Config Call Reply World (Except CoreError Unit) :=
  sampleDaemon { idle := true } 10 (sampleWorld (sampleServer 1) .done) n

/-- On a first run the bookmark is seeded with the highest UID, and the message under it is
fetched and evaluated; after IDLE it is evaluated again, though nothing has failed. -/
theorem not_only_new_mail :
    (∃ x, Reachable daemonWorld (Supervisor.run (sampleSettings 10))
        (sampleWorld (sampleServer 1) .done) x ∧ ¬ Along OnlyNewMail x.trace) ∧
      ∃ x, Reachable (daemonWorld.under
          { call := fun _ c r _ => Succeeds c r, restart := fun _ => False })
          (Supervisor.run (sampleSettings 10)) (sampleWorld (sampleServer 1) .done) x ∧
        ¬ (evaluatedUids x.trace).Nodup := by
  refine ⟨⟨oldMailRun 13, reachable_freePlay .start, fun halong => ?_⟩, oldMailRun 21, ?_,
    by decide⟩
  · obtain ⟨snapshot, u, hlast, hseen, hlt⟩ :=
      (halong _ (.evaluate _ _) _ _ List.suffix_rfl).1 _ _ rfl
    have hbookmark : ((lastFetch (oldMailRun 12).trace).bind fun w => w.memory.lastSeenUid) =
        some 1 := by decide
    rw [show lastFetch (oldMailRun 12).trace = some snapshot from hlast, Option.bind_some,
      hseen] at hbookmark
    cases hbookmark
    exact absurd hlt (by decide)
  · exact reachable_sampleDaemon 10 _ (by decide)

end ImapSieve
