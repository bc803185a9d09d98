import ImapSieve.Daemon.Validity

/-!
# The Bookmark Belongs to the Monitored Mailbox

Runs with different settings share one state file. The file names the mailbox that its
bookmark was recorded for, but the daemon never reads the name: the only check is that of
UIDVALIDITY, which two mailboxes may share.

`recorded` follows the bookmark through memory, disk and restarts back to the world in which
its value was recorded. Where a matching UIDVALIDITY is found only for the mailbox that the
state names, that world had the same mailbox selected, under the same UIDVALIDITY.
-/

namespace ImapSieve

open Effects

/-! ## Section 1: Where a bookmark comes from -/

/-- The worlds in which the bookmark in memory and the one on disk were recorded. -/
structure Recorded where
  memory : Option World
  disk : Option World

/-- The update sets the bookmark to a new value. -/
def StateChange.records (s : State) : StateChange → Bool
  | .session _ _ => false
  | .seed _ => true
  | .advance uid => s.lastSeenUid.all fun u => u < uid

/-- The record of an update: what it leaves in memory reaches the disk if it is written. -/
def Recorded.update (o : Recorded) (w : World) (change : StateChange) (written : Bool) :
    Recorded :=
  let memory := if change.records w.memory then some w else o.memory
  ⟨memory, if written then memory else o.disk⟩

/-- The records after the calls answered so far. -/
def recorded : History → Recorded
  | [] => ⟨none, none⟩
  | .restarted _ :: tr => ⟨(recorded tr).disk, (recorded tr).disk⟩
  | .called w c r :: tr =>
      match c, r with
      | .update change, .ok () => (recorded tr).update w change true
      | .update change, .error _ => (recorded tr).update w change false
      | _, _ => recorded tr

theorem recorded_called {w : World} {c : Call} {r : Reply c} {tr : History}
    (hc : ∀ change, c ≠ .update change) : recorded (.called w c r :: tr) = recorded tr := by
  cases c with
  | update change => exact absurd rfl (hc change)
  | _ => rfl

/-- In the world, a bookmark can be recorded for the mailbox under the UIDVALIDITY. -/
structure World.RecordsFor (w : World) (mailbox : String) (uidvalidity : Nat) : Prop where
  selected : w.selected = some mailbox
  stored : w.memory.selectedMailbox = some mailbox
  reported : w.memory.uidvalidity = some uidvalidity

/-- FETCH starts above a bookmark that was recorded for its mailbox, under the UIDVALIDITY that
the latest SELECT reported. -/
def OwnBookmark (w : World) (c : Call) (_ : Reply c) (before : History) : Prop :=
  ∀ mailbox start since, c = .fetchUidRange mailbox start since →
    ∃ u status origin, w.memory.lastSeenUid = some u ∧ start = MessageProcessor.startUid u ∧
      lastSelect before = some status ∧ (recorded before).memory = some origin ∧
      origin.RecordsFor mailbox status.uidvalidity

/-- A SELECT that reports the stored UIDVALIDITY, while a bookmark is stored, is of the mailbox
that the state names. -/
def SameMailbox (w : World) : (c : Call) → Reply c → World → Prop
  | .select mailbox, .ok status, _ =>
      w.memory.lastSeenUid ≠ none → w.memory.uidvalidity = some status.uidvalidity →
        w.memory.selectedMailbox = some mailbox
  | _, _, _ => True

instance (w : World) (c : Call) (r : Reply c) (w' : World) : Decidable (SameMailbox w c r w') :=
  match c, r with
  | .select mailbox, .ok _ => inferInstanceAs (Decidable (_ → _ → _ = some mailbox))
  | .select _, .error _ | .connect, _ | .sleep _, _ | .genRange _, _ | .capabilities, _
  | .fetchUidRange _ _ _, _ | .command _, _ | .idle _, _ | .send _, _ | .stamp, _ | .state, _
  | .update _, _ | .currentScript, _ | .evaluate _ _, _ | .deleting _, _
  | .executed _ _, _ => isTrue trivial

/-! ## Section 2: The mailbox that the state names -/

/-- Whose bookmark is in memory: in a session that has persisted its UIDVALIDITY that of the
monitored mailbox, and before that if the UIDVALIDITY matches. -/
def Phase.Owns (cfg : Settings) (w : World) : Phase → Prop
  | .offline | .connected | .capable _ | .stopped _ _ => True
  | .selected s | .checked s =>
      w.memory.lastSeenUid ≠ none → w.memory.uidvalidity = some s.status.uidvalidity →
        w.memory.selectedMailbox = some cfg.mailbox
  | _ => w.memory.selectedMailbox = some cfg.mailbox

/-- The bookmark of the state was recorded for the mailbox and the UIDVALIDITY that stand
beside it. -/
def State.OwnedBy (s : State) (origin : Option World) : Prop :=
  s.lastSeenUid ≠ none → ∃ w mailbox uidvalidity, origin = some w ∧
    w.RecordsFor mailbox uidvalidity ∧ s.selectedMailbox = some mailbox ∧
    s.uidvalidity = some uidvalidity

section Steps

variable {cfg : Settings} {ph : Phase} {w w' : World} {tr : History} {c : Call} {r : Reply c}

theorem Phase.Owns.same (h : ph.Owns cfg w) (hmemory : w'.memory = w.memory) :
    ph.Owns cfg w' := by
  cases ph <;> simp only [Phase.Owns, hmemory] at h ⊢ <;> exact h

theorem owns_enter {b : Batch} {done rest : List MessageContext}
    (h : w.memory.selectedMailbox = some cfg.mailbox) :
    (Phase.enter b done rest).Owns cfg w := by
  cases rest <;> exact h

/-- Only the update of the session setup changes the mailbox that the state names. -/
theorem selectedMailbox_of_answers (hans : w.Answers c r w')
    (hc : ∀ status mailbox, c ≠ .update (.session status mailbox)) :
    w'.memory.selectedMailbox = w.memory.selectedMailbox := by
  by_cases hupdate : ∃ change, c = .update change
  · obtain ⟨change, rfl⟩ := hupdate
    rw [hans.update.2.2.1]
    cases change with
    | session status mailbox => exact absurd rfl (hc status mailbox)
    | seed uid => rfl
    | advance uid => rfl
  · rw [(hans.stored fun change hc => hupdate ⟨change, hc⟩).1]

/-- Every call keeps the mailbox that the state names. -/
theorem owns_next (hallow : ph.Allows cfg c) (hans : w.Answers c r w')
    (hsame : SameMailbox w c r w') (h : ph.Owns cfg w) : (ph.next cfg w c r).Owns cfg w' := by
  have hkeep := selectedMailbox_of_answers hans
  have hmoves := moves_next (w := w) (r := r) hallow
  generalize ph.next cfg w c r = ph' at hmoves ⊢
  cases hmoves with
  | offline => trivial
  | connected => trivial
  | capable hidle => trivial
  | stopped hcached hne => trivial
  | selected status =>
    cases hans
    exact hsame
  | checked hmatch =>
    obtain ⟨rfl, rfl⟩ := hans
    exact h
  | validated s =>
    cases hans
    rfl
  | taken script => exact owns_enter ((hkeep (by simp)).trans h)
  | performed hnext =>
    refine (hkeep ?_).trans h
    rintro status mailbox rfl
    cases ofOp_of_nextCall hnext
  | advanced => exact owns_enter ((hkeep (by simp)).trans h)
  | _ => exact (hkeep (by simp)).trans h

/-- An update leaves a bookmark in memory that was recorded for the mailbox named beside it. -/
theorem ownedBy_apply (hsound : ph.Sound cfg w tr) (howns : ph.Owns cfg w)
    {change : StateChange} (hallow : ph.Allows cfg (.update change)) {o : Recorded}
    (h : w.memory.OwnedBy o.memory) (written : Bool) :
    (change.apply w.memory).OwnedBy (o.update w change written).memory := by
  intro hseen
  cases change with
  | session status mailbox =>
    -- the same bookmark: its UIDVALIDITY was found to match, so its mailbox is the selected one
    obtain ⟨s, rfl, rfl, rfl⟩ := checked_of_session hallow
    obtain ⟨origin, mb, v, horigin, hfor, hmailbox, hv⟩ := h hseen
    obtain rfl := hsound.2 v hv
    have hname := howns hseen hv
    rw [hmailbox] at hname
    cases hname
    exact ⟨origin, _, _, horigin, hfor, rfl, rfl⟩
  | seed uid =>
    obtain ⟨s, rfl, rfl⟩ := seeding_of_seed hallow
    have hlive := hsound.1
    exact ⟨w, _, _, rfl, ⟨hlive.selected, howns, hlive.uidvalidity⟩, howns, hlive.uidvalidity⟩
  | advance uid =>
    obtain ⟨b, done, msg, rest, rfl, rfl⟩ := advancing_of_advance hallow
    have hlive := hsound.1.live
    cases hrecords : (StateChange.advance msg.uid).records w.memory with
    | true =>
      refine ⟨w, _, _, ?_, ⟨hlive.selected, howns, hlive.uidvalidity⟩, howns, hlive.uidvalidity⟩
      simp only [Recorded.update, hrecords, if_true]
    | false =>
      -- the bookmark stays where it was
      obtain ⟨origin, mb, v, horigin, hfor, hmailbox, hv⟩ := h (by rw [hsound.1.bookmark]; simp)
      refine ⟨origin, mb, v, ?_, hfor, hmailbox, hv⟩
      simp only [Recorded.update, hrecords, Bool.false_eq_true, if_false]
      exact horigin

end Steps

/-! ## Section 3: Runs with changing settings -/

/-- The daemon's world where only the mailbox that the state names matches. -/
def ownWorld : Surroundings Call Reply World := daemonWorld.under { call := SameMailbox }

/-- What is known of the bookmarks in memory and on disk. -/
structure Owned (cfg : Settings) (w : World) (tr : History) : Prop where
  phase : (phaseOf cfg tr).Owns cfg w
  memory : w.memory.OwnedBy (recorded tr).memory
  disk : w.disk.OwnedBy (recorded tr).disk

theorem owned_call {cfg : Settings} {w w' : World} {tr : History} {c : Call} {r : Reply c}
    (hsound : (phaseOf cfg tr).Sound cfg w tr) (hallow : (phaseOf cfg tr).Allows cfg c)
    (hans : w.Answers c r w') (hsame : SameMailbox w c r w') (h : Owned cfg w tr) :
    Owned cfg w' (.called w c r :: tr) := by
  have hphase : (phaseOf cfg (.called w c r :: tr)).Owns cfg w' :=
    owns_next hallow hans hsame h.phase
  by_cases hupdate : ∃ change, c = .update change
  · obtain ⟨change, rfl⟩ := hupdate
    obtain ⟨-, -, hmemory, ⟨rfl, hdisk⟩ | ⟨⟨e, rfl⟩, hdisk⟩⟩ := hans.update
    · have howned := ownedBy_apply hsound h.phase hallow h.memory true
      rw [← hmemory] at howned
      refine ⟨hphase, howned, ?_⟩
      rw [hdisk]
      exact howned
    · have howned := ownedBy_apply hsound h.phase hallow h.memory false
      rw [← hmemory] at howned
      refine ⟨hphase, howned, ?_⟩
      rw [hdisk]
      exact h.disk
  · have hc : ∀ change, c ≠ .update change := fun change hc => hupdate ⟨change, hc⟩
    obtain ⟨hmemory, hdisk⟩ := hans.stored hc
    refine ⟨hphase, ?_, ?_⟩
    · rw [recorded_called hc, hmemory]
      exact h.memory
    · rw [recorded_called hc, hdisk]
      exact h.disk

section Runs

variable {cfg : Settings} {w₀ : World} {x : Config Call Reply World (Except CoreError Unit)}

theorem owned_of_serves (hfresh : w₀.Fresh) (hx : Serves ownWorld w₀ cfg x) :
    Owned cfg x.world x.trace := by
  have hS : Admissible ownWorld := admissible_under _
  refine serves_invariant (I := Owned) hx ?_ ?_ ?_ ?_
  · intro cfg
    refine ⟨trivial, fun hseen => ?_, fun hseen => ?_⟩
    · rw [hfresh.1] at hseen
      exact absurd rfl hseen
    · rw [hfresh.2] at hseen
      exact absurd rfl hseen
  · intro cfg p w tr c r w' hat h hallow hans
    exact owned_call (serves_sound hS hat) hallow (hS.answers hans) hans.2 h
  · intro cfg w w' tr h hdrift
    have hmemory := (hS.drifts hdrift).memory
    refine ⟨h.phase.same hmemory, ?_, ?_⟩
    · rw [hmemory]
      exact h.memory
    · rw [(hS.drifts hdrift).disk]
      exact h.disk
  -- the next run starts with the bookmark on disk
  · intro cfg cfg' w w' tr h hr
    cases hS.restarts hr
    exact ⟨trivial, h.disk, h.disk⟩

/-- The UID bookmark belongs to the monitored mailbox. In any sequence of runs on one state
file, each with its own settings, in which a matching UIDVALIDITY is found only for the
mailbox that the state names, every FETCH starts above a bookmark that was recorded while the
fetched mailbox was selected, under the UIDVALIDITY just reported. -/
theorem bookmark_owned (w₀ : World) (hfresh : w₀.Fresh) (cfg : Settings)
    (x : Config Call Reply World (Except CoreError Unit)) (hx : Serves ownWorld w₀ cfg x) :
    Along OwnBookmark x.trace := by
  have hS : Admissible ownWorld := admissible_under _
  refine serves_invariant (I := fun _ _ tr => Along OwnBookmark tr) hx (fun _ => along_nil) ?_
    (fun _ _ _ _ h _ => h) fun _ _ _ _ _ h _ => along_restarted h
  intro cfg p w tr c r w' hat h hallow _
  refine along_called ?_ h
  rintro mailbox start since rfl
  have howned := owned_of_serves hfresh hat
  have hsound := serves_sound hS hat
  obtain ⟨s, state, u, hph, rfl, rfl, -⟩ := ranged_of_fetch hallow
  have hselect : lastSelect tr = some s.status := serves_lastSelect hat (by rw [hph]; rfl)
  have hname := howned.phase
  rw [hph] at hsound hname
  obtain ⟨hlive, rfl, hseen⟩ := hsound
  obtain ⟨origin, mb, v, horigin, hfor, hmailbox, hv⟩ := howned.memory (by rw [hseen]; simp)
  -- the mailbox and the UIDVALIDITY beside the bookmark are those of the session
  have hmb : mb = cfg.mailbox := Option.some.inj (hmailbox.symm.trans hname)
  have hvalue : v = s.status.uidvalidity := Option.some.inj (hv.symm.trans hlive.uidvalidity)
  subst hmb hvalue
  exact ⟨u, s.status, origin, hseen, rfl, hselect, horigin, hfor⟩

end Runs

/-- A first run on `INBOX`, which holds a message, and then `n` steps of a second run on the
same state file, for the given mailbox. -/
def secondRun (mailbox : String) (n : Nat) : Config Call Reply World (Except CoreError Unit) :=
  let x := sampleDaemon { idle := true } 10 (sampleWorld (sampleServer 1) .done) 14
  play (World.respond { idle := true }) n
    ⟨Supervisor.run { sampleSettings 10 with mailbox := mailbox }, x.world.restart,
      .restarted x.world :: x.trace⟩

theorem serves_secondRun (reg : Regime Call Reply World) {mailbox : String} {n : Nat}
    (hfirst : ∀ i < 14, reg.admits (World.respond { idle := true })
      (sampleDaemon { idle := true } 10 (sampleWorld (sampleServer 1) .done) i))
    (hrestart : ∀ w, reg.restart w)
    (hsecond : ∀ i < n, reg.admits (World.respond { idle := true }) (secondRun mailbox i)) :
    Serves (daemonWorld.under reg) (sampleWorld (sampleServer 1) .done)
      { sampleSettings 10 with mailbox := mailbox } (secondRun mailbox n) := by
  have hx : Serves (daemonWorld.under reg) (sampleWorld (sampleServer 1) .done)
      (sampleSettings 10) (sampleDaemon { idle := true } 10
        (sampleWorld (sampleServer 1) .done) 14) := (reachable_sampleDaemon 10 _ hfirst).lives
  have hagain := hx.restart { sampleSettings 10 with mailbox := mailbox } ⟨rfl, hrestart _⟩
  exact hagain.steps (steps_play (fun w c => answers_respond _ w c) reg n _ hsecond)

/-- The second run is for the same mailbox. -/
theorem bookmark_owned_again : Along OwnBookmark (secondRun "INBOX" 13).trace :=
  bookmark_owned _ ⟨rfl, rfl⟩ _ _
    (serves_secondRun { call := SameMailbox } (by decide) (fun _ => trivial) (by decide))

/-- The second run is for another mailbox that has the same UIDVALIDITY: it fetches above the
bookmark of the first. -/
theorem not_bookmark_owned :
    ∃ w₀ cfg x, w₀.Fresh ∧ Serves daemonWorld w₀ cfg x ∧ ¬ Along OwnBookmark x.trace := by
  refine ⟨sampleWorld (sampleServer 1) .done, { sampleSettings 10 with mailbox := "Lists" },
    secondRun "Lists" 10, ⟨rfl, rfl⟩, ?_, fun halong => ?_⟩
  · exact (serves_secondRun {} (fun _ _ => admits_of_regular (fun _ _ => trivial) _)
      (fun _ => trivial) fun _ _ => admits_of_regular (fun _ _ => trivial) _).of_under
  · obtain ⟨u, status, origin, -, -, -, horigin, hfor⟩ :=
      halong _ (.fetchUidRange _ _ _) _ _ List.suffix_rfl _ _ _ rfl
    have hselected : (recorded (secondRun "Lists" 9).trace).memory.bind World.selected =
        some "INBOX" := by decide
    rw [show (recorded (secondRun "Lists" 9).trace).memory = some origin from horigin,
      Option.bind_some, hfor.selected] at hselected
    exact absurd hselected (by decide)

end ImapSieve
