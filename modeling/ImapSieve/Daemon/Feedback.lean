import ImapSieve.Daemon.NewMail
import Mathlib.Data.List.Perm.Subperm

/-!
# Processing Creates No New Work

COPY and MOVE give the message a new UID in their target, also when that is the monitored
mailbox; the executor carries the name of the source mailbox and never compares it. Where no
`FileInto` that is carried out names the monitored mailbox, no UID appears there that was not
there before, and with the condition on FETCH the daemon processes what was pending at the
start, each message at most once.
-/

namespace ImapSieve

open Effects

/-! ## Section 1: Filing elsewhere -/

/-- COPY and MOVE of a message that is there do not have the monitored mailbox as target. -/
def FilesElsewhere (cfg : Settings) (w : World) : (c : Call) → Reply c → World → Prop
  | .command (.uidCopy uid target), _, _ | .command (.uidMove uid target), _, _ =>
      mailboxKey target = mailboxKey cfg.mailbox → w.find? uid = none
  | _, _, _ => True

instance (cfg : Settings) (w : World) (c : Call) (r : Reply c) (w' : World) :
    Decidable (FilesElsewhere cfg w c r w') :=
  match c, r with
  | .command (.uidCopy _ target), _ | .command (.uidMove _ target), _ =>
      inferInstanceAs (Decidable (mailboxKey target = mailboxKey cfg.mailbox → _))
  | .command (.uidStoreFlags _ _ _), _ | .command (.uidExpunge _), _
  | .command (.uidCreateMailbox _), _ | .connect, _ | .sleep _, _ | .genRange _, _
  | .capabilities, _ | .select _, _ | .fetchUidRange _ _ _, _ | .idle _, _ | .send _, _
  | .stamp, _ | .state, _ | .update _, _ | .currentScript, _ | .evaluate _ _, _
  | .deleting _, _ | .executed _ _, _ => isTrue trivial

/-- No message arrives in the monitored mailbox by itself. -/
def NoArrival (cfg : Settings) (w w' : World) : Prop :=
  ∀ uid m', w'.server.find? cfg.mailbox uid = some m' → ∃ m, w.server.find? cfg.mailbox uid = some m

/-- Nothing arrives, and nothing is filed into the monitored mailbox. -/
def elsewhereWorld (cfg : Settings) : Surroundings Call Reply World :=
  daemonWorld.under { call := FilesElsewhere cfg, drift := NoArrival cfg }

/-- Moreover, every FETCH is of new mail, and the process is not lost. -/
def closedWorld (cfg : Settings) : Surroundings Call Reply World :=
  daemonWorld.under
    { call := fun w c r w' => FilesElsewhere cfg w c r w' ∧ FetchesNew cfg w c r w'
      drift := NoArrival cfg
      restart := fun _ => False }

/-- The UIDs of the monitored mailbox above the bookmark `u`. -/
def World.pending (cfg : Settings) (w : World) (u : Nat) : List Nat :=
  match w.server.box cfg.mailbox with
  | none => []
  | some box => (box.messages.map StoredMessage.uid).filter fun uid => u < uid

section Steps

variable {cfg : Settings} {w w' : World} {uid : Nat}

/-- A command about one message that is not filed into its own mailbox adds no UID there. -/
theorem find?_of_run {sel : String} {cmd : ImapCommand} {u : Nat} {s s' : Server}
    (hrun : s.run sel cmd = some s') (habout : cmd.About u)
    (helsewhere : ∀ target, cmd.target = some target → mailboxKey target = mailboxKey sel →
      s.find? sel u = none) {m' : StoredMessage} (hfind : s'.find? sel uid = some m') :
    ∃ m, s.find? sel uid = some m := by
  rcases Server.run_origin hrun habout hfind with hold | ⟨m, hm, -, ⟨-, rfl⟩ | ⟨t, ht, hkey, -⟩⟩
  · exact ⟨m', hold⟩
  · exact ⟨m, hm⟩
  · rw [helsewhere t ht hkey.symm] at hm
    cases hm

theorem find?_eq_of_selected (hsel : w.selected = some cfg.mailbox) (uid : Nat) :
    w.find? uid = w.server.find? cfg.mailbox uid := by
  rw [World.find?, hsel, Option.bind_some]

/-- No call adds a UID to the monitored mailbox. -/
theorem find?_of_call {ph : Phase} {tr : History} {c : Call} {r : Reply c}
    (hsound : ph.Sound cfg w tr) (hallow : ph.Allows cfg c) (hans : w.Answers c r w')
    (helsewhere : FilesElsewhere cfg w c r w') {m' : StoredMessage}
    (hfind : w'.server.find? cfg.mailbox uid = some m') :
    ∃ m, w.server.find? cfg.mailbox uid = some m := by
  rcases hans.server with heq | ⟨cmd, sel, rfl, hsel, hrun⟩
  · exact ⟨m', heq ▸ hfind⟩
  -- a command is about the message at hand, and its copies go elsewhere
  · obtain ⟨b, done, msg, rest, actions, ops, rfl, hnext⟩ := executing_of_acts hallow rfl
    obtain ⟨hat, -, habout⟩ := hsound
    rw [hat.live.selected] at hsel
    cases hsel
    have hcmd := about_of_nextCall habout hnext
    refine find?_of_run hrun hcmd ?_ hfind
    intro target htarget hkey
    rw [← find?_eq_of_selected hat.live.selected]
    cases cmd with
    | uidCopy u t =>
      cases hcmd
      cases htarget
      exact helsewhere hkey
    | uidMove u t =>
      cases hcmd
      cases htarget
      exact helsewhere hkey
    | _ => cases htarget

end Steps

/-! ## Section 2: Nothing new appears -/

section Runs

variable {S : Surroundings Call Reply World} {cfg : Settings} {w₀ w : World} {tr : History}

/-- What the monitored mailbox holds at any time it held at the start. -/
theorem find?_of_comes (hS : Admissible S)
    (helsewhere : ∀ {w c r w'}, S.answers w c r w' → FilesElsewhere cfg w c r w')
    (hdrifts : ∀ {w w'}, S.drifts w w' → NoArrival cfg w w') (hx : Comes S cfg w₀ w tr)
    {uid : Nat} {m : StoredMessage} (hfind : w.server.find? cfg.mailbox uid = some m) :
    ∃ m₀, w₀.server.find? cfg.mailbox uid = some m₀ := by
  have h : ∀ uid m, w.server.find? cfg.mailbox uid = some m →
      ∃ m₀, w₀.server.find? cfg.mailbox uid = some m₀ := by
    refine daemon_invariant (I := fun w _ => ∀ uid m, w.server.find? cfg.mailbox uid = some m →
      ∃ m₀, w₀.server.find? cfg.mailbox uid = some m₀) hx (fun uid m hm => ⟨m, hm⟩) ?_ ?_ ?_
    · intro w tr c r w' hat h hallow hans uid m' hfind
      obtain ⟨m, hm⟩ := find?_of_call (daemon_sound hS hat) hallow (hS.answers hans)
        (helsewhere hans) hfind
      exact h uid m hm
    · intro w w' tr _ h hdrift uid m' hfind
      obtain ⟨m, hm⟩ := hdrifts hdrift uid m' hfind
      exact h uid m hm
    · intro w w' tr _ h hr uid m hfind
      cases hS.restarts hr
      exact h uid m hfind
  exact h uid m hfind

/-- The bookmark never goes below where it started, unless the process is lost. -/
theorem passed_of_comes (hS : Admissible S) (hkeep : ∀ w w', ¬ S.restarts w w') {u : Nat}
    (hseen : w₀.memory.lastSeenUid = some u) (hx : Comes S cfg w₀ w tr) : w.Passed u := by
  refine daemon_invariant (I := fun w _ => w.Passed u) hx ⟨u, hseen, le_rfl⟩ ?_ ?_ ?_
  · intro w tr c r w' hat h hallow hans
    exact h.extends (memory_extends (daemon_sound hS hat) hallow (hS.answers hans))
  · intro w w' tr _ h hdrift
    rw [World.Passed, (hS.drifts hdrift).memory]
    exact h
  · intro w w' tr _ _ hr
    exact absurd hr (hkeep w w')

/-- The messages of the FETCH were pending at the start. -/
def Fetch.Pending (cfg : Settings) (w₀ : World) (u : Nat) (f : Fetch) : Prop :=
  ∀ msg ∈ f.reply.take cfg.batchSize, msg.uid ∈ w₀.pending cfg u

theorem mem_pending {u uid : Nat} {m : StoredMessage}
    (hfind : w.server.find? cfg.mailbox uid = some m) (hlt : u < uid) : uid ∈ w.pending cfg u := by
  obtain ⟨box, hbox, hm⟩ := Server.exists_box_of_find? hfind
  obtain ⟨hmem, huid⟩ := box.find?_eq_some_iff.mp hm
  rw [World.pending, hbox]
  exact List.mem_filter.mpr ⟨List.mem_map.mpr ⟨m, hmem, huid⟩, by simpa using hlt⟩

theorem pending_of_comes {u : Nat} (hseen : w₀.memory.lastSeenUid = some u)
    (hx : Comes (closedWorld cfg) cfg w₀ w tr) {f : Fetch}
    (hf : (phaseOf cfg tr).known.fetch? = some f) : f.Pending cfg w₀ u := by
  have hS : Admissible (closedWorld cfg) := admissible_under _
  have hkeep : ∀ w w', ¬ (closedWorld cfg).restarts w w' := fun _ _ hr => hr.2
  have hnew : f.New cfg := new_of_comes hS (fun hans => hans.2.2) hx hf
  -- a FETCH starts at the bookmark of the start or above, and finds what was there then
  suffices h : u ≤ f.bookmark ∧ ∀ msg ∈ f.reply, ∃ m₀,
      w₀.server.find? cfg.mailbox msg.uid = some m₀ by
    intro msg hmsg
    obtain ⟨m₀, hm₀⟩ := h.2 msg (List.mem_of_mem_take hmsg)
    exact mem_pending hm₀ (h.1.trans_lt (hnew msg hmsg))
  refine daemon_fetch (F := fun f => u ≤ f.bookmark ∧ ∀ msg ∈ f.reply, ∃ m₀,
      w₀.server.find? cfg.mailbox msg.uid = some m₀) hS hx ?_ hf
  intro w tr s bookmark reply w' hat hph hans
  have hsound := daemon_sound hS hat
  rw [hph] at hsound
  obtain ⟨hlive, -, hbookmark⟩ := hsound
  refine ⟨?_, fun msg hmsg => ?_⟩
  · obtain ⟨l, hl, hle⟩ := passed_of_comes hS hkeep hseen hat
    rw [hbookmark] at hl
    cases hl
    exact hle
  · obtain ⟨⟨box, hbox, hfetched⟩, -⟩ := hS.answers hans
    obtain ⟨m, hm, rfl⟩ := Mailbox.mem_of_fetched hfetched hmsg
    have hfind : w.server.find? cfg.mailbox m.uid = some m := by
      rw [World.box, hlive.selected, Option.bind_some] at hbox
      rw [Server.find?_of_box hbox]
      exact box.find?_eq_some_iff.mpr ⟨List.mem_of_mem_filter hm, rfl⟩
    exact find?_of_comes hS (fun hans => hans.2.1) (fun hd => hd.2) hat hfind

/-- What is evaluated or executed was pending at the start. -/
theorem pending_of_along {u : Nat} (hseen : w₀.memory.lastSeenUid = some u)
    (hx : Comes (closedWorld cfg) cfg w₀ w tr) :
    Along (fun _ c _ _ =>
      (∀ script msg, c = .evaluate script msg → msg.uid ∈ w₀.pending cfg u) ∧
        ∀ uid result, c = .executed uid result → uid ∈ w₀.pending cfg u) tr := by
  refine daemon_along hx ?_
  intro w tr c r w' hat hallow _
  have hsound := daemon_sound (admissible_under _) hat
  have hpending : ∀ f, (phaseOf cfg tr).known.fetch? = some f → f.Pending cfg w₀ u :=
    fun f hf => pending_of_comes hseen hat hf
  refine ⟨?_, ?_⟩
  · rintro script msg rfl
    obtain ⟨b, done, rest, hph, -⟩ := evaluating_of_evaluate hallow
    rw [hph] at hsound
    exact hpending b.toFetch (by rw [hph]; rfl) msg (Batch.At.mem_messages hsound)
  · rintro uid result rfl
    obtain ⟨b, done, msg, rest, actions, ops, hph, rfl, -⟩ := executing_of_executed hallow
    rw [hph] at hsound
    exact hpending b.toFetch (by rw [hph]; rfl) msg hsound.1.mem_messages

end Runs

/-! ## Section 3: The daemon and its own output -/

/-- Processing creates no new work. Where no message is filed into the monitored mailbox and
none arrives, every UID found there was there at the start; and where, moreover, every FETCH
is of new mail and the process is not lost, everything evaluated was pending at the start,
and no more messages are executed successfully than were pending. -/
theorem no_new_work (cfg : Settings) (w₀ : World) (u : Nat)
    (hseen : w₀.memory.lastSeenUid = some u) :
    (∀ x, Reachable (elsewhereWorld cfg) (Supervisor.run cfg) w₀ x →
      ∀ uid m, x.world.server.find? cfg.mailbox uid = some m →
        ∃ m₀, w₀.server.find? cfg.mailbox uid = some m₀) ∧
    ∀ x, Reachable (closedWorld cfg) (Supervisor.run cfg) w₀ x →
      (∀ uid ∈ evaluatedUids x.trace, uid ∈ w₀.pending cfg u) ∧
        (executedUids x.trace).length ≤ (w₀.pending cfg u).length := by
  refine ⟨fun x hx uid m hfind => ?_, fun x hx => ?_⟩
  · exact find?_of_comes (admissible_under _) (fun hans => hans.2) (fun hd => hd.2) hx.visits hfind
  · have hpending := pending_of_along hseen hx.visits
    have hkeep : ∀ w w', ¬ (closedWorld cfg).restarts w w' := fun _ _ hr => hr.2
    have hS : Admissible (closedWorld cfg) := admissible_under _
    have hnodup := (executed_once hS (fun hans => hans.2.2) hkeep hx.visits).1
    -- no UID is executed twice, and all are pending ones: so there are no more of them
    refine ⟨fun uid huid => ?_, (List.subperm_of_subset hnodup fun uid huid => ?_).length_le⟩
    · obtain ⟨w, script, msg, r, hmem, rfl⟩ := mem_evaluatedUids huid
      obtain ⟨before, hevaluate, -⟩ := hpending.of_mem hmem
      exact hevaluate script msg rfl
    · obtain ⟨w, r, hmem⟩ := mem_executedUids huid
      obtain ⟨before, -, hexecuted⟩ := hpending.of_mem hmem
      exact hexecuted uid _ rfl

/-- A state file whose bookmark is 0, so that the message of the sample server is pending. -/
def pendingWorld (run : Run) : World :=
  { sampleWorld (sampleServer 1) run with
    memory := { lastSeenUid := some 0 }
    disk := { lastSeenUid := some 0 } }

/-- The pending message is kept, and nothing else is ever processed. -/
theorem no_new_work_keep :
    (executedUids (sampleDaemon { idle := true } 10 (pendingWorld .done) 14).trace).length ≤
      ((pendingWorld .done).pending (sampleSettings 10) 0).length :=
  ((no_new_work (sampleSettings 10) (pendingWorld .done) 0 rfl).2 _
    (reachable_sampleDaemon 10 _ (by decide))).2

/-- Every message is moved into `INBOX`, which is the monitored mailbox. -/
def feedbackRun (n : Nat) : Config Call Reply World (Except CoreError Unit) :=
  sampleDaemon { idle := true, supportsMove := true } 10
    (pendingWorld (.event (.fileInto "INBOX" [] false 0) fun _ => .done)) n

/-- A script that files into the monitored mailbox feeds the daemon its own output: one
message is pending, nothing arrives and the process is not lost, yet new UIDs appear, and two
are processed. -/
theorem not_no_new_work :
    ∃ w₀ x, w₀.memory.lastSeenUid = some 0 ∧
      Reachable (daemonWorld.under
        { drift := fun w w' => w'.server = w.server, restart := fun _ => False })
        (Supervisor.run (sampleSettings 10)) w₀ x ∧
      (∃ uid m, x.world.server.find? "INBOX" uid = some m ∧
        ∀ box, w₀.server.box "INBOX" = some box → ∀ m₀ ∈ box.messages, m₀.uid < uid) ∧
      (w₀.pending (sampleSettings 10) 0).length < (executedUids x.trace).length := by
  refine ⟨_, feedbackRun 26, rfl, reachable_sampleDaemon 10 _ fun _ _ =>
    admits_of_regular (fun _ _ => trivial) _, ⟨3, _, rfl, ?_⟩, by decide⟩
  intro box hbox m₀ hm₀
  cases hbox
  revert m₀
  decide

end ImapSieve
