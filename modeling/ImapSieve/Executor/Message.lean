import ImapSieve.Effects.Monitor
import ImapSieve.Executor.Performance

/-!
# What the Operations Do to the Message

The executor works on one message, by its UID. Three facts about that message carry all
results about the executor: it is still there (`Present`), it is gone (`Gone`), a copy of it
was made in some mailbox (`CopyIn`). Each operation does nothing to the mailboxes or what
its command does (`Op.Affects`), so the facts about commands lift to operations and from
there to lists of them.
-/

namespace ImapSieve

open Effects

/-! ## Section 1: Surroundings of the executor -/

/-- The executor alone with the server: nobody else changes anything, and after a loss the
message is taken up again with the same mailbox selected. -/
def executorWorld : Surroundings Call Reply World where
  answers := World.Answers
  drifts _ _ := False
  restarts w w' := w' = w

/-- Surroundings that answer as the daemon's world does and are quiet between the calls. -/
structure Quiet (S : Surroundings Call Reply World) : Prop where
  answers : ∀ {w c r w'}, S.answers w c r w' → World.Answers w c r w'
  quiet : ∀ w w', ¬ S.drifts w w'

theorem quiet_executorWorld : Quiet executorWorld where
  answers h := h
  quiet _ _ h := h

theorem quiet_under (reg : Regime Call Reply World) : Quiet (executorWorld.under reg) where
  answers h := h.1
  quiet _ _ h := h.1

/-- The message that the sample runs of the executor work on. -/
def sampleContext : MessageContext := (⟨1, 2, [], sampleContent⟩ : StoredMessage).toContext

/-- The world of the sample runs of the executor: `INBOX` is selected. -/
def sampleExecutorWorld : World :=
  { sampleWorld (sampleServer 1) .done with selected := some "INBOX" }

/-- The first `n` steps of a sample run in which nothing fails. -/
def sampleRun (caps : Capabilities) (actions : List SieveAction) (n : Nat) :
    Config Call Reply World (Except CoreError Unit) :=
  play (World.respond caps) n
    ⟨((⟨true, caps, "INBOX"⟩ : ActionExecutor).execute sampleContext actions).run,
      sampleExecutorWorld, []⟩

theorem steps_sampleRun_free (caps : Capabilities) (actions : List SieveAction) (n : Nat) :
    Steps executorWorld
      ⟨((⟨true, caps, "INBOX"⟩ : ActionExecutor).execute sampleContext actions).run,
        sampleExecutorWorld, []⟩ (sampleRun caps actions n) :=
  steps_play_free (fun w c => answers_respond caps w c) n _

theorem steps_sampleRun {caps : Capabilities} {actions : List SieveAction} {n : Nat}
    (hret : (sampleRun caps actions n).prog = .ret (.ok ())) :
    Steps executorWorld
      ⟨((⟨true, caps, "INBOX"⟩ : ActionExecutor).execute sampleContext actions).run,
        sampleExecutorWorld, []⟩
      ⟨.ret (.ok ()), (sampleRun caps actions n).world, (sampleRun caps actions n).trace⟩ :=
  steps_play_ret (fun w c => answers_respond caps w c) hret

/-! ## Section 2: Operations about one message -/

/-- The command of an operation. -/
def Op.command? : Op → Option ImapCommand
  | .need cmd | .attempt cmd => some cmd
  | _ => none

/-- The operation concerns no message but the one under the UID. -/
def Op.About (uid : Nat) (op : Op) : Prop := ∀ cmd, op.command? = some cmd → cmd.About uid

/-- The operation may take the message away. -/
def Op.removes (op : Op) : Bool := op.command?.any ImapCommand.removes

theorem about_of_command?_none {uid : Nat} {op : Op} (h : op.command? = none) : op.About uid :=
  fun cmd hcmd => by rw [h] at hcmd; cases hcmd

theorem about_need {uid : Nat} {cmd : ImapCommand} (h : cmd.About uid) : (Op.need cmd).About uid :=
  fun _ hcmd => by cases hcmd; exact h

/-- What an action stores on the message. -/
def SieveAction.flagChange : SieveAction → Option (FlagOp × List String)
  | .addFlag flags => some (.add, flags)
  | .removeFlag flags => some (.remove, flags)
  | .setFlag flags => some (.set, flags)
  | _ => none

theorem mem_flagOps {uid : Nat} {action : SieveAction} {op : Op} :
    op ∈ flagOps uid action ↔
      ∃ fop flags, action.flagChange = some (fop, flags) ∧
        op = .need (.uidStoreFlags uid fop flags) := by
  cases action <;> simp [flagOps, SieveAction.flagChange]

theorem mem_moveOps {caps : Capabilities} {uid : Nat} {target : String} {op : Op} :
    op ∈ moveOps caps uid target ↔
      (caps.supportsMove = true ∧ op = .need (.uidMove uid target)) ∨
      (caps.supportsMove = false ∧
        (op = .need (.uidCopy uid target) ∨
          op = .need (.uidStoreFlags uid .add ["\\Deleted"]) ∨
          (caps.uidplus = true ∧ op = .need (.uidExpunge [uid])))) := by
  cases hmove : caps.supportsMove <;> cases hplus : caps.uidplus <;>
    simp [moveOps, hmove, hplus]

theorem mem_fileOps {caps : Capabilities} {uid : Nat} {mailbox : String} {copy create : Bool}
    {op : Op} :
    op ∈ fileOps caps uid mailbox copy create ↔
      (create = true ∧ op = .attempt (.uidCreateMailbox mailbox)) ∨
      (copy = true ∧ op = .need (.uidCopy uid mailbox)) ∨
      (copy = false ∧ op ∈ moveOps caps uid mailbox) := by
  cases create <;> cases copy <;> simp [fileOps]

theorem mem_deleteOps {caps : Capabilities} {uid : Nat} {op : Op} :
    op ∈ deleteOps caps uid ↔
      op = .deleting uid ∨ op = .need (.uidStoreFlags uid .add ["\\Deleted"]) ∨
        (caps.uidplus = true ∧ op = .need (.uidExpunge [uid])) := by
  cases hplus : caps.uidplus <;> simp [deleteOps, hplus]

theorem redirectOp_cases (x : ActionExecutor) (ctx : MessageContext) (addresses : List String) :
    (∃ e, redirectOp x ctx addresses = .refuse e) ∨
      ∃ mail, mail.envelopeTo = addresses ∧ ctx.raw = some mail.raw ∧
        redirectOp x ctx addresses = .send mail := by
  unfold redirectOp
  split
  · split
    · exact .inl ⟨_, rfl⟩
    · next raw hraw => exact .inr ⟨_, rfl, hraw, rfl⟩
  · exact .inl ⟨_, rfl⟩

theorem rejectOp_cases (x : ActionExecutor) (ctx : MessageContext) (reason : String) :
    (∃ e, rejectOp x ctx reason = .refuse e) ∨
      ∃ to', ctx.envelopeFrom = some to' ∧ rejectOp x ctx reason = .notice to' reason := by
  unfold rejectOp
  split
  · split
    · exact .inl ⟨_, rfl⟩
    · next to' hto => exact .inr ⟨to', hto, rfl⟩
  · exact .inl ⟨_, rfl⟩

/-- In the disposition pass only `FileInto` issues commands; the rest are sends. -/
theorem mem_dispositionOps {x : ActionExecutor} {ctx : MessageContext} {action : SieveAction}
    {op : Op} (h : op ∈ dispositionOps x ctx action) :
    ((∃ e, op = .refuse e) ∨ (∃ mail, op = .send mail) ∨ ∃ to' reason, op = .notice to' reason) ∨
      ∃ mailbox copy create, action = .fileInto mailbox copy create ∧
        op ∈ fileOps x.caps ctx.uid mailbox copy create := by
  cases action with
  | fileInto mailbox copy create => exact .inr ⟨mailbox, copy, create, rfl, h⟩
  | redirect addresses =>
    rw [List.mem_singleton.mp h]
    rcases redirectOp_cases x ctx addresses with hrefuse | ⟨mail, -, -, hsend⟩
    · exact .inl (.inl hrefuse)
    · exact .inl (.inr (.inl ⟨mail, hsend⟩))
  | reject reason =>
    rw [List.mem_singleton.mp h]
    rcases rejectOp_cases x ctx reason with hrefuse | ⟨to', -, hnotice⟩
    · exact .inl (.inl hrefuse)
    · exact .inl (.inr (.inr ⟨to', reason, hnotice⟩))
  | keep => cases h
  | discard => cases h
  | addFlag flags => cases h
  | removeFlag flags => cases h
  | setFlag flags => cases h
  | execute name args => cases h

/-- The operations of the two passes: flag changes, sends, and those of `FileInto`. -/
theorem mem_passes {x : ActionExecutor} {ctx : MessageContext} {actions : List SieveAction}
    {op : Op} (h : op ∈ x.passes ctx actions) :
    (∃ action ∈ actions, ∃ fop flags, action.flagChange = some (fop, flags) ∧
        op = .need (.uidStoreFlags ctx.uid fop flags)) ∨
      ((∃ e, op = .refuse e) ∨ (∃ mail, op = .send mail) ∨
        ∃ to' reason, op = .notice to' reason) ∨
      ∃ mailbox copy create, .fileInto mailbox copy create ∈ actions ∧
        op ∈ fileOps x.caps ctx.uid mailbox copy create := by
  rcases List.mem_append.mp h with hflag | hdisp
  · obtain ⟨action, haction, hop⟩ := List.mem_flatMap.mp hflag
    exact .inl ⟨action, haction, mem_flagOps.mp hop⟩
  · obtain ⟨action, haction, hop⟩ := List.mem_flatMap.mp hdisp
    rcases mem_dispositionOps hop with hsend | ⟨mailbox, copy, create, rfl, hfile⟩
    · exact .inr (.inl hsend)
    · exact .inr (.inr ⟨mailbox, copy, create, haction, hfile⟩)

/-- Ahead of an action the flags are changed, and the actions before it are done. -/
theorem mem_ahead {x : ActionExecutor} {ctx : MessageContext} {pre post : List SieveAction}
    {action : SieveAction} {op : Op} (h : op ∈ x.ahead ctx pre action post) :
    (∃ fop flags, op = .need (.uidStoreFlags ctx.uid fop flags)) ∨
      ∃ a ∈ pre, op ∈ dispositionOps x ctx a := by
  rcases List.mem_append.mp h with hflag | hdisp
  · obtain ⟨a, -, hop⟩ := List.mem_flatMap.mp hflag
    obtain ⟨fop, flags, -, rfl⟩ := mem_flagOps.mp hop
    exact .inl ⟨fop, flags, rfl⟩
  · exact .inr (List.mem_flatMap.mp hdisp)

theorem fileOps_about {caps : Capabilities} {uid : Nat} {mailbox : String} {copy create : Bool}
    {op : Op} (h : op ∈ fileOps caps uid mailbox copy create) : op.About uid := by
  rcases mem_fileOps.mp h with ⟨-, rfl⟩ | ⟨-, rfl⟩ | ⟨-, hmove⟩
  · intro cmd hcmd
    cases hcmd
    trivial
  · exact about_need rfl
  · rcases mem_moveOps.mp hmove with ⟨-, rfl⟩ | ⟨-, rfl | rfl | ⟨-, rfl⟩⟩ <;> exact about_need rfl

theorem deleteOps_about {caps : Capabilities} {uid : Nat} {op : Op}
    (h : op ∈ deleteOps caps uid) : op.About uid := by
  rcases mem_deleteOps.mp h with rfl | rfl | ⟨-, rfl⟩
  · exact about_of_command?_none rfl
  · exact about_need rfl
  · exact about_need rfl

theorem passes_about {x : ActionExecutor} {ctx : MessageContext} {actions : List SieveAction}
    {op : Op} (h : op ∈ x.passes ctx actions) : op.About ctx.uid := by
  rcases mem_passes h with ⟨_, -, _, _, -, rfl⟩ | (⟨_, rfl⟩ | ⟨_, rfl⟩ | ⟨_, _, rfl⟩) |
      ⟨_, _, _, -, hfile⟩
  · exact about_need rfl
  · exact about_of_command?_none rfl
  · exact about_of_command?_none rfl
  · exact about_of_command?_none rfl
  · exact fileOps_about hfile

/-- `execute` touches no message but its own. -/
theorem operations_about {x : ActionExecutor} {ctx : MessageContext}
    {actions : List SieveAction} {op : Op} (h : op ∈ x.operations ctx actions) :
    op.About ctx.uid := by
  rcases List.mem_append.mp h with hpass | hdelete
  · exact passes_about hpass
  · split at hdelete
    · exact deleteOps_about hdelete
    · cases hdelete

theorem removes_flagOps {uid : Nat} {action : SieveAction} {op : Op}
    (h : op ∈ flagOps uid action) : op.removes = false := by
  obtain ⟨_, _, -, rfl⟩ := mem_flagOps.mp h
  rfl

/-- Only a `FileInto` without copy takes the message away, and only with MOVE or UIDPLUS. -/
theorem removes_fileOps {caps : Capabilities} {uid : Nat} {mailbox : String}
    {copy create : Bool} {op : Op} (h : op ∈ fileOps caps uid mailbox copy create)
    (hcaps : copy = true ∨ (caps.supportsMove = false ∧ caps.uidplus = false)) :
    op.removes = false := by
  rcases mem_fileOps.mp h with ⟨-, rfl⟩ | ⟨-, rfl⟩ | ⟨hcopy, hmove⟩
  · rfl
  · rfl
  · obtain ⟨hnomove, hnoplus⟩ := hcaps.resolve_left (by simp [hcopy])
    rcases mem_moveOps.mp hmove with ⟨hyes, -⟩ | ⟨-, rfl | rfl | ⟨hyes, -⟩⟩
    · rw [hnomove] at hyes
      cases hyes
    · rfl
    · rfl
    · rw [hnoplus] at hyes
      cases hyes

theorem removes_deleteOps {caps : Capabilities} {uid : Nat} {op : Op}
    (h : op ∈ deleteOps caps uid) (hcaps : caps.uidplus = false) : op.removes = false := by
  rcases mem_deleteOps.mp h with rfl | rfl | ⟨hyes, -⟩
  · rfl
  · rfl
  · rw [hcaps] at hyes
    cases hyes

/-- Only a `FileInto` without copy removes in the disposition pass. -/
theorem removes_dispositionOps {x : ActionExecutor} {ctx : MessageContext} {action : SieveAction}
    {op : Op} (h : op ∈ dispositionOps x ctx action)
    (hfile : ∀ mailbox create, action = .fileInto mailbox false create →
      x.caps.supportsMove = false ∧ x.caps.uidplus = false) : op.removes = false := by
  rcases mem_dispositionOps h with (⟨_, rfl⟩ | ⟨_, rfl⟩ | ⟨_, _, rfl⟩) |
      ⟨mailbox, copy, create, rfl, hop⟩
  · rfl
  · rfl
  · rfl
  · refine removes_fileOps hop ?_
    cases copy with
    | true => exact .inl rfl
    | false => exact .inr (hfile mailbox create rfl)

/-- The calls made for the message under the UID. -/
def Call.IsFor (uid : Nat) : Call → Prop
  | .command cmd => cmd.About uid
  | .send _ | .stamp | .deleting _ => True
  | _ => False

section Calls

variable {S : Surroundings Call Reply World} {calls : Call → Prop}

/-- An operation makes its command, or one of the other calls of operations. -/
theorem only_op {op : Op} (hcmd : ∀ cmd, op.command? = some cmd → calls (.command cmd))
    (hother : ∀ c : Call, c.ofOp = true → (∀ cmd, c ≠ .command cmd) → calls c) :
    Obeys S (Monitor.only calls) (fun _ _ => True) op.run.run fun _ _ _ => True := by
  have hret : ∀ r : Except CoreError Unit,
      Obeys S (Monitor.only calls) (fun _ _ => True) (.ret r) fun _ _ _ => True :=
    fun _ => Monitor.only_ret (P := fun _ => True) trivial
  cases op with
  | need cmd => exact Monitor.only_call (hcmd cmd rfl) fun _ _ _ _ => hret _
  | attempt cmd => exact Monitor.only_call (hcmd cmd rfl) fun _ _ _ _ => hret _
  | send mail => exact Monitor.only_call (hother _ rfl (by simp)) fun _ _ _ _ => hret _
  | notice to' reason =>
    exact Monitor.only_call (hother _ rfl (by simp)) fun _ _ _ _ =>
      Monitor.only_call (hother _ rfl (by simp)) fun _ _ _ _ => hret _
  | refuse e => exact hret _
  | deleting uid => exact Monitor.only_call (hother _ rfl (by simp)) fun _ _ _ _ => hret _

theorem only_runOps {ops : List Op}
    (hcmd : ∀ op ∈ ops, ∀ cmd, op.command? = some cmd → calls (.command cmd))
    (hother : ∀ c : Call, c.ofOp = true → (∀ cmd, c ≠ .command cmd) → calls c) :
    Obeys S (Monitor.only calls) (fun _ _ => True) (runOps ops).run fun _ _ _ => True := by
  induction ops with
  | nil => exact Monitor.only_ret (P := fun _ => True) trivial
  | cons op rest ih =>
    rw [runOps_cons, ExceptT.run_bind]
    refine Monitor.only_bind (P := fun _ => True) (Q := fun _ => True)
      (only_op (hcmd op List.mem_cons_self) hother) ?_
    rintro (e | u) -
    · exact Monitor.only_ret (P := fun _ => True) trivial
    · exact ih fun op hop => hcmd op (List.mem_cons_of_mem _ hop)

/-- `execute` makes calls for its own message only. -/
theorem only_execute (x : ActionExecutor) (ctx : MessageContext) (actions : List SieveAction) :
    Obeys S (Monitor.only (Call.IsFor ctx.uid)) (fun _ _ => True) (x.execute ctx actions).run
      fun _ _ _ => True := by
  rw [execute_eq_runOps]
  refine only_runOps (fun op hop cmd hcmd => operations_about hop cmd hcmd) fun c hc hne => ?_
  cases c with
  | command cmd => exact absurd rfl (hne cmd)
  | send mail => trivial
  | stamp => trivial
  | deleting uid => trivial
  | _ => cases hc

end Calls

/-! ## Section 3: The message under commands -/

/-- A message with the content `c` is under `uid` in the mailbox `sel`. -/
def Present (sel : String) (uid : Nat) (c : Content) (s : Server) : Prop :=
  ∃ m, s.find? sel uid = some m ∧ m.content = c

/-- No message is under `uid` in the mailbox `sel`. -/
def Gone (sel : String) (uid : Nat) (s : Server) : Prop := s.find? sel uid = none

/-- A message with the content `c` is in the mailbox `target`, under a UID from `from'` on
and not as the message under `uid` of `sel`. -/
def CopyIn (sel : String) (uid : Nat) (c : Content) (target : String) (from' : Nat)
    (s : Server) : Prop :=
  ∃ v m, from' ≤ v ∧ ¬ (mailboxKey target = mailboxKey sel ∧ v = uid) ∧
    s.find? target v = some m ∧ m.content = c

theorem sample_present :
    Present "INBOX" sampleContext.uid sampleContent sampleExecutorWorld.server :=
  ⟨⟨1, 2, [], sampleContent⟩, by decide, rfl⟩

section Commands

variable {sel target : String} {uid n : Nat} {c : Content} {s s' : Server} {cmd : ImapCommand}

theorem not_gone_of_present (h : Present sel uid c s) : ¬ Gone sel uid s := by
  intro hgone
  obtain ⟨m, hm, -⟩ := h
  rw [hgone] at hm
  cases hm

theorem Present.run (h : Present sel uid c s) (hrun : s.run sel cmd = some s')
    (habout : cmd.About uid) (hstays : cmd.removes = false) : Present sel uid c s' := by
  obtain ⟨m, hm, rfl⟩ := h
  exact Server.run_keeps hrun habout hstays hm

theorem CopyIn.run (h : CopyIn sel uid c target n s) (hrun : s.run sel cmd = some s')
    (habout : cmd.About uid) : CopyIn sel uid c target n s' := by
  obtain ⟨v, m, hv, hother, hm, hc⟩ := h
  exact ⟨v, m, hv, hother, Server.run_frame hrun habout hother hm, hc⟩

/-- COPY and MOVE of a message that is there make a copy. -/
theorem Present.copyIn (h : Present sel uid c s) (hrun : s.run sel cmd = some s')
    (habout : cmd.About uid) (htarget : cmd.target = some target) (hn : n ≤ s.nextUid target) :
    CopyIn sel uid c target n s' := by
  obtain ⟨m, hm, rfl⟩ := h
  obtain ⟨m', hm', hc⟩ := Server.run_delivers hrun habout htarget hm
  refine ⟨s.nextUid target, m', hn, ?_, hm', hc⟩
  rintro ⟨hkey, hv⟩
  have hlt := Server.lt_nextUid_of_find? hm
  rw [Server.nextUid, ← s.box_congr hkey, ← Server.nextUid] at hlt
  omega

/-- Where a command has no target of this name, or the message is gone, no copy appears. -/
theorem copyIn_of_run (hrun : s.run sel cmd = some s') (habout : cmd.About uid)
    (hno : Gone sel uid s ∨ ∀ t, cmd.target = some t → mailboxKey target ≠ mailboxKey t)
    (h : CopyIn sel uid c target n s') : CopyIn sel uid c target n s := by
  obtain ⟨v, m, hv, hother, hm, hc⟩ := h
  rcases Server.run_origin hrun habout hm with hold | ⟨m₀, hm₀, -, hsame | ⟨t, ht, hkey, -⟩⟩
  · exact ⟨v, m, hv, hother, hold, hc⟩
  · exact absurd hsame hother
  · rcases hno with hgone | hno
    · rw [hgone] at hm₀
      cases hm₀
    · exact absurd hkey (hno t ht)

end Commands

/-! ## Section 4: The message under operations -/

/-- The operation did nothing to the mailboxes, or what its command does. -/
def Op.Affects (op : Op) (sel : String) (w w' : World) : Prop :=
  w'.selected = some sel ∧
    (w'.server = w.server ∨
      ∃ cmd, op.command? = some cmd ∧ w.server.run sel cmd = some w'.server)

section Operations

variable {S : Surroundings Call Reply World} {sel target : String} {uid n : Nat} {c : Content}
  {op : Op} {ops : List Op} {w w' : World} {tr tr' : History}

/-- An answered command ran in the selected mailbox. -/
theorem answers_command_ok {cmd : ImapCommand} (hsel : w.selected = some sel)
    (h : World.Answers w (.command cmd) (.ok ()) w') :
    w'.selected = some sel ∧ w.server.run sel cmd = some w'.server := by
  obtain ⟨sel', s, hsel', hrun, rfl⟩ := h
  rw [hsel] at hsel'
  cases hsel'
  exact ⟨hsel, hrun⟩

theorem answers_command {cmd : ImapCommand} {r : Except CoreError Unit}
    (hsel : w.selected = some sel) (h : World.Answers w (.command cmd) r w') :
    w'.selected = some sel ∧
      (w'.server = w.server ∨ w.server.run sel cmd = some w'.server) := by
  cases r with
  | ok u => exact (answers_command_ok hsel h).imp_right .inr
  | error e =>
    rcases h.2 with rfl | ⟨sel', s, hsel', hrun, rfl⟩
    · exact ⟨hsel, .inl rfl⟩
    · rw [hsel] at hsel'
      cases hsel'
      exact ⟨hsel, .inr hrun⟩

theorem answers_send {mail : OutgoingMail} {r : Except CoreError Unit}
    (h : World.Answers w (.send mail) r w') :
    w'.selected = w.selected ∧ w'.server = w.server := by
  cases r with
  | ok u =>
    cases h
    exact ⟨rfl, rfl⟩
  | error e => rcases h.2 with rfl | rfl <;> exact ⟨rfl, rfl⟩

/-- An answer to the command of the operation. -/
theorem Op.affects_of_command {cmd : ImapCommand} {r : Except CoreError Unit}
    (hsel : w.selected = some sel) (hcmd : op.command? = some cmd)
    (h : World.Answers w (.command cmd) r w') : op.Affects sel w w' := by
  obtain ⟨hsel', hrun⟩ := answers_command hsel h
  exact ⟨hsel', hrun.imp_right fun hrun => ⟨cmd, hcmd, hrun⟩⟩

/-- A mail leaves the server alone. -/
theorem Op.affects_of_send {mail : OutgoingMail} {r : Except CoreError Unit}
    (hsel : w.selected = some sel) (h : World.Answers w (.send mail) r w') :
    op.Affects sel w w' := by
  obtain ⟨hsel', hserver⟩ := answers_send h
  exact ⟨hsel'.trans hsel, .inl hserver⟩

theorem Op.Performed.affects (hS : Quiet S) (hsel : w.selected = some sel)
    (h : op.Performed S w tr w' tr') : op.Affects sel w w' := by
  cases h with
  | need h => exact affects_of_command hsel rfl (hS.answers h)
  | attempt h => exact affects_of_command hsel rfl (hS.answers h)
  | send h => exact affects_of_send hsel (hS.answers h)
  | notice h₁ h =>
    cases hS.answers h₁
    exact affects_of_send hsel (hS.answers h)
  | deleting h =>
    cases hS.answers h
    exact ⟨hsel, .inl rfl⟩

theorem Op.Fails.affects {e : CoreError} (hS : Quiet S) (hsel : w.selected = some sel)
    (h : op.Fails S e w tr w' tr') : op.Affects sel w w' := by
  cases h with
  | need h => exact affects_of_command hsel rfl (hS.answers h)
  | send h => exact affects_of_send hsel (hS.answers h)
  | notice h₁ h =>
    cases hS.answers h₁
    exact affects_of_send hsel (hS.answers h)
  | refuse => exact ⟨hsel, .inl rfl⟩

theorem Op.Affects.present (h : op.Affects sel w w') (habout : op.About uid)
    (hstays : op.removes = false) (hp : Present sel uid c w.server) :
    Present sel uid c w'.server := by
  rcases h.2 with hserver | ⟨cmd, hcmd, hrun⟩
  · rwa [hserver]
  · refine hp.run hrun (habout cmd hcmd) ?_
    rwa [Op.removes, hcmd, Option.any_some] at hstays

theorem Op.Affects.gone (h : op.Affects sel w w') (habout : op.About uid)
    (hg : Gone sel uid w.server) : Gone sel uid w'.server := by
  rcases h.2 with hserver | ⟨cmd, hcmd, hrun⟩
  · rwa [hserver]
  · exact Server.run_gone hrun (habout cmd hcmd) hg

theorem Op.Affects.copyIn (h : op.Affects sel w w') (habout : op.About uid)
    (hcopy : CopyIn sel uid c target n w.server) : CopyIn sel uid c target n w'.server := by
  rcases h.2 with hserver | ⟨cmd, hcmd, hrun⟩
  · rwa [hserver]
  · exact hcopy.run hrun (habout cmd hcmd)

theorem Op.Affects.nextUid_le (h : op.Affects sel w w') (name : String) :
    w.server.nextUid name ≤ w'.server.nextUid name := by
  rcases h.2 with hserver | ⟨cmd, -, hrun⟩
  · rw [hserver]
  · exact Server.run_nextUid_le hrun name

/-! ## Section 5: The message under lists of operations -/

/-- What every operation preserves, a performed list preserves. -/
theorem Performs.induction {I : World → Prop} (hS : Quiet S) (hsel : w.selected = some sel)
    (h : Performs S ops w tr w' tr')
    (hstep : ∀ op ∈ ops, ∀ w w', op.Affects sel w w' → I w → I w') (hI : I w) :
    w'.selected = some sel ∧ I w' := by
  induction h with
  | nil => exact ⟨hsel, hI⟩
  | cons hop _ ih =>
    have haff := hop.affects hS hsel
    exact ih haff.1 (fun op hop => hstep op (List.mem_cons_of_mem _ hop))
      (hstep _ List.mem_cons_self _ _ haff hI)

theorem Performs.selected (hS : Quiet S) (hsel : w.selected = some sel)
    (h : Performs S ops w tr w' tr') : w'.selected = some sel :=
  (h.induction (I := fun _ => True) hS hsel (fun _ _ _ _ _ _ => trivial) trivial).1

theorem Performs.present (hS : Quiet S) (hsel : w.selected = some sel)
    (h : Performs S ops w tr w' tr') (habout : ∀ op ∈ ops, op.About uid)
    (hstays : ∀ op ∈ ops, op.removes = false) (hp : Present sel uid c w.server) :
    Present sel uid c w'.server :=
  (h.induction hS hsel (I := fun w => Present sel uid c w.server)
    (fun op hop _ _ haff hp => haff.present (habout op hop) (hstays op hop) hp) hp).2

theorem Performs.gone (hS : Quiet S) (hsel : w.selected = some sel)
    (h : Performs S ops w tr w' tr') (habout : ∀ op ∈ ops, op.About uid)
    (hg : Gone sel uid w.server) : Gone sel uid w'.server :=
  (h.induction hS hsel (I := fun w => Gone sel uid w.server)
    (fun op hop _ _ haff hg => haff.gone (habout op hop) hg) hg).2

theorem Performs.copyIn (hS : Quiet S) (hsel : w.selected = some sel)
    (h : Performs S ops w tr w' tr') (habout : ∀ op ∈ ops, op.About uid)
    (hcopy : CopyIn sel uid c target n w.server) : CopyIn sel uid c target n w'.server :=
  (h.induction hS hsel (I := fun w => CopyIn sel uid c target n w.server)
    (fun op hop _ _ haff hcopy => haff.copyIn (habout op hop) hcopy) hcopy).2

theorem Performs.nextUid_le (hS : Quiet S) (hsel : w.selected = some sel)
    (h : Performs S ops w tr w' tr') (name : String) :
    w.server.nextUid name ≤ w'.server.nextUid name :=
  (h.induction hS hsel (I := fun w₁ => w.server.nextUid name ≤ w₁.server.nextUid name)
    (fun _ _ _ _ haff hle => hle.trans (haff.nextUid_le name)) le_rfl).2

/-- STORE and EXPUNGE take the message away. -/
theorem Performs.expunge_gone (hS : Quiet S) (hsel : w.selected = some sel)
    (h : Performs S [.need (.uidStoreFlags uid .add ["\\Deleted"]), .need (.uidExpunge [uid])]
      w tr w' tr') : Gone sel uid w'.server := by
  cases h with
  | cons hstore hrest =>
    cases hrest with
    | cons hexpunge hnil =>
      cases hnil
      cases hstore with
      | need hans =>
        obtain ⟨hsel₁, hrun₁⟩ := answers_command_ok hsel (hS.answers hans)
        cases hexpunge with
        | need hans =>
          obtain ⟨-, hrun₂⟩ := answers_command_ok hsel₁ (hS.answers hans)
          exact Server.run_expunge_gone hrun₂ fun m hm => Server.run_store_deleted hrun₁ hm

/-- A performed MOVE, or a performed fallback with EXPUNGE, takes the message away. -/
theorem Performs.moveOps_gone {caps : Capabilities} (hS : Quiet S) (hsel : w.selected = some sel)
    (h : Performs S (moveOps caps uid target) w tr w' tr')
    (hcaps : caps.supportsMove = true ∨ caps.uidplus = true) : Gone sel uid w'.server := by
  unfold moveOps at h
  cases hmove : caps.supportsMove with
  | true =>
    rw [hmove, if_pos rfl] at h
    cases h with
    | cons hop hrest =>
      cases hrest
      cases hop with
      | need h => exact Server.run_move_gone (answers_command_ok hsel (hS.answers h)).2
  | false =>
    have huidplus : caps.uidplus = true := hcaps.resolve_left (by simp [hmove])
    rw [hmove, if_neg (by simp), huidplus, if_pos rfl] at h
    -- COPY, then STORE, then EXPUNGE
    cases h with
    | cons hcopy hrest => exact hrest.expunge_gone hS (hcopy.affects hS hsel).1

end Operations

end ImapSieve
