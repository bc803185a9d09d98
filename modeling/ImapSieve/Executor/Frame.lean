import ImapSieve.Executor.Loss

/-!
# An Execution Touches Its Own Message Only

Whatever the list of actions, and wherever the execution is cut off: every other message of
every mailbox is as it was, and what has been added are copies of the message in the folders
that the list files into. A message that its user has marked as deleted is not purged by the
way, as no command is issued that expunges any other UID, and none at all without UIDPLUS.
-/

namespace ImapSieve

open Effects

/-! ## Section 1: The commands of an execution -/

/-- The command is about the message, puts its copy into one of the folders, and expunges only
if that is allowed. -/
structure ImapCommand.Within (uid : Nat) (folders : String → Prop) (expunges : Bool)
    (cmd : ImapCommand) : Prop where
  about : cmd.About uid
  target : ∀ target, cmd.target = some target → folders target
  expunge : ∀ uids, cmd = .uidExpunge uids → expunges = true

/-- The calls with such commands, and those that do not concern the mailboxes. -/
def Call.Within (uid : Nat) (folders : String → Prop) (expunges : Bool) : Call → Prop
  | .command cmd => cmd.Within uid folders expunges
  | .send _ | .stamp | .deleting _ => True
  | _ => False

/-- Only with UIDPLUS an operation expunges. -/
theorem expunge_of_operations {x : ActionExecutor} {ctx : MessageContext}
    {actions : List SieveAction} {op : Op} (hop : op ∈ x.operations ctx actions) {uids : List Nat}
    (hcmd : op.command? = some (.uidExpunge uids)) : x.caps.uidplus = true := by
  rcases List.mem_append.mp hop with hpass | hdelete
  · rcases mem_passes hpass with ⟨_, -, _, _, -, rfl⟩ | (⟨_, rfl⟩ | ⟨_, rfl⟩ | ⟨_, _, rfl⟩) |
        ⟨mailbox, copy, create, -, hfile⟩
    · cases hcmd
    · cases hcmd
    · cases hcmd
    · cases hcmd
    · -- in a `FileInto` it is the last step of the fallback
      rcases mem_fileOps.mp hfile with ⟨-, rfl⟩ | ⟨-, rfl⟩ | ⟨-, hmove⟩
      · cases hcmd
      · cases hcmd
      · rcases mem_moveOps.mp hmove with ⟨-, rfl⟩ | ⟨-, rfl | rfl | ⟨hplus, rfl⟩⟩
        · cases hcmd
        · cases hcmd
        · cases hcmd
        · exact hplus
  · split at hdelete
    · rcases mem_deleteOps.mp hdelete with rfl | rfl | ⟨hplus, rfl⟩
      · cases hcmd
      · cases hcmd
      · exact hplus
    · cases hdelete

theorem within_of_operations {x : ActionExecutor} {ctx : MessageContext}
    {actions : List SieveAction} {op : Op} (hop : op ∈ x.operations ctx actions)
    {cmd : ImapCommand} (hcmd : op.command? = some cmd) :
    cmd.Within ctx.uid (FiledInto actions) x.caps.uidplus where
  about := operations_about hop cmd hcmd
  target target htarget := by
    rcases List.mem_append.mp hop with hpass | hdelete
    · exact target_of_passes hpass hcmd htarget
    · -- the final deletion copies nothing
      split at hdelete
      · rcases mem_deleteOps.mp hdelete with rfl | rfl | ⟨-, rfl⟩ <;> cases hcmd <;> cases htarget
      · cases hdelete
  expunge uids h := expunge_of_operations hop (h ▸ hcmd)

/-- `execute` makes no other calls. -/
theorem within_execute {S : Surroundings Call Reply World} (x : ActionExecutor)
    (ctx : MessageContext) (actions : List SieveAction) :
    Obeys S (Monitor.only (Call.Within ctx.uid (FiledInto actions) x.caps.uidplus))
      (fun _ _ => True) (x.execute ctx actions).run fun _ _ _ => True := by
  rw [execute_eq_runOps]
  refine only_runOps (fun op hop cmd hcmd => within_of_operations hop hcmd) fun c hc hne => ?_
  cases c with
  | command cmd => exact absurd rfl (hne cmd)
  | send mail => trivial
  | stamp => trivial
  | deleting uid => trivial
  | _ => cases hc

/-! ## Section 2: The frame -/

/-- Between the two moments nothing has happened but to the message under `uid` of `sel`: the
other messages are as they were, and what was added are its copies in the folders. -/
structure Framed (sel : String) (uid : Nat) (folders : String → Prop) (s s' : Server) : Prop where
  others : ∀ name v m, ¬ (mailboxKey name = mailboxKey sel ∧ v = uid) →
    s.find? name v = some m → s'.find? name v = some m
  added : ∀ name v m', s.find? name v = none → s'.find? name v = some m' →
    ∃ target m, folders target ∧ mailboxKey name = mailboxKey target ∧
      s.find? sel uid = some m ∧ m'.content = m.content
  own : ∀ m', s'.find? sel uid = some m' → ∃ m, s.find? sel uid = some m ∧ m'.content = m.content

section Framed

variable {sel : String} {uid : Nat} {folders : String → Prop} {expunges : Bool}
  {s s₁ s' : Server} {cmd : ImapCommand}

theorem Framed.refl (sel : String) (uid : Nat) (folders : String → Prop) (s : Server) :
    Framed sel uid folders s s where
  others _ _ _ _ h := h
  added name v m' hnone hsome := by
    rw [hnone] at hsome
    cases hsome
  own m' h := ⟨m', h, rfl⟩

/-- One more command within the frame. -/
theorem Framed.run (h : Framed sel uid folders s s₁) (hcmd : cmd.Within uid folders expunges)
    (hrun : s₁.run sel cmd = some s') : Framed sel uid folders s s' where
  others name v m hother hfind :=
    Server.run_frame hrun hcmd.about hother (h.others name v m hother hfind)
  added name v m' hnone hfind := by
    rcases Server.run_origin hrun hcmd.about hfind with hold | ⟨m₁, hm₁, hcontent, hwhere⟩
    · exact h.added name v m' hnone hold
    · -- a new message comes from the message itself
      obtain ⟨m, hm, hcontent₁⟩ := h.own m₁ hm₁
      rcases hwhere with ⟨hkey, rfl⟩ | ⟨target, htarget, hkey, -⟩
      · rw [s.find?_congr hkey, hm] at hnone
        cases hnone
      · exact ⟨target, m, hcmd.target target htarget, hkey, hm, hcontent.trans hcontent₁⟩
  own m' hfind := by
    rcases Server.run_origin hrun hcmd.about hfind with hold | ⟨m₁, hm₁, hcontent, -⟩
    · exact h.own m' hold
    · obtain ⟨m, hm, hcontent₁⟩ := h.own m₁ hm₁
      exact ⟨m, hm, hcontent.trans hcontent₁⟩

/-- A call of the execution, answered with or without success, keeps the frame. -/
theorem framed_call {w w' : World} {c : Call} {r : Reply c} {s : Server}
    (hc : c.Within uid folders expunges) (hans : World.Answers w c r w')
    (h : w.selected = some sel ∧ Framed sel uid folders s w.server) :
    w'.selected = some sel ∧ Framed sel uid folders s w'.server := by
  obtain ⟨hsel, hframed⟩ := h
  cases c with
  | command cmd =>
    obtain ⟨hsel', hserver | hrun⟩ := answers_command hsel hans
    · exact ⟨hsel', hserver ▸ hframed⟩
    · exact ⟨hsel', hframed.run hc hrun⟩
  | send mail =>
    obtain ⟨hsel', hserver⟩ := answers_send hans
    exact ⟨hsel'.trans hsel, hserver ▸ hframed⟩
  | stamp =>
    cases hans
    exact ⟨hsel, hframed⟩
  | deleting uid =>
    cases hans
    exact ⟨hsel, hframed⟩
  | _ => cases hc

end Framed

/-- Wherever an execution is, it has touched its own message only, and without UIDPLUS it has
expunged nothing. -/
theorem execute_framed (x : ActionExecutor) (ctx : MessageContext) (actions : List SieveAction)
    (w : World) (hsel : w.selected = some x.sourceMailbox)
    (y : Config Call Reply World (Except CoreError Unit))
    (hy : Steps executorWorld ⟨(x.execute ctx actions).run, w, []⟩ y) :
    Framed x.sourceMailbox ctx.uid (FiledInto actions) w.server y.world.server ∧
      (x.caps.uidplus = false →
        ∀ w₁ uids r, .called w₁ (.command (.uidExpunge uids)) r ∉ y.trace) := by
  have honly := within_execute (S := executorWorld) x ctx actions
  constructor
  · have hframed := Monitor.world_of_only honly
      (I := fun w₁ => w₁.selected = some x.sourceMailbox ∧
        Framed x.sourceMailbox ctx.uid (FiledInto actions) w.server w₁.server)
      (fun _ _ _ _ hc hans h => framed_call hc hans h) (fun _ _ hd _ => hd.elim) hy
      ⟨hsel, .refl _ _ _ _⟩
    exact hframed.2
  · intro hplus w₁ uids r hmem
    obtain ⟨w₂, c, r', heq, hc⟩ := Monitor.calls_of_only honly hy _ hmem
    cases heq
    rw [hc.expunge uids rfl] at hplus
    cases hplus

/-- The fallback of MOVE, cut off before its EXPUNGE. -/
theorem execute_framed_cut_off :
    Framed "INBOX" sampleContext.uid (FiledInto [.fileInto "Archive" false false])
        sampleExecutorWorld.server
        (sampleRun { uidplus := true } [.fileInto "Archive" false false] 2).world.server ∧
      (true = false → ∀ w₁ uids r, .called w₁ (.command (.uidExpunge uids)) r ∉
        (sampleRun { uidplus := true } [.fileInto "Archive" false false] 2).trace) :=
  execute_framed ⟨true, { uidplus := true }, "INBOX"⟩ sampleContext
    [.fileInto "Archive" false false] sampleExecutorWorld rfl _ (steps_sampleRun_free _ _ 2)

end ImapSieve
