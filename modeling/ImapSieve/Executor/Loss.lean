import ImapSieve.Executor.Message

/-!
# No Message Is Lost

A message that no action of the list discards or rejects stays in its mailbox or has a copy
in the target of one of the list's `FileInto` actions, however often the execution is cut
off and repeated. The reason is one property of operation lists: every EXPUNGE comes after
a COPY whose success the executor has waited for (`Covered`).

With `Discard` or `Reject` the final deletion starts only after everything else has
succeeded.
-/

namespace ImapSieve

open Effects

/-! ## Section 1: Covered lists -/

/-- Every EXPUNGE comes after a successful COPY. -/
def Covered : List Op → Prop
  | [] => True
  | .need (.uidExpunge _) :: _ => False
  | .need (.uidCopy _ _) :: _ => True
  | .attempt cmd :: rest => cmd.removes = false ∧ Covered rest
  | _ :: rest => Covered rest

theorem covered_append {ops rest : List Op} (h : Covered ops) (hrest : Covered rest) :
    Covered (ops ++ rest) := by
  induction ops with
  | nil => exact hrest
  | cons op ops ih =>
    cases op with
    | need cmd =>
      cases cmd with
      | uidExpunge uids => exact h
      | uidCopy uid target => trivial
      | uidMove uid target => exact ih h
      | uidStoreFlags uid op flags => exact ih h
      | uidCreateMailbox mailbox => exact ih h
    | attempt cmd => exact ⟨h.1, ih h.2⟩
    | send mail => exact ih h
    | notice to' reason => exact ih h
    | refuse e => exact ih h
    | deleting uid => exact ih h

theorem covered_flatMap {f : SieveAction → List Op} (hf : ∀ a, Covered (f a))
    (actions : List SieveAction) : Covered (actions.flatMap f) := by
  induction actions with
  | nil => trivial
  | cons a rest ih => exact covered_append (hf a) ih

theorem covered_flagOps (uid : Nat) (action : SieveAction) : Covered (flagOps uid action) := by
  cases action <;> trivial

theorem covered_fileOps (caps : Capabilities) (uid : Nat) (mailbox : String)
    (copy create : Bool) : Covered (fileOps caps uid mailbox copy create) := by
  refine covered_append ?_ ?_
  · cases create
    · trivial
    · exact ⟨rfl, trivial⟩
  · cases copy
    · rw [if_neg (by simp), moveOps]
      split <;> trivial
    · trivial

theorem covered_dispositionOps (x : ActionExecutor) (ctx : MessageContext)
    (action : SieveAction) : Covered (dispositionOps x ctx action) := by
  cases action with
  | fileInto mailbox copy create => exact covered_fileOps x.caps ctx.uid mailbox copy create
  | redirect addresses =>
    rw [dispositionOps]
    rcases redirectOp_cases x ctx addresses with ⟨e, hop⟩ | ⟨mail, -, -, hop⟩ <;> rw [hop] <;>
      trivial
  | reject reason =>
    rw [dispositionOps]
    rcases rejectOp_cases x ctx reason with ⟨e, hop⟩ | ⟨to', -, hop⟩ <;> rw [hop] <;> trivial
  | keep => trivial
  | discard => trivial
  | addFlag flags => trivial
  | removeFlag flags => trivial
  | setFlag flags => trivial
  | execute name args => trivial

theorem covered_passes (x : ActionExecutor) (ctx : MessageContext) (actions : List SieveAction) :
    Covered (x.passes ctx actions) :=
  covered_append (covered_flatMap (covered_flagOps ctx.uid) actions)
    (covered_flatMap (covered_dispositionOps x ctx) actions)

/-! ## Section 2: The message stays or is copied -/

/-- The folders the action list files into. -/
def FiledInto (actions : List SieveAction) (target : String) : Prop :=
  ∃ copy create, .fileInto target copy create ∈ actions

/-- Every command that copies has one of the list's folders as its target. -/
theorem target_of_passes {x : ActionExecutor} {ctx : MessageContext}
    {actions : List SieveAction} {op : Op} (hop : op ∈ x.passes ctx actions) {cmd : ImapCommand}
    (hcmd : op.command? = some cmd) {target : String} (htarget : cmd.target = some target) :
    FiledInto actions target := by
  rcases mem_passes hop with ⟨_, -, _, _, -, rfl⟩ | (⟨_, rfl⟩ | ⟨_, rfl⟩ | ⟨_, _, rfl⟩) |
      ⟨mailbox, copy, create, haction, hfile⟩
  · cases hcmd
    cases htarget
  · cases hcmd
  · cases hcmd
  · cases hcmd
  · refine ⟨copy, create, ?_⟩
    -- of the operations of a `FileInto`, COPY and MOVE have its folder as target
    suffices hmailbox : target = mailbox by rwa [hmailbox]
    rcases mem_fileOps.mp hfile with ⟨-, rfl⟩ | ⟨-, rfl⟩ | ⟨-, hmove⟩
    · cases hcmd
      cases htarget
    · cases hcmd
      cases htarget
      rfl
    · rcases mem_moveOps.mp hmove with ⟨-, rfl⟩ | ⟨-, rfl | rfl | ⟨-, rfl⟩⟩ <;> cases hcmd <;>
        cases htarget <;> rfl

/-- The content is under its UID or in one of the folders. -/
def Kept (sel : String) (uid : Nat) (c : Content) (folders : String → Prop) (s : Server) : Prop :=
  Present sel uid c s ∨ ∃ target, folders target ∧ CopyIn sel uid c target 0 s

section Kept

variable {S : Surroundings Call Reply World} {sel : String} {uid : Nat} {c : Content}
  {folders : String → Prop} {op : Op} {ops rest : List Op} {w w' : World} {tr tr' : History}

/-- The invariant of an execution: a copy was made, or the message is there and what is left
to do is covered. -/
def Safe (sel : String) (uid : Nat) (c : Content) (folders : String → Prop) (ops : List Op)
    (s : Server) : Prop :=
  (∃ target, folders target ∧ CopyIn sel uid c target 0 s) ∨
    (Present sel uid c s ∧ Covered ops)

theorem Safe.kept (h : Safe sel uid c folders ops w.server) :
    Kept sel uid c folders w.server :=
  h.elim .inr fun hp => .inl hp.1

/-- Success preserves the invariant. -/
theorem Op.Performed.safe (hS : Quiet S) (hsel : w.selected = some sel)
    (h : op.Performed S w tr w' tr') (habout : op.About uid)
    (hfolders : ∀ cmd, op.command? = some cmd → ∀ t, cmd.target = some t → folders t)
    (hsafe : Safe sel uid c folders (op :: rest) w.server) :
    Safe sel uid c folders rest w'.server := by
  have haff := h.affects hS hsel
  rcases hsafe with ⟨target, hin, hcopy⟩ | ⟨hp, hcovered⟩
  · exact .inl ⟨target, hin, haff.copyIn habout hcopy⟩
  · cases h with
    | need h =>
      have hrun := (answers_command_ok hsel (hS.answers h)).2
      rename_i cmd
      cases cmd with
      -- no EXPUNGE comes before a copy
      | uidExpunge uids => exact hcovered.elim
      | uidCopy u target =>
        exact .inl ⟨target, hfolders _ rfl _ rfl,
          hp.copyIn hrun (habout _ rfl) rfl (Nat.zero_le _)⟩
      | uidMove u target =>
        exact .inl ⟨target, hfolders _ rfl _ rfl,
          hp.copyIn hrun (habout _ rfl) rfl (Nat.zero_le _)⟩
      | uidStoreFlags u op flags => exact .inr ⟨hp.run hrun (habout _ rfl) rfl, hcovered⟩
      | uidCreateMailbox mailbox => exact .inr ⟨hp.run hrun (habout _ rfl) rfl, hcovered⟩
    -- what is only attempted takes nothing away
    | attempt h => exact .inr ⟨haff.present habout hcovered.1 hp, hcovered.2⟩
    | send h => exact .inr ⟨haff.present habout rfl hp, hcovered⟩
    | notice h₁ h => exact .inr ⟨haff.present habout rfl hp, hcovered⟩
    | deleting h => exact .inr ⟨haff.present habout rfl hp, hcovered⟩

/-- A failure, even one whose command was carried out, leaves the message or a copy. -/
theorem Op.Fails.kept {e : CoreError} (hS : Quiet S) (hsel : w.selected = some sel)
    (h : op.Fails S e w tr w' tr') (habout : op.About uid)
    (hfolders : ∀ cmd, op.command? = some cmd → ∀ t, cmd.target = some t → folders t)
    (hsafe : Safe sel uid c folders (op :: rest) w.server) :
    Kept sel uid c folders w'.server := by
  have haff := h.affects hS hsel
  rcases hsafe with ⟨target, hin, hcopy⟩ | ⟨hp, hcovered⟩
  · exact .inr ⟨target, hin, haff.copyIn habout hcopy⟩
  · cases h with
    | @need cmd =>
      cases cmd with
      | uidExpunge uids => exact hcovered.elim
      | uidCopy u target => exact .inl (haff.present habout rfl hp)
      | uidStoreFlags u op flags => exact .inl (haff.present habout rfl hp)
      | uidCreateMailbox mailbox => exact .inl (haff.present habout rfl hp)
      | uidMove u target =>
        -- the MOVE that failed may have been carried out: then there is a copy
        rcases haff.2 with hserver | ⟨cmd, hcmd, hrun⟩
        · exact .inl (hserver ▸ hp)
        · cases hcmd
          exact .inr ⟨target, hfolders _ rfl _ rfl,
            hp.copyIn hrun (habout _ rfl) rfl (Nat.zero_le _)⟩
    | send h => exact .inl (haff.present habout rfl hp)
    | notice h₁ h => exact .inl (haff.present habout rfl hp)
    | refuse => exact .inl (haff.present habout rfl hp)

theorem Performs.safe (hS : Quiet S) (hsel : w.selected = some sel)
    (h : Performs S ops w tr w' tr') (habout : ∀ op ∈ ops, op.About uid)
    (hfolders : ∀ op ∈ ops, ∀ cmd, op.command? = some cmd → ∀ t, cmd.target = some t → folders t)
    (hsafe : Safe sel uid c folders (ops ++ rest) w.server) :
    Safe sel uid c folders rest w'.server := by
  induction h with
  | nil => exact hsafe
  | cons hop _ ih =>
    refine ih (hop.affects hS hsel).1 (fun op hop => habout op (List.mem_cons_of_mem _ hop))
      (fun op hop => hfolders op (List.mem_cons_of_mem _ hop)) ?_
    exact hop.safe hS hsel (habout _ List.mem_cons_self) (hfolders _ List.mem_cons_self) hsafe

/-- Every cut of a covered list leaves the message or a copy. -/
theorem kept_of_steps (hS : Quiet S) (hsel : w.selected = some sel)
    (habout : ∀ op ∈ ops, op.About uid)
    (hfolders : ∀ op ∈ ops, ∀ cmd, op.command? = some cmd → ∀ t, cmd.target = some t → folders t)
    (hsafe : Safe sel uid c folders ops w.server)
    {y : Config Call Reply World (Except CoreError Unit)}
    (hy : Steps S ⟨(runOps ops).run, w, tr⟩ y) :
    y.world.selected = some sel ∧ Kept sel uid c folders y.world.server := by
  -- the operations before the cut succeeded
  obtain ⟨done, rest, w₁, tr₁, rfl, hdone, hat⟩ := steps_runOps hS.quiet hy
  have hsel₁ := hdone.selected hS hsel
  have hsafe₁ := hdone.safe hS hsel (fun op hop => habout op (List.mem_append_left _ hop))
    (fun op hop => hfolders op (List.mem_append_left _ hop)) hsafe
  cases hat with
  | before => exact ⟨hsel₁, hsafe₁.kept⟩
  | stamped hrest hstamp =>
    cases hS.answers hstamp
    exact ⟨hsel₁, hsafe₁.kept⟩
  | @failed op tail _ _ _ hrest hfail =>
    subst hrest
    have hmem : op ∈ done ++ op :: tail := List.mem_append_right done List.mem_cons_self
    exact ⟨(hfail.affects hS hsel₁).1,
      hfail.kept hS hsel₁ (habout _ hmem) (hfolders _ hmem) hsafe₁⟩

end Kept

/-! ## Section 3: The final deletion comes last -/

/-- The command succeeded. -/
def Succeeded (tr : History) (cmd : ImapCommand) : Prop :=
  ∃ w, .called w (.command cmd) (.ok ()) ∈ tr

/-- The mail was accepted. -/
def Accepted (tr : History) (mail : OutgoingMail) : Prop :=
  ∃ w, .called w (.send mail) (.ok ()) ∈ tr

/-- What the operation had to achieve, it achieved. -/
def Op.DoneIn (tr : History) : Op → Prop
  | .need cmd => Succeeded tr cmd
  | .send mail => Accepted tr mail
  | .notice to' reason => ∃ stamp, Accepted tr (noticeMail to' reason stamp)
  | .refuse _ => False
  | .attempt _ | .deleting _ => True

/-- What the action had to achieve, it achieved: the `FileInto` its commands, the `Redirect`
and the `Reject` their send. -/
def SieveAction.DoneIn (caps : Capabilities) (ctx : MessageContext) (tr : History) :
    SieveAction → Prop
  | .fileInto mailbox copy _ =>
      if copy then Succeeded tr (.uidCopy ctx.uid mailbox)
      else if caps.supportsMove then Succeeded tr (.uidMove ctx.uid mailbox)
      else
        Succeeded tr (.uidCopy ctx.uid mailbox) ∧
          Succeeded tr (.uidStoreFlags ctx.uid .add ["\\Deleted"]) ∧
          (caps.uidplus = true → Succeeded tr (.uidExpunge [ctx.uid]))
  | .redirect addresses =>
      ∃ mail, mail.envelopeTo = addresses ∧ ctx.raw = some mail.raw ∧ Accepted tr mail
  | .reject reason =>
      ∃ to' stamp, ctx.envelopeFrom = some to' ∧ Accepted tr (noticeMail to' reason stamp)
  | _ => True

theorem Op.DoneIn.mono {tr tr' : History} {op : Op} (h : op.DoneIn tr) (hsub : tr ⊆ tr') :
    op.DoneIn tr' := by
  cases op with
  | need cmd => exact h.imp fun _ hmem => hsub hmem
  | send mail => exact h.imp fun _ hmem => hsub hmem
  | notice to' reason => exact h.imp fun _ hsent => hsent.imp fun _ hmem => hsub hmem
  | refuse e => exact h
  | attempt cmd => trivial
  | deleting uid => trivial

theorem Op.Performed.doneIn {S : Surroundings Call Reply World} {op : Op} {w w' : World}
    {tr tr' : History} (h : op.Performed S w tr w' tr') :
    ∃ new, tr' = new ++ tr ∧ (∀ e ∈ new, e.isCall = true) ∧ op.DoneIn new := by
  cases h with
  | need h => exact ⟨[_], rfl, by simp [Entry.isCall], _, List.mem_cons_self⟩
  | attempt h => exact ⟨[_], rfl, by simp [Entry.isCall], trivial⟩
  | send h => exact ⟨[_], rfl, by simp [Entry.isCall], _, List.mem_cons_self⟩
  | notice h₁ h => exact ⟨[_, _], rfl, by simp [Entry.isCall], _, _, List.mem_cons_self⟩
  | deleting h => exact ⟨[_], rfl, by simp [Entry.isCall], trivial⟩

theorem Performs.doneIn {S : Surroundings Call Reply World} {ops : List Op} {w w' : World}
    {tr tr' : History} (h : Performs S ops w tr w' tr') :
    ∃ new, tr' = new ++ tr ∧ (∀ e ∈ new, e.isCall = true) ∧ ∀ op ∈ ops, op.DoneIn new := by
  induction h with
  | nil => exact ⟨[], rfl, by simp, by simp⟩
  | cons hop _ ih =>
    obtain ⟨new₁, rfl, hcalls₁, hdone₁⟩ := hop.doneIn
    obtain ⟨new₂, rfl, hcalls₂, hdone₂⟩ := ih
    refine ⟨new₂ ++ new₁, (List.append_assoc ..).symm, ?_, ?_⟩
    · intro e he
      exact (List.mem_append.mp he).elim (hcalls₂ e) (hcalls₁ e)
    · intro op hop
      rcases List.mem_cons.mp hop with rfl | hop
      · exact hdone₁.mono (List.subset_append_right ..)
      · exact (hdone₂ op hop).mono (List.subset_append_left ..)

theorem sinceStart_append {new tr : History} (hcalls : ∀ e ∈ new, e.isCall = true)
    (hstart : sinceStart tr = []) : sinceStart (new ++ tr) = new := by
  rw [sinceStart, List.takeWhile_append_of_pos hcalls]
  exact (congrArg (new ++ ·) hstart).trans (List.append_nil new)

/-- The operations of an action that were done make the action done. -/
theorem SieveAction.doneIn_of_ops {x : ActionExecutor} {ctx : MessageContext} {tr : History}
    {action : SieveAction} (h : ∀ op ∈ dispositionOps x ctx action, op.DoneIn tr) :
    action.DoneIn x.caps ctx tr := by
  cases action with
  | fileInto mailbox copy create =>
    -- the operations of the list are the ones that `mem_fileOps` names
    have hneed : ∀ cmd, .need cmd ∈ fileOps x.caps ctx.uid mailbox copy create →
        Succeeded tr cmd := fun cmd hop => h (.need cmd) hop
    simp only [mem_fileOps, mem_moveOps] at hneed
    rw [SieveAction.DoneIn]
    cases copy with
    | true => exact hneed _ (.inr (.inl ⟨rfl, rfl⟩))
    | false =>
      rw [if_neg (by simp)]
      split
      · next hmove => exact hneed _ (.inr (.inr ⟨rfl, .inl ⟨hmove, rfl⟩⟩))
      · next hmove =>
        have hfallback := Bool.eq_false_iff.mpr hmove
        refine ⟨hneed _ (.inr (.inr ⟨rfl, .inr ⟨hfallback, .inl rfl⟩⟩)),
          hneed _ (.inr (.inr ⟨rfl, .inr ⟨hfallback, .inr (.inl rfl)⟩⟩)), fun hplus => ?_⟩
        exact hneed _ (.inr (.inr ⟨rfl, .inr ⟨hfallback, .inr (.inr ⟨hplus, rfl⟩)⟩⟩))
  | redirect addresses =>
    have hop := h _ List.mem_cons_self
    rcases redirectOp_cases x ctx addresses with ⟨e, hrefuse⟩ | ⟨mail, hto, hraw, hsend⟩
    · rw [hrefuse] at hop
      exact hop.elim
    · rw [hsend] at hop
      exact ⟨mail, hto, hraw, hop⟩
  | reject reason =>
    have hop := h _ List.mem_cons_self
    rcases rejectOp_cases x ctx reason with ⟨e, hrefuse⟩ | ⟨to', hfrom, hnotice⟩
    · rw [hrefuse] at hop
      exact hop.elim
    · rw [hnotice] at hop
      obtain ⟨stamp, hsent⟩ := hop
      exact ⟨to', stamp, hfrom, hsent⟩
  | keep => trivial
  | discard => trivial
  | addFlag flags => trivial
  | removeFlag flags => trivial
  | setFlag flags => trivial
  | execute name args => trivial

/-! ## Section 4: Cuts and repetitions -/

theorem deleting_not_mem_passes (x : ActionExecutor) (ctx : MessageContext)
    (actions : List SieveAction) (uid : Nat) : .deleting uid ∉ x.passes ctx actions := by
  intro h
  rcases mem_passes h with ⟨_, -, _, _, -, hop⟩ | (⟨_, hop⟩ | ⟨_, hop⟩ | ⟨_, _, hop⟩) |
      ⟨_, _, _, -, hfile⟩
  · cases hop
  · cases hop
  · cases hop
  · cases hop
  · rcases mem_fileOps.mp hfile with ⟨-, hop⟩ | ⟨-, hop⟩ | ⟨-, hmove⟩
    · cases hop
    · cases hop
    · rcases mem_moveOps.mp hmove with ⟨-, hop⟩ | ⟨-, hop | hop | ⟨-, hop⟩⟩ <;> cases hop

/-- Before the final deletion all passes have been performed. -/
theorem passes_before_deleting {S : Surroundings Call Reply World} {x : ActionExecutor}
    {ctx : MessageContext} {actions : List SieveAction} {w : World} {tr : History}
    (hS : Quiet S) {y : Config Call Reply World (Except CoreError Unit)}
    (hy : Steps S ⟨(x.execute ctx actions).run, w, tr⟩ y)
    {k : Reply (.deleting ctx.uid) → Program (Except CoreError Unit)}
    (hnext : y.prog = .call (.deleting ctx.uid) k) :
    ∃ done w₁, Performs S done w tr w₁ y.trace ∧ x.passes ctx actions <+: done := by
  rw [execute_eq_runOps] at hy
  obtain ⟨done, rest, w₁, tr₁, hops, hdone, hat⟩ := steps_runOps hS.quiet hy
  have hhead : ∃ tail, rest = .deleting ctx.uid :: tail ∧ y.trace = tr₁ := by
    cases hat with
    | before =>
      cases hcall : nextCall rest with
      | none =>
        rw [run_runOps_none hcall] at hnext
        cases hnext
      | some c =>
        rw [run_runOps_some hcall] at hnext
        obtain ⟨rfl, -⟩ := Prog.call.inj hnext
        cases rest with
        | nil => cases hcall
        | cons op tail =>
          cases op <;> cases hcall
          exact ⟨tail, rfl, rfl⟩
    | stamped hrest hstamp => cases hnext
    | failed hrest hfail => cases hnext
  obtain ⟨tail, rfl, htrace⟩ := hhead
  refine ⟨done, w₁, htrace ▸ hdone, ?_⟩
  rcases List.append_eq_append_iff.mp hops with ⟨more, hmore, -⟩ | ⟨more, hmore, htail⟩
  · exact ⟨more, hmore.symm⟩
  · cases more with
    | nil => exact ⟨[], by rw [hmore, List.append_nil, List.append_nil]⟩
    | cons op more =>
      -- the operation at hand would be one of the passes
      cases htail
      exact absurd (hmore ▸ List.mem_append_right done List.mem_cons_self)
        (deleting_not_mem_passes x ctx actions ctx.uid)

/-- No silent loss. Whatever prefix of the commands was carried out, in any number of
attempts, a message that is not discarded or rejected is still there or in a folder of the
list; and the final deletion of one that is starts only after every action was done in the
same attempt. -/
theorem no_silent_loss (x : ActionExecutor) (ctx : MessageContext) (actions : List SieveAction)
    (c : Content) (w₀ : World) (y : Config Call Reply World (Except CoreError Unit))
    (hsel : w₀.selected = some x.sourceMailbox)
    (hpresent : Present x.sourceMailbox ctx.uid c w₀.server)
    (hy : Reachable executorWorld (x.execute ctx actions).run w₀ y) :
    (actions.any SieveAction.deletes = false →
      Kept x.sourceMailbox ctx.uid c (FiledInto actions) y.world.server) ∧
    (∀ k, y.prog = .call (.deleting ctx.uid) k →
      ∀ action ∈ actions, action.DoneIn x.caps ctx (sinceStart y.trace)) := by
  have hS := quiet_executorWorld
  constructor
  · intro hdeletes
    have hops : x.operations ctx actions = x.passes ctx actions := by
      rw [ActionExecutor.operations, hdeletes, if_neg (by simp), List.append_nil]
    -- an attempt, cut anywhere, passes on what the next one starts from
    have hkept : ∀ w tr y, w.selected = some x.sourceMailbox ∧
        Kept x.sourceMailbox ctx.uid c (FiledInto actions) w.server →
        Steps executorWorld ⟨(x.execute ctx actions).run, w, tr⟩ y →
        y.world.selected = some x.sourceMailbox ∧
          Kept x.sourceMailbox ctx.uid c (FiledInto actions) y.world.server := by
      rintro w tr y ⟨hsel, hkept⟩ hy
      rw [execute_eq_runOps, hops] at hy
      refine kept_of_steps hS hsel (fun op hop => passes_about hop)
        (fun op hop cmd hcmd t ht => target_of_passes hop hcmd ht) ?_ hy
      exact hkept.elim (fun hp => .inr ⟨hp, covered_passes x ctx actions⟩) .inl
    obtain ⟨w, tr, hw, hsteps⟩ := hy.from_start
      (P := fun w _ => w.selected = some x.sourceMailbox ∧
        Kept x.sourceMailbox ctx.uid c (FiledInto actions) w.server)
      ⟨hsel, .inl hpresent⟩ fun w tr y w' hw hsteps hr => hr ▸ hkept w tr y hw hsteps
    exact (hkept w tr y hw hsteps).2
  · intro k hnext action haction
    obtain ⟨w, tr, htr, hsteps⟩ := hy.from_start (P := fun _ tr => sinceStart tr = []) rfl
      fun _ _ _ _ _ _ _ => rfl
    -- before the deletion all passes were performed in this attempt
    obtain ⟨done, w₁, hdone, hpasses⟩ := passes_before_deleting hS hsteps hnext
    obtain ⟨new, htrace, hcalls, hnew⟩ := hdone.doneIn
    rw [htrace, sinceStart_append hcalls htr]
    refine SieveAction.doneIn_of_ops fun op hop => hnew op (hpasses.subset ?_)
    exact List.mem_append_right _ (List.mem_flatMap.mpr ⟨action, haction, hop⟩)

/-- The fallback for MOVE, cut off before its EXPUNGE and started again. -/
theorem no_silent_loss_cut_off :
    Kept "INBOX" 1 sampleContent (FiledInto [.fileInto "Archive" false true])
      (sampleRun { uidplus := true } [.fileInto "Archive" false true] 3).world.server :=
  (no_silent_loss ⟨true, { uidplus := true }, "INBOX"⟩ sampleContext
    [.fileInto "Archive" false true] sampleContent sampleExecutorWorld ⟨_, _, _⟩ rfl
    sample_present
    (.restart (.steps .start (steps_sampleRun_free _ [.fileInto "Archive" false true] 3)) rfl)).1
    (by decide)

end ImapSieve
