import ImapSieve.ActionExecutor

/-!
# The Executor as a List of Operations

What `execute` does is fixed by the action list before it starts, except for where it stops.
`ActionExecutor.operations` is that list, and `execute_eq_runOps` says that `execute` runs
it in order. All results about the executor are about this list.

`nextCall` and `proceed` give the small steps: the call the remaining operations make next,
and what remains after its reply.
-/

namespace ImapSieve

open Effects

/-! ## Section 1: Operations -/

/-- One thing the executor does. -/
inductive Op where
  /-- A command whose failure ends the execution. -/
  | need (cmd : ImapCommand)
  /-- A command whose failure is ignored. -/
  | attempt (cmd : ImapCommand)
  | send (mail : OutgoingMail)
  | notice (to' reason : String)
  /-- The execution ends with an error of its own. -/
  | refuse (e : CoreError)
  /-- The final deletion starts. -/
  | deleting (uid : Nat)
deriving DecidableEq, Repr

def Op.run : Op → Async Unit
  | .need cmd => command cmd
  | .attempt cmd => do
      let _ ← ExceptT.lift (command cmd).run
  | .send mail => ImapSieve.send mail
  | .notice to' reason => sendNotice to' reason
  | .refuse e => throw e
  | .deleting uid => ExceptT.lift (ask (.deleting uid))

/-- Run operations in order; the first failure ends it. -/
def runOps : List Op → Async Unit
  | [] => pure ()
  | op :: rest => do
      op.run
      runOps rest

@[simp] theorem runOps_nil : runOps [] = pure () := rfl

theorem runOps_cons (op : Op) (rest : List Op) :
    runOps (op :: rest) = (do op.run; runOps rest) := rfl

theorem runOps_append (ops rest : List Op) :
    runOps (ops ++ rest) = (do runOps ops; runOps rest) := by
  induction ops with
  | nil => simp only [List.nil_append, runOps_nil, pure_bind]
  | cons op ops ih => simp only [List.cons_append, runOps_cons, bind_assoc, ih]

theorem runOps_singleton (op : Op) : runOps [op] = op.run := by
  rw [runOps_cons, runOps_nil]
  exact bind_pure _

/-! ## Section 2: The operations of an action list -/

/-- The flag commands of an action. -/
def flagOps (uid : Nat) : SieveAction → List Op
  | .addFlag flags => [.need (.uidStoreFlags uid .add flags)]
  | .removeFlag flags => [.need (.uidStoreFlags uid .remove flags)]
  | .setFlag flags => [.need (.uidStoreFlags uid .set flags)]
  | _ => []

/-- MOVE, or its fallback. -/
def moveOps (caps : Capabilities) (uid : Nat) (target : String) : List Op :=
  if caps.supportsMove then [.need (.uidMove uid target)]
  else
    [.need (.uidCopy uid target), .need (.uidStoreFlags uid .add ["\\Deleted"])] ++
      if caps.uidplus then [.need (.uidExpunge [uid])] else []

/-- `FileInto`. -/
def fileOps (caps : Capabilities) (uid : Nat) (mailbox : String) (copy create : Bool) :
    List Op :=
  (if create then [.attempt (.uidCreateMailbox mailbox)] else []) ++
    if copy then [.need (.uidCopy uid mailbox)] else moveOps caps uid mailbox

/-- `Redirect`. -/
def redirectOp (x : ActionExecutor) (ctx : MessageContext) (addresses : List String) : Op :=
  if x.smtp then
    match ctx.raw with
    | none => .refuse (.smtp "redirect requires raw message body")
    | some raw =>
        .send { envelopeFrom := ctx.envelopeFrom.getD "<>", envelopeTo := addresses, raw }
  else .refuse (.smtp "redirect action requires SMTP configuration")

/-- `Reject`. -/
def rejectOp (x : ActionExecutor) (ctx : MessageContext) (reason : String) : Op :=
  if x.smtp then
    match ctx.envelopeFrom with
    | none => .refuse (.smtp "reject requires envelope-from")
    | some to' => .notice to' reason
  else .refuse (.smtp "reject action requires SMTP configuration")

/-- What an action does in the disposition pass. -/
def dispositionOps (x : ActionExecutor) (ctx : MessageContext) : SieveAction → List Op
  | .fileInto mailbox copy create => fileOps x.caps ctx.uid mailbox copy create
  | .redirect addresses => [redirectOp x ctx addresses]
  | .reject reason => [rejectOp x ctx reason]
  | _ => []

/-- The action makes `execute` delete the message at its end. -/
def SieveAction.deletes : SieveAction → Bool
  | .discard | .reject _ => true
  | _ => false

/-- The final deletion. -/
def deleteOps (caps : Capabilities) (uid : Nat) : List Op :=
  [.deleting uid, .need (.uidStoreFlags uid .add ["\\Deleted"])] ++
    if caps.uidplus then [.need (.uidExpunge [uid])] else []

/-- Everything before the final deletion. -/
def ActionExecutor.passes (x : ActionExecutor) (ctx : MessageContext)
    (actions : List SieveAction) : List Op :=
  actions.flatMap (flagOps ctx.uid) ++ actions.flatMap (dispositionOps x ctx)

/-- The operations of `execute`. -/
def ActionExecutor.operations (x : ActionExecutor) (ctx : MessageContext)
    (actions : List SieveAction) : List Op :=
  x.passes ctx actions ++
    if actions.any SieveAction.deletes then deleteOps x.caps ctx.uid else []

section Split

variable (x : ActionExecutor) (ctx : MessageContext) (pre : List SieveAction)
  (action : SieveAction) (post : List SieveAction)

/-- What is done ahead of an action of a list: all flag changes, and the actions before it. -/
def ActionExecutor.ahead : List Op :=
  (pre ++ action :: post).flatMap (flagOps ctx.uid) ++ pre.flatMap (dispositionOps x ctx)

/-- What is done behind it. -/
def ActionExecutor.behind : List Op :=
  post.flatMap (dispositionOps x ctx) ++
    if (pre ++ action :: post).any SieveAction.deletes then deleteOps x.caps ctx.uid else []

/-- The operations of a list, split at those of one of its actions. -/
theorem operations_split : x.operations ctx (pre ++ action :: post) =
    x.ahead ctx pre action post ++
      (dispositionOps x ctx action ++ x.behind ctx pre action post) := by
  rw [ActionExecutor.operations, ActionExecutor.passes, ActionExecutor.ahead,
    ActionExecutor.behind, List.flatMap_append (f := dispositionOps x ctx), List.flatMap_cons]
  simp only [List.append_assoc]

end Split

/-! ## Section 3: `execute` runs its operations -/

theorem flagPass_eq_runOps (ctx : MessageContext) (actions : List SieveAction) :
    flagPass ctx actions = runOps (actions.flatMap (flagOps ctx.uid)) := by
  induction actions with
  | nil => rfl
  | cons action rest ih =>
    rw [List.flatMap_cons, runOps_append, ← ih]
    cases action <;>
      simp only [flagPass, flagOps, runOps_nil, runOps_singleton, Op.run, pure_bind]

theorem moveWithFallback_eq_runOps (caps : Capabilities) (uid : Nat) (target : String) :
    moveWithFallback caps uid target = runOps (moveOps caps uid target) := by
  unfold moveWithFallback moveOps
  split
  · rw [runOps_singleton, Op.run]
  · rw [runOps_append, runOps_cons, runOps_singleton, Op.run, Op.run, bind_assoc]
    split
    · rw [runOps_singleton, Op.run]
    · rfl

/-- The disposition pass runs the operations of the dispositions and returns whether the
message is to be deleted. -/
theorem dispositionPass_eq_runOps (x : ActionExecutor) (ctx : MessageContext)
    (actions : List SieveAction) (discarded : Bool) :
    dispositionPass x ctx discarded actions = (do
      runOps (actions.flatMap (dispositionOps x ctx))
      return discarded || actions.any SieveAction.deletes) := by
  induction actions generalizing discarded with
  | nil => simp [dispositionPass]
  | cons action rest ih =>
    rw [List.flatMap_cons, runOps_append, List.any_cons]
    cases action with
    | fileInto mailbox copy create =>
      rw [dispositionPass, moveWithFallback_eq_runOps, ih, dispositionOps, fileOps, runOps_append]
      cases create <;> cases copy <;>
        simp [SieveAction.deletes, runOps_singleton, Op.run, bind_assoc]
    | redirect addresses =>
      -- refused without SMTP or without the message
      rw [dispositionPass, ih, dispositionOps, runOps_singleton, redirectOp]
      cases x.smtp <;> cases ctx.raw <;> simp [SieveAction.deletes, Op.run]
    | reject reason =>
      rw [dispositionPass, ih, dispositionOps, runOps_singleton, rejectOp]
      cases x.smtp <;> cases ctx.envelopeFrom <;> simp [SieveAction.deletes, Op.run]
    -- the other actions do nothing in this pass
    | discard => simp [dispositionPass, dispositionOps, SieveAction.deletes, ih]
    | keep => simp [dispositionPass, dispositionOps, SieveAction.deletes, ih]
    | addFlag flags => simp [dispositionPass, dispositionOps, SieveAction.deletes, ih]
    | removeFlag flags => simp [dispositionPass, dispositionOps, SieveAction.deletes, ih]
    | setFlag flags => simp [dispositionPass, dispositionOps, SieveAction.deletes, ih]
    | execute name args => simp [dispositionPass, dispositionOps, SieveAction.deletes, ih]

/-- `execute` runs its operations. -/
theorem execute_eq_runOps (x : ActionExecutor) (ctx : MessageContext)
    (actions : List SieveAction) :
    x.execute ctx actions = runOps (x.operations ctx actions) := by
  rw [ActionExecutor.execute, flagPass_eq_runOps, dispositionPass_eq_runOps,
    ActionExecutor.operations, ActionExecutor.passes, runOps_append, runOps_append, bind_assoc,
    bind_assoc]
  simp only [Bool.false_or, pure_bind]
  cases actions.any SieveAction.deletes with
  | false => rfl
  | true =>
    rw [deleteOps, if_pos rfl, if_pos rfl, runOps_append, runOps_cons, runOps_singleton, Op.run,
      Op.run, bind_assoc]
    cases x.caps.uidplus with
    | false => rfl
    | true => rw [if_pos rfl, if_pos rfl, runOps_singleton, Op.run]

/-! ## Section 4: Small steps -/

/-- The call that the operations make next. -/
def nextCall : List Op → Option Call
  | .need cmd :: _ => some (.command cmd)
  | .attempt cmd :: _ => some (.command cmd)
  | .send mail :: _ => some (.send mail)
  | .notice _ _ :: _ => some .stamp
  | .deleting uid :: _ => some (.deleting uid)
  | .refuse _ :: _ => none
  | [] => none

/-- The calls that operations make. -/
def Call.ofOp : Call → Bool
  | .command _ | .send _ | .stamp | .deleting _ => true
  | _ => false

theorem ofOp_of_nextCall {ops : List Op} {c : Call} (h : nextCall ops = some c) :
    c.ofOp = true := by
  cases ops with
  | nil => cases h
  | cons op rest => cases op <;> cases h <;> rfl

/-- What the operations return when no call is left. -/
def outcome : List Op → Except CoreError Unit
  | .refuse e :: _ => .error e
  | _ => .ok ()

/-- The notice as outgoing mail, with its date and message id drawn. -/
def noticeMail (to' reason : String) (stamp : Stamp) : OutgoingMail :=
  { envelopeFrom := "", envelopeTo := [to'], raw := rejectNotice to' reason stamp }

/-- What is left of the operations after a reply. -/
def proceed : List Op → (c : Call) → Reply c → List Op
  | .need _ :: rest, .command _, .ok () => rest
  | .need _ :: _, .command _, .error e => [.refuse e]
  | .attempt _ :: rest, .command _, _ => rest
  | .send _ :: rest, .send _, .ok () => rest
  | .send _ :: _, .send _, .error e => [.refuse e]
  | .notice to' reason :: rest, .stamp, stamp => .send (noticeMail to' reason stamp) :: rest
  | .deleting _ :: rest, .deleting _, () => rest
  | ops, _, _ => ops

theorem run_runOps_none {ops : List Op} (h : nextCall ops = none) :
    (runOps ops).run = .ret (outcome ops) := by
  cases ops with
  | nil => rfl
  | cons op rest => cases op <;> first | rfl | cases h

/-- The operations make their next call and go on with what is left. -/
theorem run_runOps_some {ops : List Op} {c : Call} (h : nextCall ops = some c) :
    (runOps ops).run = .call c fun r => (runOps (proceed ops c r)).run := by
  cases ops with
  | nil => cases h
  | cons op rest =>
    cases op with
    | need cmd =>
      cases h
      -- the error of a needed command ends the operations
      exact congrArg (Prog.call _) (funext fun r => by cases r <;> rfl)
    | attempt cmd =>
      cases h
      rfl
    | send mail =>
      cases h
      exact congrArg (Prog.call _) (funext fun r => by cases r <;> rfl)
    | notice to' reason =>
      cases h
      rfl
    | refuse e => cases h
    | deleting uid =>
      cases h
      rfl

end ImapSieve
