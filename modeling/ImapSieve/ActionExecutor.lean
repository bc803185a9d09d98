import ImapSieve.ImapClient

/-!
# Action Executor

`ActionExecutor::execute`: translate the actions of one message into IMAP commands and
SMTP sends. Two passes over the list, flag actions first, then dispositions, and a final
deletion when the message was discarded or rejected.
-/

namespace ImapSieve

open Effects

/-- The executor's shared references. Of the SMTP sender only its presence matters; the
sending itself is a call. -/
structure ActionExecutor where
  smtp : Bool
  caps : Capabilities
  sourceMailbox : String
deriving DecidableEq, Repr

/-! ## Section 1: The rejection notice -/

/-- `reason.replace("\r\n", " ")` on characters. -/
def replaceCrLf : List Char → List Char
  | '\r' :: '\n' :: rest => ' ' :: replaceCrLf rest
  | c :: rest => c :: replaceCrLf rest
  | [] => []

/-- `reason.replace('\n', " ")` on characters. -/
def replaceLf (cs : List Char) : List Char := cs.map fun c => if c = '\n' then ' ' else c

/-- Sanitise reason to prevent header injection. -/
def safeReason (reason : String) : String :=
  String.ofList (replaceLf (replaceCrLf reason.toList))

/-- The raw rejection notice. -/
def rejectNotice (to' reason : String) (stamp : Stamp) : List UInt8 :=
  ("From: <>\r\nTo: " ++ to' ++ "\r\nDate: " ++ stamp.date ++ "\r\nMessage-ID: <reject-" ++
    stamp.messageId ++ "@imap-sieve>\r\nMIME-Version: 1.0\r\nSubject: Mail rejected\r\n" ++
    "Content-Type: text/plain; charset=utf-8\r\n\r\n" ++ safeReason reason ++
    "\r\n").toUTF8.data.toList

/-- Draw a date and a message id and send the notice. -/
def sendNotice (to' reason : String) : Async Unit := do
  let stamp ← ExceptT.lift (ask .stamp)
  send { envelopeFrom := "", envelopeTo := [to'], raw := rejectNotice to' reason stamp }

/-! ## Section 2: The two passes -/

/-- Process flag and execute actions first (they don't affect disposition). -/
def flagPass (ctx : MessageContext) : List SieveAction → Async Unit
  | [] => pure ()
  | action :: rest => do
      match action with
      | .addFlag flags => command (.uidStoreFlags ctx.uid .add flags)
      | .removeFlag flags => command (.uidStoreFlags ctx.uid .remove flags)
      | .setFlag flags => command (.uidStoreFlags ctx.uid .set flags)
      | .execute _ _ => pure ()  -- only logged
      | _ => pure ()
      flagPass ctx rest

/-- Process disposition actions. The flag says whether the message is to be deleted at the
end; it is threaded through as the source's local variable. -/
def dispositionPass (x : ActionExecutor) (ctx : MessageContext) :
    Bool → List SieveAction → Async Bool
  | discarded, [] => pure discarded
  | discarded, action :: rest =>
      match action with
      | .fileInto mailbox copy create => do
          if create then
            -- best effort: errors of CREATE are ignored
            let _ ← ExceptT.lift (command (.uidCreateMailbox mailbox)).run
          if copy then
            command (.uidCopy ctx.uid mailbox)
          else
            moveWithFallback x.caps ctx.uid mailbox
          dispositionPass x ctx discarded rest
      | .discard => dispositionPass x ctx true rest
      | .redirect addresses => do
          if !x.smtp then
            throw (.smtp "redirect action requires SMTP configuration")
          match ctx.raw with
          | none => throw (.smtp "redirect requires raw message body")
          | some raw =>
              send { envelopeFrom := ctx.envelopeFrom.getD "<>", envelopeTo := addresses, raw }
          dispositionPass x ctx discarded rest
      | .reject reason => do
          if !x.smtp then
            throw (.smtp "reject action requires SMTP configuration")
          match ctx.envelopeFrom with
          | none => throw (.smtp "reject requires envelope-from")
          | some to' => sendNotice to' reason
          dispositionPass x ctx true rest
      | _ => dispositionPass x ctx discarded rest

/-! ## Section 3: The executor -/

/-- `ActionExecutor::execute`. -/
def ActionExecutor.execute (x : ActionExecutor) (ctx : MessageContext)
    (actions : List SieveAction) : Async Unit := do
  flagPass ctx actions
  let discarded ← dispositionPass x ctx false actions
  if discarded then
    ExceptT.lift (ask (.deleting ctx.uid))
    command (.uidStoreFlags ctx.uid .add ["\\Deleted"])
    if x.caps.uidplus then
      command (.uidExpunge [ctx.uid])

end ImapSieve
