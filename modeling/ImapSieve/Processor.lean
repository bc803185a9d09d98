import ImapSieve.ActionExecutor

/-!
# Per-batch Message Processing

`MessageProcessor::run_batch`: fetch what is above the UID bookmark, evaluate and execute
message by message, advance the bookmark after each success, stop at the first failure.
-/

namespace ImapSieve

open Effects

/-- What the processor is constructed with, apart from the shared handles. -/
structure MessageProcessor where
  smtp : Bool
  caps : Capabilities
  mailbox : String
  batchSize : Nat
deriving DecidableEq, Repr

namespace MessageProcessor

/-- The executor the processor builds for each message. -/
def executor (p : MessageProcessor) : ActionExecutor where
  smtp := p.smtp
  caps := p.caps
  sourceMailbox := p.mailbox

/-- The first UID of the FETCH range: `uid + 1` in `u32`, as the release profile
computes it. -/
def startUid (lastSeenUid : Nat) : Nat := (lastSeenUid + 1) % 2 ^ 32

/-- The loop over the fetched messages. -/
def processMessages (p : MessageProcessor) (script : CompiledScript) :
    List MessageContext → List ProcessingResult → Async (List ProcessingResult)
  | [], results => pure results
  | msg :: rest, results => do
      match ← ExceptT.lift (ask (.evaluate script msg)) with
      | .error e =>
          -- stop: the bookmark is not advanced past this UID
          return results ++ [⟨msg.uid, [.keep], .sieveError e.display⟩]
      | .ok actions =>
          let result ← ExceptT.lift (p.executor.execute msg actions).run
          ExceptT.lift (ask (.executed msg.uid result))
          match result with
          | .error e =>
              -- stop: the bookmark is not advanced past this UID
              return results ++ [⟨msg.uid, actions, .actionError e.display⟩]
          | .ok () =>
              update (.advance msg.uid)
              processMessages p script rest (results ++ [⟨msg.uid, actions, .ok⟩])

/-- The lower bound for CHANGEDSINCE. -/
def changedSince (p : MessageProcessor) (s : State) : Option Nat :=
  if p.caps.condstore then s.highestmodseq else none

/-- `MessageProcessor::run_batch`. -/
def runBatch (p : MessageProcessor) : Async (List ProcessingResult) := do
  let state ← ExceptT.lift (ask .state)
  match state.lastSeenUid with
  | none =>
      throw (.imap "last_seen_uid not initialized; SessionManager must seed it from UIDNEXT")
  | some uid =>
      let messages ← ExceptT.mk
        (ask (.fetchUidRange p.mailbox (startUid uid) (p.changedSince state)))
      let script ← ExceptT.lift (ask .currentScript)
      p.processMessages script (messages.take p.batchSize) []

end MessageProcessor

end ImapSieve
