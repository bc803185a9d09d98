import ImapSieve.Types

/-!
# Sieve Engine

`SieveEngineImpl::evaluate` drives a `sieve-rs` instance: it runs the compiled script,
turns every event into actions, answers the event, and rewrites the collected actions
twice (implicit keep, `:copy` inference).

The interpreter itself is a third-party crate. A compiled script is taken here by its
behaviour: for a message and its envelope it gives a `Run`, a tree of events in which the
reply to an event selects what happens next.
-/

namespace ImapSieve

/-! ## Section 1: The interface of the interpreter -/

inductive Recipient where
  | address (addr : String)
  | list (name : String)
  | group (members : List String)
deriving DecidableEq, Repr

/-- The events of the interpreter. `messageId` is 0 for the received message and otherwise
names a message announced by `createdMessage`. -/
inductive Event where
  | includeScript (name : String)
  | mailboxExists (mailboxes : List String)
  | listContains (lists values : List String)
  | duplicateId (id : String)
  | setEnvelope (value : String)
  | function (id : Nat) (arguments : List String)
  | keep (flags : List String) (messageId : Nat)
  | discard
  | reject (reason : String)
  | fileInto (folder : String) (flags : List String) (create : Bool) (messageId : Nat)
  | sendMessage (recipient : Recipient) (messageId : Nat)
  | notify (message : String)
  | createdMessage (messageId : Nat) (message : List UInt8)
deriving DecidableEq, Repr

/-- What the caller answers to an event. -/
inductive Input where
  | true
  | false
deriving DecidableEq, Repr

/-- What `instance.run` gives: the end, an error, or an event that waits for an input. -/
inductive Run where
  | done
  | failed (message : String)
  | event (ev : Event) (resume : Input → Run)

/-- Compiled bytecode by its behaviour on the raw message and its envelope. -/
structure Sieve where
  run : List UInt8 → Option String → List String → Run

/-- Compiled sieve script. Opaque to consumers; only `evaluate` reads it. -/
structure CompiledScript where
  inner : Sieve

/-! ## Section 2: Events to actions -/

/-- One round of the event loop: the actions the event pushes, and the next input. -/
def handleEvent : Event → List SieveAction × Input
  | .includeScript _ => ([], .true)
  | .keep flags _ =>
      ((if flags.isEmpty then [] else [.setFlag flags]) ++ [.keep], .true)
  | .discard => ([.discard], .true)
  | .fileInto folder flags create _ =>
      -- `:copy` is inferred later, from a Keep event alongside
      ((if flags.isEmpty then [] else [.setFlag flags]) ++ [.fileInto folder false create],
        .true)
  | .sendMessage recipient _ =>
      match recipient with
      | .address addr => ([.redirect [addr]], .true)
      | _ => ([], .true)
  | .reject reason => ([.reject reason], .true)
  | .function id arguments => ([.execute (toString id) arguments], .true)
  | _ => ([], .true)

/-- The event loop. -/
def collect : Run → List SieveAction → Except SieveError (List SieveAction)
  | .done, actions => .ok actions
  | .failed message, _ => .error (.runtime message)
  | .event ev resume, actions =>
      collect (resume (handleEvent ev).2) (actions ++ (handleEvent ev).1)

/-! ## Section 3: Rewriting the action list -/

def SieveAction.isDisposition : SieveAction → Bool
  | .keep | .discard | .fileInto _ _ _ | .redirect _ | .reject _ => true
  | _ => false

def SieveAction.isFileInto : SieveAction → Bool
  | .fileInto _ _ _ => true
  | _ => false

def SieveAction.isKeep : SieveAction → Bool
  | .keep => true
  | _ => false

/-- RFC 5228 implicit keep: if no disposition action, leave message in place. -/
def implicitKeep (actions : List SieveAction) : List SieveAction :=
  if actions.any SieveAction.isDisposition then actions else actions ++ [.keep]

def SieveAction.setCopy : SieveAction → SieveAction
  | .fileInto mailbox _ create => .fileInto mailbox true create
  | a => a

/-- `:copy` detection: with both FileInto and Keep present every FileInto is a copy, and
the redundant Keep is removed. -/
def inferCopy (actions : List SieveAction) : List SieveAction :=
  if actions.any SieveAction.isFileInto && actions.any SieveAction.isKeep then
    (actions.map SieveAction.setCopy).filter fun a => !a.isKeep
  else actions

/-- `SieveEngineImpl::evaluate`. -/
def evaluate (script : CompiledScript) (context : MessageContext) :
    Except SieveError (List SieveAction) :=
  match context.raw with
  | none => .error (.runtime "MessageContext.raw is required")
  | some raw => do
      let actions ← collect (script.inner.run raw context.envelopeFrom context.envelopeTo) []
      return inferCopy (implicitKeep actions)

end ImapSieve
