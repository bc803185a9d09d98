import ImapSieve.Effects.Monitor
import ImapSieve.SieveEngine

/-!
# Script Loader

`ScriptLoader` reads the Sieve script, compiles it and puts it into a handle that it shares
with the daemon. The watcher thread reloads the script at every change of its file.

Compilation is that of the third-party crate: a function from the text to the compiled script
or an error. The paths are those after `canonicalize`.
-/

namespace ImapSieve

open Effects

/-! ## Section 1: The calls of the watcher -/

inductive LoaderError where
  | io (message : String)
  | compile (e : SieveError)
deriving DecidableEq, Repr

/-- The kinds of `notify`'s events, without their details. -/
inductive EventKind where
  | any
  | access
  | create
  | modify
  | remove
  | other
deriving DecidableEq, Repr

/-- A change of the watched directory. -/
structure WatchEvent where
  kind : EventKind
  paths : List String
deriving DecidableEq, Repr

/-- What the watcher does to the outside. -/
inductive LoaderCall where
  /-- `rx.recv()` -/
  | recv
  /-- `std::fs::read_to_string` -/
  | readToString (path : String)
  /-- `ArcSwap::store` -/
  | store (script : CompiledScript)
  /-- The result of a reload is logged. -/
  | report (result : Except LoaderError Unit)

abbrev LoaderReply : LoaderCall → Type
  | .recv => Option (Except String WatchEvent)
  | .readToString _ => Except String String
  | .store _ => Unit
  | .report _ => Unit

abbrev LoaderProgram := Prog LoaderCall LoaderReply

namespace LoaderCall

/-- Make a call. -/
def ask (c : LoaderCall) : LoaderProgram (LoaderReply c) := Prog.perform c

end LoaderCall

/-! ## Section 2: Loading and reloading -/

structure ScriptLoader where
  /-- `engine.compile` -/
  compile : String → Except SieveError CompiledScript
  path : String

namespace ScriptLoader

/-- What was read, compiled. -/
def compiled (l : ScriptLoader) : Except String String → Except LoaderError CompiledScript
  | .error e => .error (.io e)
  | .ok text =>
      match l.compile text with
      | .error e => .error (.compile e)
      | .ok script => .ok script

/-- `ScriptLoader::load`, given what reading the file gave: the script of the new handle. -/
def load (l : ScriptLoader) (text : Except String String) : Except LoaderError CompiledScript :=
  l.compiled text

/-- Re-read and recompile. On failure, leaves the existing script in place. -/
def reload (l : ScriptLoader) : ExceptT LoaderError LoaderProgram Unit := do
  let text ← ExceptT.lift (LoaderCall.readToString l.path).ask
  let script ← ExceptT.mk (pure (l.compiled text))
  ExceptT.lift (LoaderCall.store script).ask

/-- What a reload asks for. -/
theorem run_reload (l : ScriptLoader) :
    l.reload.run = .call (.readToString l.path) fun text =>
      match l.compiled text with
      | .error e => .ret (.error e)
      | .ok script => .call (.store script) fun _ => .ret (.ok ()) := by
  refine congrArg (Prog.call (LoaderCall.readToString l.path)) (funext fun text => ?_)
  change (ExceptT.bindCont _ (l.compiled text) : LoaderProgram _) = _
  cases l.compiled text with
  | error e => rfl
  | ok script => rfl

/-- The event is a change of the script. -/
def concerns (l : ScriptLoader) (event : WatchEvent) : Bool :=
  event.paths.any (· == l.path) &&
    match event.kind with
    | .modify | .create | .remove => true
    | _ => false

/-- One round of the watcher thread. -/
def watchRound (l : ScriptLoader) (_ : Unit) : LoaderProgram (Unit ⊕ Unit) := do
  match ← LoaderCall.recv.ask with
  | none => return .inr ()
  | some (.error _) => return .inl ()  -- only logged
  | some (.ok event) =>
      if l.concerns event then
        let result ← l.reload.run
        (LoaderCall.report result).ask
        return .inl ()
      else
        return .inl ()

/-- The worker of `ScriptLoader::spawn_watcher`. -/
def watch (l : ScriptLoader) : LoaderProgram Unit := Prog.loop l.watchRound ()

end ScriptLoader

/-! ## Section 3: The file and the handle -/

/-- What the loader works on. -/
structure Loading where
  /-- The content of the script file; `none` if there is none. -/
  file : Option String
  handle : CompiledScript

/-- Reading gives the content of the file, or fails. -/
def Loading.Answers (w : Loading) : (c : LoaderCall) → LoaderReply c → Loading → Prop
  | .recv, _, w' => w' = w
  | .readToString _, .ok text, w' => w.file = some text ∧ w' = w
  | .readToString _, .error _, w' => w' = w
  | .store script, (), w' => w' = { w with handle := script }
  | .report _, (), w' => w' = w

/-- Others change the file at any time. -/
def loaderWorld : Surroundings LoaderCall LoaderReply Loading where
  answers := Loading.Answers
  drifts w w' := w'.handle = w.handle
  restarts _ _ := False

end ImapSieve
