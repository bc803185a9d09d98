import Mathlib.Data.List.Basic

/-!
# Shared Types

The message as the engine and the executor see it, the actions a script results in, the
outcome of processing one message, and the errors of the core crate.

Numbers that are `u32`, `u64` or `usize` in the source are natural numbers here; where a
computation can leave the type, the modulus is written out at that place.
-/

namespace ImapSieve

/-! ## Section 1: Messages -/

/-- A single fetched message ready for Sieve evaluation. The header map is an association
list with lowercased names. -/
structure MessageContext where
  uid : Nat
  mailbox : String
  headers : List (String × String)
  envelopeFrom : Option String
  envelopeTo : List String
  raw : Option (List UInt8)
  flags : List String
  size : Nat
deriving DecidableEq, Repr

/-! ## Section 2: Actions -/

/-- Resolved actions that the executor can perform without further interpretation. -/
inductive SieveAction where
  | keep
  | discard
  | fileInto (mailbox : String) (copy create : Bool)
  | redirect (addresses : List String)
  | reject (reason : String)
  | addFlag (flags : List String)
  | removeFlag (flags : List String)
  | setFlag (flags : List String)
  /-- Custom action passthrough. -/
  | execute (name : String) (args : List String)
deriving DecidableEq, Repr

/-! ## Section 3: Errors -/

inductive StateError where
  | io (message : String)
  | json (message : String)
deriving DecidableEq, Repr

def StateError.display : StateError → String
  | .io e => "io error: " ++ e
  | .json e => "json error: " ++ e

inductive SieveError where
  | compile (message : String)
  | runtime (message : String)
deriving DecidableEq, Repr

def SieveError.display : SieveError → String
  | .compile e => "compile error: " ++ e
  | .runtime e => "runtime error: " ++ e

inductive CoreError where
  | imap (message : String)
  | smtp (message : String)
  | sieve (message : String)
  | state (e : StateError)
  | uidValidityChanged (cached server : Nat)
  | missingCapability (name : String)
  | io (message : String)
deriving DecidableEq, Repr

def CoreError.display : CoreError → String
  | .imap e => "imap error: " ++ e
  | .smtp e => "smtp error: " ++ e
  | .sieve e => "sieve error: " ++ e
  | .state e => "state error: " ++ e.display
  | .uidValidityChanged cached server =>
      "uidvalidity changed: cached=" ++ toString cached ++ " server=" ++ toString server
  | .missingCapability name => "missing required imap extension: " ++ name
  | .io e => "io: " ++ e

/-- Where a sequence fails, one of its parts does. -/
theorem except_bind_error {ε α β : Type} {p : Except ε α} {f : α → Except ε β} {e : ε}
    (h : (p >>= f) = .error e) : p = .error e ∨ ∃ a, f a = .error e := by
  cases p with
  | error e' =>
    cases h
    exact .inl rfl
  | ok a => exact .inr ⟨a, h⟩

/-- `map_err` -/
theorem except_mapError_error {ε ε' α : Type} {p : Except ε α} {f : ε → ε'} {e : ε'}
    (h : p.mapError f = .error e) : ∃ e', e = f e' := by
  cases p with
  | error e' =>
    cases h
    exact ⟨e', rfl⟩
  | ok a => cases h

/-! ## Section 4: Results -/

inductive ProcessingStatus where
  | ok
  | sieveError (message : String)
  | actionError (message : String)
deriving DecidableEq, Repr

/-- Outcome of processing a single message. -/
structure ProcessingResult where
  uid : Nat
  actions : List SieveAction
  status : ProcessingStatus
deriving DecidableEq, Repr

end ImapSieve
