import ImapSieve.Config
import ImapSieve.Text.Utf8
import Mathlib.Data.List.DropRight

/-!
# Secrets

`resolve_secret` of the configuration crate: a password is written in the configuration, or it is
what a command prints. How a command is run depends on the caller and is a parameter.
-/

namespace ImapSieve

open Text

/-! ## Section 1: The output of a command -/

/-- `std::process::Output`, with its exit status as text. -/
structure Output where
  success : Bool
  status : String
  stdout : List UInt8
  stderr : List UInt8
deriving DecidableEq, Repr

/-- The errors of `ConfigError` that resolving a secret may end with. -/
inductive SecretError where
  | invalid (message : String)
  | passwordCommand (message : String)
deriving DecidableEq, Repr

def SecretError.display : SecretError → String
  | .invalid message => "invalid config: " ++ message
  | .passwordCommand message => "password_command failed: " ++ message

def isLineBreak (c : Char) : Bool := c = '\n' || c = '\r'

/-- What was printed, after `trim_end_matches(['\n', '\r'])`. -/
def Output.trimmed (output : Output) : List Char :=
  (fromUtf8Lossy output.stdout).rdropWhile isLineBreak

/-- What `run_secret_command` makes of the output. -/
def secretOf : Except String Output → Except SecretError String
  | .error e => .error (.passwordCommand e)
  | .ok output =>
      if !output.success then
        .error (.passwordCommand ("command exited with status " ++ output.status ++ ": " ++
          String.ofList (fromUtf8Lossy output.stderr)))
      else if output.trimmed = [] then .error (.passwordCommand "empty output")
      else .ok (String.ofList output.trimmed)

/-- A secret is what was printed, up to the line breaks at its end. It is not empty and does not
end with a line break. -/
theorem secretOf_ok {result : Except String Output} {secret : String}
    (h : secretOf result = .ok secret) :
    ∃ output breaks, result = .ok output ∧ output.success = true ∧
      fromUtf8Lossy output.stdout = secret.toList ++ breaks ∧
      (∀ c ∈ breaks, isLineBreak c = true) ∧
      ∃ last, secret.toList.getLast? = some last ∧ isLineBreak last = false := by
  unfold secretOf at h
  split at h
  · cases h
  · rename_i output
    split at h
    · cases h
    · rename_i hsuccess
      split at h
      · cases h
      · rename_i hne
        cases h
        rw [String.toList_ofList]
        refine ⟨output, (fromUtf8Lossy output.stdout).rtakeWhile isLineBreak, rfl,
          by simpa using hsuccess, (List.rdropWhile_append_rtakeWhile ..).symm,
          fun c hc => List.mem_rtakeWhile_imp hc, _, List.getLast?_eq_some_getLast hne, ?_⟩
        exact Bool.eq_false_iff.mpr (List.rdropWhile_last_not isLineBreak _ hne)

/-! ## Section 2: Resolving a secret -/

/-- `resolve_secret`: the literal, else the output of the command. -/
def resolveSecret {m : Type → Type 1} [Monad m] (output : String → m (Except String Output))
    (literal command : Option String) : m (Except SecretError String) :=
  match literal with
  | some secret => pure (.ok secret)
  | none =>
      match command with
      | some command => do
          let result ← output command
          return secretOf result
      | none => pure (.error (.invalid "no secret available (literal or command)"))

end ImapSieve
