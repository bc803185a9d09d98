import ImapSieve.Effects.Contract
import ImapSieve.Text.Atoms
import ImapSieve.World

/-!
# Storing Flags

`AsyncImapClient::uid_store_flags` renders the flags of an action into the argument of a UID
STORE, as they are. `storeAttFlags?` is the grammar that a server reads the argument by, and
`storesExactly_iff` says for which flags it reads what was meant.

`answers_uidStoreFlags` connects the client to the world of the daemon, where a command carries
its flags as a list.
-/

namespace ImapSieve

open Effects Text

/-! ## Section 1: The argument -/

/-- The data item of a STORE. -/
def FlagOp.item : FlagOp → String
  | .add => "+FLAGS"
  | .remove => "-FLAGS"
  | .set => "FLAGS"

/-- `format!("{} ({})", prefix, flags.join(" "))` -/
def storeQuery (op : FlagOp) (flags : List String) : String :=
  op.item ++ " (" ++ " ".intercalate flags ++ ")"

/-! ## Section 2: The client -/

/-- What is asked of the IMAP session. -/
inductive StoreCall where
  | uidStore (uidSet query : String)

/-- The results of the stream, of which nothing but success is read. -/
abbrev StoreReply : StoreCall → Type
  | .uidStore _ _ => Except String (List (Except String Unit))

/-- An error in the stream is an error of the whole. -/
def collectResults : List (Except String Unit) → Except CoreError Unit
  | [] => .ok ()
  | .error e :: _ => .error (.imap e)
  | .ok () :: rest => collectResults rest

/-- What becomes of the reply. -/
def storeResult : Except String (List (Except String Unit)) → Except CoreError Unit
  | .error e => .error (.imap e)
  | .ok results => collectResults results

/-- `AsyncImapClient::uid_store_flags`. There is no session after an IDLE that did not end
regularly. -/
def uidStoreFlags (session : Bool) (uid : Nat) (op : FlagOp) (flags : List String) :
    Prog StoreCall StoreReply (Except CoreError Unit) :=
  if session then do
    let reply ← Prog.perform (.uidStore (toString uid) (storeQuery op flags))
    return storeResult reply
  else
    return .error (.imap "session not available")

theorem uidStoreFlags_session (uid : Nat) (op : FlagOp) (flags : List String) :
    uidStoreFlags true uid op flags =
      .call (.uidStore (toString uid) (storeQuery op flags)) fun r => .ret (storeResult r) := rfl

/-! ## Section 3: The grammar of the argument -/

/-- `"FLAGS" SP flag-list` -/
def plainFlags? : List Char → Option (List String)
  | 'F' :: 'L' :: 'A' :: 'G' :: 'S' :: ' ' :: rest => (flagList? rest).map (·.map String.ofList)
  | _ => none

/-- `["+" / "-"] "FLAGS" SP flag-list` -/
def storeAttFlags? (query : String) : Option (FlagOp × List String) :=
  match query.toList with
  | '+' :: rest => (plainFlags? rest).map fun flags => (.add, flags)
  | '-' :: rest => (plainFlags? rest).map fun flags => (.remove, flags)
  | rest => (plainFlags? rest).map fun flags => (.set, flags)

-- a flag that closes the list, one that adds another, one that starts a command
example : storeAttFlags? (storeQuery .add ["a)"]) = none := by decide

example : storeAttFlags? (storeQuery .add ["a b"]) = some (.add, ["a", "b"]) := by decide

example : storeAttFlags? (storeQuery .set ["a)\r\nA1 NOOP"]) = none := by decide

theorem isFlag_of_plainFlags? {text : List Char} {flags : List String}
    (h : plainFlags? text = some flags) : ∀ flag ∈ flags, isFlag flag.toList = true := by
  unfold plainFlags? at h
  split at h
  · obtain ⟨read, hread, rfl⟩ := Option.map_eq_some_iff.mp h
    intro flag hflag
    obtain ⟨chars, hchars, rfl⟩ := List.mem_map.mp hflag
    rw [String.toList_ofList]
    exact isFlag_of_flagList? hread chars hchars
  · cases h

/-- Nothing but flags is read. -/
theorem isFlag_of_storeAttFlags? {query : String} {op : FlagOp} {flags : List String}
    (h : storeAttFlags? query = some (op, flags)) : ∀ flag ∈ flags, isFlag flag.toList = true := by
  unfold storeAttFlags? at h
  split at h <;>
  · obtain ⟨read, hread, hpair⟩ := Option.map_eq_some_iff.mp h
    cases hpair
    exact isFlag_of_plainFlags? hread

theorem toList_storeQuery (op : FlagOp) (flags : List String) :
    (storeQuery op flags).toList =
      op.item.toList ++ ' ' :: renderFlagList (flags.map String.toList) := by
  simp [storeQuery, renderFlagList, spaced, String.toList_intercalate]

theorem plainFlags?_render {flags : List String} (h : ∀ flag ∈ flags, isFlag flag.toList = true) :
    plainFlags? ("FLAGS".toList ++ ' ' :: renderFlagList (flags.map String.toList)) =
      some flags := by
  have hread : flagList? (renderFlagList (flags.map String.toList)) =
      some (flags.map String.toList) := by
    refine flagList?_render fun chars hchars => ?_
    obtain ⟨flag, hflag, rfl⟩ := List.mem_map.mp hchars
    exact h flag hflag
  have hflags : (flags.map String.toList).map String.ofList = flags := by
    rw [List.map_map]
    exact (List.map_congr_left fun flag _ => String.ofList_toList).trans (List.map_id flags)
  exact (congrArg (Option.map _) hread).trans (congrArg some hflags)

/-- The argument for flags is read as it was meant. -/
theorem storeAttFlags?_storeQuery (op : FlagOp) {flags : List String}
    (h : ∀ flag ∈ flags, isFlag flag.toList = true) :
    storeAttFlags? (storeQuery op flags) = some (op, flags) := by
  have hplain := plainFlags?_render h
  rw [storeAttFlags?, toList_storeQuery]
  cases op with
  | add => exact congrArg (Option.map _) hplain
  | remove => exact congrArg (Option.map _) hplain
  | set => exact congrArg (Option.map _) hplain

/-! ## Section 4: What is sent -/

/-- A session of which nothing is known. -/
def anySession : Surroundings StoreCall StoreReply Unit where
  answers _ _ _ _ := True
  drifts _ _ := False
  restarts _ _ := False

/-- The argument that was sent is read as the operation and the flags. -/
def Denotes (op : FlagOp) (flags : List String) : Entry StoreCall StoreReply Unit → Prop
  | .called _ (.uidStore _ query) _ => storeAttFlags? query = some (op, flags)
  | .restarted _ => True

/-- In every run, whatever is sent denotes the operation and the flags, and where nothing was
sent an error is returned. -/
def StoresExactly (session : Bool) (uid : Nat) (op : FlagOp) (flags : List String) : Prop :=
  ∀ x, Steps anySession ⟨uidStoreFlags session uid op flags, (), []⟩ x →
    (∀ e ∈ x.trace, Denotes op flags e) ∧
      (x.trace = [] → ∀ result, x.prog = .ret result → ∃ e, result = .error e)

section Runs

variable {uid : Nat} {op : FlagOp} {flags : List String}
  {x : Config StoreCall StoreReply Unit (Except CoreError Unit)}

/-- Without a session nothing is sent. -/
theorem steps_noSession (hx : Steps anySession ⟨uidStoreFlags false uid op flags, (), []⟩ x) :
    x.prog = .ret (.error (.imap "session not available")) ∧ x.trace = [] :=
  steps_ret (P := fun _ tr => tr = []) rfl (fun _ _ _ h _ => h) hx

/-- With a session the argument is sent once. -/
theorem steps_session (hx : Steps anySession ⟨uidStoreFlags true uid op flags, (), []⟩ x) :
    (x.trace = [] ∧ ∀ result, x.prog ≠ .ret result) ∨
      ∃ r, x.trace = [.called () (.uidStore (toString uid) (storeQuery op flags)) r] := by
  rw [uidStoreFlags_session] at hx
  rcases steps_call (P := fun _ _ => True) trivial (fun _ _ _ h _ => h) hx with
    ⟨hprog, htrace, -⟩ | ⟨w₁, r, w₂, -, -, hsteps⟩
  · refine .inl ⟨htrace, fun result hret => ?_⟩
    rw [hprog] at hret
    cases hret
  · -- what follows the reply makes no call
    obtain ⟨-, htrace⟩ := steps_ret
      (P := fun _ tr => tr = [.called () (.uidStore (toString uid) (storeQuery op flags)) r])
      rfl (fun _ _ _ h _ => h) hsteps
    exact .inr ⟨r, htrace⟩

/-- A run in which the argument is sent. -/
theorem sends_session (uid : Nat) (op : FlagOp) (flags : List String) :
    Steps anySession ⟨uidStoreFlags true uid op flags, (), []⟩
      ⟨.ret (storeResult (.ok [])), (),
        [.called () (.uidStore (toString uid) (storeQuery op flags)) (.ok [])]⟩ :=
  uidStoreFlags_session uid op flags ▸ .single (.call trivial)

end Runs

/-- A STORE means what was asked for exactly if there is no session to send it on, or every flag
is one. -/
theorem storesExactly_iff (session : Bool) (uid : Nat) (op : FlagOp) (flags : List String) :
    StoresExactly session uid op flags ↔
      session = false ∨ ∀ flag ∈ flags, isFlag flag.toList = true := by
  constructor
  · intro hexact
    cases session with
    | false => exact .inl rfl
    | true =>
      -- what was sent is read as these flags, and nothing but flags is read
      have hread := (hexact _ (sends_session uid op flags)).1 _ (List.mem_singleton_self _)
      exact .inr (isFlag_of_storeAttFlags? hread)
  · intro h x hx
    cases session with
    | false =>
      obtain ⟨hprog, htrace⟩ := steps_noSession hx
      refine ⟨by simp [htrace], fun _ result hret => ?_⟩
      rw [hprog] at hret
      cases hret
      exact ⟨_, rfl⟩
    | true =>
      have hflags := h.resolve_left (by simp)
      rcases steps_session hx with ⟨htrace, hprog⟩ | ⟨r, htrace⟩
      · exact ⟨by simp [htrace], fun _ result hret => absurd hret (hprog result)⟩
      · refine ⟨fun e he => ?_, by simp [htrace]⟩
        rw [htrace, List.mem_singleton] at he
        subst he
        exact storeAttFlags?_storeQuery op hflags

/-- A flag with a parenthesis closes the list. -/
theorem not_storesExactly : ¬ StoresExactly true 1 .add ["a)"] := by
  intro hexact
  have hread := (hexact _ (sends_session 1 .add ["a)"])).1 _ (List.mem_singleton_self _)
  have hnone : storeAttFlags? (storeQuery .add ["a)"]) = none := by decide
  rw [Denotes, hnone] at hread
  cases hread

/-! ## Section 5: The world of the daemon -/

/-- What a server does with the UID and the argument that it reads. -/
def Server.uidStore (s : Server) (sel uidSet query : String) : Option Server :=
  (storeAttFlags? query).bind fun read =>
    s.run sel (.uidStoreFlags (Nat.ofDigitChars 10 uidSet.toList 0) read.1 read.2)

/-- A session with the server of the world. Where it reports an error, the STORE may have been
carried out. -/
def storeSession : Surroundings StoreCall StoreReply World where
  answers
    | w, .uidStore uidSet query, r, w' =>
        (∃ sel s, w.selected = some sel ∧ w.server.uidStore sel uidSet query = some s ∧
          w' = { w with server := s }) ∨ (∃ e, storeResult r = .error e) ∧ w' = w
  drifts _ _ := False
  restarts _ _ := False

/-- The server reads the UID and the flags, and so it does what the command says. -/
theorem uidStore_storeQuery (s : Server) (sel : String) (uid : Nat) (op : FlagOp)
    {flags : List String} (h : ∀ flag ∈ flags, isFlag flag.toList = true) :
    s.uidStore sel (toString uid) (storeQuery op flags) =
      s.run sel (.uidStoreFlags uid op flags) := by
  have huid : Nat.ofDigitChars 10 (toString uid).toList 0 = uid := by
    rw [Nat.toString_eq_repr, Nat.toList_repr]
    exact Nat.ofDigitChars_toDigits (by decide) (by decide)
  rw [Server.uidStore, storeAttFlags?_storeQuery op h, Option.bind_some, huid]

/-- All errors are errors of the IMAP client. -/
theorem storeResult_error {r : Except String (List (Except String Unit))} {e : CoreError}
    (h : storeResult r = .error e) : e.IsImap := by
  cases r with
  | error message =>
    cases h
    exact ⟨message, rfl⟩
  | ok results =>
    rw [storeResult] at h
    induction results with
    | nil => cases h
    | cons result rest ih =>
      cases result with
      | error message =>
        cases h
        exact ⟨message, rfl⟩
      | ok u => exact ih h

/-- With flags, what the client does on the wire is what the command does in the world. -/
theorem answers_uidStoreFlags {w w' : World} {uid : Nat} {op : FlagOp} {flags : List String}
    {session : Bool} {result : Except CoreError Unit} {tr : Trace StoreCall StoreReply World}
    (h : ∀ flag ∈ flags, isFlag flag.toList = true)
    (hx : Steps storeSession ⟨uidStoreFlags session uid op flags, w, []⟩ ⟨.ret result, w', tr⟩) :
    w.Answers (.command (.uidStoreFlags uid op flags)) result w' := by
  cases session with
  | false =>
    obtain ⟨hprog, rfl⟩ := steps_ret (P := fun v _ => w = v) rfl (fun _ _ _ _ h => False.elim h) hx
    cases hprog
    exact ⟨⟨_, rfl⟩, .inl rfl⟩
  | true =>
    rw [uidStoreFlags_session] at hx
    obtain ⟨v, r, w₂, rfl, hans, hsteps⟩ :=
      steps_call_ret (I := fun v => w = v) rfl (fun _ _ h _ => False.elim h) hx
    obtain ⟨hprog, rfl⟩ :=
      steps_ret (P := fun v _ => w₂ = v) rfl (fun _ _ _ _ h => False.elim h) hsteps
    obtain rfl := Prog.ret.inj hprog
    cases hresult : storeResult r with
    | ok u =>
      rcases hans with ⟨sel, s, hsel, hrun, hw'⟩ | ⟨⟨e, he⟩, -⟩
      · exact ⟨sel, s, hsel, uidStore_storeQuery w.server sel uid op h ▸ hrun, hw'⟩
      · rw [hresult] at he
        cases he
    | error e =>
      refine ⟨storeResult_error hresult, ?_⟩
      -- an error says nothing about what the server has done
      rcases hans with ⟨sel, s, hsel, hrun, hw'⟩ | ⟨-, hw'⟩
      · exact .inr ⟨sel, s, hsel, uidStore_storeQuery w.server sel uid op h ▸ hrun, hw'⟩
      · exact .inl hw'

end ImapSieve
