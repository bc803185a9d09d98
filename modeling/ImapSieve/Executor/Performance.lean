import ImapSieve.Effects.Contract
import ImapSieve.Executor.Operations
import ImapSieve.World

/-!
# Performing Operations

Big steps of the executor. `Performs` runs a list of operations to its end, `Fails` is the
failure of one operation. In surroundings where nothing happens between the calls, every
configuration that a list of operations can reach is one that has performed a prefix of it
and is at the next operation, in the middle of it, or has failed there (`steps_runOps`).

So a statement about all cuts of an execution is one about all prefixes of its operations.
`mailsMeet_of_operations` is such a statement, about the mails of an execution.
-/

namespace ImapSieve

open Effects

/-! ## Section 1: Success and failure of operations -/

/-- The operation is performed. -/
inductive Op.Performed (S : Surroundings Call Reply World) :
    Op → World → History → World → History → Prop where
  | need {cmd : ImapCommand} {w w' : World} {tr : History}
      (h : S.answers w (.command cmd) (.ok ()) w') :
      Performed S (.need cmd) w tr w' (.called w (.command cmd) (.ok ()) :: tr)
  | attempt {cmd : ImapCommand} {r : Except CoreError Unit} {w w' : World} {tr : History}
      (h : S.answers w (.command cmd) r w') :
      Performed S (.attempt cmd) w tr w' (.called w (.command cmd) r :: tr)
  | send {mail : OutgoingMail} {w w' : World} {tr : History}
      (h : S.answers w (.send mail) (.ok ()) w') :
      Performed S (.send mail) w tr w' (.called w (.send mail) (.ok ()) :: tr)
  | notice {to' reason : String} {stamp : Stamp} {w w₁ w' : World} {tr : History}
      (h₁ : S.answers w .stamp stamp w₁)
      (h : S.answers w₁ (.send (noticeMail to' reason stamp)) (.ok ()) w') :
      Performed S (.notice to' reason) w tr w'
        (.called w₁ (.send (noticeMail to' reason stamp)) (.ok ()) :: .called w .stamp stamp :: tr)
  | deleting {uid : Nat} {w w' : World} {tr : History} (h : S.answers w (.deleting uid) () w') :
      Performed S (.deleting uid) w tr w' (.called w (.deleting uid) () :: tr)

/-- The operation fails and ends the execution. -/
inductive Op.Fails (S : Surroundings Call Reply World) :
    Op → CoreError → World → History → World → History → Prop where
  | need {cmd : ImapCommand} {e : CoreError} {w w' : World} {tr : History}
      (h : S.answers w (.command cmd) (.error e) w') :
      Fails S (.need cmd) e w tr w' (.called w (.command cmd) (.error e) :: tr)
  | send {mail : OutgoingMail} {e : CoreError} {w w' : World} {tr : History}
      (h : S.answers w (.send mail) (.error e) w') :
      Fails S (.send mail) e w tr w' (.called w (.send mail) (.error e) :: tr)
  | notice {to' reason : String} {stamp : Stamp} {e : CoreError} {w w₁ w' : World}
      {tr : History} (h₁ : S.answers w .stamp stamp w₁)
      (h : S.answers w₁ (.send (noticeMail to' reason stamp)) (.error e) w') :
      Fails S (.notice to' reason) e w tr w'
        (.called w₁ (.send (noticeMail to' reason stamp)) (.error e) :: .called w .stamp stamp ::
          tr)
  | refuse {e : CoreError} {w : World} {tr : History} : Fails S (.refuse e) e w tr w tr

/-- The operations are performed, in order. -/
inductive Performs (S : Surroundings Call Reply World) :
    List Op → World → History → World → History → Prop where
  | nil {w : World} {tr : History} : Performs S [] w tr w tr
  | cons {op : Op} {rest : List Op} {w w₁ w₂ : World} {tr tr₁ tr₂ : History}
      (h : op.Performed S w tr w₁ tr₁) (hrest : Performs S rest w₁ tr₁ w₂ tr₂) :
      Performs S (op :: rest) w tr w₂ tr₂

section Lists

variable {S : Surroundings Call Reply World} {ops rest : List Op} {w w₁ w₂ : World}
  {tr tr₁ tr₂ : History}

theorem Performs.append (h : Performs S ops w tr w₁ tr₁) (hrest : Performs S rest w₁ tr₁ w₂ tr₂) :
    Performs S (ops ++ rest) w tr w₂ tr₂ := by
  induction h with
  | nil => exact hrest
  | cons hop _ ih => exact .cons hop (ih hrest)

theorem Performs.of_append (h : Performs S (ops ++ rest) w tr w₂ tr₂) :
    ∃ w₁ tr₁, Performs S ops w tr w₁ tr₁ ∧ Performs S rest w₁ tr₁ w₂ tr₂ := by
  induction ops generalizing w tr with
  | nil => exact ⟨w, tr, .nil, h⟩
  | cons op ops ih =>
    cases h with
    | cons hop hops =>
      obtain ⟨w₁, tr₁, hops₁, hrest⟩ := ih hops
      exact ⟨w₁, tr₁, .cons hop hops₁, hrest⟩

theorem Performs.concat {op : Op} (h : Performs S ops w tr w₁ tr₁)
    (hop : op.Performed S w₁ tr₁ w₂ tr₂) : Performs S (ops ++ [op]) w tr w₂ tr₂ :=
  h.append (.cons hop .nil)

end Lists

/-! ## Section 2: Big steps and runs -/

section Runs

variable {S : Surroundings Call Reply World} {op : Op} {ops rest done : List Op}
  {w w' w₁ : World} {tr tr' tr₁ : History}

theorem Op.Performed.steps (h : op.Performed S w tr w' tr') (rest : List Op) :
    Steps S ⟨(runOps (op :: rest)).run, w, tr⟩ ⟨(runOps rest).run, w', tr'⟩ := by
  cases h with
  | need h => exact .single (.call h)
  | attempt h => exact .single (.call h)
  | send h => exact .single (.call h)
  | notice h₁ h => exact .head (.call h₁) (.single (.call h))
  | deleting h => exact .single (.call h)

theorem Performs.steps (h : Performs S done w tr w' tr') (rest : List Op) :
    Steps S ⟨(runOps (done ++ rest)).run, w, tr⟩ ⟨(runOps rest).run, w', tr'⟩ := by
  induction h with
  | nil => exact .refl
  | cons hop _ ih => exact (hop.steps _).trans ih

theorem Op.Fails.steps {e : CoreError} (h : op.Fails S e w tr w' tr') (rest : List Op) :
    Steps S ⟨(runOps (op :: rest)).run, w, tr⟩ ⟨.ret (.error e), w', tr'⟩ := by
  cases h with
  | need h => exact .single (.call h)
  | send h => exact .single (.call h)
  | notice h₁ h => exact .head (.call h₁) (.single (.call h))
  | refuse => exact .refl

/-- At an operation, in the middle of it, or failed there. -/
inductive Halfway (S : Surroundings Call Reply World) (rest : List Op) (w : World)
    (tr : History) : Config Call Reply World (Except CoreError Unit) → Prop where
  | before : Halfway S rest w tr ⟨(runOps rest).run, w, tr⟩
  | stamped {to' reason : String} {tail : List Op} {stamp : Stamp} {w' : World}
      (hrest : rest = .notice to' reason :: tail) (h : S.answers w .stamp stamp w') :
      Halfway S rest w tr
        ⟨(runOps (.send (noticeMail to' reason stamp) :: tail)).run, w',
          .called w .stamp stamp :: tr⟩
  | failed {op : Op} {tail : List Op} {e : CoreError} {w' : World} {tr' : History}
      (hrest : rest = op :: tail) (h : op.Fails S e w tr w' tr') :
      Halfway S rest w tr ⟨.ret (.error e), w', tr'⟩

/-- One step at an operation performs it, stamps its notice, or fails. -/
theorem step_before (hquiet : ∀ w w', ¬ S.drifts w w')
    {z : Config Call Reply World (Except CoreError Unit)}
    (h : Step S ⟨(runOps rest).run, w, tr⟩ z) :
    Halfway S rest w tr z ∨
      ∃ op tail w₁ tr₁, rest = op :: tail ∧ op.Performed S w tr w₁ tr₁ ∧
        z = ⟨(runOps tail).run, w₁, tr₁⟩ := by
  cases rest with
  | nil =>
    -- nothing is left to do, and others do not act
    cases h with
    | drift hd => exact absurd hd (hquiet _ _)
  | cons op tail =>
    cases op with
    | need cmd =>
      cases h with
      | @call _ _ _ _ _ r hans =>
        cases r with
        | ok u => exact .inr ⟨_, _, _, _, rfl, .need hans, rfl⟩
        | error e => exact .inl (.failed rfl (.need hans))
      | drift hd => exact absurd hd (hquiet _ _)
    | attempt cmd =>
      cases h with
      | call hans => exact .inr ⟨_, _, _, _, rfl, .attempt hans, rfl⟩
      | drift hd => exact absurd hd (hquiet _ _)
    | send mail =>
      cases h with
      | @call _ _ _ _ _ r hans =>
        cases r with
        | ok u => exact .inr ⟨_, _, _, _, rfl, .send hans, rfl⟩
        | error e => exact .inl (.failed rfl (.send hans))
      | drift hd => exact absurd hd (hquiet _ _)
    | notice to' reason =>
      -- the stamp alone does not perform the notice
      cases h with
      | call hans => exact .inl (.stamped rfl hans)
      | drift hd => exact absurd hd (hquiet _ _)
    | refuse e =>
      cases h with
      | drift hd => exact absurd hd (hquiet _ _)
    | deleting uid =>
      cases h with
      | call hans => exact .inr ⟨_, _, _, _, rfl, .deleting hans, rfl⟩
      | drift hd => exact absurd hd (hquiet _ _)

/-- Every configuration reached has performed a prefix of the operations. -/
theorem steps_runOps (hquiet : ∀ w w', ¬ S.drifts w w')
    {x : Config Call Reply World (Except CoreError Unit)}
    (h : Steps S ⟨(runOps ops).run, w, tr⟩ x) :
    ∃ done rest w₁ tr₁, ops = done ++ rest ∧ Performs S done w tr w₁ tr₁ ∧
      Halfway S rest w₁ tr₁ x := by
  induction h with
  | refl => exact ⟨[], ops, w, tr, rfl, .nil, .before⟩
  | tail _ hstep ih =>
    obtain ⟨done, rest, w₁, tr₁, rfl, hdone, hat⟩ := ih
    cases hat with
    | before =>
      -- between two operations
      rcases step_before hquiet hstep with hhalf | ⟨op, tail, w₂, tr₂, rfl, hop, rfl⟩
      · exact ⟨done, rest, w₁, tr₁, rfl, hdone, hhalf⟩
      · exact ⟨done ++ [op], tail, w₂, tr₂, by simp, hdone.concat hop, .before⟩
    | @stamped to' reason tail stamp w' hrest hstamp =>
      -- the notice is stamped: its send is next
      subst hrest
      cases hstep with
      | @call _ _ _ _ _ r hans =>
        cases r with
        | ok u =>
          exact ⟨done ++ [.notice to' reason], tail, _, _, by simp,
            hdone.concat (.notice hstamp hans), .before⟩
        | error e => exact ⟨done, _, w₁, tr₁, rfl, hdone, .failed rfl (.notice hstamp hans)⟩
      | drift hd => exact absurd hd (hquiet _ _)
    | failed hrest hfail =>
      -- after a failure no step follows
      cases hstep with
      | drift hd => exact absurd hd (hquiet _ _)

/-- Where the operations returned, they were all performed or one failed. -/
theorem steps_runOps_ret (hquiet : ∀ w w', ¬ S.drifts w w') {result : Except CoreError Unit}
    (h : Steps S ⟨(runOps ops).run, w, tr⟩ ⟨.ret result, w', tr'⟩) :
    (result = .ok () ∧ Performs S ops w tr w' tr') ∨
      ∃ e done op rest w₁ tr₁, result = .error e ∧ ops = done ++ op :: rest ∧
        Performs S done w tr w₁ tr₁ ∧ op.Fails S e w₁ tr₁ w' tr' := by
  obtain ⟨done, rest, w₁, tr₁, rfl, hdone, hat⟩ := steps_runOps hquiet h
  generalize hx : (⟨.ret result, w', tr'⟩ : Config Call Reply World _) = x at hat
  cases hat with
  | before =>
    -- no call is left: the list is empty, or its first operation is refused
    obtain ⟨hprog, rfl, rfl⟩ := Config.mk.inj hx
    cases hnext : nextCall rest with
    | some c => rw [run_runOps_some hnext] at hprog; cases hprog
    | none =>
      rw [run_runOps_none hnext] at hprog
      cases hprog
      cases rest with
      | nil => exact .inl ⟨rfl, by rwa [List.append_nil]⟩
      | cons op tail =>
        cases op with
        | refuse e => exact .inr ⟨e, done, _, tail, _, _, rfl, rfl, hdone, .refuse⟩
        | need cmd => cases hnext
        | attempt cmd => cases hnext
        | send mail => cases hnext
        | notice to' reason => cases hnext
        | deleting uid => cases hnext
  | stamped hrest hstamp => cases (Config.mk.inj hx).1
  | @failed op tail e _ _ hrest hfail =>
    obtain ⟨hprog, rfl, rfl⟩ := Config.mk.inj hx
    cases hprog
    exact .inr ⟨e, done, op, tail, w₁, tr₁, rfl, hrest ▸ rfl, hdone, hfail⟩

/-- Where the execution succeeded, its operations were performed. -/
theorem performs_of_execute (hquiet : ∀ w w', ¬ S.drifts w w') {x : ActionExecutor}
    {ctx : MessageContext} {actions : List SieveAction}
    (h : Steps S ⟨(x.execute ctx actions).run, w, tr⟩ ⟨.ret (.ok ()), w', tr'⟩) :
    Performs S (x.operations ctx actions) w tr w' tr' := by
  rw [execute_eq_runOps] at h
  rcases steps_runOps_ret hquiet h with ⟨-, hperforms⟩ | ⟨e, _, _, _, _, _, herror, -⟩
  · exact hperforms
  · cases herror

/-- `execute` has no loops. -/
theorem loopFree_execute (x : ActionExecutor) (ctx : MessageContext) (actions : List SieveAction) :
    LoopFree (x.execute ctx actions).run := by
  rw [execute_eq_runOps]
  generalize x.operations ctx actions = ops
  induction ops with
  | nil => exact .ret _
  | cons op rest ih =>
    rw [runOps_cons, ExceptT.run_bind]
    refine .bind ?_ fun r => ?_
    · cases op with
      | need cmd => exact .call fun _ => .ret _
      | attempt cmd => exact .call fun _ => .ret _
      | send mail => exact .call fun _ => .ret _
      | notice to' reason => exact .call fun _ => .call fun _ => .ret _
      | refuse e => exact .ret _
      | deleting uid => exact .call fun _ => .ret _
    · cases r with
      | error e => exact .ret _
      | ok u => exact ih

end Runs

/-! ## Section 3: The mails of an execution -/

/-- The stamp that was drawn by the last call. The mail after it is a rejection notice. -/
def lastStamp : History → Option Stamp
  | .called _ .stamp stamp :: _ => some stamp
  | _ => none

section Mails

variable {S : Surroundings Call Reply World} {K : Option Stamp → OutgoingMail → Prop} {op : Op}
  {ops : List Op} {w w' : World} {tr tr' : History}

/-- Every mail of the run meets the condition. -/
def MailsMeet (K : Option Stamp → OutgoingMail → Prop) (tr : History) : Prop :=
  Along (fun _ c _ before => ∀ mail, c = .send mail → K (lastStamp before) mail) tr

/-- The mail of the operation meets the condition, whatever is drawn for it. -/
def Op.MailMeets (S : Surroundings Call Reply World) (K : Option Stamp → OutgoingMail → Prop) :
    Op → Prop
  | .send mail => K none mail
  | .notice to' reason => ∀ w stamp w', S.answers w .stamp stamp w' →
      K (some stamp) (noticeMail to' reason stamp)
  | _ => True

theorem mailsMeet_nil : MailsMeet K [] := along_nil

theorem mailsMeet_other {c : Call} {r : Reply c} (h : MailsMeet K tr)
    (hc : ∀ mail, c ≠ .send mail) : MailsMeet K (.called w c r :: tr) :=
  along_called (fun mail hmail => absurd hmail (hc mail)) h

theorem mailsMeet_send {mail : OutgoingMail} {r : Except CoreError Unit} (h : MailsMeet K tr)
    (hmail : K (lastStamp tr) mail) : MailsMeet K (.called w (.send mail) r :: tr) := by
  refine along_called (fun mail' heq => ?_) h
  cases heq
  exact hmail

/-- An operation, performed. -/
theorem mailsMeet_performed (hop : op.MailMeets S K) (h : op.Performed S w tr w' tr')
    (htr : MailsMeet K tr ∧ lastStamp tr = none) :
    MailsMeet K tr' ∧ lastStamp tr' = none := by
  obtain ⟨hmeet, hlast⟩ := htr
  cases h with
  | need h => exact ⟨mailsMeet_other hmeet (fun _ hc => by cases hc), rfl⟩
  | attempt h => exact ⟨mailsMeet_other hmeet (fun _ hc => by cases hc), rfl⟩
  | deleting h => exact ⟨mailsMeet_other hmeet (fun _ hc => by cases hc), rfl⟩
  | send h => exact ⟨mailsMeet_send hmeet (hlast ▸ hop), rfl⟩
  | notice h₁ h =>
    exact ⟨mailsMeet_send (mailsMeet_other hmeet fun _ hc => by cases hc) (hop _ _ _ h₁), rfl⟩

/-- An operation, failed. -/
theorem mailsMeet_failed {e : CoreError} (hop : op.MailMeets S K) (h : op.Fails S e w tr w' tr')
    (htr : MailsMeet K tr ∧ lastStamp tr = none) : MailsMeet K tr' := by
  obtain ⟨hmeet, hlast⟩ := htr
  cases h with
  | need h => exact mailsMeet_other hmeet fun _ hc => by cases hc
  | send h => exact mailsMeet_send hmeet (hlast ▸ hop)
  | notice h₁ h =>
    exact mailsMeet_send (mailsMeet_other hmeet fun _ hc => by cases hc) (hop _ _ _ h₁)
  | refuse => exact hmeet

theorem mailsMeet_performs (hops : ∀ op ∈ ops, op.MailMeets S K)
    (h : Performs S ops w tr w' tr') (htr : MailsMeet K tr ∧ lastStamp tr = none) :
    MailsMeet K tr' ∧ lastStamp tr' = none := by
  induction h with
  | nil => exact htr
  | cons hop _ ih =>
    exact ih (fun op hmem => hops op (List.mem_cons_of_mem _ hmem))
      (mailsMeet_performed (hops _ List.mem_cons_self) hop htr)

/-- The mails of every run meet the condition, where those of the operations do that may be
reached. -/
theorem mailsMeet_of_operations (hquiet : ∀ w w', ¬ S.drifts w w')
    {y : Config Call Reply World (Except CoreError Unit)}
    (h : ∀ done op rest, ops = done ++ op :: rest →
      (∃ w₁ tr₁, Performs S done w [] w₁ tr₁) → op.MailMeets S K)
    (hrun : Steps S ⟨(runOps ops).run, w, []⟩ y) : MailsMeet K y.trace := by
  obtain ⟨done, rest, w₁, tr₁, rfl, hdone, hat⟩ := steps_runOps hquiet hrun
  have hmeets : ∀ op ∈ done, op.MailMeets S K := by
    intro op hmem
    obtain ⟨front, back, rfl⟩ := List.append_of_mem hmem
    obtain ⟨w₂, tr₂, hfront, -⟩ := hdone.of_append
    exact h front op (back ++ rest) (by simp) ⟨w₂, tr₂, hfront⟩
  obtain ⟨htr₁, hlast⟩ := mailsMeet_performs hmeets hdone ⟨mailsMeet_nil, rfl⟩
  cases hat with
  | before => exact htr₁
  | stamped hrest hans => exact mailsMeet_other htr₁ fun _ hc => by cases hc
  | failed hrest hfail =>
    exact mailsMeet_failed (h done _ _ (by rw [hrest]) ⟨w₁, tr₁, hdone⟩) hfail ⟨htr₁, hlast⟩

end Mails

end ImapSieve
