import ImapSieve.Executor.Message

/-!
# What a Failed Execution Leaves

A failed execution is repeated on the next batch, which needs the message to be still
there. `RetrySound` says so for one message and one action list, over all mailboxes and all
points of failure; `RetrySafe` is the condition on capabilities and list under which it
holds. The message is lost to the retry where a `FileInto` moves it away and something
after that can still fail.

A failing command has no effect here: what could be carried out in spite of its failure is
the subject of `no_silent_loss`.
-/

namespace ImapSieve

open Effects

/-! ## Section 1: The property and its condition -/

/-- What fails has had no effect. -/
def CleanFailure (w : World) : (c : Call) → Reply c → World → Prop
  | .command _, .error _, w' => w' = w
  | .send _, .error _, w' => w' = w
  | _, _, _ => True

/-- The executor's world where failures are clean. -/
def cleanWorld : Surroundings Call Reply World := executorWorld.under { call := CleanFailure }

/-- Wherever the execution fails, the message is still under its UID, and the plain FETCH of
the next batch finds it. -/
def RetrySound (x : ActionExecutor) (m : StoredMessage) (actions : List SieveAction) : Prop :=
  ∀ w w' tr e, w.selected = some x.sourceMailbox →
    w.server.find? x.sourceMailbox m.uid = some m →
    Steps cleanWorld ⟨(x.execute m.toContext actions).run, w, []⟩ ⟨.ret (.error e), w', tr⟩ →
    ∃ b m', w'.server.box x.sourceMailbox = some b ∧ m'.uid = m.uid ∧ m'.content = m.content ∧
      ∀ start ≤ m.uid, m' ∈ b.fetch start none

/-- The action does something in the disposition pass. -/
def SieveAction.acts : SieveAction → Bool
  | .fileInto _ _ _ | .redirect _ | .reject _ => true
  | _ => false

/-- The send of the action fails before it is tried. -/
def SieveAction.Undeliverable (x : ActionExecutor) (ctx : MessageContext) : SieveAction → Prop
  | .redirect _ => x.smtp = false ∨ ctx.raw = none
  | .reject _ => x.smtp = false ∨ ctx.envelopeFrom = none
  | _ => False

/-- No `FileInto` takes the message away while there is still something to do: the server
offers neither MOVE nor UIDPLUS, or each `FileInto` without copy comes after an action that
stops the execution, or is the last thing that happens. -/
def RetrySafe (x : ActionExecutor) (ctx : MessageContext) (actions : List SieveAction) : Prop :=
  (x.caps.supportsMove = false ∧ x.caps.uidplus = false) ∨
    ∀ pre mailbox create post, actions = pre ++ .fileInto mailbox false create :: post →
      (∃ a ∈ pre, a.Undeliverable x ctx) ∨
        (actions.any SieveAction.deletes = false ∧ ∀ a ∈ post, a.acts = false)

/-! ## Section 2: Retryable lists -/

/-- The failure of the operation ends the execution. -/
def Op.fallible : Op → Bool
  | .need _ | .send _ | .notice _ _ | .refuse _ => true
  | .attempt _ | .deleting _ => false

/-- Once an operation has taken the message away, nothing can fail. -/
def Retryable : List Op → Prop
  | [] => True
  | .refuse _ :: _ => True
  | op :: rest => (op.removes = true → ∀ o ∈ rest, o.fallible = false) ∧ Retryable rest

theorem retryable_cons {op : Op} {rest : List Op}
    (h : op.removes = true → ∀ o ∈ rest, o.fallible = false) (hrest : Retryable rest) :
    Retryable (op :: rest) := by
  cases op with
  | refuse e => trivial
  | need cmd => exact ⟨h, hrest⟩
  | attempt cmd => exact ⟨h, hrest⟩
  | send mail => exact ⟨h, hrest⟩
  | notice to' reason => exact ⟨h, hrest⟩
  | deleting uid => exact ⟨h, hrest⟩

/-- In front of a list, operations that take nothing away make no difference. -/
theorem retryable_append {ops rest : List Op} (h : ∀ op ∈ ops, op.removes = false)
    (hrest : Retryable rest) : Retryable (ops ++ rest) := by
  induction ops with
  | nil => exact hrest
  | cons op ops ih =>
    refine retryable_cons (fun hop => ?_) (ih fun op hop => h op (List.mem_cons_of_mem _ hop))
    rw [h op List.mem_cons_self] at hop
    cases hop

theorem retryable_of_not_removes {ops : List Op} (h : ∀ op ∈ ops, op.removes = false) :
    Retryable ops := by
  have happend : Retryable (ops ++ []) := retryable_append h trivial
  rwa [List.append_nil] at happend

/-- A performed prefix of a retryable list that is not at its end left the message alone. -/
theorem Performs.present_of_retryable {S : Surroundings Call Reply World} {sel : String}
    {uid : Nat} {c : Content} {done rest : List Op} {op : Op} {w w' : World} {tr tr' : History}
    (hS : Quiet S) (hsel : w.selected = some sel) (h : Performs S done w tr w' tr')
    (habout : ∀ op ∈ done, op.About uid) (hretry : Retryable (done ++ op :: rest))
    (hfallible : op.fallible = true) (hp : Present sel uid c w.server) :
    Present sel uid c w'.server := by
  induction h with
  | nil => exact hp
  | @cons o done w w₁ w₂ tr tr₁ tr₂ ho hdone ih =>
    have hsplit : (o.removes = true → ∀ o' ∈ done ++ op :: rest, o'.fallible = false) ∧
        Retryable (done ++ op :: rest) := by
      cases ho <;> exact hretry
    -- if it took the message away, the operation at the end could not fail
    have hstays : o.removes = false := by
      refine Bool.eq_false_iff.mpr fun hremoves => ?_
      have hnot := hsplit.1 hremoves op (List.mem_append_right _ List.mem_cons_self)
      rw [hfallible] at hnot
      cases hnot
    have haff := ho.affects hS hsel
    exact ih haff.1 (fun op hop => habout op (List.mem_cons_of_mem _ hop)) hsplit.2
      (haff.present (habout o List.mem_cons_self) hstays hp)

theorem Op.Fails.fallible {S : Surroundings Call Reply World} {op : Op} {e : CoreError}
    {w w' : World} {tr tr' : History} (h : op.Fails S e w tr w' tr') : op.fallible = true := by
  cases h <;> rfl

/-- Where failures are clean, a failed operation leaves the mailboxes as they were. -/
theorem Op.Fails.server_eq {op : Op} {e : CoreError} {w w' : World} {tr tr' : History}
    (h : op.Fails cleanWorld e w tr w' tr') : w'.server = w.server := by
  cases h with
  | need h => rw [h.2]
  | send h => rw [h.2]
  | notice h₁ h =>
    cases h₁.1
    rw [h.2]
  | refuse => rfl

/-! ## Section 3: Safe action lists are retryable -/

/-- The final deletion and the move of one message take the message away last. -/
theorem retryable_deleteOps (caps : Capabilities) (uid : Nat) : Retryable (deleteOps caps uid) := by
  cases hplus : caps.uidplus <;> simp [deleteOps, hplus, Retryable, Op.removes, Op.command?,
    ImapCommand.removes]

theorem retryable_moveOps (caps : Capabilities) (uid : Nat) (target : String) :
    Retryable (moveOps caps uid target) := by
  cases hmove : caps.supportsMove with
  | true => simp [moveOps, hmove, Retryable]
  | false =>
    cases hplus : caps.uidplus <;> simp [moveOps, hmove, hplus, Retryable, Op.removes, Op.command?,
      ImapCommand.removes]

theorem retryable_fileOps (caps : Capabilities) (uid : Nat) (mailbox : String)
    (copy create : Bool) : Retryable (fileOps caps uid mailbox copy create) := by
  cases copy with
  | true => exact retryable_of_not_removes fun op hop => removes_fileOps hop (.inl rfl)
  | false =>
    refine retryable_append (fun op hop => ?_) (retryable_moveOps caps uid mailbox)
    split at hop
    · rw [List.mem_singleton.mp hop]
      rfl
    · cases hop

theorem dispositionOps_eq_nil {x : ActionExecutor} {ctx : MessageContext} {action : SieveAction}
    (h : action.acts = false) : dispositionOps x ctx action = [] := by
  cases action <;> first | rfl | cases h

theorem flatMap_dispositionOps_eq_nil {x : ActionExecutor} {ctx : MessageContext}
    {actions : List SieveAction} (h : ∀ a ∈ actions, a.acts = false) :
    actions.flatMap (dispositionOps x ctx) = [] :=
  List.flatMap_eq_nil_iff.mpr fun a ha => dispositionOps_eq_nil (h a ha)

/-- An undeliverable action is refused. -/
theorem refuses_of_undeliverable {x : ActionExecutor} {ctx : MessageContext}
    {action : SieveAction} (h : action.Undeliverable x ctx) :
    ∃ e, dispositionOps x ctx action = [.refuse e] := by
  cases action with
  | redirect addresses =>
    rcases h with hsmtp | hraw
    · exact ⟨_, by rw [dispositionOps, redirectOp, hsmtp, if_neg (by simp)]⟩
    · cases hsmtp : x.smtp <;>
        exact ⟨_, by simp only [dispositionOps, redirectOp, hsmtp, hraw]; rfl⟩
  | reject reason =>
    rcases h with hsmtp | hfrom
    · exact ⟨_, by rw [dispositionOps, rejectOp, hsmtp, if_neg (by simp)]⟩
    · cases hsmtp : x.smtp <;>
        exact ⟨_, by simp only [dispositionOps, rejectOp, hsmtp, hfrom]; rfl⟩
  | _ => exact h.elim

/-- The dispositions followed by the final deletion are retryable. The induction goes along
the list up to the first `FileInto` without copy, where the condition applies. -/
theorem retryable_dispositions {x : ActionExecutor} {ctx : MessageContext} {tail : List Op}
    (htail : Retryable tail) {actions : List SieveAction}
    (h : ∀ pre mailbox create post, actions = pre ++ .fileInto mailbox false create :: post →
      (∃ a ∈ pre, a.Undeliverable x ctx) ∨ (tail = [] ∧ ∀ a ∈ post, a.acts = false)) :
    Retryable (actions.flatMap (dispositionOps x ctx) ++ tail) := by
  induction actions with
  | nil => exact htail
  | cons a rest ih =>
    rw [List.flatMap_cons, List.append_assoc]
    by_cases hun : a.Undeliverable x ctx
    · -- the execution stops here
      obtain ⟨e, he⟩ := refuses_of_undeliverable hun
      rw [he]
      trivial
    have hrest : Retryable (rest.flatMap (dispositionOps x ctx) ++ tail) := by
      refine ih fun pre mailbox create post hsplit => ?_
      refine (h (a :: pre) mailbox create post (by rw [hsplit]; rfl)).imp_left ?_
      rintro ⟨a', ha', hundeliverable⟩
      rcases List.mem_cons.mp ha' with rfl | ha'
      · exact absurd hundeliverable hun
      · exact ⟨a', ha', hundeliverable⟩
    by_cases htakes : ∃ mailbox create, a = .fileInto mailbox false create
    · -- the first `FileInto` without copy: nothing that acts comes after it
      obtain ⟨mailbox, create, rfl⟩ := htakes
      rcases h [] mailbox create rest rfl with ⟨a, ha, -⟩ | ⟨rfl, hpost⟩
      · cases ha
      · rw [flatMap_dispositionOps_eq_nil hpost, List.append_nil, List.append_nil]
        exact retryable_fileOps x.caps ctx.uid mailbox false create
    · refine retryable_append (fun op hop => ?_) hrest
      exact removes_dispositionOps hop fun mailbox create heq => absurd ⟨_, _, heq⟩ htakes

theorem retryable_operations {x : ActionExecutor} {ctx : MessageContext}
    {actions : List SieveAction} (h : RetrySafe x ctx actions) :
    Retryable (x.operations ctx actions) := by
  rcases h with ⟨hmove, hplus⟩ | h
  -- with neither MOVE nor UIDPLUS no operation takes the message away
  · refine retryable_of_not_removes fun op hop => ?_
    rcases List.mem_append.mp hop with hpass | hdelete
    · rcases mem_passes hpass with ⟨_, -, _, _, -, rfl⟩ | (⟨_, rfl⟩ | ⟨_, rfl⟩ | ⟨_, _, rfl⟩) |
          ⟨_, _, _, -, hfile⟩
      · rfl
      · rfl
      · rfl
      · rfl
      · exact removes_fileOps hfile (.inr ⟨hmove, hplus⟩)
    · split at hdelete
      · exact removes_deleteOps hdelete hplus
      · cases hdelete
  · rw [ActionExecutor.operations, ActionExecutor.passes, List.append_assoc]
    refine retryable_append (fun op hop => ?_) (retryable_dispositions ?_ ?_)
    -- the flags take nothing away
    · obtain ⟨action, -, hop⟩ := List.mem_flatMap.mp hop
      exact removes_flagOps hop
    · split
      · exact retryable_deleteOps x.caps ctx.uid
      · trivial
    · intro pre mailbox create post hsplit
      refine (h pre mailbox create post hsplit).imp_right fun hlast => ⟨?_, hlast.2⟩
      rw [hlast.1, if_neg (by simp)]

/-! ## Section 4: Unsafe action lists lose the message -/

/-- A server on which every mailbox exists, so that no command has to fail. -/
def Rich (s : Server) : Prop := ∀ name, (s.box name).isSome = true

theorem rich_setBox {s : Server} (h : Rich s) (name : String) (b : Mailbox) :
    Rich (s.setBox name b) := by
  intro name'
  rw [Server.box_setBox]
  split
  · rfl
  · exact h name'

theorem rich_modify {s : Server} (h : Rich s) (name : String) (f : Mailbox → Mailbox) :
    Rich (s.modify name f) := by
  unfold Server.modify
  split
  · exact rich_setBox h name _
  · exact h

theorem exists_copy {s : Server} (h : Rich s) (sel : String) (uid : Nat) (target : String) :
    ∃ s', s.copy sel uid target = some s' ∧ Rich s' := by
  obtain ⟨s', hs'⟩ := Option.isSome_iff_exists.mp
    ((s.copy_isSome_iff sel target uid).mpr (h target))
  refine ⟨s', hs', ?_⟩
  rcases Server.copy_cases hs' with ⟨-, rfl⟩ | ⟨dst, m, -, -, rfl⟩
  · exact h
  · exact rich_setBox h target _

/-- The operation can be performed on a rich server. -/
def Op.Willing : Op → Prop
  | .refuse _ | .need (.uidCreateMailbox _) => False
  | _ => True

theorem exists_run {s : Server} (h : Rich s) (sel : String) {cmd : ImapCommand}
    (hwilling : (Op.need cmd).Willing) : ∃ s', s.run sel cmd = some s' ∧ Rich s' := by
  cases cmd with
  | uidMove uid target =>
    obtain ⟨s', hs', hrich⟩ := exists_copy h sel uid target
    exact ⟨_, congrArg (Option.map _) hs', rich_modify hrich sel _⟩
  | uidCopy uid target => exact exists_copy h sel uid target
  | uidStoreFlags uid op flags => exact ⟨_, rfl, rich_modify h sel _⟩
  | uidExpunge uids => exact ⟨_, rfl, rich_modify h sel _⟩
  | uidCreateMailbox mailbox => exact hwilling.elim

theorem exists_performed {sel : String} {op : Op} {w : World} (tr : History)
    (hsel : w.selected = some sel) (hrich : Rich w.server) (hwilling : op.Willing) :
    ∃ w' tr', op.Performed cleanWorld w tr w' tr' ∧ w'.selected = some sel ∧ Rich w'.server := by
  cases op with
  | need cmd =>
    obtain ⟨s, hs, hs'⟩ := exists_run hrich sel hwilling
    exact ⟨{ w with server := s }, _, .need ⟨⟨sel, s, hsel, hs, rfl⟩, trivial⟩, hsel, hs'⟩
  | attempt cmd =>
    exact ⟨w, _, .attempt (r := .error (.imap "NO")) ⟨⟨⟨_, rfl⟩, .inl rfl⟩, rfl⟩, hsel, hrich⟩
  | send mail => exact ⟨{ w with sent := mail :: w.sent }, _, .send ⟨rfl, trivial⟩, hsel, hrich⟩
  | notice to' reason =>
    have hstamp : cleanWorld.answers w .stamp ⟨"", ""⟩ w := ⟨rfl, trivial⟩
    exact ⟨_, _, .notice hstamp ⟨rfl, trivial⟩, hsel, hrich⟩
  | refuse e => exact hwilling.elim
  | deleting uid => exact ⟨w, _, .deleting ⟨rfl, trivial⟩, hsel, hrich⟩

theorem exists_performs {sel : String} {ops : List Op} {w : World} (tr : History)
    (hsel : w.selected = some sel) (hrich : Rich w.server) (hwilling : ∀ op ∈ ops, op.Willing) :
    ∃ w' tr', Performs cleanWorld ops w tr w' tr' := by
  induction ops generalizing w tr with
  | nil => exact ⟨w, tr, .nil⟩
  | cons op rest ih =>
    obtain ⟨w₁, tr₁, hop, hsel₁, hrich₁⟩ :=
      exists_performed tr hsel hrich (hwilling op List.mem_cons_self)
    obtain ⟨w₂, tr₂, hrest⟩ :=
      ih tr₁ hsel₁ hrich₁ fun op hop => hwilling op (List.mem_cons_of_mem _ hop)
    exact ⟨w₂, tr₂, .cons hop hrest⟩

/-- What can fail may fail at once. -/
theorem exists_failure {ops : List Op} (h : ∃ op ∈ ops, op.fallible = true) (w : World)
    (tr : History) :
    ∃ done op rest e w₁ tr₁ w₂ tr₂, ops = done ++ op :: rest ∧
      Performs cleanWorld done w tr w₁ tr₁ ∧ op.Fails cleanWorld e w₁ tr₁ w₂ tr₂ := by
  induction ops generalizing tr with
  | nil =>
    obtain ⟨_, hop, -⟩ := h
    cases hop
  | cons op rest ih =>
    -- an operation that cannot fail is performed without effect
    have hgo : op.fallible = false → (∃ tr₁, op.Performed cleanWorld w tr w tr₁) →
        ∃ done op' rest' e w₁ tr₁ w₂ tr₂, op :: rest = done ++ op' :: rest' ∧
          Performs cleanWorld done w tr w₁ tr₁ ∧ op'.Fails cleanWorld e w₁ tr₁ w₂ tr₂ := by
      rintro hnot ⟨tr₁, hop⟩
      obtain ⟨o, ho, hfallible⟩ := h
      have hrest : o ∈ rest := by
        rcases List.mem_cons.mp ho with rfl | ho
        · rw [hnot] at hfallible
          cases hfallible
        · exact ho
      obtain ⟨done, op', rest', e, w₁, tr₂, w₂, tr₃, rfl, hdone, hfail⟩ :=
        ih ⟨o, hrest, hfallible⟩ tr₁
      exact ⟨op :: done, op', rest', e, w₁, tr₂, w₂, tr₃, rfl, .cons hop hdone, hfail⟩
    have himap : CoreError.IsImap (.imap "NO") := ⟨_, rfl⟩
    have hsmtp : CoreError.IsSmtp (.smtp "down") := ⟨_, rfl⟩
    cases op with
    | need cmd =>
      exact ⟨[], _, rest, .imap "NO", w, tr, w, _, rfl, .nil, .need ⟨⟨himap, .inl rfl⟩, rfl⟩⟩
    | send mail =>
      exact ⟨[], _, rest, .smtp "down", w, tr, w, _, rfl, .nil, .send ⟨⟨hsmtp, .inl rfl⟩, rfl⟩⟩
    | notice to' reason =>
      have hstamp : cleanWorld.answers w .stamp ⟨"", ""⟩ w := ⟨rfl, trivial⟩
      exact ⟨[], _, rest, .smtp "down", w, tr, w, _, rfl, .nil,
        .notice hstamp ⟨⟨hsmtp, .inl rfl⟩, rfl⟩⟩
    | refuse e => exact ⟨[], _, rest, e, w, tr, w, tr, rfl, .nil, .refuse⟩
    | attempt cmd =>
      exact hgo rfl ⟨_, .attempt (r := .error (.imap "NO")) ⟨⟨himap, .inl rfl⟩, rfl⟩⟩
    | deleting uid => exact hgo rfl ⟨_, .deleting ⟨rfl, trivial⟩⟩

/-- The operations of deliverable actions can be performed. -/
theorem willing_dispositionOps {x : ActionExecutor} {ctx : MessageContext}
    {action : SieveAction} (h : ¬ action.Undeliverable x ctx) :
    ∀ op ∈ dispositionOps x ctx action, op.Willing := by
  intro op hop
  cases action with
  | fileInto mailbox copy create =>
    rcases mem_fileOps.mp hop with ⟨-, rfl⟩ | ⟨-, rfl⟩ | ⟨-, hmove⟩
    · trivial
    · trivial
    · rcases mem_moveOps.mp hmove with ⟨-, rfl⟩ | ⟨-, rfl | rfl | ⟨-, rfl⟩⟩ <;> trivial
  | redirect addresses =>
    obtain ⟨hsmtp, hraw⟩ := not_or.mp h
    rw [List.mem_singleton.mp hop, redirectOp, if_pos ((Bool.not_eq_false _).mp hsmtp)]
    split
    · next hnone => exact absurd hnone hraw
    · trivial
  | reject reason =>
    obtain ⟨hsmtp, hfrom⟩ := not_or.mp h
    rw [List.mem_singleton.mp hop, rejectOp, if_pos ((Bool.not_eq_false _).mp hsmtp)]
    split
    · next hnone => exact absurd hnone hfrom
    · trivial
  | keep => cases hop
  | discard => cases hop
  | addFlag flags => cases hop
  | removeFlag flags => cases hop
  | setFlag flags => cases hop
  | execute name args => cases hop

/-- An action that acts leaves something that can fail. -/
theorem fallible_dispositionOps {x : ActionExecutor} {ctx : MessageContext}
    {action : SieveAction} (h : action.acts = true) :
    ∃ op ∈ dispositionOps x ctx action, op.fallible = true := by
  cases action with
  | fileInto mailbox copy create =>
    cases copy with
    | true => exact ⟨_, mem_fileOps.mpr (.inr (.inl ⟨rfl, rfl⟩)), rfl⟩
    | false =>
      cases hmove : x.caps.supportsMove with
      | true =>
        exact ⟨_, mem_fileOps.mpr (.inr (.inr ⟨rfl, mem_moveOps.mpr (.inl ⟨hmove, rfl⟩)⟩)), rfl⟩
      | false =>
        exact ⟨_, mem_fileOps.mpr
          (.inr (.inr ⟨rfl, mem_moveOps.mpr (.inr ⟨hmove, .inl rfl⟩)⟩)), rfl⟩
  | redirect addresses =>
    refine ⟨_, List.mem_singleton.mpr rfl, ?_⟩
    rcases redirectOp_cases x ctx addresses with ⟨e, he⟩ | ⟨mail, -, -, he⟩ <;> rw [he] <;> rfl
  | reject reason =>
    refine ⟨_, List.mem_singleton.mpr rfl, ?_⟩
    rcases rejectOp_cases x ctx reason with ⟨e, he⟩ | ⟨to', -, he⟩ <;> rw [he] <;> rfl
  | keep => cases h
  | discard => cases h
  | addFlag flags => cases h
  | removeFlag flags => cases h
  | setFlag flags => cases h
  | execute name args => cases h

/-- Where the message is deleted in the end, or a later action acts, something behind the action
can fail. -/
theorem fallible_behind {x : ActionExecutor} {ctx : MessageContext} {pre post : List SieveAction}
    {action : SieveAction} (h : (pre ++ action :: post).any SieveAction.deletes = false →
      ∃ a ∈ post, a.acts = true) :
    ∃ op ∈ x.behind ctx pre action post, op.fallible = true := by
  rw [ActionExecutor.behind]
  cases hdeletes : (pre ++ action :: post).any SieveAction.deletes with
  | true =>
    refine ⟨.need (.uidStoreFlags ctx.uid .add ["\\Deleted"]), List.mem_append_right _ ?_, rfl⟩
    exact mem_deleteOps.mpr (.inr (.inl rfl))
  | false =>
    obtain ⟨a, ha, hacts⟩ := h hdeletes
    obtain ⟨op, hop, hfallible⟩ : ∃ op ∈ dispositionOps x ctx a, op.fallible = true :=
      fallible_dispositionOps hacts
    exact ⟨op, List.mem_append_left _ (List.mem_flatMap.mpr ⟨a, ha, hop⟩), hfallible⟩

/-- The mailbox that holds one message. -/
def Mailbox.single (m : StoredMessage) : Mailbox where
  uidvalidity := 1
  uidnext := m.uid + 1
  highestmodseq := m.modseq
  messages := [m]
  ascending := List.pairwise_singleton ..
  uid_lt := by simp
  modseq_le := by simp

/-- A world in which every mailbox exists and holds the message. -/
def richWorld (x : ActionExecutor) (m : StoredMessage) : World :=
  { sampleWorld ⟨fun _ => some (.single m)⟩ .done with selected := some x.sourceMailbox }

/-- Where the condition fails there is a failing run after which the message is gone. -/
theorem exists_lost {x : ActionExecutor} {m : StoredMessage} {actions : List SieveAction}
    (h : ¬ RetrySafe x m.toContext actions) :
    ∃ w' tr e, Steps cleanWorld ⟨(x.execute m.toContext actions).run, richWorld x m, []⟩
      ⟨.ret (.error e), w', tr⟩ ∧ Gone x.sourceMailbox m.uid w'.server := by
  have hS : Quiet cleanWorld := quiet_under _
  obtain ⟨hcaps, hlist⟩ := not_or.mp h
  have hcaps : x.caps.supportsMove = true ∨ x.caps.uidplus = true :=
    (not_and_or.mp hcaps).imp (Bool.not_eq_false _).mp (Bool.not_eq_false _).mp
  push Not at hlist
  obtain ⟨pre, mailbox, create, post, rfl, hpre, hpost⟩ := hlist
  -- first everything up to the move, then up to something that can fail
  let moved := x.ahead m.toContext pre (.fileInto mailbox false create) post ++
    fileOps x.caps m.uid mailbox false create
  let after := x.behind m.toContext pre (.fileInto mailbox false create) post
  have hops : x.operations m.toContext (pre ++ .fileInto mailbox false create :: post) =
      moved ++ after := by
    rw [operations_split, List.append_assoc]
    rfl
  have habout : ∀ op ∈ moved ++ after, op.About m.uid := by
    rw [← hops]
    exact fun op hop => operations_about hop
  have hwilling : ∀ op ∈ moved, op.Willing := by
    intro op hop
    rcases List.mem_append.mp hop with hahead | hfile
    · rcases mem_ahead hahead with ⟨_, _, rfl⟩ | ⟨action, haction, hop⟩
      · trivial
      · exact willing_dispositionOps (hpre action haction) op hop
    · have hdeliverable : ¬ (SieveAction.fileInto mailbox false create).Undeliverable x
          m.toContext := id
      exact willing_dispositionOps hdeliverable op hfile
  have hfallible : ∃ op ∈ after, op.fallible = true :=
    fallible_behind fun hstays => by simpa using hpost hstays
  obtain ⟨w₁, tr₁, hmoved⟩ := exists_performs (w := richWorld x m) [] rfl (fun _ => rfl) hwilling
  obtain ⟨done, op, rest, e, w₂, tr₂, w₃, tr₃, hafter, hdone, hfail⟩ :=
    exists_failure hfallible w₁ tr₁
  have hgone : Gone x.sourceMailbox m.uid w₁.server := by
    obtain ⟨wa, tra, hahead, hfile⟩ := hmoved.of_append
    obtain ⟨wb, trb, hcreate, hmove⟩ := Performs.of_append hfile
    exact hmove.moveOps_gone hS (hcreate.selected hS (hahead.selected hS rfl)) hcaps
  have hsel₁ := hmoved.selected (w := richWorld x m) hS rfl
  refine ⟨w₃, tr₃, e, ?_, ?_⟩
  · rw [execute_eq_runOps, hops, hafter]
    exact (hmoved.steps _).trans ((hdone.steps _).trans (hfail.steps rest))
  · have hgone₂ := hdone.gone hS hsel₁
      (fun op hop => habout op (List.mem_append_right _ (hafter ▸ List.mem_append_left _ hop)))
      hgone
    rwa [Gone, hfail.server_eq]

/-! ## Section 5: Retry soundness -/

/-- A failed message can be retried exactly when its action list is safe. -/
theorem retrySound_iff_retrySafe (x : ActionExecutor) (m : StoredMessage)
    (actions : List SieveAction) :
    RetrySound x m actions ↔ RetrySafe x m.toContext actions := by
  have hS : Quiet cleanWorld := quiet_under _
  constructor
  · intro hsound
    by_contra hunsafe
    obtain ⟨w', tr, e, hsteps, hgone⟩ := exists_lost hunsafe
    have hfind : (richWorld x m).server.find? x.sourceMailbox m.uid = some m :=
      (Mailbox.find?_eq_some_iff (.single m)).mpr ⟨List.mem_singleton.mpr rfl, rfl⟩
    obtain ⟨b, m', hbox, huid, -, hfetch⟩ := hsound _ _ _ _ rfl hfind hsteps
    have hmem := List.mem_of_mem_filter (hfetch m.uid le_rfl)
    rw [Gone, Server.find?_of_box hbox, Mailbox.find?_eq_none_iff] at hgone
    exact hgone ⟨m', hmem, huid⟩
  · intro hsafe w w' tr e hsel hfind hsteps
    rw [execute_eq_runOps] at hsteps
    rcases steps_runOps_ret hS.quiet hsteps with ⟨hok, -⟩ |
        ⟨e', done, op, rest, w₁, tr₁, -, hops, hdone, hfail⟩
    · cases hok
    -- up to the failure nothing has taken the message away
    have hpresent : Present x.sourceMailbox m.uid m.content w'.server := by
      rw [hfail.server_eq]
      refine hdone.present_of_retryable hS hsel (fun op hop => ?_)
        (hops ▸ retryable_operations hsafe) hfail.fallible ⟨m, hfind, rfl⟩
      exact operations_about (hops ▸ List.mem_append_left _ hop)
    obtain ⟨m', hm', hcontent⟩ := hpresent
    obtain ⟨b, hbox, hb⟩ := Server.exists_box_of_find? hm'
    obtain ⟨hmem, huid⟩ := b.find?_eq_some_iff.mp hb
    refine ⟨b, m', hbox, huid, hcontent, fun start hstart => ?_⟩
    refine List.mem_filter.mpr ⟨hmem, ?_⟩
    simp [Mailbox.inRange, Mailbox.changedAfter, huid, hstart]

/-- The world after the message of the sample was moved to `Archive`. -/
def movedAway : World :=
  (sampleExecutorWorld.respond {} (.command (.uidMove 1 "Archive"))).2

/-- A message is filed with MOVE and can then not be redirected, because SMTP is not
configured: the retry does not find it. -/
theorem not_retrySound_move_then_redirect :
    ¬ RetrySound ⟨false, { supportsMove := true }, "INBOX"⟩ ⟨1, 2, [], sampleContent⟩
      [.fileInto "Archive" false false, .redirect ["other@example.org"]] := by
  intro hsound
  have hmove : cleanWorld.answers sampleExecutorWorld (.command (.uidMove 1 "Archive")) (.ok ())
      movedAway :=
    ⟨answers_respond {} sampleExecutorWorld (.command (.uidMove 1 "Archive")), trivial⟩
  obtain ⟨b, m', hbox, -, -, hfetch⟩ := hsound sampleExecutorWorld movedAway _ _ rfl (by decide)
    (.single (.call hmove))
  have hmem : m' ∈ b.messages := List.mem_of_mem_filter (hfetch 1 le_rfl)
  have hempty : (movedAway.server.box "INBOX").map Mailbox.messages = some [] := by decide
  rw [hbox] at hempty
  cases (Option.some.inj hempty) ▸ hmem

end ImapSieve
