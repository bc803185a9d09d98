import ImapSieve.Executor.Delivery
import ImapSieve.Executor.Loss

/-!
# Which Messages Stay in the Mailbox

Whether the original is left in the monitored mailbox, after an evaluation and an execution
that succeed. The executor takes it away by a MOVE, or marks it with a `\Deleted` flag; both
can be read off the action list (`left_iff`), and the action list off the events. What
remains is to compare that with the implicit keep of RFC 5228.
-/

namespace ImapSieve

open Effects

/-! ## Section 1: Left by an execution -/

/-- A STORE with a `\Deleted` flag was issued for the UID. -/
def MarkedIn (uid : Nat) (tr : History) : Prop :=
  ∃ w fop flags r, fop ≠ FlagOp.remove ∧ flags.any isDeletedFlag = true ∧
    .called w (.command (.uidStoreFlags uid fop flags)) r ∈ tr

/-- The message was left: it is under its UID and was not marked for deletion. -/
def Left (sel : String) (uid : Nat) (c : Content) (s : Server) (tr : History) : Prop :=
  Present sel uid c s ∧ ¬ MarkedIn uid tr

/-- The operation marks the message for deletion. -/
def Op.Marks (op : Op) : Prop :=
  ∃ uid fop flags, op.command? = some (.uidStoreFlags uid fop flags) ∧ fop ≠ .remove ∧
    flags.any isDeletedFlag = true

/-- The action list takes the message away or marks it. -/
def TakesAway (actions : List SieveAction) : Prop :=
  (∃ mailbox create, .fileInto mailbox false create ∈ actions) ∨
    actions.any SieveAction.deletes = true ∨
    ∃ a ∈ actions, ∃ fop flags, a.flagChange = some (fop, flags) ∧ fop ≠ .remove ∧
      flags.any isDeletedFlag = true

/-- The commands in the trace of performed operations are those of the operations. -/
theorem Performs.commands {S : Surroundings Call Reply World} {ops : List Op} {w w' : World}
    {tr tr' : History} (h : Performs S ops w tr w' tr') {w₀ : World} {cmd : ImapCommand}
    {r : Except CoreError Unit} (hmem : .called w₀ (.command cmd) r ∈ tr') :
    .called w₀ (.command cmd) r ∈ tr ∨ ∃ op ∈ ops, op.command? = some cmd := by
  induction h with
  -- by induction on the operations: each adds its own command, if it has one
  | nil => exact .inl hmem
  | cons hop _ ih =>
    rcases ih hmem with hmem₁ | ⟨op, hop', hcmd⟩
    · cases hop with
      | need h =>
        rcases List.mem_cons.mp hmem₁ with heq | hold
        · cases heq
          exact .inr ⟨_, List.mem_cons_self, rfl⟩
        · exact .inl hold
      | attempt h =>
        rcases List.mem_cons.mp hmem₁ with heq | hold
        · cases heq
          exact .inr ⟨_, List.mem_cons_self, rfl⟩
        · exact .inl hold
      | send h => exact .inl ((List.mem_cons.mp hmem₁).resolve_left (by simp))
      | notice h₁ h =>
        exact .inl ((List.mem_cons.mp ((List.mem_cons.mp hmem₁).resolve_left
          (by simp))).resolve_left (by simp))
      | deleting h => exact .inl ((List.mem_cons.mp hmem₁).resolve_left (by simp))
    · exact .inr ⟨op, List.mem_cons_of_mem _ hop', hcmd⟩

/-- A performed STORE with `\Deleted` marks the message. -/
theorem Performs.marked {S : Surroundings Call Reply World} {ops : List Op} {w w' : World}
    {tr : History} (h : Performs S ops w [] w' tr) {uid : Nat} {fop : FlagOp}
    {flags : List String} (hop : .need (.uidStoreFlags uid fop flags) ∈ ops)
    (hfop : fop ≠ .remove) (hflags : flags.any isDeletedFlag = true) : MarkedIn uid tr := by
  obtain ⟨new, rfl, -, hdone⟩ := h.doneIn
  obtain ⟨w₀, hmem⟩ := hdone _ hop
  exact ⟨w₀, fop, flags, .ok (), hfop, hflags, List.mem_append_left _ hmem⟩

theorem any_deleted : (["\\Deleted"] : List String).any isDeletedFlag = true := by
  simp [isDeletedFlag_deleted]

/-- An action list that takes nothing away has no operation that does. -/
theorem stays_of_not_takesAway {x : ActionExecutor} {ctx : MessageContext}
    {actions : List SieveAction} (h : ¬ TakesAway actions) {op : Op}
    (hop : op ∈ x.operations ctx actions) : op.removes = false ∧ ¬ op.Marks := by
  -- no `FileInto` but with copy, no deletion, no `\Deleted` flag
  obtain ⟨hfile, hrest⟩ := not_or.mp h
  obtain ⟨hdeletes, hflags⟩ := not_or.mp hrest
  rw [ActionExecutor.operations, if_neg hdeletes, List.append_nil] at hop
  rcases mem_passes hop with ⟨a, ha, fop, flags, hchange, rfl⟩ |
      (⟨_, rfl⟩ | ⟨_, rfl⟩ | ⟨_, _, rfl⟩) | ⟨mailbox, copy, create, haction, hop⟩
  · refine ⟨rfl, ?_⟩
    rintro ⟨uid, fop', flags', hcmd, hfop, hany⟩
    cases hcmd
    exact hflags ⟨a, ha, fop, flags, hchange, hfop, hany⟩
  · exact ⟨rfl, by simp [Op.Marks, Op.command?]⟩
  · exact ⟨rfl, by simp [Op.Marks, Op.command?]⟩
  · exact ⟨rfl, by simp [Op.Marks, Op.command?]⟩
  · obtain rfl : copy = true := by
      refine (Bool.not_eq_false _).mp fun hcopy => hfile ⟨mailbox, create, hcopy ▸ haction⟩
    refine ⟨removes_fileOps hop (.inl rfl), ?_⟩
    rcases mem_fileOps.mp hop with ⟨-, rfl⟩ | ⟨-, rfl⟩ | ⟨hcopy, -⟩
    · exact by simp [Op.Marks, Op.command?]
    · exact by simp [Op.Marks, Op.command?]
    · cases hcopy

/-- The message is left exactly by the action lists that do not take it away. -/
theorem left_iff {S : Surroundings Call Reply World} (hS : Quiet S) {x : ActionExecutor}
    {ctx : MessageContext} {actions : List SieveAction} {c : Content} {w w' : World}
    {tr : History} (hsel : w.selected = some x.sourceMailbox)
    (hp : Present x.sourceMailbox ctx.uid c w.server)
    (h : Performs S (x.operations ctx actions) w [] w' tr) :
    Left x.sourceMailbox ctx.uid c w'.server tr ↔ ¬ TakesAway actions := by
  have habout : ∀ op ∈ x.operations ctx actions, op.About ctx.uid := fun op hop =>
    operations_about hop
  constructor
  · rintro ⟨hpresent, hunmarked⟩ htakes
    rcases htakes with ⟨mailbox, create, haction⟩ | hdeletes |
      ⟨a, ha, fop, flags, hchange, hfop, hany⟩
    · -- a FileInto without copy: by MOVE, or by COPY and STORE
      have hmem : ∀ op ∈ moveOps x.caps ctx.uid mailbox, op ∈ x.operations ctx actions := by
        intro op hop
        refine List.mem_append_left _ (List.mem_append_right _ ?_)
        exact List.mem_flatMap.mpr ⟨_, haction, mem_fileOps.mpr (.inr (.inr ⟨rfl, hop⟩))⟩
      cases hmove : x.caps.supportsMove with
      | true =>
        -- after the MOVE the message is gone, and it does not come back
        obtain ⟨before, after, hsplit⟩ := List.append_of_mem
          (hmem _ (mem_moveOps.mpr (.inl ⟨hmove, rfl⟩)))
        rw [hsplit] at h habout
        obtain ⟨w₁, tr₁, hbefore, hrest⟩ := h.of_append
        have hsel₁ := hbefore.selected hS hsel
        cases hrest with
        | cons hop hafter =>
          have haff := hop.affects hS hsel₁
          refine not_gone_of_present hpresent (hafter.gone hS haff.1
            (fun op hop => habout op (List.mem_append_right _ (List.mem_cons_of_mem _ hop))) ?_)
          cases hop with
          | need hans => exact Server.run_move_gone (answers_command_ok hsel₁ (hS.answers hans)).2
      | false =>
        -- the STORE of the fallback marks it
        exact hunmarked (h.marked (hmem _ (mem_moveOps.mpr (.inr ⟨hmove, .inr (.inl rfl)⟩)))
          (by simp) any_deleted)
    -- the final deletion marks the message
    · have hstore : Op.need (.uidStoreFlags ctx.uid .add ["\\Deleted"]) ∈
          x.operations ctx actions := by
        refine List.mem_append_right _ ?_
        rw [if_pos hdeletes]
        exact mem_deleteOps.mpr (.inr (.inl rfl))
      exact hunmarked (h.marked hstore (by simp) any_deleted)
    · refine hunmarked (h.marked ?_ hfop hany)
      refine List.mem_append_left _ (List.mem_append_left _ (List.mem_flatMap.mpr ⟨a, ha, ?_⟩))
      exact mem_flagOps.mpr ⟨fop, flags, hchange, rfl⟩
  · intro hstays
    refine ⟨h.present hS hsel habout (fun op hop => (stays_of_not_takesAway hstays hop).1) hp, ?_⟩
    rintro ⟨w₀, fop, flags, r, hfop, hany, hmem⟩
    rcases h.commands hmem with hold | ⟨op, hop, hcmd⟩
    · cases hold
    · exact (stays_of_not_takesAway hstays hop).2 ⟨_, _, _, hcmd, hfop, hany⟩

/-! ## Section 2: Left by an event sequence -/

/-- A disposition event was emitted. -/
def DisposesIn (events : List Event) : Prop :=
  (∃ folder, FileIntoIn events folder) ∨ DeletesIn events ∨ RedirectIn events

/-- The Keep and Discard events. -/
def Event.isFinal : Event → Bool
  | .keep _ _ | .discard => true
  | _ => false

/-- With a Keep event nothing is rejected and no event carries a `\Deleted` flag; without
one, a redirect comes with an event that does take the message away. -/
def RetentionAgrees (events : List Event) : Prop :=
  (KeepIn events → (∀ reason, .reject reason ∉ events) ∧
    ∀ flags, FlagsIn events flags → flags.any isDeletedFlag = false) ∧
  (¬ KeepIn events → RedirectIn events →
    (∃ folder, FileIntoIn events folder) ∨ DeletesIn events)

theorem takesAway_actionsOf {events : List Event} :
    TakesAway (actionsOf events) ↔
      (¬ KeepIn events ∧ ∃ folder, FileIntoIn events folder) ∨ DeletesIn events ∨
        ∃ flags, FlagsIn events flags ∧ flags.any isDeletedFlag = true := by
  -- without a Keep event no `FileInto` is a copy
  have hfile : (∃ mailbox create, .fileInto mailbox false create ∈ actionsOf events) ↔
      ¬ KeepIn events ∧ ∃ folder, FileIntoIn events folder := by
    simp only [fileInto_mem_actionsOf, Bool.false_eq_true, false_iff, FileIntoIn]
    constructor
    · rintro ⟨mailbox, create, hkeep, flags, id, hev⟩
      exact ⟨hkeep, mailbox, flags, create, id, hev⟩
    · rintro ⟨hkeep, mailbox, flags, create, id, hev⟩
      exact ⟨mailbox, create, hkeep, flags, id, hev⟩
  -- flags are only ever set
  have hflags : (∃ a ∈ actionsOf events, ∃ fop flags, a.flagChange = some (fop, flags) ∧
        fop ≠ .remove ∧ flags.any isDeletedFlag = true) ↔
      ∃ flags, FlagsIn events flags ∧ flags.any isDeletedFlag = true := by
    constructor
    · rintro ⟨a, ha, fop, flags, hchange, -, hany⟩
      obtain ⟨-, -, hin⟩ := flagChange_actionsOf.mp ⟨a, ha, hchange⟩
      exact ⟨flags, hin, hany⟩
    · rintro ⟨flags, hin, hany⟩
      have hne : flags ≠ [] := by
        rintro rfl
        cases hany
      obtain ⟨a, ha, hchange⟩ := flagChange_actionsOf.mpr ⟨rfl, hne, hin⟩
      exact ⟨a, ha, .set, flags, hchange, by simp, hany⟩
  rw [TakesAway, hfile, hflags, deletes_actionsOf]

/-- Without a Keep event, flags come with a FileInto event. -/
theorem fileIntoIn_of_flagsIn {events : List Event} {flags : List String}
    (h : FlagsIn events flags) (hkeep : ¬ KeepIn events) : ∃ folder, FileIntoIn events folder := by
  rcases h with ⟨id, hev⟩ | ⟨folder, create, id, hev⟩
  · exact absurd ⟨flags, id, hev⟩ hkeep
  · exact ⟨folder, flags, create, id, hev⟩

/-- A Keep event excludes a Discard event where there is at most one of them. -/
theorem no_discard_of_keep {events : List Event}
    (hfinal : (events.filter Event.isFinal).length ≤ 1) (hkeep : KeepIn events) :
    .discard ∉ events := by
  intro hdiscard
  obtain ⟨flags, id, hev⟩ := hkeep
  have hk : Event.keep flags id ∈ events.filter Event.isFinal := List.mem_filter.mpr ⟨hev, rfl⟩
  have hd : Event.discard ∈ events.filter Event.isFinal := List.mem_filter.mpr ⟨hdiscard, rfl⟩
  cases hlist : events.filter Event.isFinal with
  | nil =>
    rw [hlist] at hk
    cases hk
  | cons ev rest =>
    rw [hlist] at hk hd hfinal
    obtain rfl : rest = [] := List.length_eq_zero_iff.mp (by simpa using hfinal)
    rw [List.mem_singleton] at hk hd
    cases hk.trans hd.symm

/-- The original is left if and only if there is a Keep event or no disposition event,
exactly for the event sequences on which retention agrees. -/
theorem retention_iff (x : ActionExecutor) (script : CompiledScript) (m : StoredMessage)
    (actions : List SieveAction) (w w' : World) (tr : History)
    (hfinal : ((emitted script m.toContext).filter Event.isFinal).length ≤ 1)
    (heval : evaluate script m.toContext = .ok actions)
    (hsel : w.selected = some x.sourceMailbox)
    (hfind : w.server.find? x.sourceMailbox m.uid = some m)
    (hrun : Steps executorWorld ⟨(x.execute m.toContext actions).run, w, []⟩
      ⟨.ret (.ok ()), w', tr⟩) :
    (Left x.sourceMailbox m.uid m.content w'.server tr ↔
      KeepIn (emitted script m.toContext) ∨ ¬ DisposesIn (emitted script m.toContext)) ↔
    RetentionAgrees (emitted script m.toContext) := by
  have hS := quiet_executorWorld
  have hactions := evaluate_eq_ok heval
  generalize emitted script m.toContext = events at hfinal hactions ⊢
  have hperforms : Performs executorWorld (x.operations m.toContext actions) w [] w' tr :=
    performs_of_execute hS.quiet hrun
  have hleft : Left x.sourceMailbox m.uid m.content w'.server tr ↔ ¬ TakesAway actions :=
    left_iff hS hsel (show Present x.sourceMailbox m.toContext.uid m.content w.server from
      ⟨m, hfind, rfl⟩) hperforms
  rw [hleft, hactions, takesAway_actionsOf]
  by_cases hkeep : KeepIn events
  · -- nothing may be deleted
    have hdeletes : DeletesIn events ↔ ∃ reason, .reject reason ∈ events :=
      or_iff_right (no_discard_of_keep hfinal hkeep)
    simp only [RetentionAgrees, hkeep, hdeletes, not_true_eq_false, false_and, false_or, true_or,
      iff_true, forall_const, IsEmpty.forall_iff, and_true, not_or, not_exists, not_and,
      Bool.not_eq_true]
  · -- flags come with a FileInto event, which takes the message away
    have hflags : (∃ flags, FlagsIn events flags ∧ flags.any isDeletedFlag = true) →
        ∃ folder, FileIntoIn events folder := fun ⟨_, hin, _⟩ => fileIntoIn_of_flagsIn hin hkeep
    simp only [RetentionAgrees, DisposesIn, hkeep, not_false_eq_true, true_and, false_or,
      IsEmpty.forall_iff, forall_const]
    by_cases htakes : (∃ folder, FileIntoIn events folder) ∨ DeletesIn events
    · simp only [← or_assoc, htakes, true_or, not_true_eq_false, implies_true]
    · have hnoflags := mt (fun h => Or.inl (hflags h)) htakes
      simp only [← or_assoc, htakes, hnoflags, false_or, not_false_eq_true, true_iff, imp_false]

/-- A redirect with `:copy`. -/
theorem retention_iff_redirect_copy :
    let run := sampleRun {} [.redirect ["other@example.org"], .keep] 1
    (Left "INBOX" 1 sampleContent run.world.server run.trace ↔
      KeepIn [.sendMessage (.address "other@example.org") 0, .keep [] 0] ∨
        ¬ DisposesIn [.sendMessage (.address "other@example.org") 0, .keep [] 0]) ↔
    RetentionAgrees [.sendMessage (.address "other@example.org") 0, .keep [] 0] :=
  retention_iff ⟨true, {}, "INBOX"⟩
    (scriptOf [.sendMessage (.address "other@example.org") 0, .keep [] 0])
    ⟨1, 2, [], sampleContent⟩ [.redirect ["other@example.org"], .keep] sampleExecutorWorld _ _
    (by decide) rfl rfl (by decide) (steps_sampleRun (n := 1) rfl)

/-- A redirect without `:copy` leaves the original, although a disposition event was emitted
and no Keep event. -/
theorem not_all_retained :
    ¬ ∀ (x : ActionExecutor) (script : CompiledScript) (m : StoredMessage)
      (actions : List SieveAction) (w w' : World) (tr : History),
      ((emitted script m.toContext).filter Event.isFinal).length ≤ 1 →
      evaluate script m.toContext = .ok actions → w.selected = some x.sourceMailbox →
      w.server.find? x.sourceMailbox m.uid = some m →
      Steps executorWorld ⟨(x.execute m.toContext actions).run, w, []⟩
        ⟨.ret (.ok ()), w', tr⟩ →
      (Left x.sourceMailbox m.uid m.content w'.server tr ↔
        KeepIn (emitted script m.toContext) ∨ ¬ DisposesIn (emitted script m.toContext)) := by
  intro hall
  let run := sampleRun {} [.redirect ["other@example.org"]] 1
  have hiff := hall ⟨true, {}, "INBOX"⟩
    (scriptOf [.sendMessage (.address "other@example.org") 0]) ⟨1, 2, [], sampleContent⟩
    [.redirect ["other@example.org"]] sampleExecutorWorld run.world run.trace (by decide) rfl rfl
    (by decide) (steps_sampleRun rfl)
  rw [emitted_scriptOf _ rfl] at hiff
  have hleft : Left "INBOX" 1 sampleContent run.world.server run.trace := by
    refine ⟨⟨⟨1, 2, [], sampleContent⟩, by decide, rfl⟩, ?_⟩
    rintro ⟨w, fop, flags, r, -, -, hmem⟩
    cases List.mem_singleton.mp hmem
  rcases hiff.mp hleft with ⟨flags, id, hkeep⟩ | hnot
  · cases List.mem_singleton.mp hkeep
  · exact hnot (.inr (.inr ⟨"other@example.org", 0, List.mem_singleton.mpr rfl⟩))

end ImapSieve
