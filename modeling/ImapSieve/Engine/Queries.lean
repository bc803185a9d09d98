import ImapSieve.Engine.Events

/-!
# Query Events

Some events are tests: does a mailbox exist, is an address on a list, was an id seen before.
What the interpreter goes on with is the input that it gets for the event. `evaluate` gives
True to every one of them.

The reference answers the queries from what is known (`Facts`). The two agree where every query
that `evaluate` comes to is true. No other condition on the events that it comes to would do:
where one of them is an untrue query, there is a script with the same events on which they differ.
-/

namespace ImapSieve

/-! ## Section 1: The reference -/

/-- What is known when a message is evaluated: the mailboxes that exist, the members of the
lists, the ids already seen. -/
structure Facts where
  mailboxes : String → Bool
  members : String → String → Bool
  seen : String → Bool

/-- Whether the query is true. What is no query counts as true. -/
def Facts.holds (k : Facts) : Event → Bool
  | .mailboxExists mailboxes => mailboxes.all k.mailboxes
  | .listContains lists values => lists.any fun list => values.any (k.members list)
  | .duplicateId id => k.seen id
  | _ => true

/-- A query gets the input that is true of the facts, any other event that of `evaluate`. -/
def Facts.answer (k : Facts) (ev : Event) : Input :=
  if k.holds ev then (handleEvent ev).2 else .false

/-- The actions that a run pushes after those already there, its events answered by `answer`. -/
def Run.follow (answer : Event → Input) :
    Run → List SieveAction → Except SieveError (List SieveAction)
  | .done, actions => .ok actions
  | .failed message, _ => .error (.runtime message)
  | .event ev resume, actions =>
      (resume (answer ev)).follow answer (actions ++ (handleEvent ev).1)

/-- What a run leads to: the actions pushed, with the implicit keep and the copy inference. -/
def Run.outcome (answer : Event → Input) (run : Run) (actions : List SieveAction) :
    Except SieveError (List SieveAction) :=
  (run.follow answer actions).map fun actions => inferCopy (implicitKeep actions)

/-- `evaluate` with the queries answered from the facts. -/
def referenceEvaluate (k : Facts) (script : CompiledScript) (context : MessageContext) :
    Except SieveError (List SieveAction) :=
  match context.raw with
  | none => .error (.runtime "MessageContext.raw is required")
  | some raw =>
      (script.inner.run raw context.envelopeFrom context.envelopeTo).outcome k.answer []

/-! ## Section 2: The run of `evaluate` -/

/-- `evaluate` answers True. -/
theorem handleEvent_input (ev : Event) : (handleEvent ev).2 = .true := by
  cases ev with
  | sendMessage recipient id => cases recipient <;> rfl
  | _ => rfl

theorem collect_eq_follow (run : Run) (actions : List SieveAction) :
    collect run actions = run.follow (fun _ => .true) actions := by
  induction run generalizing actions with
  | done => rfl
  | failed message => rfl
  | event ev resume ih => rw [collect, Run.follow, handleEvent_input, ih]

theorem evaluate_eq_outcome {script : CompiledScript} {context : MessageContext}
    {raw : List UInt8} (h : context.raw = some raw) :
    evaluate script context =
      (script.inner.run raw context.envelopeFrom context.envelopeTo).outcome
        (fun _ => .true) [] := by
  rw [evaluate, h, Run.outcome, ← collect_eq_follow]
  rfl

theorem referenceEvaluate_eq_outcome {k : Facts} {script : CompiledScript}
    {context : MessageContext} {raw : List UInt8} (h : context.raw = some raw) :
    referenceEvaluate k script context =
      (script.inner.run raw context.envelopeFrom context.envelopeTo).outcome k.answer [] := by
  rw [referenceEvaluate, h]

/-! ## Section 3: Where the answers do not mislead -/

theorem Facts.answer_of_holds {k : Facts} {ev : Event} (h : k.holds ev = true) :
    k.answer ev = .true := by
  rw [Facts.answer, if_pos h, handleEvent_input]

theorem Facts.answer_of_not_holds {k : Facts} {ev : Event} (h : k.holds ev = false) :
    k.answer ev = .false := by
  rw [Facts.answer, h, if_neg Bool.false_ne_true]

theorem events_event (ev : Event) (resume : Input → Run) :
    (Run.event ev resume).events = ev :: (resume .true).events := by
  rw [Run.events, handleEvent_input]

/-- Where every query that is emitted is true, both runs get the same answers. -/
theorem follow_eq_of_holds {k : Facts} {run : Run} (h : ∀ ev ∈ run.events, k.holds ev = true)
    (actions : List SieveAction) :
    run.follow (fun _ => .true) actions = run.follow k.answer actions := by
  induction run generalizing actions with
  | done => rfl
  | failed message => rfl
  | event ev resume ih =>
    rw [events_event] at h
    rw [Run.follow, Run.follow, Facts.answer_of_holds (h ev List.mem_cons_self)]
    exact ih .true (fun ev' hev => h ev' (List.mem_cons_of_mem _ hev)) _

/-- The run that goes on with `other` where an untrue query is answered by False. -/
def Run.divert (k : Facts) (other : Run) : Run → Run
  | .done => .done
  | .failed message => .failed message
  | .event ev resume => .event ev fun
      | .true => Run.divert k other (resume .true)
      | .false => if k.holds ev then resume .false else other

theorem events_divert (k : Facts) (other run : Run) :
    (Run.divert k other run).events = run.events := by
  induction run with
  | done => rfl
  | failed message => rfl
  | event ev resume ih => rw [Run.divert, events_event, events_event, ih]

/-- `evaluate` does not come to the other run. -/
theorem follow_divert (k : Facts) (other run : Run) (actions : List SieveAction) :
    (Run.divert k other run).follow (fun _ => .true) actions =
      run.follow (fun _ => .true) actions := by
  induction run generalizing actions with
  | done => rfl
  | failed message => rfl
  | event ev resume ih => rw [Run.divert, Run.follow, Run.follow, ih]

/-- The reference does, at the first query that is not true. -/
theorem follow_divert_answer {k : Facts} (other : Run) {run : Run}
    (h : ∃ ev ∈ run.events, k.holds ev = false) (actions : List SieveAction) :
    ∃ pushed, (Run.divert k other run).follow k.answer actions = other.follow k.answer pushed := by
  induction run generalizing actions with
  | done => simp [Run.events] at h
  | failed message => simp [Run.events] at h
  | event ev resume ih =>
    rw [Run.divert, Run.follow]
    cases hholds : k.holds ev with
    | true =>
      rw [Facts.answer_of_holds hholds]
      refine ih .true ?_ _
      obtain ⟨ev', hmem, hfalse⟩ := h
      rw [events_event, List.mem_cons] at hmem
      rcases hmem with rfl | hmem
      · rw [hholds] at hfalse
        cases hfalse
      · exact ⟨ev', hmem, hfalse⟩
    | false =>
      rw [Facts.answer_of_not_holds hholds]
      exact ⟨_, rfl⟩

/-- A run that ends in another way than the result. -/
def Run.unlike : Except SieveError (List SieveAction) → Run
  | .ok _ => .failed ""
  | .error _ => .done

theorem follow_unlike (result : Except SieveError (List SieveAction))
    (answer : Event → Input) (actions : List SieveAction) :
    (Run.unlike result).outcome answer actions ≠ result := by
  cases result with
  | ok actions' => exact fun h => by cases h
  | error e => exact fun h => by cases h

/-- A run in which an untrue query misleads, whatever the run is otherwise like. -/
theorem outcome_divert_ne {k : Facts} {run : Run} (h : ∃ ev ∈ run.events, k.holds ev = false)
    {result : Except SieveError (List SieveAction)} :
    (Run.divert k (.unlike result) run).outcome k.answer [] ≠ result := by
  obtain ⟨pushed, heq⟩ := follow_divert_answer (.unlike result) h []
  rw [Run.outcome, heq]
  exact follow_unlike result k.answer pushed

/-- The script that ends in another way than the result once an untrue query is answered. -/
def CompiledScript.diverted (script : CompiledScript) (k : Facts)
    (result : Except SieveError (List SieveAction)) : CompiledScript :=
  ⟨⟨fun raw sender recipients =>
    Run.divert k (.unlike result) (script.inner.run raw sender recipients)⟩⟩

theorem evaluate_diverted {script : CompiledScript} {context : MessageContext} {raw : List UInt8}
    (h : context.raw = some raw) (k : Facts) (result : Except SieveError (List SieveAction)) :
    evaluate (script.diverted k result) context = evaluate script context := by
  rw [evaluate_eq_outcome h, evaluate_eq_outcome h, Run.outcome, Run.outcome,
    CompiledScript.diverted, follow_divert]

/-! ## Section 4: The actions of `evaluate` and of the reference -/

/-- Every query that `evaluate` comes to is true of the facts. -/
def TrueOnPath (k : Facts) (script : CompiledScript) (context : MessageContext) : Prop :=
  ∀ ev ∈ emitted script context, k.holds ev = true

/-- `evaluate` returns what the reference returns where every query that it comes to is true.
Where one is not, it may not, and the events that it comes to do not tell. -/
theorem queries_answered_truthfully (k : Facts) (script : CompiledScript)
    (context : MessageContext) :
    (TrueOnPath k script context →
      evaluate script context = referenceEvaluate k script context) ∧
    (¬ TrueOnPath k script context → ∃ script' : CompiledScript,
      emitted script' context = emitted script context ∧
        evaluate script' context = evaluate script context ∧
        evaluate script' context ≠ referenceEvaluate k script' context) := by
  cases hraw : context.raw with
  | none =>
    refine ⟨fun _ => by rw [evaluate, referenceEvaluate, hraw], fun h => absurd ?_ h⟩
    intro ev hev
    rw [emitted, hraw] at hev
    cases hev
  | some raw =>
    rw [TrueOnPath, emitted, hraw]
    refine ⟨fun h => ?_, fun h => ?_⟩
    · rw [evaluate_eq_outcome hraw, referenceEvaluate_eq_outcome hraw, Run.outcome, Run.outcome,
        follow_eq_of_holds h]
    · simp only [not_forall, Bool.not_eq_true] at h
      obtain ⟨ev, hev, hfalse⟩ := h
      refine ⟨script.diverted k (evaluate script context), ?_, ?_, ?_⟩
      · rw [emitted, hraw]
        exact events_divert _ _ _
      · exact evaluate_diverted hraw k _
      · rw [evaluate_diverted hraw, referenceEvaluate_eq_outcome hraw]
        exact (outcome_divert_ne ⟨ev, hev, hfalse⟩).symm

/-- A script that discards what was seen before. -/
def discardDuplicates : CompiledScript :=
  ⟨⟨fun _ _ _ => .event (.duplicateId "id") fun
    | .true => .event .discard fun _ => .done
    | .false => .done⟩⟩

/-- It discards a message that was seen before. -/
theorem queries_answered_truthfully_seen :
    evaluate discardDuplicates (⟨1, 2, [], sampleContent⟩ : StoredMessage).toContext =
      referenceEvaluate ⟨fun _ => false, fun _ _ => false, fun _ => true⟩ discardDuplicates
        (⟨1, 2, [], sampleContent⟩ : StoredMessage).toContext :=
  (queries_answered_truthfully ⟨fun _ => false, fun _ _ => false, fun _ => true⟩
    discardDuplicates (⟨1, 2, [], sampleContent⟩ : StoredMessage).toContext).1 (by
      change ∀ ev ∈ [Event.duplicateId "id", .discard], _
      simp [Facts.holds])

/-- It discards a message that is seen for the first time. -/
theorem not_queries_answered_truthfully :
    ¬ ∀ (k : Facts) (script : CompiledScript) (context : MessageContext),
      evaluate script context = referenceEvaluate k script context := by
  intro hall
  have h := hall ⟨fun _ => false, fun _ _ => false, fun _ => false⟩ discardDuplicates
    (⟨1, 2, [], sampleContent⟩ : StoredMessage).toContext
  have hdiscard : (.ok [.discard] : Except SieveError (List SieveAction)) = .ok [.keep] := h
  cases hdiscard

end ImapSieve
