import ImapSieve.Executor.Message

/-!
# From Events to Actions

`evaluate` collects actions event by event and then rewrites the list twice. Here the action
list it returns is described by the events that were emitted: which `FileInto` actions are in
it and with which copy flag, which flag changes, and whether anything deletes the message.
-/

namespace ImapSieve

/-! ## Section 1: The events of a run -/

/-- The events that the interpreter emits when it gets the answers of `evaluate`. -/
def Run.events : Run → List Event
  | .done => []
  | .failed _ => []
  | .event ev resume => ev :: (resume (handleEvent ev).2).events

/-- A run that emits the events, whatever it is answered. -/
def Run.ofEvents : List Event → Run
  | [] => .done
  | ev :: rest => .event ev fun _ => Run.ofEvents rest

theorem events_ofEvents (events : List Event) : (Run.ofEvents events).events = events := by
  induction events with
  | nil => rfl
  | cons ev rest ih => rw [Run.ofEvents, Run.events, ih]

/-- The script that emits the events on every message. -/
def scriptOf (events : List Event) : CompiledScript := ⟨⟨fun _ _ _ => .ofEvents events⟩⟩

/-- The actions that events push, in order. -/
def rawActions (events : List Event) : List SieveAction :=
  events.flatMap fun ev => (handleEvent ev).1

theorem collect_eq_ok {run : Run} {acc actions : List SieveAction}
    (h : collect run acc = .ok actions) : actions = acc ++ rawActions run.events := by
  induction run generalizing acc with
  | done =>
    cases h
    rw [Run.events, rawActions, List.flatMap_nil, List.append_nil]
  | failed message => cases h
  | event ev resume ih =>
    rw [ih _ h, Run.events, rawActions, rawActions, List.flatMap_cons, List.append_assoc]

/-- The events of evaluating a message. -/
def emitted (script : CompiledScript) (context : MessageContext) : List Event :=
  match context.raw with
  | none => []
  | some raw => (script.inner.run raw context.envelopeFrom context.envelopeTo).events

theorem emitted_scriptOf (events : List Event) {context : MessageContext} {raw : List UInt8}
    (h : context.raw = some raw) : emitted (scriptOf events) context = events := by
  rw [emitted, h]
  exact events_ofEvents events

/-- What `evaluate` returns, as a function of the events. -/
def actionsOf (events : List Event) : List SieveAction :=
  inferCopy (implicitKeep (rawActions events))

theorem evaluate_eq_ok {script : CompiledScript} {context : MessageContext}
    {actions : List SieveAction} (h : evaluate script context = .ok actions) :
    actions = actionsOf (emitted script context) := by
  unfold evaluate at h
  cases hraw : context.raw with
  | none =>
    rw [hraw] at h
    cases h
  | some raw =>
    simp only [hraw] at h
    cases hcollect :
        collect (script.inner.run raw context.envelopeFrom context.envelopeTo) [] with
    | error e =>
      rw [hcollect] at h
      cases h
    | ok collected =>
      rw [hcollect] at h
      cases h
      rw [collect_eq_ok hcollect, List.nil_append, actionsOf, emitted, hraw]

/-! ## Section 2: The events that matter -/

/-- A Keep event was emitted. -/
def KeepIn (events : List Event) : Prop := ∃ flags id, .keep flags id ∈ events

/-- A FileInto event for the folder was emitted. -/
def FileIntoIn (events : List Event) (folder : String) : Prop :=
  ∃ flags create id, .fileInto folder flags create id ∈ events

/-- A Discard or Reject event was emitted. -/
def DeletesIn (events : List Event) : Prop :=
  .discard ∈ events ∨ ∃ reason, .reject reason ∈ events

/-- A SendMessage event to an address was emitted. -/
def RedirectIn (events : List Event) : Prop :=
  ∃ addr id, .sendMessage (.address addr) id ∈ events

/-- The flags of a Keep or FileInto event. -/
def FlagsIn (events : List Event) (flags : List String) : Prop :=
  (∃ id, .keep flags id ∈ events) ∨ ∃ folder create id, .fileInto folder flags create id ∈ events

/-- The event pushes the action. -/
inductive Pushes : Event → SieveAction → Prop where
  | keep {flags : List String} {id : Nat} : Pushes (.keep flags id) .keep
  | keepFlags {flags : List String} {id : Nat} (h : flags ≠ []) :
      Pushes (.keep flags id) (.setFlag flags)
  | discard : Pushes .discard .discard
  | fileInto {folder : String} {flags : List String} {create : Bool} {id : Nat} :
      Pushes (.fileInto folder flags create id) (.fileInto folder false create)
  | fileFlags {folder : String} {flags : List String} {create : Bool} {id : Nat}
      (h : flags ≠ []) : Pushes (.fileInto folder flags create id) (.setFlag flags)
  | redirect {addr : String} {id : Nat} :
      Pushes (.sendMessage (.address addr) id) (.redirect [addr])
  | reject {reason : String} : Pushes (.reject reason) (.reject reason)
  | function {id : Nat} {arguments : List String} :
      Pushes (.function id arguments) (.execute (toString id) arguments)

theorem mem_handleEvent {ev : Event} {a : SieveAction} : a ∈ (handleEvent ev).1 ↔ Pushes ev a := by
  constructor
  · intro h
    cases ev with
    | keep flags id =>
      -- the flags come first, if there are any
      rcases List.mem_append.mp h with hset | hkeep
      · cases flags with
        | nil => cases hset
        | cons f fs => rw [List.mem_singleton.mp hset]; exact .keepFlags (by simp)
      · rw [List.mem_singleton.mp hkeep]
        exact .keep
    | fileInto folder flags create id =>
      rcases List.mem_append.mp h with hset | hfile
      · cases flags with
        | nil => cases hset
        | cons f fs => rw [List.mem_singleton.mp hset]; exact .fileFlags (by simp)
      · rw [List.mem_singleton.mp hfile]
        exact .fileInto
    | sendMessage recipient id =>
      cases recipient with
      | address addr => rw [List.mem_singleton.mp h]; exact .redirect
      | list name => cases h
      | group members => cases h
    | discard => rw [List.mem_singleton.mp h]; exact .discard
    | reject reason => rw [List.mem_singleton.mp h]; exact .reject
    | function id arguments => rw [List.mem_singleton.mp h]; exact .function
    | _ => cases h
  · intro h
    cases h with
    | keepFlags h => simp [handleEvent, h]
    | fileFlags h => simp [handleEvent, h]
    | _ => simp [handleEvent]

theorem mem_rawActions {events : List Event} {a : SieveAction} :
    a ∈ rawActions events ↔ ∃ ev ∈ events, Pushes ev a := by
  simp only [rawActions, List.mem_flatMap, mem_handleEvent]

theorem keep_mem_rawActions {events : List Event} : .keep ∈ rawActions events ↔ KeepIn events := by
  rw [mem_rawActions]
  constructor
  · rintro ⟨ev, hev, hpush⟩
    cases hpush
    exact ⟨_, _, hev⟩
  · rintro ⟨flags, id, hev⟩
    exact ⟨_, hev, .keep⟩

theorem fileInto_mem_rawActions {events : List Event} {folder : String} {copy create : Bool} :
    .fileInto folder copy create ∈ rawActions events ↔
      copy = false ∧ ∃ flags id, .fileInto folder flags create id ∈ events := by
  rw [mem_rawActions]
  constructor
  · rintro ⟨ev, hev, hpush⟩
    cases hpush
    exact ⟨rfl, _, _, hev⟩
  · rintro ⟨rfl, flags, id, hev⟩
    exact ⟨_, hev, .fileInto⟩

/-! ## Section 3: The rewritten list -/

theorem isKeep_eq_true {a : SieveAction} : a.isKeep = true ↔ a = .keep := by
  cases a <;> simp [SieveAction.isKeep]

theorem isFileInto_eq_true {a : SieveAction} :
    a.isFileInto = true ↔ ∃ folder copy create, a = .fileInto folder copy create := by
  cases a <;> simp [SieveAction.isFileInto]

theorem any_isKeep_rawActions {events : List Event} :
    (rawActions events).any SieveAction.isKeep = true ↔ KeepIn events := by
  rw [← keep_mem_rawActions, List.any_eq_true]
  exact ⟨fun ⟨a, ha, hk⟩ => isKeep_eq_true.mp hk ▸ ha, fun h => ⟨_, h, rfl⟩⟩

/-- Where a `FileInto` is in the list, the implicit keep does not apply. -/
theorem implicitKeep_eq_self {actions : List SieveAction}
    (h : actions.any SieveAction.isDisposition = true) : implicitKeep actions = actions := by
  rw [implicitKeep, if_pos h]

theorem mem_implicitKeep {actions : List SieveAction} {a : SieveAction} (ha : a ≠ .keep) :
    a ∈ implicitKeep actions ↔ a ∈ actions := by
  unfold implicitKeep
  split
  · rfl
  · simp [ha]

/-- The implicit keep and the copy inference leave all other actions alone. -/
theorem mem_actionsOf {events : List Event} {a : SieveAction} (hkeep : a.isKeep = false)
    (hfile : a.isFileInto = false) : a ∈ actionsOf events ↔ a ∈ rawActions events := by
  have hne : a ≠ .keep := by
    rintro rfl
    cases hkeep
  unfold actionsOf inferCopy
  split
  · rw [List.mem_filter, List.mem_map]
    constructor
    · rintro ⟨⟨b, hb, rfl⟩, -⟩
      cases b with
      | fileInto folder copy create => cases hfile
      | _ => exact (mem_implicitKeep hne).mp hb
    · intro ha
      refine ⟨⟨a, (mem_implicitKeep hne).mpr ha, ?_⟩, by simp [hkeep]⟩
      cases a with
      | fileInto folder copy create => cases hfile
      | _ => rfl
  · exact mem_implicitKeep hne

/-- Beside a FileInto event nothing is added, and a Keep sets the copy flags. -/
theorem actionsOf_of_fileInto {events : List Event} {folder : String} {flags : List String}
    {create : Bool} {id : Nat} (h : .fileInto folder flags create id ∈ events) :
    actionsOf events = if (rawActions events).any SieveAction.isKeep then
      ((rawActions events).map SieveAction.setCopy).filter fun a => !a.isKeep
      else rawActions events := by
  have hmem : .fileInto folder false create ∈ rawActions events :=
    fileInto_mem_rawActions.mpr ⟨rfl, flags, id, h⟩
  have hfile : (rawActions events).any SieveAction.isFileInto = true :=
    List.any_eq_true.mpr ⟨_, hmem, rfl⟩
  rw [actionsOf, implicitKeep_eq_self (List.any_eq_true.mpr ⟨_, hmem, rfl⟩), inferCopy, hfile,
    Bool.true_and]

/-- A FileInto of the list is one of an event. -/
theorem exists_fileInto_event {events : List Event} {folder : String} {copy create : Bool}
    (h : .fileInto folder copy create ∈ actionsOf events) :
    ∃ flags id, .fileInto folder flags create id ∈ events := by
  -- the copy inference changes no more than the copy flag
  have hfile : ∃ copy, .fileInto folder copy create ∈ implicitKeep (rawActions events) := by
    unfold actionsOf inferCopy at h
    split at h
    · obtain ⟨b, hb, hset⟩ := List.mem_map.mp (List.mem_of_mem_filter h)
      cases b <;> cases hset
      exact ⟨_, hb⟩
    · exact ⟨_, h⟩
  obtain ⟨copy', hb⟩ := hfile
  exact (fileInto_mem_rawActions.mp ((mem_implicitKeep (by simp)).mp hb)).2

/-- The `FileInto` actions are those of the events, with copy exactly beside a Keep event. -/
theorem fileInto_mem_actionsOf {events : List Event} {folder : String} {copy create : Bool} :
    .fileInto folder copy create ∈ actionsOf events ↔
      (copy = true ↔ KeepIn events) ∧ ∃ flags id, .fileInto folder flags create id ∈ events := by
  constructor
  · intro h
    obtain ⟨flags, id, hev⟩ := exists_fileInto_event h
    refine ⟨?_, flags, id, hev⟩
    rw [actionsOf_of_fileInto hev] at h
    split at h
    · next hk =>
      obtain ⟨b, -, hset⟩ := List.mem_map.mp (List.mem_of_mem_filter h)
      cases b <;> cases hset
      exact ⟨fun _ => any_isKeep_rawActions.mp hk, fun _ => rfl⟩
    · next hk =>
      obtain ⟨rfl, -⟩ := fileInto_mem_rawActions.mp h
      exact ⟨by simp, fun hkeep => absurd (any_isKeep_rawActions.mpr hkeep) hk⟩
  · rintro ⟨hcopy, flags, id, hev⟩
    have hmem : .fileInto folder false create ∈ rawActions events :=
      fileInto_mem_rawActions.mpr ⟨rfl, flags, id, hev⟩
    rw [actionsOf_of_fileInto hev]
    split
    · next hk =>
      obtain rfl := hcopy.mpr (any_isKeep_rawActions.mp hk)
      exact List.mem_filter.mpr ⟨List.mem_map.mpr ⟨_, hmem, rfl⟩, rfl⟩
    · next hk =>
      obtain rfl : copy = false :=
        Bool.eq_false_iff.mpr fun hc => hk (any_isKeep_rawActions.mpr (hcopy.mp hc))
      exact hmem

/-- The final deletion comes from a Discard or Reject event. -/
theorem deletes_actionsOf {events : List Event} :
    (actionsOf events).any SieveAction.deletes = true ↔ DeletesIn events := by
  rw [List.any_eq_true]
  constructor
  · rintro ⟨a, ha, hdeletes⟩
    cases a with
    | discard =>
      obtain ⟨ev, hev, hpush⟩ := mem_rawActions.mp ((mem_actionsOf rfl rfl).mp ha)
      cases hpush
      exact .inl hev
    | reject reason =>
      obtain ⟨ev, hev, hpush⟩ := mem_rawActions.mp ((mem_actionsOf rfl rfl).mp ha)
      cases hpush
      exact .inr ⟨reason, hev⟩
    | _ => cases hdeletes
  · rintro (hev | ⟨reason, hev⟩)
    · exact ⟨.discard, (mem_actionsOf rfl rfl).mpr (mem_rawActions.mpr ⟨_, hev, .discard⟩), rfl⟩
    · exact ⟨.reject reason, (mem_actionsOf rfl rfl).mpr (mem_rawActions.mpr ⟨_, hev, .reject⟩),
        rfl⟩

/-- Flags are only ever set, those of Keep and FileInto events. -/
theorem flagChange_actionsOf {events : List Event} {fop : FlagOp} {flags : List String} :
    (∃ a ∈ actionsOf events, a.flagChange = some (fop, flags)) ↔
      fop = .set ∧ flags ≠ [] ∧ FlagsIn events flags := by
  constructor
  · rintro ⟨a, ha, hchange⟩
    -- neither the implicit keep nor the copy inference pushes flags
    have hraw : a ∈ rawActions events := by
      cases a <;> cases hchange <;> exact (mem_actionsOf rfl rfl).mp ha
    obtain ⟨ev, hev, hpush⟩ := mem_rawActions.mp hraw
    cases hpush with
    | keepFlags h =>
      cases hchange
      exact ⟨rfl, h, .inl ⟨_, hev⟩⟩
    | fileFlags h =>
      cases hchange
      exact ⟨rfl, h, .inr ⟨_, _, _, hev⟩⟩
    | _ => cases hchange
  · rintro ⟨rfl, hne, hflags⟩
    refine ⟨.setFlag flags, (mem_actionsOf rfl rfl).mpr (mem_rawActions.mpr ?_), rfl⟩
    rcases hflags with ⟨id, hev⟩ | ⟨folder, create, id, hev⟩
    · exact ⟨_, hev, .keepFlags hne⟩
    · exact ⟨_, hev, .fileFlags hne⟩

end ImapSieve
