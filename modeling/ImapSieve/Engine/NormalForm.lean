import ImapSieve.Engine.Events

/-!
# The Normal Form of the Action List

What `evaluate` makes of a sequence of events. `listed` is the list of what the events stand
for, one after the other, each with its flags before it and with the copy flag that the
sequence calls for. The list returned is `listed`, with one Keep appended where nothing disposes
of the message, and with the Keeps dropped beside a FileInto.
-/

namespace ImapSieve

/-! ## Section 1: What the events stand for -/

def Event.isKeep : Event → Bool
  | .keep _ _ => true
  | _ => false

/-- An action behind the flags of its event. -/
def flagged (flags : List String) (action : SieveAction) : List SieveAction :=
  if flags = [] then [action] else [.setFlag flags, action]

/-- What an event stands for, when FileInto has the given copy flag. -/
def produced (copy : Bool) : Event → List SieveAction
  | .keep flags _ => flagged flags .keep
  | .discard => [.discard]
  | .fileInto folder flags create _ => flagged flags (.fileInto folder copy create)
  | .sendMessage (.address addr) _ => [.redirect [addr]]
  | .reject reason => [.reject reason]
  | .function id arguments => [.execute (toString id) arguments]
  | _ => []

/-- What the events stand for: FileInto copies beside a Keep. -/
def listed (events : List Event) : List SieveAction :=
  events.flatMap (produced (events.any Event.isKeep))

/-- The list has the normal form of the events. -/
structure NormalForm (events : List Event) (actions : List SieveAction) : Prop where
  /-- There is no Keep beside a FileInto. -/
  exclusive : .keep ∈ actions → ∀ folder copy create, .fileInto folder copy create ∉ actions
  /-- All FileIntos copy if there was a Keep event, and none does if there was not. -/
  copies : ∀ folder copy create, .fileInto folder copy create ∈ actions →
    (copy = true ↔ KeepIn events)
  disposes : ∃ a ∈ actions, a.isDisposition = true
  /-- Where no event disposes of the message, it is kept. -/
  implicit : (∀ a ∈ listed events, a.isDisposition = false) → actions = listed events ++ [.keep]
  /-- Keeps aside, the list is what the events stand for, in order. -/
  each : (actions.filter fun a => !a.isKeep) = (listed events).filter fun a => !a.isKeep
  /-- Without a FileInto the Keeps are in their places, too. -/
  places : (∀ folder copy create, .fileInto folder copy create ∉ listed events) →
    (∃ a ∈ listed events, a.isDisposition = true) → actions = listed events

/-! ## Section 2: What `evaluate` pushes is what the events stand for -/

theorem produced_false (ev : Event) : produced false ev = (handleEvent ev).1 := by
  cases ev with
  | keep flags id => cases flags <;> rfl
  | fileInto folder flags create id => cases flags <;> rfl
  | sendMessage recipient id => cases recipient <;> rfl
  | _ => rfl

theorem produced_true (ev : Event) :
    produced true ev = (handleEvent ev).1.map SieveAction.setCopy := by
  cases ev with
  | keep flags id => cases flags <;> rfl
  | fileInto folder flags create id => cases flags <;> rfl
  | sendMessage recipient id => cases recipient <;> rfl
  | _ => rfl

theorem any_isKeep_iff {events : List Event} : events.any Event.isKeep = true ↔ KeepIn events := by
  rw [List.any_eq_true]
  constructor
  · rintro ⟨ev, hev, hkeep⟩
    cases ev <;> cases hkeep
    exact ⟨_, _, hev⟩
  · rintro ⟨flags, id, hev⟩
    exact ⟨_, hev, rfl⟩

/-- Setting the copy flag changes no other action. -/
theorem setCopy_eq_self {a : SieveAction} (h : a.isFileInto = false) : a.setCopy = a := by
  cases a <;> first | rfl | cases h

@[simp] theorem isKeep_setCopy (a : SieveAction) : a.setCopy.isKeep = a.isKeep := by
  cases a <;> rfl

@[simp] theorem isFileInto_setCopy (a : SieveAction) : a.setCopy.isFileInto = a.isFileInto := by
  cases a <;> rfl

@[simp] theorem isDisposition_setCopy (a : SieveAction) :
    a.setCopy.isDisposition = a.isDisposition := by
  cases a <;> rfl

/-- With a Keep event the copy flags are set, without one they are not. -/
theorem listed_eq (events : List Event) :
    listed events = if events.any Event.isKeep then (rawActions events).map SieveAction.setCopy
      else rawActions events := by
  rw [listed, rawActions]
  cases events.any Event.isKeep with
  | true =>
    rw [if_pos rfl, List.map_flatMap]
    exact congrArg (List.flatMap · events) (funext produced_true)
  | false =>
    rw [if_neg Bool.false_ne_true]
    exact congrArg (List.flatMap · events) (funext produced_false)

/-- A question about the actions to which the copy flag does not matter. -/
theorem any_listed {test : SieveAction → Bool} (h : ∀ a, test a.setCopy = test a)
    (events : List Event) : (listed events).any test = (rawActions events).any test := by
  rw [listed_eq]
  split
  · rw [List.any_map]
    exact congrArg (List.any _ ·) (funext h)
  · rfl

theorem any_isKeep_listed (events : List Event) :
    (listed events).any SieveAction.isKeep = events.any Event.isKeep := by
  rw [any_listed isKeep_setCopy, Bool.eq_iff_iff, any_isKeep_rawActions, any_isKeep_iff]

/-! ## Section 3: The two rewritings -/

theorem isDisposition_of_isFileInto {a : SieveAction} (h : a.isFileInto = true) :
    a.isDisposition = true := by
  cases a <;> first | rfl | cases h

theorem isDisposition_of_isKeep {a : SieveAction} (h : a.isKeep = true) :
    a.isDisposition = true := by
  cases a <;> first | rfl | cases h

/-- With a Keep event the list is the one with copy flags. -/
theorem listed_of_isKeep {events : List Event}
    (h : (listed events).any SieveAction.isKeep = true) :
    listed events = (rawActions events).map SieveAction.setCopy := by
  rw [listed_eq, ← any_isKeep_listed, h, if_pos rfl]

theorem listed_of_not_isKeep {events : List Event}
    (h : (listed events).any SieveAction.isKeep = false) : listed events = rawActions events := by
  rw [listed_eq, ← any_isKeep_listed, h, if_neg Bool.false_ne_true]

/-- Where there is no FileInto, there is no copy flag to set. -/
theorem map_setCopy_eq_self {actions : List SieveAction}
    (h : actions.any SieveAction.isFileInto = false) :
    actions.map SieveAction.setCopy = actions := by
  rw [List.any_eq_false] at h
  refine (List.map_congr_left fun a ha => ?_).trans (List.map_id _)
  exact setCopy_eq_self (Bool.eq_false_iff.mpr (h a ha))

/-- Where nothing disposes of the message, a Keep is appended. -/
theorem actionsOf_of_not_isDisposition {events : List Event}
    (h : (listed events).any SieveAction.isDisposition = false) :
    actionsOf events = listed events ++ [.keep] := by
  have hno : ∀ test : SieveAction → Bool, (∀ a, test a = true → a.isDisposition = true) →
      (listed events).any test = false := by
    intro test htest
    rw [List.any_eq_false] at h ⊢
    exact fun a ha hta => h a ha (htest a hta)
  have hraw := listed_of_not_isKeep (hno _ fun _ => isDisposition_of_isKeep)
  have hfile := hno _ fun _ => isDisposition_of_isFileInto
  rw [hraw] at h hfile ⊢
  rw [actionsOf, implicitKeep, h, if_neg Bool.false_ne_true, inferCopy, List.any_append, hfile]
  rfl

/-- The list returned: nothing disposed of the message and a Keep is appended, or the Keeps are
dropped beside a FileInto, or it is what the events stand for. -/
theorem actionsOf_cases (events : List Event) :
    ((listed events).any SieveAction.isDisposition = false ∧
        actionsOf events = listed events ++ [.keep]) ∨
      ((listed events).any SieveAction.isFileInto = true ∧
        (listed events).any SieveAction.isKeep = true ∧
        actionsOf events = (listed events).filter fun a => !a.isKeep) ∨
      ((listed events).any SieveAction.isDisposition = true ∧
        ((listed events).any SieveAction.isFileInto &&
          (listed events).any SieveAction.isKeep) = false ∧
        actionsOf events = listed events) := by
  cases hany : (listed events).any SieveAction.isDisposition with
  | false => exact .inl ⟨rfl, actionsOf_of_not_isDisposition hany⟩
  | true =>
    have hfile := any_listed isFileInto_setCopy events
    rw [any_listed isDisposition_setCopy] at hany
    rw [actionsOf, implicitKeep_eq_self hany, inferCopy, ← hfile,
      ← any_listed isKeep_setCopy events]
    cases hk : (listed events).any SieveAction.isKeep with
    | true =>
      cases hf : (listed events).any SieveAction.isFileInto with
      | true =>
        rw [← listed_of_isKeep hk]
        exact .inr (.inl ⟨rfl, rfl, rfl⟩)
      | false =>
        refine .inr (.inr ⟨rfl, rfl, ?_⟩)
        rw [Bool.false_and, if_neg Bool.false_ne_true, listed_of_isKeep hk,
          map_setCopy_eq_self (hfile.symm.trans hf)]
    | false =>
      refine .inr (.inr ⟨rfl, Bool.and_false _, ?_⟩)
      rw [Bool.and_false, if_neg Bool.false_ne_true, listed_of_not_isKeep hk]

theorem keep_mem_listed {events : List Event} :
    .keep ∈ listed events ↔ (listed events).any SieveAction.isKeep = true := by
  rw [List.any_eq_true]
  exact ⟨fun h => ⟨_, h, rfl⟩, fun ⟨a, ha, hk⟩ => isKeep_eq_true.mp hk ▸ ha⟩

/-- Whatever events a script emits, the list that `evaluate` returns has their normal form. -/
theorem evaluate_normalForm (script : CompiledScript) (context : MessageContext)
    (actions : List SieveAction) (heval : evaluate script context = .ok actions) :
    NormalForm (emitted script context) actions := by
  obtain rfl := evaluate_eq_ok heval
  generalize emitted script context = events
  have hcopies : ∀ folder copy create, .fileInto folder copy create ∈ actionsOf events →
      (copy = true ↔ KeepIn events) := fun _ _ _ h => (fileInto_mem_actionsOf.mp h).1
  rcases actionsOf_cases events with ⟨hnone, heq⟩ | ⟨hfile, -, heq⟩ | ⟨hdisp, hnot, heq⟩
  · -- nothing disposes of the message, and the Keep is the only disposition
    rw [List.any_eq_false] at hnone
    have hno : ∀ a ∈ listed events, ¬ a.isDisposition = true := hnone
    refine ⟨fun _ folder copy create hmem => ?_, hcopies, ⟨.keep, by simp [heq], rfl⟩,
      fun _ => heq, ?_, fun _ ⟨a, ha, hdisp⟩ => absurd hdisp (hno a ha)⟩
    · rw [heq] at hmem
      rcases List.mem_append.mp hmem with hmem | hmem
      · exact hno _ hmem rfl
      · cases List.mem_singleton.mp hmem
    · rw [heq, List.filter_append]
      exact List.append_nil _
  · -- beside a FileInto the Keeps are dropped
    obtain ⟨a, ha, hfa⟩ := List.any_eq_true.mp hfile
    obtain ⟨folder, copy, create, rfl⟩ := isFileInto_eq_true.mp hfa
    have hmem : .fileInto folder copy create ∈ actionsOf events := by
      rw [heq]
      exact List.mem_filter.mpr ⟨ha, rfl⟩
    refine ⟨fun hk => ?_, hcopies, ⟨_, hmem, rfl⟩, fun hnone => ?_, ?_, fun hno => ?_⟩
    · rw [heq] at hk
      cases (List.mem_filter.mp hk).2
    · cases hnone _ ha
    · rw [heq, List.filter_filter]
      simp only [Bool.and_self]
    · exact absurd ha (hno folder copy create)
  · -- the list is what the events stand for
    refine ⟨fun hk folder copy create hmem => ?_, hcopies, ?_, fun hnone => ?_, by rw [heq],
      fun _ _ => heq⟩
    · rw [heq] at hk hmem
      rw [keep_mem_listed.mp hk, Bool.and_true, List.any_eq_false] at hnot
      exact hnot _ hmem rfl
    · rw [heq]
      exact List.any_eq_true.mp hdisp
    · obtain ⟨a, ha, hd⟩ := List.any_eq_true.mp hdisp
      rw [hnone a ha] at hd
      cases hd

/-- A message that is filed with a flag and kept. -/
theorem evaluate_normalForm_copy :
    NormalForm [.fileInto "Archive" ["\\Seen"] false 0, .keep [] 0]
      [.setFlag ["\\Seen"], .fileInto "Archive" true false] :=
  evaluate_normalForm (scriptOf [.fileInto "Archive" ["\\Seen"] false 0, .keep [] 0])
    ⟨1, "", [], none, [], some [], [], 0⟩ _ rfl

end ImapSieve
