import ImapSieve.Executor.Designation
import ImapSieve.Engine.NormalForm

/-!
# The Flags of the Copies

`evaluate` puts the flags of a FileInto or Keep event right before its action, but `execute`
runs all flag actions before the first disposition. So the message has the flags of the last of
these events when the first copy is made, and so have all copies. They are the flags that each
event asked for exactly when the events agree on them.
-/

namespace ImapSieve

open Effects

/-! ## Section 1: Flag changes -/

/-- The flag changes of an action list, in order. -/
def flagChanges (actions : List SieveAction) : List (FlagOp × List String) :=
  actions.filterMap SieveAction.flagChange

/-- The flags after changes. -/
def changeFlags (old : List String) (changes : List (FlagOp × List String)) : List String :=
  changes.foldl (fun flags change => change.1.apply change.2 flags) old

/-- The operations of flag changes. -/
def storeOps (uid : Nat) (changes : List (FlagOp × List String)) : List Op :=
  changes.map fun change => .need (.uidStoreFlags uid change.1 change.2)

theorem flatMap_flagOps (uid : Nat) (actions : List SieveAction) :
    actions.flatMap (flagOps uid) = storeOps uid (flagChanges actions) := by
  induction actions with
  | nil => rfl
  | cons a rest ih =>
    rw [List.flatMap_cons, ih]
    cases a <;> rfl

/-! ## Section 2: The message under commands -/

namespace Server

variable {s s' : Server} {sel target : String} {uid : Nat} {m : StoredMessage}

theorem run_storeFlags {op : FlagOp} {flags : List String}
    (h : s.run sel (.uidStoreFlags uid op flags) = some s') (hm : s.find? sel uid = some m) :
    ∃ m', s'.find? sel uid = some m' ∧ m'.content = m.content ∧
      m'.flags = op.apply flags m.flags := by
  cases h
  obtain ⟨b, hb, hfind⟩ := exists_box_of_find? hm
  refine ⟨{ m with modseq := b.highestmodseq + 1, flags := op.apply flags m.flags }, ?_, rfl, rfl⟩
  rw [s.find?_modify_at sel fun b v => b.find?_storeFlags uid op flags v, if_pos ⟨rfl, rfl⟩, hb,
    Option.bind_some, hfind, Option.map_some]

/-- The copy has the flags of the message. -/
theorem copy_flags (h : s.copy sel uid target = some s') (hm : s.find? sel uid = some m) :
    ∃ m', s'.find? target (s.nextUid target) = some m' ∧ m'.content = m.content ∧
      m'.flags = m.flags := by
  rcases copy_cases h with ⟨hnone, -⟩ | ⟨dst, m₁, hdst, hm₁, rfl⟩
  · rw [hm] at hnone
    cases hnone
  · rw [hm] at hm₁
    cases hm₁
    have hnext : s.nextUid target = dst.uidnext := by rw [nextUid, hdst, Option.elim_some]
    refine ⟨⟨dst.uidnext, dst.highestmodseq + 1, m.flags, m.content⟩, ?_, rfl, rfl⟩
    rw [find?_setBox, if_pos rfl, Mailbox.find?_append, if_pos hnext]

/-- No message of the mailbox has the UID that its next message gets. -/
theorem ne_nextUid (hm : s.find? sel uid = some m) :
    ¬ (mailboxKey target = mailboxKey sel ∧ s.nextUid target = uid) := by
  rintro ⟨hkey, huid⟩
  have hlt := lt_nextUid_of_find? hm
  rw [nextUid, ← s.box_congr hkey, ← nextUid] at hlt
  omega

/-- COPY and MOVE put a copy with the message's flags under the next UID of the target. -/
theorem run_delivers_flags {cmd : ImapCommand} (h : s.run sel cmd = some s')
    (habout : cmd.About uid) (htarget : cmd.target = some target)
    (hm : s.find? sel uid = some m) :
    ∃ m', s'.find? target (s.nextUid target) = some m' ∧ m'.content = m.content ∧
      m'.flags = m.flags := by
  cases cmd with
  | uidMove u t =>
    cases habout
    cases htarget
    obtain ⟨s₁, hs₁, rfl⟩ := Option.map_eq_some_iff.mp h
    obtain ⟨m', hm', hsame⟩ := copy_flags hs₁ hm
    exact ⟨m', by rw [find?_modify_remove, if_neg (ne_nextUid hm), hm'], hsame⟩
  | uidCopy u t =>
    cases habout
    cases htarget
    exact copy_flags h hm
  | uidStoreFlags u op flags => cases htarget
  | uidExpunge uids => cases htarget
  | uidCreateMailbox name => cases htarget

/-- COPY and CREATE leave the message as it is. -/
theorem run_leaves {cmd : ImapCommand} (h : s.run sel cmd = some s')
    (hcmd : cmd = .uidCopy uid target ∨ cmd = .uidCreateMailbox target)
    (hm : s.find? sel uid = some m) : s'.find? sel uid = some m := by
  rcases hcmd with rfl | rfl
  · rcases find?_copy h sel uid with ⟨heq, -⟩ | ⟨_, _, -, hkey, huid, -⟩
    · exact heq.trans hm
    · exact absurd ⟨hkey.symm, huid.symm⟩ (ne_nextUid hm)
  · rw [find?_create h, hm]

end Server

/-! ## Section 3: The message under operations -/

section Operations

variable {S : Surroundings Call Reply World} {sel folder : String} {uid : Nat} {ops : List Op}
  {w w' : World} {tr tr' : History} {m : StoredMessage}

/-- Other messages stay as they are. -/
theorem Performs.frame (hS : Quiet S) (hsel : w.selected = some sel)
    (h : Performs S ops w tr w' tr') (habout : ∀ op ∈ ops, op.About uid) {n : String} {v : Nat}
    (hother : ¬ (mailboxKey n = mailboxKey sel ∧ v = uid)) (hm : w.server.find? n v = some m) :
    w'.server.find? n v = some m := by
  refine (h.induction hS hsel (I := fun w => w.server.find? n v = some m) ?_ hm).2
  intro op hop w₁ w₂ haff hm₁
  rcases haff.2 with hserver | ⟨cmd, hcmd, hrun⟩
  · rwa [hserver]
  · exact Server.run_frame hrun (habout op hop cmd hcmd) hother hm₁

/-- Performed flag changes apply to the flags of the message. -/
theorem Performs.storeOps_flags {changes : List (FlagOp × List String)} (hS : Quiet S)
    (hsel : w.selected = some sel) (h : Performs S (storeOps uid changes) w tr w' tr')
    (hm : w.server.find? sel uid = some m) :
    ∃ m', w'.server.find? sel uid = some m' ∧ m'.content = m.content ∧
      m'.flags = changeFlags m.flags changes := by
  induction changes generalizing w tr m with
  | nil =>
    cases h
    exact ⟨m, hm, rfl, rfl⟩
  | cons change rest ih =>
    cases h with
    | cons hop hrest =>
      cases hop with
      | need hans =>
        obtain ⟨hsel₁, hrun⟩ := answers_command_ok hsel (hS.answers hans)
        obtain ⟨m₁, hm₁, hcontent₁, hflags₁⟩ := Server.run_storeFlags hrun hm
        obtain ⟨m', hm', hcontent, hflags⟩ := ih hsel₁ hrest hm₁
        exact ⟨m', hm', hcontent.trans hcontent₁, by rw [hflags, hflags₁]; rfl⟩

/-- The CREATE of a `FileInto`, whatever becomes of it, leaves all messages. -/
theorem Performs.create_leaves {create : Bool} (hS : Quiet S) (hsel : w.selected = some sel)
    (h : Performs S (if create then [.attempt (.uidCreateMailbox folder)] else []) w tr w' tr')
    (hm : w.server.find? sel uid = some m) :
    w'.server.find? sel uid = some m ∧ deeds tr' = deeds tr := by
  cases create with
  | false =>
    cases h
    exact ⟨hm, rfl⟩
  | true =>
    refine ⟨(h.induction hS hsel (I := fun w => w.server.find? sel uid = some m) ?_ hm).2,
      h.deeds_eq fun op hop => ?_⟩
    · intro op hop w₁ w₂ haff hm₁
      rw [List.mem_singleton.mp hop] at haff
      rcases haff.2 with hserver | ⟨cmd, hcmd, hrun⟩
      · rwa [hserver]
      · cases hcmd
        exact Server.run_leaves hrun (.inr rfl) hm₁
    · rw [List.mem_singleton.mp hop]
      rfl

/-- What follows the CREATE of a `FileInto`: one command that copies, and nothing more that
does. -/
theorem filing_eq (caps : Capabilities) (uid : Nat) (folder : String) (copy : Bool) :
    ∃ cmd rest, (if copy then [.need (.uidCopy uid folder)] else moveOps caps uid folder) =
        .need cmd :: rest ∧ cmd.target = some folder ∧ cmd.About uid ∧
      (∀ op ∈ rest, op.delivers = false ∧ op.About uid) ∧
      (copy = true → cmd = .uidCopy uid folder ∧ rest = []) := by
  cases copy with
  | true => exact ⟨_, [], rfl, rfl, rfl, by simp, fun _ => ⟨rfl, rfl⟩⟩
  | false =>
    rw [if_neg Bool.false_ne_true, moveOps]
    cases caps.supportsMove with
    | true => exact ⟨_, [], rfl, rfl, rfl, by simp, by simp⟩
    | false =>
      -- COPY, and then STORE and EXPUNGE
      refine ⟨_, _, rfl, rfl, rfl, fun op hop => ?_, by simp⟩
      rcases List.mem_cons.mp hop with rfl | hop
      · exact ⟨rfl, about_need rfl⟩
      · cases hplus : caps.uidplus <;> rw [hplus] at hop
        · cases hop
        · rw [List.mem_singleton.mp hop]
          exact ⟨rfl, about_need rfl⟩

/-- A performed `FileInto` is one filing, and its copy has the flags of the message. With copy
the message stays as it is. -/
theorem Performs.fileOps_flags {caps : Capabilities} {copy create : Bool} (hS : Quiet S)
    (hsel : w.selected = some sel)
    (h : Performs S (fileOps caps uid folder copy create) w tr w' tr')
    (hm : w.server.find? sel uid = some m) :
    ∃ w₁ cmd m', deeds tr' = deeds tr ++ [.filing w₁ cmd] ∧ cmd.target = some folder ∧
      w'.server.find? folder (w₁.server.nextUid folder) = some m' ∧ m'.content = m.content ∧
      m'.flags = m.flags ∧ ¬ (mailboxKey folder = mailboxKey sel ∧ w₁.server.nextUid folder = uid) ∧
      (copy = true → w'.server.find? sel uid = some m) := by
  obtain ⟨w₁, tr₁, hcreate, hfile⟩ := Performs.of_append h
  obtain ⟨hm₁, hdeeds₁⟩ := hcreate.create_leaves hS hsel hm
  have hsel₁ := hcreate.selected hS hsel
  obtain ⟨cmd, rest, hops, htarget, habout, hrest, hcopy⟩ := filing_eq caps uid folder copy
  rw [hops] at hfile
  cases hfile with
  | cons hneed hafter =>
    cases hneed with
    | need hans =>
      obtain ⟨hsel₂, hrun⟩ := answers_command_ok hsel₁ (hS.answers hans)
      have hne : ¬ (mailboxKey folder = mailboxKey sel ∧ w₁.server.nextUid folder = uid) :=
        Server.ne_nextUid hm₁
      obtain ⟨m', hm', hsame⟩ := Server.run_delivers_flags hrun habout htarget hm₁
      refine ⟨w₁, cmd, m', ?_, htarget, ?_, hsame.1, hsame.2, hne, fun hc => ?_⟩
      · rw [hafter.deeds_eq fun op hop => (hrest op hop).1, deeds_cons, hdeeds₁]
        simp [deedOf, htarget]
      · exact hafter.frame hS hsel₂ (fun op hop => (hrest op hop).2) hne hm'
      · obtain ⟨rfl, rfl⟩ := hcopy hc
        cases hafter
        exact Server.run_leaves hrun (.inl rfl) hm₁

end Operations

/-! ## Section 4: The events of one folder each -/

def Event.isFileInto : Event → Bool
  | .fileInto _ _ _ _ => true
  | _ => false

/-- The flags that an event asks for. -/
def Event.flags : Event → List String
  | .keep flags _ | .fileInto _ flags _ _ => flags
  | _ => []

/-- The operations of a FileInto event. -/
def Event.fileOps (caps : Capabilities) (uid : Nat) (copy : Bool) : Event → List Op
  | .fileInto folder _ create _ => ImapSieve.fileOps caps uid folder copy create
  | _ => []

/-- The flags of the last event that asks for any. -/
def lastFlags (old : List String) (events : List Event) : List String :=
  ((events.map Event.flags).filter fun flags => flags ≠ []).getLast?.getD old

/-- Dropping the Keeps and setting copy flags leaves what the other actions are turned into. -/
theorem flatMap_of_normalForm {β : Type} {f : SieveAction → List β} (hf : f .keep = [])
    {events : List Event} {actions : List SieveAction} (h : NormalForm events actions) :
    actions.flatMap f = (listed events).flatMap f := by
  have hdrop : ∀ l : List SieveAction, (l.filter fun a => !a.isKeep).flatMap f = l.flatMap f := by
    intro l
    induction l with
    | nil => rfl
    | cons a rest ih =>
      cases hk : a.isKeep with
      | false => rw [List.filter_cons_of_pos (by simp [hk]), List.flatMap_cons, ih,
          List.flatMap_cons]
      | true => rw [List.filter_cons_of_neg (by simp [hk]), ih, List.flatMap_cons,
          isKeep_eq_true.mp hk, hf, List.nil_append]
  rw [← hdrop actions, h.each, hdrop]

theorem flatMap_flagOps_listed (uid : Nat) (events : List Event) :
    (listed events).flatMap (flagOps uid) =
      storeOps uid (((events.map Event.flags).filter fun flags => flags ≠ []).map (.set, ·)) := by
  rw [listed]
  generalize events.any Event.isKeep = copy
  induction events with
  | nil => rfl
  | cons ev rest ih =>
    rw [List.flatMap_cons, List.flatMap_append, ih]
    cases ev with
    | keep flags id => cases flags <;> rfl
    | fileInto folder flags create id => cases flags <;> rfl
    | sendMessage recipient id => cases recipient <;> rfl
    | _ => rfl

/-- Flags that are only set are in the end those set last. -/
theorem changeFlags_set (old : List String) (lists : List (List String)) :
    changeFlags old (lists.map (.set, ·)) = lists.getLast?.getD old := by
  induction lists generalizing old with
  | nil => rfl
  | cons flags rest ih =>
    change changeFlags flags (rest.map (.set, ·)) = _
    rw [ih, List.getLast?_cons, Option.getD_some]

/-- The events file the message and keep it, and do nothing else. -/
def OnlyFiled (events : List Event) : Prop :=
  ∀ ev ∈ events, ev.isFileInto = true ∨ ev.isKeep = true

theorem flatMap_dispositionOps_listed {events : List Event} (h : OnlyFiled events)
    (x : ActionExecutor) (ctx : MessageContext) :
    (listed events).flatMap (dispositionOps x ctx) =
      (events.filter Event.isFileInto).flatMap
        (Event.fileOps x.caps ctx.uid (events.any Event.isKeep)) := by
  rw [listed]
  generalize events.any Event.isKeep = copy
  induction events with
  | nil => rfl
  | cons ev rest ih =>
    rw [List.flatMap_cons, List.flatMap_append, ih fun ev hev => h ev (List.mem_cons_of_mem _ hev)]
    cases ev with
    | keep flags id => cases flags <;> rfl
    | fileInto folder flags create id =>
      rw [List.filter_cons_of_pos rfl, List.flatMap_cons]
      cases flags with
      | nil => exact congrArg (· ++ _) (List.append_nil _)
      | cons flag flags => exact congrArg (· ++ _) (List.append_nil _)
    | _ => rcases h _ List.mem_cons_self with hev | hev <;> cases hev

theorem length_filter_listed (events : List Event) :
    ((listed events).filter SieveAction.isFileInto).length =
      (events.filter Event.isFileInto).length := by
  rw [listed]
  generalize events.any Event.isKeep = copy
  induction events with
  | nil => rfl
  | cons ev rest ih =>
    rw [List.flatMap_cons, List.filter_append, List.length_append, ih]
    cases ev with
    | keep flags id => cases flags <;> exact Nat.zero_add _
    | fileInto folder flags create id => cases flags <;> exact Nat.add_comm _ _
    | sendMessage recipient id => cases recipient <;> exact Nat.zero_add _
    | _ => exact Nat.zero_add _

/-- There are as many FileIntos as events that ask for one. -/
theorem length_filter_of_normalForm {events : List Event} {actions : List SieveAction}
    (h : NormalForm events actions) :
    (actions.filter SieveAction.isFileInto).length = (events.filter Event.isFileInto).length := by
  have hdrop : ∀ l : List SieveAction,
      (l.filter fun a => !a.isKeep).filter SieveAction.isFileInto =
        l.filter SieveAction.isFileInto := by
    intro l
    rw [List.filter_filter]
    refine List.filter_congr fun a _ => ?_
    cases a <;> rfl
  rw [← hdrop actions, h.each, hdrop, length_filter_listed]

/-- Where all FileIntos of the list copy or there is only one, there is a Keep event or only one
event that files the message. -/
theorem isKeep_or_single {events : List Event} {actions : List SieveAction}
    (h : NormalForm events actions)
    (hone : (∀ folder copy create, .fileInto folder copy create ∈ actions → copy = true) ∨
      (actions.filter SieveAction.isFileInto).length ≤ 1) :
    events.any Event.isKeep = true ∨ (events.filter Event.isFileInto).length ≤ 1 := by
  rw [← length_filter_of_normalForm h]
  rcases hone with hall | hlen
  · by_cases hfile : ∃ a ∈ actions, a.isFileInto = true
    · obtain ⟨a, ha, hfa⟩ := hfile
      obtain ⟨folder, copy, create, rfl⟩ := isFileInto_eq_true.mp hfa
      exact .inl (any_isKeep_iff.mpr ((h.copies _ _ _ ha).mp (hall _ _ _ ha)))
    · have hnil : actions.filter SieveAction.isFileInto = [] :=
        List.filter_eq_nil_iff.mpr fun a ha hfa => hfile ⟨a, ha, hfa⟩
      exact .inr (by rw [hnil]; exact Nat.zero_le 1)
  · exact .inr hlen

/-! ## Section 5: Whose flags the copies have -/

/-- The FileInto of an event made a copy in its folder, which is still there at the end and has
flags that fit those of the event. -/
def Filed (s : Server) (content : Content) (fits : List String → List String → Prop) :
    Event → Deed → Prop
  | .fileInto folder own _ _, .filing w cmd => cmd.target = some folder ∧
      ∃ m, s.find? folder (w.server.nextUid folder) = some m ∧ m.content = content ∧
        fits own m.flags
  | _, _ => False

section Files

variable {S : Surroundings Call Reply World} {sel : String} {uid : Nat} {caps : Capabilities}
  {copy : Bool} {events : List Event} {w w' : World} {tr tr' : History} {m : StoredMessage}

theorem Event.fileOps_about {ev : Event} {op : Op} (h : op ∈ ev.fileOps caps uid copy) :
    op.About uid := by
  cases ev with
  | fileInto folder flags create id => exact ImapSieve.fileOps_about h
  | _ => cases h

/-- The FileIntos of events file copies with the flags of the message, when the message stays
or only one of them files it. -/
theorem Performs.files (hS : Quiet S) (hsel : w.selected = some sel)
    (hevents : ∀ ev ∈ events, ev.isFileInto = true) (hone : copy = true ∨ events.length ≤ 1)
    (h : Performs S (events.flatMap (Event.fileOps caps uid copy)) w tr w' tr')
    (hm : w.server.find? sel uid = some m) :
    (∃ ds, deeds tr' = deeds tr ++ ds ∧
      List.Forall₂ (Filed w'.server m.content fun _ now => now = m.flags) events ds) ∧
      (copy = true → w'.server.find? sel uid = some m) := by
  induction events generalizing w tr with
  | nil =>
    cases h
    exact ⟨⟨[], (List.append_nil _).symm, .nil⟩, fun _ => hm⟩
  | cons ev rest ih =>
    obtain ⟨w₁, tr₁, hfirst, hrest⟩ := Performs.of_append h
    cases ev with
    | fileInto folder flags create id =>
      obtain ⟨w₀, cmd, m', hdeeds, htarget, hm', hcontent, hflags, hne, hstays⟩ :=
        hfirst.fileOps_flags hS hsel hm
      have hsel₁ := hfirst.selected hS hsel
      -- the copy outlives the FileIntos that follow
      have hm₂ := hrest.frame hS hsel₁ (fun op hop => by
        obtain ⟨e, -, hop⟩ := List.mem_flatMap.mp hop
        exact Event.fileOps_about hop) hne hm'
      have hfiled : Filed w'.server m.content (fun _ now => now = m.flags)
          (.fileInto folder flags create id) (.filing w₀ cmd) :=
        ⟨htarget, m', hm₂, hcontent, hflags⟩
      cases hcopy : copy with
      | true =>
        subst hcopy
        obtain ⟨⟨ds, hds, hall⟩, hkept⟩ := ih hsel₁
          (fun e he => hevents e (List.mem_cons_of_mem _ he)) (.inl rfl) hrest (hstays rfl)
        refine ⟨⟨.filing w₀ cmd :: ds, ?_, .cons hfiled hall⟩, hkept⟩
        rw [hds, hdeeds, List.append_assoc, List.singleton_append]
      | false =>
        -- it is the only FileInto
        rw [hcopy] at hone
        have hnil : rest = [] := by
          rcases hone with hc | hlen
          · cases hc
          · exact List.length_eq_zero_iff.mp (by simpa using hlen)
        subst hnil
        cases hrest
        exact ⟨⟨[.filing w₀ cmd], hdeeds, .cons hfiled .nil⟩, fun hc => by cases hc⟩
    | _ => cases hevents _ List.mem_cons_self

end Files

/-- Flags are those of a disposition, or, where it asks for none, some that the message had. -/
def OwnFlags (own old now : List String) : Prop :=
  (own ≠ [] → ∀ f, f ∈ now ↔ f ∈ own) ∧ (own = [] → ∀ f ∈ now, f ∈ old)

/-- Each copy carries the flags of its own FileInto event, and the message kept those of the
Keep events. -/
structure CarriesOwn (s : Server) (sel : String) (m : StoredMessage) (events : List Event)
    (tr : History) : Prop where
  filed : List.Forall₂ (Filed s m.content fun own now => OwnFlags own m.flags now)
    (events.filter Event.isFileInto) (deeds tr)
  kept : ∀ flags id, .keep flags id ∈ events →
    ∃ m', s.find? sel m.uid = some m' ∧ m'.content = m.content ∧ OwnFlags flags m.flags m'.flags

/-- Any flags that an event asks for would do for each of the events. -/
def FlagsAgree (events : List Event) (old : List String) : Prop :=
  ∀ ev ∈ events, ∀ ev' ∈ events, ev'.flags ≠ [] → OwnFlags ev.flags old ev'.flags

/-- The flags set last are right for all events exactly when the events agree. -/
theorem ownFlags_lastFlags_iff {events : List Event} {old : List String} :
    (∀ ev ∈ events, OwnFlags ev.flags old (lastFlags old events)) ↔ FlagsAgree events old := by
  constructor
  · intro h ev hev ev' hev' hne
    -- the last flags are those of `ev'`
    have hsame := (h ev' hev').1 hne
    refine ⟨fun hown f => ?_, fun hown f hf => ?_⟩
    · rw [← hsame f, (h ev hev).1 hown f]
    · exact (h ev hev).2 hown f ((hsame f).mpr hf)
  · intro h ev hev
    rw [lastFlags]
    cases hlast : ((events.map Event.flags).filter fun flags => flags ≠ []).getLast? with
    | none =>
      -- no event asks for flags
      have hnil : ev.flags = [] := by
        have hall := List.getLast?_eq_none_iff.mp hlast
        by_contra hne
        have hmem : ev.flags ∈ (events.map Event.flags).filter fun flags => flags ≠ [] :=
          List.mem_filter.mpr ⟨List.mem_map_of_mem hev, decide_eq_true hne⟩
        rw [hall] at hmem
        cases hmem
      exact ⟨fun hne => absurd hnil hne, fun _ f hf => hf⟩
    | some flags =>
      obtain ⟨hmem, hne⟩ := List.mem_filter.mp (List.mem_of_getLast? hlast)
      obtain ⟨ev', hev', rfl⟩ := List.mem_map.mp hmem
      exact h ev hev ev' hev' (of_decide_eq_true hne)

theorem filed_ownFlags_iff {s : Server} {content : Content} {old flags : List String}
    {events : List Event} {ds : List Deed}
    (h : List.Forall₂ (Filed s content fun _ now => now = flags) events ds) :
    List.Forall₂ (Filed s content fun own now => OwnFlags own old now) events ds ↔
      ∀ ev ∈ events, OwnFlags ev.flags old flags := by
  induction h with
  | nil => simp
  | @cons ev d events ds hev _ ih =>
    rw [List.forall₂_cons, ih, List.forall_mem_cons]
    refine and_congr_left fun _ => ?_
    cases ev with
    | fileInto folder own create id =>
      cases d with
      | filing w cmd =>
        obtain ⟨htarget, m, hm, hcontent, rfl⟩ := hev
        constructor
        · rintro ⟨-, m', hm', -, hown⟩
          rw [hm] at hm'
          cases hm'
          exact hown
        · exact fun hown => ⟨htarget, m, hm, hcontent, hown⟩
      | mail mail => cases hev
    | _ => cases d <;> cases hev

/-! ## Section 6: A successful execution -/

/-- All copies, and the message where it is kept, have these flags. -/
structure CarriesAll (s : Server) (sel : String) (m : StoredMessage) (events : List Event)
    (flags : List String) (tr : History) : Prop where
  filed : List.Forall₂ (Filed s m.content fun _ now => now = flags)
    (events.filter Event.isFileInto) (deeds tr)
  kept : events.any Event.isKeep = true →
    ∃ m', s.find? sel m.uid = some m' ∧ m'.content = m.content ∧ m'.flags = flags

section Executed

variable {x : ActionExecutor} {m : StoredMessage} {events : List Event}
  {actions : List SieveAction} {w w' : World} {tr : History}

/-- The flag changes come first, and then the FileIntos of the events. -/
theorem operations_of_onlyFiled (hevents : OnlyFiled events)
    (hactions : actions = actionsOf events) (hnormal : NormalForm events actions)
    (ctx : MessageContext) :
    x.operations ctx actions =
      storeOps ctx.uid (((events.map Event.flags).filter fun flags => flags ≠ []).map (.set, ·)) ++
        (events.filter Event.isFileInto).flatMap
          (Event.fileOps x.caps ctx.uid (events.any Event.isKeep)) := by
  have hdeletes : actions.any SieveAction.deletes = false := by
    rw [Bool.eq_false_iff, hactions, ne_eq, deletes_actionsOf]
    rintro (hev | ⟨reason, hev⟩) <;> rcases hevents _ hev with h | h <;> cases h
  rw [ActionExecutor.operations, hdeletes, if_neg Bool.false_ne_true, List.append_nil,
    ActionExecutor.passes, flatMap_of_normalForm rfl hnormal, flatMap_of_normalForm rfl hnormal,
    flatMap_flagOps_listed, flatMap_dispositionOps_listed hevents]

/-- The message gets the flags that are set last, and these go into all copies. -/
theorem Performs.carriesAll (hevents : OnlyFiled events) (hactions : actions = actionsOf events)
    (hnormal : NormalForm events actions)
    (hone : events.any Event.isKeep = true ∨ (events.filter Event.isFileInto).length ≤ 1)
    (hsel : w.selected = some x.sourceMailbox)
    (hfind : w.server.find? x.sourceMailbox m.uid = some m)
    (h : Performs executorWorld (x.operations m.toContext actions) w [] w' tr) :
    CarriesAll w'.server x.sourceMailbox m events (lastFlags m.flags events) tr := by
  have hS := quiet_executorWorld
  rw [operations_of_onlyFiled hevents hactions hnormal] at h
  obtain ⟨w₁, tr₁, hflags, hfiles⟩ := h.of_append
  obtain ⟨m₁, hm₁, hcontent₁, hflags₁⟩ := hflags.storeOps_flags hS hsel hfind
  rw [changeFlags_set, ← lastFlags] at hflags₁
  have hdeeds₁ : deeds tr₁ = [] := hflags.deeds_eq fun op hop => by
    obtain ⟨change, -, rfl⟩ := List.mem_map.mp hop
    rfl
  obtain ⟨⟨ds, hds, hall⟩, hkept⟩ := hfiles.files hS (hflags.selected hS hsel)
    (fun ev hev => (List.mem_filter.mp hev).2) hone hm₁
  rw [hdeeds₁, List.nil_append] at hds
  rw [hcontent₁, hflags₁] at hall
  exact ⟨hds ▸ hall, fun hkeep => ⟨m₁, hkept hkeep, hcontent₁, hflags₁⟩⟩

/-- Flags that are everywhere the same are right for each event. -/
theorem carriesOwn_iff {s : Server} {sel : String} {flags : List String}
    (hevents : OnlyFiled events) (h : CarriesAll s sel m events flags tr) :
    CarriesOwn s sel m events tr ↔ ∀ ev ∈ events, OwnFlags ev.flags m.flags flags := by
  constructor
  · rintro ⟨hfiled, hstored⟩ ev hev
    rw [filed_ownFlags_iff h.filed] at hfiled
    cases ev with
    | keep own id =>
      obtain ⟨m', hm', -, hown⟩ := hstored own id hev
      obtain ⟨m₁, hm₁, -, hflags⟩ := h.kept (any_isKeep_iff.mpr ⟨own, id, hev⟩)
      rw [hm₁] at hm'
      cases hm'
      rwa [hflags] at hown
    | fileInto folder own create id => exact hfiled _ (List.mem_filter.mpr ⟨hev, rfl⟩)
    | _ => rcases hevents _ hev with h | h <;> cases h
  · intro hown
    constructor
    · rw [filed_ownFlags_iff h.filed]
      exact fun ev hev => hown ev (List.mem_of_mem_filter hev)
    · intro own id hev
      obtain ⟨m₁, hm₁, hcontent, hflags⟩ := h.kept (any_isKeep_iff.mpr ⟨own, id, hev⟩)
      refine ⟨m₁, hm₁, hcontent, ?_⟩
      rw [hflags]
      exact hown _ hev

end Executed

/-- Where all FileIntos copy or there is only one, each disposition carries its own flags
exactly when the events agree on the flags. -/
theorem execute_ownFlags_iff (x : ActionExecutor) (script : CompiledScript) (m : StoredMessage)
    (actions : List SieveAction) (w w' : World) (tr : History)
    (hevents : OnlyFiled (emitted script m.toContext))
    (heval : evaluate script m.toContext = .ok actions)
    (hone : (∀ folder copy create, .fileInto folder copy create ∈ actions → copy = true) ∨
      (actions.filter SieveAction.isFileInto).length ≤ 1)
    (hsel : w.selected = some x.sourceMailbox)
    (hfind : w.server.find? x.sourceMailbox m.uid = some m)
    (hrun : Steps executorWorld ⟨(x.execute m.toContext actions).run, w, []⟩
      ⟨.ret (.ok ()), w', tr⟩) :
    CarriesOwn w'.server x.sourceMailbox m (emitted script m.toContext) tr ↔
      FlagsAgree (emitted script m.toContext) m.flags := by
  have hnormal := evaluate_normalForm script m.toContext actions heval
  have hactions := evaluate_eq_ok heval
  have hperforms := performs_of_execute quiet_executorWorld.quiet hrun
  have hcarries := hperforms.carriesAll hevents hactions hnormal (isKeep_or_single hnormal hone)
    hsel hfind
  rw [carriesOwn_iff hevents hcarries, ownFlags_lastFlags_iff]

/-- A message that is filed and kept with the same flag. -/
theorem execute_ownFlags_iff_copy :
    let run := sampleRun {} [.setFlag ["\\Seen"], .fileInto "Archive" true false,
      .setFlag ["\\Seen"]] 3
    CarriesOwn run.world.server "INBOX" ⟨1, 2, [], sampleContent⟩
      [.fileInto "Archive" ["\\Seen"] false 0, .keep ["\\Seen"] 0] run.trace ↔
    FlagsAgree [.fileInto "Archive" ["\\Seen"] false 0, .keep ["\\Seen"] 0] [] :=
  execute_ownFlags_iff ⟨true, {}, "INBOX"⟩
    (scriptOf [.fileInto "Archive" ["\\Seen"] false 0, .keep ["\\Seen"] 0])
    ⟨1, 2, [], sampleContent⟩
    [.setFlag ["\\Seen"], .fileInto "Archive" true false, .setFlag ["\\Seen"]]
    sampleExecutorWorld _ _
    (by
      rw [emitted_scriptOf _ rfl]
      simp [OnlyFiled, Event.isFileInto, Event.isKeep])
    rfl (.inr (by decide)) rfl (by decide) (steps_sampleRun (n := 3) rfl)

/-- The flag that a message is kept with gets into the copy that was filed with another. -/
theorem not_carries_own :
    ¬ ∀ (x : ActionExecutor) (script : CompiledScript) (m : StoredMessage)
      (actions : List SieveAction) (w w' : World) (tr : History),
      OnlyFiled (emitted script m.toContext) → evaluate script m.toContext = .ok actions →
      (∀ folder copy create, .fileInto folder copy create ∈ actions → copy = true) ∨
        (actions.filter SieveAction.isFileInto).length ≤ 1 →
      w.selected = some x.sourceMailbox → w.server.find? x.sourceMailbox m.uid = some m →
      Steps executorWorld ⟨(x.execute m.toContext actions).run, w, []⟩
        ⟨.ret (.ok ()), w', tr⟩ →
      CarriesOwn w'.server x.sourceMailbox m (emitted script m.toContext) tr := by
  intro hall
  let run := sampleRun {} [.setFlag ["\\Seen"], .fileInto "Archive" true false,
    .setFlag ["\\Flagged"]] 3
  have hcarries := hall ⟨true, {}, "INBOX"⟩
    (scriptOf [.fileInto "Archive" ["\\Seen"] false 0, .keep ["\\Flagged"] 0])
    ⟨1, 2, [], sampleContent⟩
    [.setFlag ["\\Seen"], .fileInto "Archive" true false, .setFlag ["\\Flagged"]]
    sampleExecutorWorld run.world run.trace
    (by
      rw [emitted_scriptOf _ rfl]
      simp [OnlyFiled, Event.isFileInto, Event.isKeep])
    rfl (.inr (by decide)) rfl (by decide) (steps_sampleRun rfl)
  have hfiled := hcarries.filed
  rw [emitted_scriptOf _ rfl] at hfiled
  cases hfiled with
  | cons hfirst _ =>
    -- the copy has `\Flagged`, and that is not a flag of its FileInto
    obtain ⟨-, m, hm, -, hown⟩ := hfirst
    cases hm
    have hin := ((hown.1 (by decide)) "\\Flagged").mp (by decide)
    exact absurd hin (by decide)

end ImapSieve
