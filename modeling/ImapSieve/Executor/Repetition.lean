import ImapSieve.Executor.Fallback
import ImapSieve.Executor.Flags

/-!
# Executing Twice

The process may be lost after `execute` succeeded and before the bookmark was written. Then the
message is processed once more. Without mails and copies this is harmless: either the first
execution took the message away, and no command finds it again, or it only changed flags, and
these changes have no further effect the second time.

Mailboxes are compared by UIDNEXT and their messages, in order, with UIDs, contents and the set
of flags.
-/

namespace ImapSieve

open Effects

/-! ## Section 1: The same folders -/

structure Item.Same (m m' : Item) : Prop where
  uid : m'.uid = m.uid
  content : m'.content = m.content
  flags : ∀ f, f ∈ m'.flags ↔ f ∈ m.flags

structure Folder.Same (f f' : Folder) : Prop where
  uidnext : f'.uidnext = f.uidnext
  items : List.Forall₂ Item.Same f.items f'.items

def Folders.Same (s s' : Folders) : Prop := ∀ k, Option.Rel Folder.Same (s k) (s' k)

theorem Item.Same.refl (m : Item) : m.Same m := ⟨rfl, rfl, fun _ => Iff.rfl⟩

theorem Folder.Same.refl (f : Folder) : f.Same f :=
  ⟨rfl, List.forall₂_same.mpr fun m _ => Item.Same.refl m⟩

theorem Folders.Same.refl (s : Folders) : s.Same s := by
  intro k
  cases s k with
  | none => exact .none
  | some f => exact .some (Folder.Same.refl f)

/-! ## Section 2: Flag changes on a folder -/

/-- Flag changes on the message under a UID. -/
def Folder.change (uid : Nat) (changes : List (FlagOp × List String)) (f : Folder) : Folder :=
  { f with items := f.items.map fun m =>
      if m.uid = uid then { m with flags := changeFlags m.flags changes } else m }

/-- What a change makes of a flag: it settles whether the flag is there, or it leaves it. -/
theorem mem_apply_cases (change : FlagOp × List String) (f : String) :
    (∀ old, f ∈ change.1.apply change.2 old) ∨ (∀ old, f ∉ change.1.apply change.2 old) ∨
      ∀ old, f ∈ change.1.apply change.2 old ↔ f ∈ old := by
  obtain ⟨op, flags⟩ := change
  by_cases hmem : f ∈ flags
  · cases op with
    | add =>
      refine .inl fun old => ?_
      by_cases hold : f ∈ old <;> simp [FlagOp.apply, hmem, hold]
    | remove => exact .inr (.inl fun old => by simp [FlagOp.apply, hmem])
    | set => exact .inl fun old => hmem
  · cases op with
    | add => exact .inr (.inr fun old => by simp [FlagOp.apply, hmem])
    | remove => exact .inr (.inr fun old => by simp [FlagOp.apply, hmem])
    | set => exact .inr (.inl fun old => hmem)

/-- The last change that settles whether a flag is there decides. -/
theorem mem_changeFlags_cases (changes : List (FlagOp × List String)) (f : String) :
    (∀ old, f ∈ changeFlags old changes) ∨ (∀ old, f ∉ changeFlags old changes) ∨
      ∀ old, f ∈ changeFlags old changes ↔ f ∈ old := by
  induction changes with
  | nil => exact .inr (.inr fun old => Iff.rfl)
  | cons change rest ih =>
    have hcons : ∀ old, changeFlags old (change :: rest) =
        changeFlags (change.1.apply change.2 old) rest := fun _ => rfl
    simp only [hcons]
    rcases ih with hin | hout | hleft
    · exact .inl fun old => hin _
    · exact .inr (.inl fun old => hout _)
    · -- none of the later changes concerns the flag
      simp only [hleft]
      exact mem_apply_cases change f

/-- Making the changes again has no effect on the set of flags. -/
theorem mem_changeFlags_twice (old : List String) (changes : List (FlagOp × List String))
    (f : String) :
    f ∈ changeFlags (changeFlags old changes) changes ↔ f ∈ changeFlags old changes := by
  rcases mem_changeFlags_cases changes f with hin | hout | hleft
  · exact iff_of_true (hin _) (hin _)
  · exact iff_of_false (hout _) (hout _)
  · exact hleft _

theorem Folder.change_nil (uid : Nat) (f : Folder) : f.change uid [] = f := by
  refine congrArg (Folder.mk f.uidnext) ((List.map_congr_left fun m _ => ?_).trans
    (List.map_id _))
  split <;> rfl

/-- A STORE before flag changes is one more of them. -/
theorem Folder.change_storeFlags (uid : Nat) (op : FlagOp) (flags : List String)
    (changes : List (FlagOp × List String)) (f : Folder) :
    (f.storeFlags uid op flags).change uid changes = f.change uid ((op, flags) :: changes) := by
  refine congrArg (Folder.mk f.uidnext) ?_
  change (f.items.map _).map _ = f.items.map _
  rw [List.map_map]
  refine List.map_congr_left fun m _ => ?_
  by_cases huid : m.uid = uid
  · simp [huid, changeFlags]
  · simp [huid]

theorem Folder.change_twice (uid : Nat) (changes : List (FlagOp × List String)) (f : Folder) :
    (f.change uid changes).Same ((f.change uid changes).change uid changes) := by
  refine ⟨rfl, List.forall₂_map_right_iff.mpr (List.forall₂_same.mpr fun m hm => ?_)⟩
  obtain ⟨m₀, -, rfl⟩ := List.mem_map.mp hm
  by_cases huid : m₀.uid = uid
  · rw [if_pos huid, if_pos huid]
    exact ⟨rfl, rfl, mem_changeFlags_twice m₀.flags changes⟩
  · rw [if_neg huid, if_neg huid]
    exact Item.Same.refl m₀

namespace Folders

theorem modify_eq_self {s : Folders} {sel : String} {g : Folder → Folder}
    (h : ∀ f, s.folder sel = some f → g f = f) : s.modify sel g = s := by
  cases hf : s.folder sel with
  | none => simp only [modify, hf]
  | some f =>
    simp only [modify, hf, h f hf]
    funext k
    unfold set
    split
    · next hk => rw [hk, ← hf, folder]
    · rfl

theorem same_modify {g : Folder → Folder} (h : ∀ f : Folder, (g f).Same (g (g f)))
    (s : Folders) (sel : String) : (s.modify sel g).Same ((s.modify sel g).modify sel g) := by
  rw [modify_modify]
  cases hf : s.folder sel with
  | none =>
    simp only [modify, hf]
    exact Same.refl s
  | some f =>
    simp only [modify, hf]
    intro k
    by_cases hk : k = mailboxKey sel
    · rw [set, set, if_pos hk, if_pos hk]
      exact .some (h f)
    · rw [set, set, if_neg hk, if_neg hk]
      exact Same.refl s k

end Folders

/-! ## Section 3: Only flags change -/

section Flags

variable {draw : Nat → Stamp} {uid : Nat} {changes : List (FlagOp × List String)}

theorem storeOps_append (uid : Nat) (changes rest : List (FlagOp × List String)) :
    storeOps uid (changes ++ rest) = storeOps uid changes ++ storeOps uid rest := List.map_append

/-- Performed flag changes change the message's folder. -/
theorem effects_storeOps {v : View} {sel : String} (hsel : v.selected = some sel) :
    effects draw (storeOps uid changes) v =
      ({ v with folders := v.folders.modify sel (Folder.change uid changes) }, true) := by
  obtain ⟨selected, folders, sent⟩ := v
  cases hsel
  induction changes generalizing folders with
  | nil =>
    rw [Folders.modify_eq_self fun f _ => f.change_nil uid]
    rfl
  | cons change rest ih =>
    obtain ⟨op, flags⟩ := change
    have hfirst : (Op.need (.uidStoreFlags uid op flags)).effect draw ⟨some sel, folders, sent⟩ =
        (⟨some sel, folders.modify sel (·.storeFlags uid op flags), sent⟩, true) := rfl
    change effects draw (.need (.uidStoreFlags uid op flags) :: storeOps uid rest) _ = _
    rw [effects, hfirst, if_pos rfl, ih, Folders.modify_modify]
    simp only [Folder.change_storeFlags]

/-- STORE commands, and the note that a deletion starts. -/
def Op.isStore : Op → Bool
  | .need (.uidStoreFlags _ _ _) | .deleting _ => true
  | _ => false

/-- Where such operations succeed, it does not matter how others may fail. -/
theorem Performs.exactly {ops : List Op} {w w' : World} {tr tr' : History}
    (h : Performs executorWorld ops w tr w' tr') (hstore : ∀ op ∈ ops, op.isStore = true) :
    Performs (exactWorld draw) ops w tr w' tr' := by
  induction h with
  | nil => exact .nil
  | cons hop _ ih =>
    refine .cons ?_ (ih fun op hop => hstore op (List.mem_cons_of_mem _ hop))
    cases hop with
    | need h => exact .need h
    | deleting h => exact .deleting h
    | _ => cases hstore _ List.mem_cons_self

end Flags

/-! ## Section 4: The message is gone -/

namespace Folder

theorem remove_eq_self {f : Folder} {uid : Nat} (h : f.find? uid = none) : f.remove uid = f := by
  refine congrArg (Folder.mk f.uidnext) (List.filter_eq_self.mpr fun m hm => ?_)
  simpa using List.find?_eq_none.mp h m hm

theorem expunge_eq_self {f : Folder} {uid : Nat} (h : f.find? uid = none) :
    f.expunge [uid] = f := by
  refine congrArg (Folder.mk f.uidnext) (List.filter_eq_self.mpr fun m hm => ?_)
  have hne : m.uid ≠ uid := by simpa using List.find?_eq_none.mp h m hm
  simp [hne]

theorem storeFlags_eq_self {f : Folder} {uid : Nat} (op : FlagOp) (flags : List String)
    (h : f.find? uid = none) : f.storeFlags uid op flags = f := by
  refine congrArg (Folder.mk f.uidnext) ((List.map_congr_left fun m hm => ?_).trans
    (List.map_id _))
  have hne : m.uid ≠ uid := by simpa using List.find?_eq_none.mp h m hm
  rw [if_neg hne, id]

end Folder

namespace Folders

/-- A command on a message that is gone changes nothing, and it succeeds where its target
exists. -/
theorem run_eq_self {s : Folders} {sel : String} {uid : Nat} {cmd : ImapCommand}
    (hgone : (s.folder sel).bind (fun f => f.find? uid) = none) (habout : cmd.About uid)
    (htarget : ∀ t, cmd.target = some t → (s.folder t).isSome = true)
    (hcreate : ∀ name, cmd ≠ .uidCreateMailbox name) : s.run sel cmd = some s := by
  have habsent : ∀ f, s.folder sel = some f → f.find? uid = none := by
    intro f hf
    rwa [hf, Option.bind_some] at hgone
  have hcopy : ∀ t, (s.folder t).isSome = true → s.copy sel uid t = some s := by
    intro t ht
    obtain ⟨dst, hdst⟩ := Option.isSome_iff_exists.mp ht
    simp only [copy, hdst, hgone]
  cases cmd with
  | uidMove u t =>
    cases habout
    rw [run, hcopy t (htarget t rfl), Option.map_some,
      modify_eq_self fun f hf => Folder.remove_eq_self (habsent f hf)]
  | uidCopy u t =>
    cases habout
    exact hcopy t (htarget t rfl)
  | uidStoreFlags u op flags =>
    cases habout
    exact congrArg some
      (modify_eq_self fun f hf => Folder.storeFlags_eq_self op flags (habsent f hf))
  | uidExpunge uids =>
    cases habout
    exact congrArg some (modify_eq_self fun f hf => Folder.expunge_eq_self (habsent f hf))
  | uidCreateMailbox name => exact absurd rfl (hcreate name)

end Folders

/-- The executor's operations on a message that is gone: commands on it, with targets that
exist, and CREATE commands, which may be refused. -/
def Op.Spent (uid : Nat) (s : Folders) (op : Op) : Prop :=
  (∃ cmd, op = .need cmd ∧ cmd.About uid ∧ (∀ name, cmd ≠ .uidCreateMailbox name) ∧
      ∀ t, cmd.target = some t → (s.folder t).isSome = true) ∨
    (∃ name, op = .attempt (.uidCreateMailbox name) ∧ (s.folder name).isSome = true) ∨
    op = .deleting uid

theorem Op.Spent.effect_eq {draw : Nat → Stamp} {uid : Nat} {op : Op} {v : View} {sel : String}
    (h : op.Spent uid v.folders) (hsel : v.selected = some sel)
    (hgone : (v.folders.folder sel).bind (fun f => f.find? uid) = none) :
    op.effect draw v = (v, true) := by
  obtain ⟨selected, folders, sent⟩ := v
  cases hsel
  rcases h with ⟨cmd, rfl, habout, hcreate, htarget⟩ | ⟨name, rfl, hname⟩ | rfl
  · have hrun := Folders.run_eq_self hgone habout htarget hcreate
    simp only [Op.effect, View.command, Option.bind_some, hrun]
  · -- the mailbox is there, and CREATE is refused
    obtain ⟨f, hf⟩ := Option.isSome_iff_exists.mp hname
    simp only [Op.effect, View.command, Option.bind_some, Folders.run, hf]
  · rfl

theorem effects_spent {draw : Nat → Stamp} {uid : Nat} {ops : List Op} {v : View} {sel : String}
    (h : ∀ op ∈ ops, op.Spent uid v.folders) (hsel : v.selected = some sel)
    (hgone : (v.folders.folder sel).bind (fun f => f.find? uid) = none) :
    effects draw ops v = (v, true) := by
  induction ops with
  | nil => rfl
  | cons op rest ih =>
    rw [effects, (h op List.mem_cons_self).effect_eq hsel hgone, if_pos rfl,
      ih fun op hop => h op (List.mem_cons_of_mem _ hop)]

/-! ## Section 5: After the first execution -/

section First

variable {S : Surroundings Call Reply World} {sel target : String} {uid : Nat} {ops : List Op}
  {w w' : World} {tr tr' : History}

theorem Op.Affects.box_isSome {op : Op} (h : op.Affects sel w w')
    (hbox : (w.server.box target).isSome = true) : (w'.server.box target).isSome = true := by
  rcases h.2 with hserver | ⟨cmd, -, hrun⟩
  · rwa [hserver]
  · obtain ⟨b, hb⟩ := Option.isSome_iff_exists.mp hbox
    obtain ⟨b', hb', -⟩ := Server.run_keepsBox Mailbox.lasting_precedes hrun target b hb
    exact Option.isSome_iff_exists.mpr ⟨b', hb'⟩

/-- The target of a command that succeeded exists. -/
theorem Performs.target_isSome (hS : Quiet S) (hsel : w.selected = some sel)
    (h : Performs S ops w tr w' tr') {cmd : ImapCommand} (hmem : .need cmd ∈ ops)
    (htarget : cmd.target = some target) : (w'.server.box target).isSome = true := by
  obtain ⟨before, after, rfl⟩ := List.append_of_mem hmem
  obtain ⟨w₁, tr₁, hbefore, hrest⟩ := h.of_append
  cases hrest with
  | cons hop hafter =>
    have haff := hop.affects hS (hbefore.selected hS hsel)
    refine (hafter.induction hS haff.1 (I := fun w => (w.server.box target).isSome = true)
      (fun _ _ _ _ haff => haff.box_isSome) (haff.box_isSome ?_)).2
    cases hop with
    | need hans =>
      obtain ⟨-, hrun⟩ := answers_command_ok (hbefore.selected hS hsel) (hS.answers hans)
      -- COPY, also as the first half of MOVE, needs its target
      have hcopy : ∀ {u s}, w₁.server.copy sel u target = some s →
          (w₁.server.box target).isSome = true := fun {u s} hs =>
        (Server.copy_isSome_iff _ sel target u).mp (by rw [hs]; rfl)
      cases cmd with
      | uidMove u t =>
        cases htarget
        obtain ⟨s, hs, -⟩ := Option.map_eq_some_iff.mp hrun
        exact hcopy hs
      | uidCopy u t =>
        cases htarget
        exact hcopy hrun
      | _ => cases htarget

end First

/-! ## Section 6: Action lists that only change flags, move and delete -/

/-- The action sends nothing and makes no further copy. -/
def SieveAction.repeatable : SieveAction → Bool
  | .redirect _ | .reject _ | .fileInto _ true _ => false
  | _ => true

section Repeatable

variable {x : ActionExecutor} {ctx ctx' : MessageContext} {actions : List SieveAction}

/-- Of the message only its UID matters. -/
theorem operations_congr (hactions : ∀ a ∈ actions, a.repeatable = true)
    (huid : ctx'.uid = ctx.uid) : x.operations ctx' actions = x.operations ctx actions := by
  have hdispositions : actions.flatMap (dispositionOps x ctx') =
      actions.flatMap (dispositionOps x ctx) := by
    refine List.flatMap_congr fun a ha => ?_
    cases a with
    | fileInto mailbox copy create => rw [dispositionOps, dispositionOps, huid]
    | redirect addresses => cases hactions _ ha
    | reject reason => cases hactions _ ha
    | _ => rfl
  rw [ActionExecutor.operations, ActionExecutor.operations, ActionExecutor.passes,
    ActionExecutor.passes, hdispositions, huid]

/-- There are STOREs of the flag actions, the commands of moves, and the final deletion. -/
theorem mem_operations_repeatable (hactions : ∀ a ∈ actions, a.repeatable = true) {op : Op}
    (h : op ∈ x.operations ctx actions) :
    (∃ fop flags, op = .need (.uidStoreFlags ctx.uid fop flags)) ∨
      (∃ mailbox create, .fileInto mailbox false create ∈ actions ∧
        op ∈ fileOps x.caps ctx.uid mailbox false create) ∨
      (actions.any SieveAction.deletes = true ∧ op ∈ deleteOps x.caps ctx.uid) := by
  rcases List.mem_append.mp h with hpass | hdelete
  · rcases List.mem_append.mp hpass with hflag | hdisp
    · obtain ⟨a, -, hop⟩ := List.mem_flatMap.mp hflag
      obtain ⟨fop, flags, -, rfl⟩ := mem_flagOps.mp hop
      exact .inl ⟨fop, flags, rfl⟩
    · obtain ⟨a, ha, hop⟩ := List.mem_flatMap.mp hdisp
      cases a with
      | fileInto mailbox copy create =>
        cases copy with
        | true => cases hactions _ ha
        | false => exact .inr (.inl ⟨mailbox, create, ha, hop⟩)
      | redirect addresses => cases hactions _ ha
      | reject reason => cases hactions _ ha
      | _ => cases hop
  · split at hdelete
    · next hany => exact .inr (.inr ⟨hany, hdelete⟩)
    · cases hdelete

/-- The list takes the message away, on a server that can. -/
def Takes (caps : Capabilities) (actions : List SieveAction) : Prop :=
  (∃ mailbox create, .fileInto mailbox false create ∈ actions) ∨
    (actions.any SieveAction.deletes = true ∧ caps.uidplus = true)

section First

variable {S : Surroundings Call Reply World} {sel : String} {w w' : World} {tr tr' : History}

theorem Performs.gone_of_infix {uid : Nat} {ops mid : List Op} (hS : Quiet S)
    (hsel : w.selected = some sel) (h : Performs S ops w tr w' tr')
    (habout : ∀ op ∈ ops, op.About uid) (hwithin : mid <:+: ops)
    (hmid : ∀ {w tr w' tr'}, w.selected = some sel → Performs S mid w tr w' tr' →
      Gone sel uid w'.server) : Gone sel uid w'.server := by
  obtain ⟨before, after, rfl⟩ := hwithin
  obtain ⟨w₂, tr₂, hfirst, hafter⟩ := h.of_append
  obtain ⟨w₁, tr₁, hbefore, htaken⟩ := hfirst.of_append
  refine hafter.gone hS (hfirst.selected hS hsel)
    (fun op hop => habout op (List.mem_append_right _ hop)) ?_
  exact hmid (hbefore.selected hS hsel) htaken

theorem Performs.takes_gone (hS : Quiet S) (hsel : w.selected = some sel)
    (hcaps : x.caps.supportsMove = true ∨ x.caps.uidplus = true)
    (h : Performs S (x.operations ctx actions) w tr w' tr') (htakes : Takes x.caps actions) :
    Gone sel ctx.uid w'.server := by
  have habout : ∀ op ∈ x.operations ctx actions, op.About ctx.uid :=
    fun op hop => operations_about hop
  rcases htakes with ⟨mailbox, create, haction⟩ | ⟨hany, hplus⟩
  · -- it is gone after the move
    have hmove : moveOps x.caps ctx.uid mailbox <:+:
        dispositionOps x ctx (.fileInto mailbox false create) := (List.suffix_append _ _).isInfix
    have hdispositions : dispositionOps x ctx (.fileInto mailbox false create) <:+:
        actions.flatMap (dispositionOps x ctx) :=
      List.infix_of_mem_flatten (List.mem_map_of_mem haction)
    have hpasses : actions.flatMap (dispositionOps x ctx) <:+: x.passes ctx actions :=
      (List.suffix_append _ _).isInfix
    refine h.gone_of_infix hS hsel habout ((hmove.trans hdispositions).trans
      (hpasses.trans (List.prefix_append _ _).isInfix)) ?_
    exact fun hsel hmoved => hmoved.moveOps_gone hS hsel hcaps
  · -- it is gone after the final deletion
    have hdelete : [.need (.uidStoreFlags ctx.uid .add ["\\Deleted"]),
        .need (.uidExpunge [ctx.uid])] <:+: deleteOps x.caps ctx.uid := by
      rw [deleteOps, hplus, if_pos rfl]
      exact (List.suffix_cons _ _).isInfix
    have htail : deleteOps x.caps ctx.uid <:+: x.operations ctx actions := by
      rw [ActionExecutor.operations, hany, if_pos rfl]
      exact (List.suffix_append _ _).isInfix
    exact h.gone_of_infix hS hsel habout (hdelete.trans htail)
      fun hsel hdeleted => hdeleted.expunge_gone hS hsel

/-- After a successful execution that took the message away, nothing is left to do. -/
theorem Performs.spent (hS : Quiet S) (hsel : w.selected = some sel)
    (hactions : ∀ a ∈ actions, a.repeatable = true)
    (h : Performs S (x.operations ctx actions) w tr w' tr') :
    ∀ op ∈ x.operations ctx actions, op.Spent ctx.uid w'.server.folders := by
  intro op hop
  -- the target of each command exists
  have htarget : ∀ cmd t, .need cmd ∈ x.operations ctx actions → cmd.target = some t →
      (w'.server.folders.folder t).isSome = true := by
    intro cmd t hmem ht
    rw [Server.folder_folders, Option.isSome_map]
    exact h.target_isSome hS hsel hmem ht
  have hneed : ∀ cmd, op = .need cmd → (∀ name, cmd ≠ .uidCreateMailbox name) →
      op.Spent ctx.uid w'.server.folders := by
    rintro cmd rfl hcreate
    exact .inl ⟨cmd, rfl, operations_about hop cmd rfl, hcreate, fun t => htarget cmd t hop⟩
  rcases mem_operations_repeatable hactions hop with ⟨fop, flags, rfl⟩ |
      ⟨mailbox, create, haction, hfile⟩ | ⟨-, hdelete⟩
  · exact hneed _ rfl (by simp)
  · rcases mem_fileOps.mp hfile with ⟨-, rfl⟩ | ⟨hcopy, -⟩ | ⟨-, hmove⟩
    · -- the message was filed into the mailbox that CREATE names
      obtain ⟨first, cmd, rest, hops, -, -, ht⟩ :=
        fileOps_eq x.caps ctx.uid mailbox false create
      refine .inr (.inl ⟨mailbox, rfl, htarget cmd mailbox ?_ ht⟩)
      refine List.mem_append_left _ (List.mem_append_right _ (List.mem_flatMap.mpr
        ⟨_, haction, ?_⟩))
      change Op.need cmd ∈ fileOps x.caps ctx.uid mailbox false create
      rw [hops]
      exact List.mem_append_right _ List.mem_cons_self
    · cases hcopy
    · rcases mem_moveOps.mp hmove with ⟨-, rfl⟩ | ⟨-, rfl | rfl | ⟨-, rfl⟩⟩ <;>
        exact hneed _ rfl (by simp)
  · rcases mem_deleteOps.mp hdelete with rfl | rfl | ⟨-, rfl⟩
    · exact .inr (.inr rfl)
    · exact hneed _ rfl (by simp)
    · exact hneed _ rfl (by simp)

end First

/-- The flag changes of a list that leaves the message where it is. -/
def storedChanges (actions : List SieveAction) : List (FlagOp × List String) :=
  flagChanges actions ++ if actions.any SieveAction.deletes then [(.add, ["\\Deleted"])] else []

theorem operations_of_not_takes (hactions : ∀ a ∈ actions, a.repeatable = true)
    (htakes : ¬ Takes x.caps actions) :
    x.operations ctx actions = storeOps ctx.uid (flagChanges actions) ++
      if actions.any SieveAction.deletes then
        [.deleting ctx.uid, .need (.uidStoreFlags ctx.uid .add ["\\Deleted"])]
      else [] := by
  have hnothing : actions.flatMap (dispositionOps x ctx) = [] := by
    refine List.flatMap_eq_nil_iff.mpr fun a ha => ?_
    cases a with
    | fileInto mailbox copy create =>
      cases copy with
      | true => cases hactions _ ha
      | false => exact absurd (.inl ⟨mailbox, create, ha⟩) htakes
    | redirect addresses => cases hactions _ ha
    | reject reason => cases hactions _ ha
    | _ => rfl
  rw [ActionExecutor.operations, ActionExecutor.passes, hnothing, List.append_nil,
    flatMap_flagOps]
  cases hany : actions.any SieveAction.deletes with
  | false => rfl
  | true =>
    -- without UIDPLUS the message is marked only
    have hplus : x.caps.uidplus = false :=
      Bool.eq_false_iff.mpr fun hplus => htakes (.inr ⟨hany, hplus⟩)
    rw [if_pos rfl, if_pos rfl, deleteOps, hplus, if_neg Bool.false_ne_true, List.append_nil]

theorem isStore_of_not_takes (hactions : ∀ a ∈ actions, a.repeatable = true)
    (htakes : ¬ Takes x.caps actions) {op : Op} (h : op ∈ x.operations ctx actions) :
    op.isStore = true := by
  rw [operations_of_not_takes hactions htakes] at h
  rcases List.mem_append.mp h with hflag | hdelete
  · obtain ⟨change, -, rfl⟩ := List.mem_map.mp hflag
    rfl
  · split at hdelete
    · rcases List.mem_pair.mp hdelete with rfl | rfl <;> rfl
    · cases hdelete

/-- Such a list changes the flags of the message and nothing else. -/
theorem effects_of_not_takes {draw : Nat → Stamp} {v : View} {sel : String}
    (hsel : v.selected = some sel) (hactions : ∀ a ∈ actions, a.repeatable = true)
    (htakes : ¬ Takes x.caps actions) :
    effects draw (x.operations ctx actions) v =
      ({ v with folders :=
          v.folders.modify sel (Folder.change ctx.uid (storedChanges actions)) }, true) := by
  have hsame : SameEffects draw (x.operations ctx actions)
      (storeOps ctx.uid (storedChanges actions)) := by
    rw [operations_of_not_takes hactions htakes, storedChanges, storeOps_append]
    refine SameEffects.append (fun _ => rfl) fun v => ?_
    cases actions.any SieveAction.deletes <;> rfl
  rw [hsame v, effects_storeOps hsel]

end Repeatable

/-! ## Section 7: Processing a message once more -/

/-- After a first success the operations succeed again, and leave the folders as they are. -/
theorem Performs.effects_twice {x : ActionExecutor} {ctx : MessageContext}
    {actions : List SieveAction} {draw : Nat → Stamp} {w w₁ : World} {tr₁ : History} {v : View}
    (h : Performs executorWorld (x.operations ctx actions) w [] w₁ tr₁)
    (hactions : ∀ a ∈ actions, a.repeatable = true)
    (hcaps : x.caps.supportsMove = true ∨ x.caps.uidplus = true)
    (hsel : w.selected = some x.sourceMailbox) (hsel₂ : v.selected = some x.sourceMailbox)
    (hfolders : v.folders = w₁.server.folders) :
    ∃ folders, effects draw (x.operations ctx actions) v = ({ v with folders }, true) ∧
      w₁.server.folders.Same folders := by
  have hS := quiet_executorWorld
  rw [← hfolders]
  by_cases htakes : Takes x.caps actions
  · -- the message is gone, and no operation has an effect
    have habsent : (v.folders.folder x.sourceMailbox).bind (fun f => f.find? ctx.uid) = none := by
      rw [hfolders, Server.find?_folders, h.takes_gone hS hsel hcaps htakes, Option.map_none]
    refine ⟨v.folders, effects_spent (fun op hop => ?_) hsel₂ habsent, Folders.Same.refl _⟩
    rw [hfolders]
    exact h.spent hS hsel hactions op hop
  · -- the same flag changes are made again
    have hexact : Performs (exactWorld draw) (x.operations ctx actions) w [] w₁ tr₁ :=
      h.exactly fun op hop => isStore_of_not_takes hactions htakes hop
    have hfirst := hexact.effects_append []
    rw [List.append_nil, effects_of_not_takes hsel hactions htakes] at hfirst
    obtain ⟨hview, -⟩ := Prod.mk.inj hfirst
    have hchanged : v.folders = w.server.folders.modify x.sourceMailbox
        (Folder.change ctx.uid (storedChanges actions)) :=
      hfolders.trans (congrArg View.folders hview).symm
    refine ⟨_, effects_of_not_takes hsel₂ hactions htakes, ?_⟩
    rw [hchanged]
    exact Folders.same_modify (Folder.change_twice ctx.uid _) _ _

/-- A list without redirects, rejections and copies that was executed with success, on a server
with MOVE or UIDPLUS, is executed once more, on a server that executes commands exactly: this
succeeds, too, and leaves all mailboxes as they are. -/
theorem execute_twice (x : ActionExecutor) (ctx ctx' : MessageContext)
    (actions : List SieveAction) (draw : Nat → Stamp) (w w₁ w₂ : World) (tr₁ : History)
    (hactions : ∀ a ∈ actions, a.repeatable = true)
    (hcaps : x.caps.supportsMove = true ∨ x.caps.uidplus = true)
    (hsel : w.selected = some x.sourceMailbox)
    (hfirst : Steps executorWorld ⟨(x.execute ctx actions).run, w, []⟩ ⟨.ret (.ok ()), w₁, tr₁⟩)
    (huid : ctx'.uid = ctx.uid) (hsel₂ : w₂.selected = some x.sourceMailbox)
    (hserver : w₂.server = w₁.server) :
    (∃ r w' tr', Steps (exactWorld draw) ⟨(x.execute ctx' actions).run, w₂, []⟩
      ⟨.ret r, w', tr'⟩) ∧
    ∀ r w' tr', Steps (exactWorld draw) ⟨(x.execute ctx' actions).run, w₂, []⟩ ⟨.ret r, w', tr'⟩ →
      r = .ok () ∧ w₁.server.folders.Same w'.server.folders := by
  refine ⟨(loopFree_execute x ctx' actions).returns (exactly_answered draw) w₂ [], ?_⟩
  intro r w' tr' h
  have hperforms : Performs executorWorld (x.operations ctx actions) w [] w₁ tr₁ :=
    performs_of_execute quiet_executorWorld.quiet hfirst
  -- the second execution has the effects of the same operations
  rw [execute_eq_runOps, operations_congr hactions huid] at h
  have heffects := effects_of_steps h
  have hfolders : w₂.view.folders = w₁.server.folders := congrArg Server.folders hserver
  obtain ⟨folders, hrun, hsame⟩ := hperforms.effects_twice hactions hcaps hsel hsel₂ hfolders
  rw [hrun] at heffects
  obtain ⟨hview, hok⟩ := Prod.mk.inj heffects
  obtain ⟨-, rfl, -⟩ := View.mk.inj hview
  refine ⟨?_, hsame⟩
  cases r with
  | ok u => rfl
  | error e => cases hok

/-- A message that is moved to `Archive` with a flag, and found no more the second time. -/
theorem execute_twice_moved :
    let caps : Capabilities := { supportsMove := true }
    let actions := [.setFlag ["\\Seen"], .fileInto "Archive" false false]
    let run := sampleRun caps actions 2
    (∃ r w' tr', Steps (exactWorld fun _ => ⟨"", ""⟩)
      ⟨((⟨true, caps, "INBOX"⟩ : ActionExecutor).execute sampleContext actions).run, run.world,
        []⟩ ⟨.ret r, w', tr'⟩) ∧
    ∀ r w' tr', Steps (exactWorld fun _ => ⟨"", ""⟩)
        ⟨((⟨true, caps, "INBOX"⟩ : ActionExecutor).execute sampleContext actions).run, run.world,
          []⟩ ⟨.ret r, w', tr'⟩ →
      r = .ok () ∧ run.world.server.folders.Same w'.server.folders :=
  execute_twice ⟨true, { supportsMove := true }, "INBOX"⟩ sampleContext sampleContext
    [.setFlag ["\\Seen"], .fileInto "Archive" false false] (fun _ => ⟨"", ""⟩)
    sampleExecutorWorld _ _ _ (by decide) (.inl rfl) rfl (steps_sampleRun (n := 2) rfl) rfl rfl rfl

end ImapSieve
