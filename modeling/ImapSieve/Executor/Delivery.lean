import ImapSieve.Engine.Events

/-!
# Where the Folders Get Their Copies

Which `FileInto` events end with a copy in their folder, when everything succeeds. A copy is
made as long as the message is there, so what counts is whether a move comes before: with a
Keep event every `FileInto` is a copy, without one the first move takes the message away and
every later `FileInto` acts on nothing, with success.
-/

namespace ImapSieve

open Effects

/-! ## Section 1: Delivery by the first operations -/

section Copies

variable {S : Surroundings Call Reply World} {sel target target' : String} {uid n : Nat}
  {c : Content} {op : Op} {ops done rest : List Op} {w w' : World} {tr tr' : History}

theorem CopyIn.congr {s : Server} (h : mailboxKey target = mailboxKey target')
    (hcopy : CopyIn sel uid c target n s) : CopyIn sel uid c target' n s := by
  obtain ⟨v, m, hv, hother, hm, hc⟩ := hcopy
  exact ⟨v, m, hv, h ▸ hother, s.find?_congr h v ▸ hm, hc⟩

theorem nextUid_congr (s : Server) (h : mailboxKey target = mailboxKey target') :
    s.nextUid target = s.nextUid target' := by
  rw [Server.nextUid, Server.nextUid, s.box_congr h]

/-- A copy or move that is performed before anything takes the message away leaves a new
copy in its target. -/
theorem Performs.delivers (hS : Quiet S) (hsel : w.selected = some sel) {cmd : ImapCommand}
    (h : Performs S (done ++ .need cmd :: rest) w tr w' tr')
    (habout : ∀ op ∈ done ++ .need cmd :: rest, op.About uid)
    (hstays : ∀ op ∈ done, op.removes = false) (htarget : cmd.target = some target)
    (hp : Present sel uid c w.server) :
    CopyIn sel uid c target (w.server.nextUid target) w'.server := by
  obtain ⟨w₁, tr₁, hdone, hlast⟩ := h.of_append
  have hsel₁ := hdone.selected hS hsel
  have hp₁ := hdone.present hS hsel (fun op hop => habout op (List.mem_append_left _ hop)) hstays hp
  cases hlast with
  | @cons _ _ _ w₂ _ _ _ _ hop hrest =>
    have haff := hop.affects hS hsel₁
    -- the command makes the copy, and what follows keeps it
    have hcopy : CopyIn sel uid c target (w.server.nextUid target) w₂.server := by
      cases hop with
      | need hans =>
        exact hp₁.copyIn (answers_command_ok hsel₁ (hS.answers hans)).2
          (habout _ (List.mem_append_right _ List.mem_cons_self) _ rfl) htarget
          (hdone.nextUid_le hS hsel target)
    exact hrest.copyIn hS haff.1
      (fun op hop => habout op (List.mem_append_right _ (List.mem_cons_of_mem _ hop))) hcopy

/-- An operation with another target, or one on a message that is gone, makes no copy. -/
theorem Op.Affects.no_copyIn (h : op.Affects sel w w') (habout : op.About uid)
    (hno : Gone sel uid w.server ∨ ∀ cmd, op.command? = some cmd →
      ∀ t, cmd.target = some t → mailboxKey target ≠ mailboxKey t)
    (hcopy : ¬ CopyIn sel uid c target n w.server) : ¬ CopyIn sel uid c target n w'.server := by
  rcases h.2 with hserver | ⟨cmd, hcmd, hrun⟩
  · rwa [hserver]
  · intro hnew
    have hno' := hno.imp_right fun h => h cmd hcmd
    exact hcopy (copyIn_of_run hrun (habout cmd hcmd) hno' hnew)

theorem Performs.no_copyIn (hS : Quiet S) (hsel : w.selected = some sel)
    (h : Performs S ops w tr w' tr') (habout : ∀ op ∈ ops, op.About uid)
    (hno : ∀ op ∈ ops, ∀ cmd, op.command? = some cmd →
      ∀ t, cmd.target = some t → mailboxKey target ≠ mailboxKey t)
    (hcopy : ¬ CopyIn sel uid c target n w.server) : ¬ CopyIn sel uid c target n w'.server :=
  (h.induction hS hsel (I := fun w => ¬ CopyIn sel uid c target n w.server)
    (fun op hop _ _ haff hc => haff.no_copyIn (habout op hop) (.inr (hno op hop)) hc) hcopy).2

theorem Performs.no_copyIn_of_gone (hS : Quiet S) (hsel : w.selected = some sel)
    (h : Performs S ops w tr w' tr') (habout : ∀ op ∈ ops, op.About uid)
    (hgone : Gone sel uid w.server) (hcopy : ¬ CopyIn sel uid c target n w.server) :
    ¬ CopyIn sel uid c target n w'.server :=
  (h.induction hS hsel
    (I := fun w => Gone sel uid w.server ∧ ¬ CopyIn sel uid c target n w.server)
    (fun op hop _ _ haff hI =>
      ⟨haff.gone (habout op hop) hI.1, haff.no_copyIn (habout op hop) (.inl hI.1) hI.2⟩)
    ⟨hgone, hcopy⟩).2.2

/-- Nothing is under the next UID of a mailbox or above. -/
theorem no_copyIn_nextUid (s : Server) : ¬ CopyIn sel uid c target (s.nextUid target) s := by
  rintro ⟨v, m, hv, -, hm, -⟩
  exact absurd (Server.lt_nextUid_of_find? hm) (by omega)

end Copies

/-! ## Section 2: Copies of an action list -/

/-- The operation delivers something: it copies the message, or sends a mail. -/
def Op.delivers : Op → Bool
  | .need cmd | .attempt cmd => cmd.target.isSome
  | .send _ | .notice _ _ => true
  | .refuse _ | .deleting _ => false

/-- The operations of a `FileInto` start, after the CREATE, with the command that copies, the
only one of them that delivers. -/
theorem fileOps_eq (caps : Capabilities) (uid : Nat) (mailbox : String) (copy create : Bool) :
    ∃ first cmd rest, fileOps caps uid mailbox copy create = first ++ .need cmd :: rest ∧
      (∀ op ∈ first, op.removes = false ∧ op.delivers = false) ∧
      (∀ op ∈ rest, op.delivers = false) ∧ cmd.target = some mailbox := by
  refine ⟨if create then [.attempt (.uidCreateMailbox mailbox)] else [], ?_⟩
  have hfirst : ∀ op ∈ (if create then [.attempt (.uidCreateMailbox mailbox)] else [] : List Op),
      op.removes = false ∧ op.delivers = false := by
    cases create <;> simp [Op.removes, Op.command?, ImapCommand.removes, Op.delivers,
      ImapCommand.target]
  cases copy with
  | true => exact ⟨.uidCopy uid mailbox, [], rfl, hfirst, by simp, rfl⟩
  | false =>
    cases hmove : caps.supportsMove with
    | true =>
      exact ⟨.uidMove uid mailbox, [], by simp [fileOps, moveOps, hmove], hfirst, by simp, rfl⟩
    | false =>
      refine ⟨.uidCopy uid mailbox, _, by simp [fileOps, moveOps, hmove]; rfl, hfirst, ?_, rfl⟩
      cases caps.uidplus <;> simp [Op.delivers, ImapCommand.target]

/-- A list with a `FileInto`, split at the first one. -/
theorem exists_first_fileInto {actions : List SieveAction} {folder : String} {copy create : Bool}
    (h : .fileInto folder copy create ∈ actions) :
    ∃ pre folder copy create post, actions = pre ++ .fileInto folder copy create :: post ∧
      ∀ a ∈ pre, a.isFileInto = false := by
  have hsome : (actions.find? SieveAction.isFileInto).isSome = true :=
    List.find?_isSome.mpr ⟨_, h, rfl⟩
  obtain ⟨a, ha⟩ := Option.isSome_iff_exists.mp hsome
  obtain ⟨hfile, pre, post, hsplit, hpre⟩ := List.find?_eq_some_iff_append.mp ha
  obtain ⟨folder, copy, create, rfl⟩ := isFileInto_eq_true.mp hfile
  exact ⟨pre, folder, copy, create, post, hsplit, fun b hb => by simpa using hpre b hb⟩

/-- A `FileInto` with nothing before it that takes the message away delivers. -/
theorem delivers_of_split {S : Surroundings Call Reply World} (hS : Quiet S) {x : ActionExecutor}
    {ctx : MessageContext} {c : Content} {pre post : List SieveAction} {folder : String}
    {copy create : Bool} {w w' : World} {tr tr' : History}
    (hsel : w.selected = some x.sourceMailbox)
    (h : Performs S (x.operations ctx (pre ++ .fileInto folder copy create :: post)) w tr w' tr')
    (hpre : ∀ mailbox create, .fileInto mailbox false create ∈ pre →
      x.caps.supportsMove = false ∧ x.caps.uidplus = false)
    (hp : Present x.sourceMailbox ctx.uid c w.server) :
    CopyIn x.sourceMailbox ctx.uid c folder (w.server.nextUid folder) w'.server := by
  obtain ⟨first, cmd, rest, hfile, hfirst, -, htarget⟩ :=
    fileOps_eq x.caps ctx.uid folder copy create
  -- the operations, split at the command that files
  let actions := pre ++ .fileInto folder copy create :: post
  let done := x.ahead ctx pre (.fileInto folder copy create) post ++ first
  have hops : x.operations ctx actions = done ++ .need cmd ::
      (rest ++ x.behind ctx pre (.fileInto folder copy create) post) := by
    rw [operations_split, dispositionOps, hfile]
    simp only [done, List.append_assoc, List.cons_append]
  have habout : ∀ op ∈ x.operations ctx actions, op.About ctx.uid := fun op hop =>
    operations_about hop
  -- the flags and the actions before take nothing away
  have hstays : ∀ op ∈ done, op.removes = false := by
    intro op hop
    rcases List.mem_append.mp hop with hahead | hfirst'
    · rcases mem_ahead hahead with ⟨_, _, rfl⟩ | ⟨action, haction, hop⟩
      · rfl
      · refine removes_dispositionOps hop fun mailbox create haction' => ?_
        exact hpre mailbox create (haction' ▸ haction)
    · exact (hfirst op hfirst').1
  exact Performs.delivers hS hsel (hops ▸ h) (hops ▸ habout) hstays htarget hp

/-- Where no action before it files the message, nothing is copied ahead of an action. -/
theorem target_of_ahead {x : ActionExecutor} {ctx : MessageContext} {pre post : List SieveAction}
    {action : SieveAction} (hpre : ∀ a ∈ pre, a.isFileInto = false) {op : Op}
    (h : op ∈ x.ahead ctx pre action post) {cmd : ImapCommand} (hcmd : op.command? = some cmd) :
    cmd.target = none := by
  rcases mem_ahead h with ⟨_, _, rfl⟩ | ⟨a, ha, hop⟩
  · cases hcmd
    rfl
  · rcases mem_dispositionOps hop with (⟨_, rfl⟩ | ⟨_, rfl⟩ | ⟨_, _, rfl⟩) |
        ⟨mailbox, copy, create, rfl, -⟩
    · cases hcmd
    · cases hcmd
    · cases hcmd
    · cases hpre _ ha

/-- A move copies to its own folder only. -/
theorem target_of_fileOps {caps : Capabilities} {uid : Nat} {folder : String} {create : Bool}
    {op : Op} (h : op ∈ fileOps caps uid folder false create) {cmd : ImapCommand}
    (hcmd : op.command? = some cmd) {t : String} (ht : cmd.target = some t) : t = folder := by
  rcases mem_fileOps.mp h with ⟨-, rfl⟩ | ⟨hcopy, -⟩ | ⟨-, hmove⟩
  · cases hcmd
    cases ht
  · cases hcopy
  · rcases mem_moveOps.mp hmove with ⟨-, rfl⟩ | ⟨-, rfl | rfl | ⟨-, rfl⟩⟩ <;> cases hcmd <;>
      cases ht <;> rfl

/-- After the first `FileInto`, if it takes the message away, no other folder gets a copy. -/
theorem not_delivers_of_split {S : Surroundings Call Reply World} (hS : Quiet S)
    {x : ActionExecutor} {ctx : MessageContext} {c : Content} {pre post : List SieveAction}
    {folder other : String} {create : Bool} {w w' : World} {tr tr' : History}
    (hsel : w.selected = some x.sourceMailbox)
    (h : Performs S (x.operations ctx (pre ++ .fileInto folder false create :: post)) w tr w' tr')
    (hpre : ∀ a ∈ pre, a.isFileInto = false)
    (hcaps : x.caps.supportsMove = true ∨ x.caps.uidplus = true)
    (hother : mailboxKey other ≠ mailboxKey folder) :
    ¬ CopyIn x.sourceMailbox ctx.uid c other (w.server.nextUid other) w'.server := by
  rw [operations_split] at h
  have habout : ∀ op ∈ x.ahead ctx pre (.fileInto folder false create) post ++
      (fileOps x.caps ctx.uid folder false create ++
        x.behind ctx pre (.fileInto folder false create) post), op.About ctx.uid := by
    intro op hop
    exact operations_about (operations_split x ctx pre (.fileInto folder false create) post ▸ hop)
  obtain ⟨w₁, tr₁, hahead, hrest⟩ := h.of_append
  obtain ⟨w₂, tr₂, hfile, hbehind⟩ := hrest.of_append
  have hsel₁ := hahead.selected hS hsel
  have hno₁ : ¬ CopyIn x.sourceMailbox ctx.uid c other (w.server.nextUid other) w₁.server := by
    refine hahead.no_copyIn hS hsel (fun op hop => habout op (List.mem_append_left _ hop)) ?_
      (no_copyIn_nextUid w.server)
    intro op hop cmd hcmd t ht
    rw [target_of_ahead hpre hop hcmd] at ht
    cases ht
  have hno₂ : ¬ CopyIn x.sourceMailbox ctx.uid c other (w.server.nextUid other) w₂.server := by
    refine hfile.no_copyIn hS hsel₁
      (fun op hop => habout op (List.mem_append_right _ (List.mem_append_left _ hop))) ?_ hno₁
    intro op hop cmd hcmd t ht
    rw [target_of_fileOps hop hcmd ht]
    exact hother
  -- the message is gone, and nothing more is copied
  obtain ⟨w₃, tr₃, hcreate, hmove⟩ := Performs.of_append hfile
  have hgone := hmove.moveOps_gone hS (hcreate.selected hS hsel₁) hcaps
  exact hbehind.no_copyIn_of_gone hS (hfile.selected hS hsel₁)
    (fun op hop => habout op (List.mem_append_right _ (List.mem_append_right _ hop))) hgone hno₂

/-! ## Section 3: The deliveries of an event sequence -/

/-- The events that are all delivered: there is a Keep event, or the server takes nothing
away, or all FileInto events name one folder. -/
def DeliversAll (caps : Capabilities) (events : List Event) : Prop :=
  KeepIn events ∨ (caps.supportsMove = false ∧ caps.uidplus = false) ∨
    ∀ folder folder', FileIntoIn events folder → FileIntoIn events folder' →
      mailboxKey folder = mailboxKey folder'

section Delivered

variable {S : Surroundings Call Reply World} {x : ActionExecutor} {ctx : MessageContext}
  {c : Content} {events : List Event} {w w' : World} {tr tr' : History}

/-- The events of that kind are all delivered. -/
theorem DeliversAll.delivers (hcond : DeliversAll x.caps events) (hS : Quiet S)
    (hsel : w.selected = some x.sourceMailbox)
    (h : Performs S (x.operations ctx (actionsOf events)) w tr w' tr')
    (hp : Present x.sourceMailbox ctx.uid c w.server) {folder : String}
    (hin : FileIntoIn events folder) :
    CopyIn x.sourceMailbox ctx.uid c folder (w.server.nextUid folder) w'.server := by
  obtain ⟨flags, create, id, hev⟩ := hin
  obtain ⟨copy, hcopy⟩ : ∃ copy : Bool, copy = true ↔ KeepIn events := by
    by_cases hk : KeepIn events
    · exact ⟨true, by simp [hk]⟩
    · exact ⟨false, by simp [hk]⟩
  have hmem : .fileInto folder copy create ∈ actionsOf events :=
    fileInto_mem_actionsOf.mpr ⟨hcopy, flags, id, hev⟩
  rcases hcond with hkeep | hcaps | hsame
  · -- every FileInto is a copy
    obtain ⟨pre, post, hsplit⟩ := List.append_of_mem hmem
    rw [hsplit] at h
    refine delivers_of_split hS hsel h (fun mailbox create' hpre => ?_) hp
    have hfirst : .fileInto mailbox false create' ∈ actionsOf events := by
      rw [hsplit]
      exact List.mem_append_left _ hpre
    cases (fileInto_mem_actionsOf.mp hfirst).1.mpr hkeep
  · obtain ⟨pre, post, hsplit⟩ := List.append_of_mem hmem
    rw [hsplit] at h
    exact delivers_of_split hS hsel h (fun _ _ _ => hcaps) hp
  · -- the first FileInto delivers, and it names the same folder
    obtain ⟨pre, first, copy', create', post, hsplit, hpre⟩ := exists_first_fileInto hmem
    have hfirst : .fileInto first copy' create' ∈ actionsOf events := by simp [hsplit]
    rw [hsplit] at h
    have hdelivered := delivers_of_split hS hsel h (fun mailbox create' hin => by
      cases hpre _ hin) hp
    obtain ⟨-, flags', id', hev'⟩ := fileInto_mem_actionsOf.mp hfirst
    have hkey := hsame first folder ⟨flags', create', id', hev'⟩ ⟨flags, create, id, hev⟩
    exact nextUid_congr w.server hkey ▸ hdelivered.congr hkey

/-- Of other events there is one that gets no copy. -/
theorem deliversAll_of_delivered (hS : Quiet S) (hsel : w.selected = some x.sourceMailbox)
    (h : Performs S (x.operations ctx (actionsOf events)) w tr w' tr')
    (hall : ∀ folder, FileIntoIn events folder →
      CopyIn x.sourceMailbox ctx.uid c folder (w.server.nextUid folder) w'.server) :
    DeliversAll x.caps events := by
  by_contra hnot
  obtain ⟨hkeep, hrest⟩ := not_or.mp hnot
  obtain ⟨hcaps, hfolders⟩ := not_or.mp hrest
  have hcaps : x.caps.supportsMove = true ∨ x.caps.uidplus = true :=
    (not_and_or.mp hcaps).imp (Bool.not_eq_false _).mp (Bool.not_eq_false _).mp
  push Not at hfolders
  obtain ⟨folder, folder', hin, hin', hne⟩ := hfolders
  obtain ⟨flags, create, id, hev⟩ := hin
  have hmem : .fileInto folder false create ∈ actionsOf events :=
    fileInto_mem_actionsOf.mpr ⟨by simp [hkeep], flags, id, hev⟩
  obtain ⟨pre, first, copy, create', post, hsplit, hpre⟩ := exists_first_fileInto hmem
  have hfirst : .fileInto first copy create' ∈ actionsOf events := by simp [hsplit]
  obtain rfl : copy = false :=
    Bool.eq_false_iff.mpr fun hc => hkeep ((fileInto_mem_actionsOf.mp hfirst).1.mp hc)
  rw [hsplit] at h
  -- one of the two folders is not that of the first FileInto
  by_cases hsame : mailboxKey folder = mailboxKey first
  · exact not_delivers_of_split hS hsel h hpre hcaps (fun heq => hne (hsame.trans heq.symm))
      (hall folder' hin')
  · exact not_delivers_of_split hS hsel h hpre hcaps hsame (hall folder ⟨flags, create, id, hev⟩)

end Delivered

/-- Every FileInto event gets a new copy of the message into its folder exactly when the
events are of that kind. -/
theorem fileInto_delivered_iff (x : ActionExecutor) (script : CompiledScript) (m : StoredMessage)
    (actions : List SieveAction) (w w' : World) (tr : History)
    (heval : evaluate script m.toContext = .ok actions)
    (hsel : w.selected = some x.sourceMailbox)
    (hfind : w.server.find? x.sourceMailbox m.uid = some m)
    (hrun : Steps executorWorld ⟨(x.execute m.toContext actions).run, w, []⟩
      ⟨.ret (.ok ()), w', tr⟩) :
    (∀ folder, FileIntoIn (emitted script m.toContext) folder →
      CopyIn x.sourceMailbox m.uid m.content folder (w.server.nextUid folder) w'.server) ↔
    DeliversAll x.caps (emitted script m.toContext) := by
  have hS := quiet_executorWorld
  obtain rfl := evaluate_eq_ok heval
  have hp : Present x.sourceMailbox m.uid m.content w.server := ⟨m, hfind, rfl⟩
  have hperforms := performs_of_execute hS.quiet hrun
  constructor
  · exact deliversAll_of_delivered hS hsel hperforms
  · exact fun hcond folder hin => hcond.delivers hS hsel hperforms hp hin

/-- One FileInto event without Keep, by MOVE. -/
theorem fileInto_delivered_iff_single :
    (∀ folder, FileIntoIn [.fileInto "Archive" [] false 0] folder →
      CopyIn "INBOX" 1 sampleContent folder (sampleExecutorWorld.server.nextUid folder)
        (sampleRun { supportsMove := true } [.fileInto "Archive" false false] 1).world.server) ↔
    DeliversAll { supportsMove := true } [.fileInto "Archive" [] false 0] :=
  fileInto_delivered_iff ⟨true, { supportsMove := true }, "INBOX"⟩
    (scriptOf [.fileInto "Archive" [] false 0]) ⟨1, 2, [], sampleContent⟩
    [.fileInto "Archive" false false] sampleExecutorWorld _ _ rfl rfl (by decide)
    (steps_sampleRun (n := 1) rfl)

/-- Of two FileInto events without Keep the second leaves nothing in its folder, although
everything succeeds. -/
theorem not_all_fileInto_delivered :
    ¬ ∀ (x : ActionExecutor) (script : CompiledScript) (m : StoredMessage)
      (actions : List SieveAction) (w w' : World) (tr : History),
      evaluate script m.toContext = .ok actions → w.selected = some x.sourceMailbox →
      w.server.find? x.sourceMailbox m.uid = some m →
      Steps executorWorld ⟨(x.execute m.toContext actions).run, w, []⟩
        ⟨.ret (.ok ()), w', tr⟩ →
      ∀ folder, FileIntoIn (emitted script m.toContext) folder →
        CopyIn x.sourceMailbox m.uid m.content folder 0 w'.server := by
  intro hall
  let run := sampleRun { supportsMove := true }
    [.fileInto "Archive" false false, .fileInto "Lists" false false] 2
  obtain ⟨v, m, -, -, hfind, -⟩ := hall ⟨true, { supportsMove := true }, "INBOX"⟩
    (scriptOf [.fileInto "Archive" [] false 0, .fileInto "Lists" [] false 0])
    ⟨1, 2, [], sampleContent⟩ [.fileInto "Archive" false false, .fileInto "Lists" false false]
    sampleExecutorWorld run.world run.trace rfl rfl (by decide) (steps_sampleRun rfl) "Lists"
    ⟨[], false, 0, by rw [emitted_scriptOf _ rfl]; exact List.mem_cons_of_mem _ List.mem_cons_self⟩
  obtain ⟨b, hbox, hb⟩ := Server.exists_box_of_find? hfind
  have hempty : (run.world.server.box "Lists").map Mailbox.messages = some [] := by decide
  rw [hbox] at hempty
  cases (Option.some.inj hempty) ▸ (b.find?_eq_some_iff.mp hb).1

end ImapSieve
