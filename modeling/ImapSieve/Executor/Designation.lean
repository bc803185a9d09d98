import ImapSieve.Executor.Delivery

/-!
# Which Message an Event Designates

Keep, FileInto and SendMessage events carry a message id: 0 is the received message, any other
number a message that the interpreter announced before by a CreatedMessage event (a vacation
reply, a notification, an edited message). `evaluate` drops the id.

`wanted` reads off the events what is to be delivered, with the bytes designated; `deeds` reads
off a trace what was delivered. The two lists are compared entry by entry.
-/

namespace ImapSieve

open Effects

/-! ## Section 1: What the events designate -/

/-- The message last announced under a number. The events are listed newest first. -/
def lastCreated (n : Nat) : List Event → Option (List UInt8)
  | [] => none
  | .createdMessage id message :: before =>
      if id = n then some message else lastCreated n before
  | _ :: before => lastCreated n before

/-- The bytes of the message that an id designates. -/
def designated (received : Option (List UInt8)) (before : List Event) :
    Nat → Option (List UInt8)
  | 0 => received
  | n + 1 => lastCreated (n + 1) before

/-- What an event asks to deliver. -/
inductive Wanted where
  | mail (addr : String) (content : Option (List UInt8))
  | notice (reason : String)
  | file (folder : String) (create : Bool) (content : Option (List UInt8))
deriving DecidableEq, Repr

def wantedOf (received : Option (List UInt8)) (before : List Event) : Event → List Wanted
  | .sendMessage (.address addr) id => [.mail addr (designated received before id)]
  | .reject reason => [.notice reason]
  | .fileInto folder _ create id => [.file folder create (designated received before id)]
  | _ => []

/-- What the events ask to deliver, in order; `before` are the events already seen. -/
def wanted (received : Option (List UInt8)) : List Event → List Event → List Wanted
  | _, [] => []
  | before, ev :: rest => wantedOf received before ev ++ wanted received (ev :: before) rest

def Wanted.isFile : Wanted → Bool
  | .file _ _ _ => true
  | _ => false

/-! ## Section 2: What a run delivers -/

/-- A mail was sent, or a message was copied or moved. The world is the one before. -/
inductive Deed where
  | mail (mail : OutgoingMail)
  | filing (w : World) (cmd : ImapCommand)

/-- What an answered call delivered. -/
def deedOf : Entry Call Reply World → List Deed
  | .called _ (.send mail) (.ok ()) => [.mail mail]
  | .called w (.command cmd) (.ok ()) => if cmd.target.isSome then [.filing w cmd] else []
  | _ => []

/-- What was delivered, in order. -/
def deeds (tr : History) : List Deed := tr.reverse.flatMap deedOf

/-- The message that a COPY or MOVE puts into its target. -/
def World.copied (w : World) (cmd : ImapCommand) : Option StoredMessage := do
  let sel ← w.selected
  let target ← cmd.target
  let s ← w.server.run sel cmd
  s.find? target (w.server.nextUid target)

/-- The deed is the one asked for, and what it delivers are the bytes designated. -/
def Delivers : Wanted → Deed → Prop
  | .mail addr content, .mail mail => mail.envelopeTo = [addr] ∧ content = some mail.raw
  | .notice reason, .mail mail => ∃ to' stamp, mail = noticeMail to' reason stamp
  | .file folder _ content, .filing w cmd =>
      cmd.target = some folder ∧ ∀ copy ∈ w.copied cmd, copy.content.raw = content
  | _, _ => False

/-! ## Section 3: From the events to the operations -/

/-- The action that an event pushed, after the copy inference. -/
def Wanted.action (copy : Bool) : Wanted → SieveAction
  | .mail addr _ => .redirect [addr]
  | .notice reason => .reject reason
  | .file folder create _ => .fileInto folder copy create

/-- The operations of what is wanted. -/
def Wanted.ops (x : ActionExecutor) (ctx : MessageContext) (copy : Bool) (v : Wanted) : List Op :=
  dispositionOps x ctx (v.action copy)

/-- The actions of the events as the copy inference leaves them. -/
def SieveAction.recopy (copy : Bool) (a : SieveAction) : SieveAction :=
  if copy then a.setCopy else a

section Operations

variable (x : ActionExecutor) (ctx : MessageContext)

theorem flatMap_wantedOf (received : Option (List UInt8)) (before : List Event) (copy : Bool)
    (ev : Event) :
    (handleEvent ev).1.flatMap (fun a => dispositionOps x ctx (a.recopy copy)) =
      (wantedOf received before ev).flatMap (Wanted.ops x ctx copy) := by
  cases ev with
  | keep flags id => cases flags <;> cases copy <;> rfl
  | fileInto folder flags create id => cases flags <;> cases copy <;> rfl
  | sendMessage recipient id => cases recipient <;> cases copy <;> rfl
  | _ => cases copy <;> rfl

theorem flatMap_wanted (received : Option (List UInt8)) (copy : Bool) (events : List Event)
    (before : List Event) :
    (rawActions events).flatMap (fun a => dispositionOps x ctx (a.recopy copy)) =
      (wanted received before events).flatMap (Wanted.ops x ctx copy) := by
  induction events generalizing before with
  | nil => rfl
  | cons ev rest ih =>
    rw [rawActions, List.flatMap_cons, List.flatMap_append, ← rawActions, ih (ev :: before),
      flatMap_wantedOf x ctx received before, wanted, List.flatMap_append]

/-- Dropping the Keep actions drops no operation. -/
theorem flatMap_filter_isKeep (actions : List SieveAction) :
    (actions.filter fun a => !a.isKeep).flatMap (dispositionOps x ctx) =
      actions.flatMap (dispositionOps x ctx) := by
  induction actions with
  | nil => rfl
  | cons a rest ih => cases a <;> simpa [SieveAction.isKeep, dispositionOps] using ih

/-- The implicit keep adds no operation. -/
theorem flatMap_implicitKeep (actions : List SieveAction) (copy : Bool) :
    (implicitKeep actions).flatMap (fun a => dispositionOps x ctx (a.recopy copy)) =
      actions.flatMap fun a => dispositionOps x ctx (a.recopy copy) := by
  unfold implicitKeep
  split
  · rfl
  · cases copy <;> simp [dispositionOps, SieveAction.recopy, SieveAction.setCopy]

/-- Where no `FileInto` is in the list, the copy inference has nothing to change. -/
theorem flatMap_recopy {actions : List SieveAction}
    (h : ∀ a ∈ actions, a.isFileInto = false) (copy : Bool) :
    actions.flatMap (fun a => dispositionOps x ctx (a.recopy copy)) =
      actions.flatMap (dispositionOps x ctx) := by
  refine congrArg List.flatten (List.map_congr_left fun a ha => ?_)
  have hfile := h a ha
  cases a <;> cases copy <;> first | rfl | cases hfile

theorem flatMap_inferCopy {actions : List SieveAction} {copy : Bool}
    (hcopy : actions.any SieveAction.isFileInto = true → copy = actions.any SieveAction.isKeep) :
    (inferCopy actions).flatMap (dispositionOps x ctx) =
      actions.flatMap fun a => dispositionOps x ctx (a.recopy copy) := by
  unfold inferCopy
  cases hfile : actions.any SieveAction.isFileInto with
  | false =>
    -- without a `FileInto` nothing is changed
    rw [flatMap_recopy x ctx (by simpa using hfile)]
    rfl
  | true =>
    -- every `FileInto` becomes a copy, and the Keep actions are dropped
    rw [hcopy hfile]
    cases hkeep : actions.any SieveAction.isKeep with
    | false => rfl
    | true =>
      rw [Bool.and_self, if_pos rfl, flatMap_filter_isKeep, List.flatMap_map]
      rfl

/-- The operations of the dispositions of an event sequence are those of what is wanted. -/
theorem flatMap_actionsOf (received : Option (List UInt8)) (events : List Event) :
    ∃ copy : Bool, (copy = true ↔ KeepIn events) ∧
      (actionsOf events).flatMap (dispositionOps x ctx) =
        (wanted received [] events).flatMap (Wanted.ops x ctx copy) := by
  refine ⟨(rawActions events).any SieveAction.isKeep, any_isKeep_rawActions, ?_⟩
  rw [actionsOf, flatMap_inferCopy x ctx ,
    flatMap_implicitKeep, flatMap_wanted x ctx received _ events []]
  intro hfile
  -- the implicit keep does not apply beside a `FileInto`
  obtain ⟨a, ha, hisFile⟩ := List.any_eq_true.mp hfile
  obtain ⟨folder, copy, create, rfl⟩ := isFileInto_eq_true.mp hisFile
  rw [implicitKeep_eq_self (List.any_eq_true.mpr ⟨_, (mem_implicitKeep (by simp)).mp ha, rfl⟩)]

end Operations

/-! ## Section 4: The deeds of operations -/

section Deeds

variable {S : Surroundings Call Reply World} {sel folder : String} {uid : Nat} {c : Content}
  {op : Op} {ops : List Op} {w w' : World} {tr tr' : History}

theorem deeds_cons (e : Entry Call Reply World) (tr : History) :
    deeds (e :: tr) = deeds tr ++ deedOf e := by
  simp [deeds]

theorem Op.Performed.deeds_eq (h : op.Performed S w tr w' tr') (hsilent : op.delivers = false) :
    deeds tr' = deeds tr := by
  cases h with
  | need h => simp_all [deeds_cons, deedOf, Op.delivers]
  | @attempt cmd r w w' tr h =>
    cases r <;> simp_all [deeds_cons, deedOf, Op.delivers]
  | send h => cases hsilent
  | notice h₁ h => cases hsilent
  | deleting h => simp [deeds_cons, deedOf]

theorem Performs.deeds_eq (h : Performs S ops w tr w' tr')
    (hsilent : ∀ op ∈ ops, op.delivers = false) : deeds tr' = deeds tr := by
  induction h with
  | nil => rfl
  | cons hop _ ih =>
    exact (ih fun op hop => hsilent op (List.mem_cons_of_mem _ hop)).trans
      (hop.deeds_eq (hsilent _ List.mem_cons_self))

/-- The message is still there, or gone. -/
def Standing (sel : String) (uid : Nat) (c : Content) : Bool → Server → Prop
  | true, s => Present sel uid c s
  | false, s => Gone sel uid s

theorem Performs.standing {there : Bool} (hS : Quiet S) (hsel : w.selected = some sel)
    (h : Performs S ops w tr w' tr') (habout : ∀ op ∈ ops, op.About uid)
    (hstays : ∀ op ∈ ops, op.removes = false) (hst : Standing sel uid c there w.server) :
    Standing sel uid c there w'.server := by
  cases there with
  | true => exact h.present hS hsel habout hstays hst
  | false => exact h.gone hS hsel habout hst

/-- A copy is made of a message that is there. -/
theorem copied_of_present {cmd : ImapCommand} {s : Server} (hsel : w.selected = some sel)
    (hrun : w.server.run sel cmd = some s) (habout : cmd.About uid)
    (htarget : cmd.target = some folder) (hp : Present sel uid c w.server) :
    ∃ copy, w.copied cmd = some copy ∧ copy.content = c := by
  obtain ⟨m, hm, rfl⟩ := hp
  obtain ⟨copy, hcopy, hc⟩ := Server.run_delivers hrun habout htarget hm
  exact ⟨copy, by simp [World.copied, hsel, htarget, hrun, hcopy], hc⟩

/-- No copy is made of a message that is gone. -/
theorem copied_of_gone {cmd : ImapCommand} {s : Server} (hsel : w.selected = some sel)
    (hrun : w.server.run sel cmd = some s) (habout : cmd.About uid)
    (htarget : cmd.target = some folder) (hg : Gone sel uid w.server) :
    w.copied cmd = none := by
  cases hcopied : w.copied cmd with
  | none => rfl
  | some copy =>
    have hfind : s.find? folder (w.server.nextUid folder) = some copy := by
      simpa [World.copied, hsel, htarget, hrun] using hcopied
    rcases Server.run_origin hrun habout hfind with hold | ⟨m, hm, -⟩
    · exact absurd (Server.lt_nextUid_of_find? hold) (lt_irrefl _)
    · rw [hg] at hm
      cases hm

/-- A `FileInto` takes the message away when it is no copy, and the server can. -/
def Capabilities.takes (caps : Capabilities) (copy : Bool) : Bool :=
  !copy && (caps.supportsMove || caps.uidplus)

/-- What is left of the message after a performed `FileInto`. -/
theorem Performs.fileOps_standing {caps : Capabilities} {copy create there : Bool} (hS : Quiet S)
    (hsel : w.selected = some sel)
    (h : Performs S (fileOps caps uid folder copy create) w tr w' tr')
    (hst : Standing sel uid c there w.server) :
    Standing sel uid c (there && !caps.takes copy) w'.server := by
  cases htakes : caps.takes copy with
  | false =>
    -- no operation takes the message away
    rw [Bool.not_false, Bool.and_true]
    refine h.standing hS hsel (fun op hop => fileOps_about hop) (fun op hop => ?_) hst
    refine removes_fileOps hop ?_
    cases copy with
    -- MOVE, or its fallback with EXPUNGE, takes it away
    | true => exact .inl rfl
    | false => exact .inr (by simpa [Capabilities.takes] using htakes)
  | true =>
    rw [Bool.not_true, Bool.and_false]
    obtain ⟨hcopy, hcaps⟩ : copy = false ∧ (caps.supportsMove = true ∨ caps.uidplus = true) := by
      simpa [Capabilities.takes] using htakes
    subst hcopy
    obtain ⟨w₁, tr₁, hcreate, hmove⟩ := Performs.of_append h
    exact hmove.moveOps_gone hS (hcreate.selected hS hsel) hcaps

/-- A performed `FileInto` is one filing, of the message if it is there. -/
theorem Performs.fileOps_deeds {caps : Capabilities} {copy create there : Bool} (hS : Quiet S)
    (hsel : w.selected = some sel)
    (h : Performs S (fileOps caps uid folder copy create) w tr w' tr')
    (hst : Standing sel uid c there w.server) :
    ∃ w₁ cmd, deeds tr' = deeds tr ++ [.filing w₁ cmd] ∧ cmd.target = some folder ∧
      (there = true → ∃ m, w₁.copied cmd = some m ∧ m.content = c) ∧
      (there = false → w₁.copied cmd = none) := by
  -- the one command with a target, and what stands around it
  obtain ⟨first, cmd, rest, hops, hfirst, hrest, htarget⟩ := fileOps_eq caps uid folder copy create
  have habout : ∀ op ∈ first ++ .need cmd :: rest, op.About uid := by
    rw [← hops]
    exact fun op hop => fileOps_about hop
  obtain ⟨w₁, tr₁, hbefore, hfrom⟩ := Performs.of_append (hops ▸ h)
  have hsel₁ := hbefore.selected hS hsel
  have hst₁ : Standing sel uid c there w₁.server :=
    hbefore.standing hS hsel (fun op hop => habout op (List.mem_append_left _ hop))
      (fun op hop => (hfirst op hop).1) hst
  cases hfrom with
  | cons hneed hafter =>
    cases hneed with
    | need hans =>
      obtain ⟨-, hrun⟩ := answers_command_ok hsel₁ (hS.answers hans)
      have hcmd : cmd.About uid := habout _ (List.mem_append_right _ List.mem_cons_self) _ rfl
      refine ⟨w₁, cmd, ?_, htarget, ?_, ?_⟩
      -- the other operations deliver nothing
      · rw [hafter.deeds_eq hrest, deeds_cons, hbefore.deeds_eq fun op hop => (hfirst op hop).2]
        simp [deedOf, htarget]
      · rintro rfl
        exact copied_of_present hsel₁ hrun hcmd htarget hst₁
      · rintro rfl
        exact copied_of_gone hsel₁ hrun hcmd htarget hst₁

end Deeds

/-! ## Section 5: The deeds of what is wanted -/

/-- The message designated, where there is one, is the received message. -/
def Wanted.Means (received : Option (List UInt8)) : Wanted → Prop
  | .mail _ content | .file _ _ content => content = received
  | .notice _ => True

/-- What is delivered is the received message, if anything is: then that message has to be the
one designated. -/
def Wanted.Fits (received : Option (List UInt8)) (there : Bool) (v : Wanted) : Prop :=
  (v.isFile = true → there = true) → v.Means received

/-- Whether the message is still there afterwards. -/
def Wanted.leaves (takes there : Bool) (v : Wanted) : Bool :=
  if v.isFile then there && !takes else there

/-- All that is delivered fits. -/
def AllFit (received : Option (List UInt8)) (takes : Bool) : Bool → List Wanted → Prop
  | _, [] => True
  | there, v :: rest => v.Fits received there ∧ AllFit received takes (v.leaves takes there) rest

section Wanted

variable {S : Surroundings Call Reply World} {sel : String} {c : Content} {x : ActionExecutor}
  {ctx : MessageContext} {copy there : Bool} {w w' : World} {tr tr' : History}

/-- A single send keeps the message where it is. -/
theorem Performs.standing_single {op : Op} {uid : Nat} (hS : Quiet S)
    (hsel : w.selected = some sel) (h : Performs S [op] w tr w' tr')
    (hcmd : op.command? = none) (hst : Standing sel uid c there w.server) :
    Standing sel uid c there w'.server := by
  refine h.standing hS hsel (fun op' hop => ?_) (fun op' hop => ?_) hst
  · rw [List.mem_singleton.mp hop]
    exact about_of_command?_none hcmd
  · rw [List.mem_singleton.mp hop, Op.removes, hcmd]
    rfl

/-- Each thing wanted is one deed. -/
theorem Performs.deed (hS : Quiet S) (hsel : w.selected = some sel) {v : Wanted}
    (h : Performs S (v.ops x ctx copy) w tr w' tr')
    (hst : Standing sel ctx.uid c there w.server) (hc : c.raw = ctx.raw) :
    ∃ d, deeds tr' = deeds tr ++ [d] ∧ (Delivers v d ↔ v.Fits ctx.raw there) ∧
      Standing sel ctx.uid c (v.leaves (x.caps.takes copy) there) w'.server := by
  cases v with
  | mail addr content =>
    -- the execution was successful, so the redirect was not refused
    change Performs S [redirectOp x ctx [addr]] w tr w' tr' at h
    rcases redirectOp_cases x ctx [addr] with ⟨e, hrefuse⟩ | ⟨mail, haddr, hraw, hsend⟩
    · rw [hrefuse] at h
      cases h with
      | cons hop _ => cases hop
    · rw [hsend] at h
      refine ⟨.mail mail, ?_, ?_, h.standing_single hS hsel rfl hst⟩
      · cases h with
        | cons hop hnil =>
          cases hnil
          cases hop
          exact deeds_cons _ _
      · simp [Delivers, Wanted.Fits, Wanted.isFile, Wanted.Means, haddr, hraw]
  | notice reason =>
    -- a notice is written by the executor itself
    change Performs S [rejectOp x ctx reason] w tr w' tr' at h
    rcases rejectOp_cases x ctx reason with ⟨e, hrefuse⟩ | ⟨to', -, hnotice⟩
    · rw [hrefuse] at h
      cases h with
      | cons hop _ => cases hop
    · rw [hnotice] at h
      have hst' := h.standing_single hS hsel rfl hst
      cases h with
      | cons hop hnil =>
        cases hnil
        cases hop with
        | @notice _ _ stamp _ _ _ _ h₁ h₂ =>
          refine ⟨.mail (noticeMail to' reason stamp), ?_, ?_, hst'⟩
          · rw [deeds_cons, deeds_cons]
            exact congrArg (· ++ _) (List.append_nil _)
          · exact iff_of_true ⟨to', stamp, rfl⟩ fun _ => trivial
  | file folder create content =>
    have hst' := Performs.fileOps_standing hS hsel h hst
    obtain ⟨w₁, cmd, hdeeds, htarget, hcopied, hnone⟩ := Performs.fileOps_deeds hS hsel h hst
    refine ⟨.filing w₁ cmd, hdeeds, ?_, hst'⟩
    cases there with
    | true =>
      -- the copy is one of the received message
      obtain ⟨m, hm, rfl⟩ := hcopied rfl
      rw [← hc]
      simp [Delivers, Wanted.Fits, Wanted.Means, htarget, hm, eq_comm (a := content)]
    | false => simp [Delivers, Wanted.Fits, Wanted.isFile, htarget, hnone rfl]

theorem Performs.deeds_wanted (hS : Quiet S) (hsel : w.selected = some sel) {l : List Wanted}
    (h : Performs S (l.flatMap (Wanted.ops x ctx copy)) w tr w' tr')
    (hst : Standing sel ctx.uid c there w.server) (hc : c.raw = ctx.raw) :
    ∃ ds, deeds tr' = deeds tr ++ ds ∧
      (List.Forall₂ Delivers l ds ↔ AllFit ctx.raw (x.caps.takes copy) there l) := by
  induction l generalizing w tr there with
  | nil =>
    cases h
    exact ⟨[], (List.append_nil _).symm, iff_of_true .nil trivial⟩
  | cons v rest ih =>
    rw [List.flatMap_cons] at h
    obtain ⟨w₁, tr₁, hv, hrest⟩ := h.of_append
    obtain ⟨d, hd, hiff, hst₁⟩ := hv.deed hS hsel hst hc
    obtain ⟨ds, hds, hiffs⟩ := ih (hv.selected hS hsel) hrest hst₁
    refine ⟨d :: ds, ?_, ?_⟩
    · rw [hds, hd, List.append_assoc, List.singleton_append]
    · rw [List.forall₂_cons, hiff, hiffs, AllFit]

end Wanted

/-! ## Section 6: When what is delivered was designated -/

/-- What is delivered from the received message was meant to be it: every mail, and every
`FileInto` that still finds the message. -/
structure OnlyReceived (caps : Capabilities) (received : Option (List UInt8))
    (events : List Event) : Prop where
  mails : ∀ v ∈ wanted received [] events, v.isFile = false → v.Means received
  /-- The first `FileInto` always finds the message. -/
  first : ∀ v ∈ (wanted received [] events).find? Wanted.isFile, v.Means received
  /-- The others do where nothing takes it away. -/
  files : KeepIn events ∨ (caps.supportsMove = false ∧ caps.uidplus = false) →
    ∀ v ∈ wanted received [] events, v.isFile = true → v.Means received

theorem allFit_iff {received : Option (List UInt8)} {takes there : Bool} {l : List Wanted} :
    AllFit received takes there l ↔
      (∀ v ∈ l, v.isFile = false → v.Means received) ∧
      (there = true → ∀ v ∈ l.find? Wanted.isFile, v.Means received) ∧
      (there = true → takes = false → ∀ v ∈ l, v.isFile = true → v.Means received) := by
  induction l generalizing there with
  | nil => simp [AllFit]
  | cons v rest ih =>
    rw [AllFit, ih]
    cases hfile : v.isFile with
    | false => simp [Wanted.Fits, Wanted.leaves, hfile, and_assoc]
    | true =>
      have hfirst : (∀ v ∈ rest, v.isFile = true → v.Means received) →
          ∀ v, rest.find? Wanted.isFile = some v → v.Means received :=
        fun h v hv => h v (List.mem_of_find?_eq_some hv) (List.find?_some hv)
      cases there with
      | false => simp [Wanted.Fits, Wanted.leaves, hfile]
      | true =>
        cases takes with
        | false =>
          simp [Wanted.Fits, Wanted.leaves, hfile]
          tauto
        | true =>
          -- the message is taken away, so no other `FileInto` matters
          simp [Wanted.Fits, Wanted.leaves, hfile, and_comm]

theorem onlyReceived_iff {caps : Capabilities} {received : Option (List UInt8)}
    {events : List Event} {copy : Bool} (hcopy : copy = true ↔ KeepIn events) :
    OnlyReceived caps received events ↔
      AllFit received (caps.takes copy) true (wanted received [] events) := by
  have hstays : caps.takes copy = false ↔
      KeepIn events ∨ (caps.supportsMove = false ∧ caps.uidplus = false) := by
    rw [← hcopy]
    cases copy <;> simp [Capabilities.takes]
  rw [allFit_iff]
  constructor
  · rintro ⟨hmails, hfirst, hfiles⟩
    exact ⟨hmails, fun _ => hfirst, fun _ htakes => hfiles (hstays.mp htakes)⟩
  · rintro ⟨hmails, hfirst, hfiles⟩
    exact ⟨hmails, hfirst rfl, fun h => hfiles rfl (hstays.mpr h)⟩

/-- After a successful execution the mails sent and the messages copied or moved are those
that the events asked for, with the bytes that they designate, exactly when all of these
designate the received message. -/
theorem designated_delivered_iff (x : ActionExecutor) (script : CompiledScript)
    (m : StoredMessage) (actions : List SieveAction) (w w' : World) (tr : History)
    (heval : evaluate script m.toContext = .ok actions)
    (hsel : w.selected = some x.sourceMailbox)
    (hfind : w.server.find? x.sourceMailbox m.uid = some m)
    (hrun : Steps executorWorld ⟨(x.execute m.toContext actions).run, w, []⟩
      ⟨.ret (.ok ()), w', tr⟩) :
    List.Forall₂ Delivers (wanted m.content.raw [] (emitted script m.toContext)) (deeds tr) ↔
      OnlyReceived x.caps m.content.raw (emitted script m.toContext) := by
  have hS := quiet_executorWorld
  have hp : Present x.sourceMailbox m.uid m.content w.server := ⟨m, hfind, rfl⟩
  have hactions := evaluate_eq_ok heval
  generalize emitted script m.toContext = events at hactions ⊢
  obtain ⟨copy, hcopy, hops⟩ := flatMap_actionsOf x m.toContext m.content.raw events
  have hperforms : Performs executorWorld (x.operations m.toContext actions) w [] w' tr :=
    performs_of_execute hS.quiet hrun
  -- first the flags, then the dispositions, then the final deletion
  rw [ActionExecutor.operations, ActionExecutor.passes, hactions, hops] at hperforms
  obtain ⟨w₂, tr₂, hpasses, hdelete⟩ := hperforms.of_append
  obtain ⟨w₁, tr₁, hflags, hdispositions⟩ := hpasses.of_append
  have hst₁ : Standing x.sourceMailbox m.uid m.content true w₁.server := by
    refine hflags.present hS hsel (fun op hop => ?_) (fun op hop => ?_) hp
    · obtain ⟨a, -, hop⟩ := List.mem_flatMap.mp hop
      obtain ⟨_, _, -, rfl⟩ := mem_flagOps.mp hop
      exact about_need rfl
    · obtain ⟨a, -, hop⟩ := List.mem_flatMap.mp hop
      exact removes_flagOps hop
  have hnone₁ : deeds tr₁ = [] := by
    rw [hflags.deeds_eq fun op hop => ?_]
    · rfl
    · obtain ⟨a, -, hop⟩ := List.mem_flatMap.mp hop
      obtain ⟨_, _, -, rfl⟩ := mem_flagOps.mp hop
      rfl
  have hnone₂ : deeds tr = deeds tr₂ := by
    refine hdelete.deeds_eq fun op hop => ?_
    split at hop
    · rcases mem_deleteOps.mp hop with rfl | rfl | ⟨-, rfl⟩ <;> rfl
    · cases hop
  obtain ⟨ds, hds, hiff⟩ :=
    hdispositions.deeds_wanted hS (hflags.selected hS hsel) hst₁ rfl
  rw [hnone₂, hds, hnone₁, List.nil_append, onlyReceived_iff hcopy]
  exact hiff

/-- A vacation reply, and a copy of the received message to another address. -/
theorem designated_delivered_iff_sample :
    List.Forall₂ Delivers
      (wanted (some [72, 105]) []
        [.createdMessage 1 [79, 75], .sendMessage (.address "copy@example.org") 0])
      (deeds (sampleRun {} [.redirect ["copy@example.org"]] 1).trace) ↔
    OnlyReceived {} (some [72, 105])
      [.createdMessage 1 [79, 75], .sendMessage (.address "copy@example.org") 0] :=
  designated_delivered_iff ⟨true, {}, "INBOX"⟩
    (scriptOf [.createdMessage 1 [79, 75], .sendMessage (.address "copy@example.org") 0])
    ⟨1, 2, [], sampleContent⟩ [.redirect ["copy@example.org"]] sampleExecutorWorld _ _ rfl rfl
    (by decide) (steps_sampleRun (n := 1) rfl)

/-- Where the interpreter created a message for the recipient, the received one is sent. -/
theorem not_designated_delivered :
    ¬ ∀ (x : ActionExecutor) (script : CompiledScript) (m : StoredMessage)
      (actions : List SieveAction) (w w' : World) (tr : History),
      evaluate script m.toContext = .ok actions → w.selected = some x.sourceMailbox →
      w.server.find? x.sourceMailbox m.uid = some m →
      Steps executorWorld ⟨(x.execute m.toContext actions).run, w, []⟩
        ⟨.ret (.ok ()), w', tr⟩ →
      List.Forall₂ Delivers (wanted m.content.raw [] (emitted script m.toContext))
        (deeds tr) := by
  intro hall
  let run := sampleRun {} [.redirect ["sender@example.org"]] 1
  have hdeeds := hall ⟨true, {}, "INBOX"⟩
    (scriptOf [.createdMessage 1 [79, 75], .sendMessage (.address "sender@example.org") 1])
    ⟨1, 2, [], sampleContent⟩ [.redirect ["sender@example.org"]] sampleExecutorWorld run.world
    run.trace rfl rfl (by decide) (steps_sampleRun rfl)
  rw [emitted_scriptOf _ rfl] at hdeeds
  cases hdeeds with
  | cons hmail hnil =>
    obtain ⟨-, hraw⟩ := hmail
    cases hraw

end ImapSieve
