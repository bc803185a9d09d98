import ImapSieve.Executor.Message
import ImapSieve.Server.Folders

/-!
# MOVE and its Fallback

With MOVE, `execute` moves a message by one command; without, by COPY, STORE and EXPUNGE. Here
the two are compared over whole action lists, on a server that does what a command says or
refuses it, and with a mail server that takes every mail.

What an execution does then depends on the view of the mailboxes only: `effects` computes it
for a list of operations, and the operations with and without MOVE have the same effects.
-/

namespace ImapSieve

open Effects

/-! ## Section 1: An exact server -/

/-- Commands do what they do on the server or are refused without effect, mails are sent, and
the stamps are drawn from the given sequence. `execute` makes no other calls. -/
def World.RepliesExactly (draw : Nat → Stamp) (w : World) : (c : Call) → Reply c → World → Prop
  | .command cmd, .ok (), w' =>
      ∃ sel s, w.selected = some sel ∧ w.server.run sel cmd = some s ∧ w' = { w with server := s }
  | .command cmd, .error e, w' =>
      e.IsImap ∧ (∀ sel, w.selected = some sel → w.server.run sel cmd = none) ∧ w' = w
  | .send mail, .ok (), w' => w' = { w with sent := mail :: w.sent }
  | .send _, .error _, _ => False
  | .stamp, stamp, w' => stamp = draw w.sent.length ∧ w' = w
  | _, _, w' => w' = w

def exactWorld (draw : Nat → Stamp) : Surroundings Call Reply World where
  answers := World.RepliesExactly draw
  drifts _ _ := False
  restarts _ _ := False

/-- Every call is answered. -/
theorem exactly_answered (draw : Nat → Stamp) (w : World) (c : Call) :
    ∃ r w', (exactWorld draw).answers w c r w' := by
  let r := (World.respond {} w c).1
  cases c with
  | command cmd =>
    cases hrun : w.selected.bind fun sel => w.server.run sel cmd with
    | some s =>
      obtain ⟨sel, hsel, hs⟩ := Option.bind_eq_some_iff.mp hrun
      exact ⟨.ok (), _, sel, s, hsel, hs, rfl⟩
    | none =>
      refine ⟨.error (.imap "NO"), w, ⟨_, rfl⟩, fun sel hsel => ?_, rfl⟩
      rwa [hsel, Option.bind_some] at hrun
  | send mail => exact ⟨.ok (), _, rfl⟩
  | stamp => exact ⟨_, w, rfl, rfl⟩
  | _ => exact ⟨r, w, rfl⟩

/-! ## Section 2: Effects on the view -/

/-- What matters of the world: the folders and the mails sent. -/
structure View where
  selected : Option String
  folders : Folders
  sent : List OutgoingMail

def World.view (w : World) : View := ⟨w.selected, w.server.folders, w.sent⟩

/-- The effect of a command, and whether it succeeds. -/
def View.command (v : View) (cmd : ImapCommand) : View × Bool :=
  match v.selected.bind fun sel => v.folders.run sel cmd with
  | some s => ({ v with folders := s }, true)
  | none => (v, false)

/-- The effect of an operation, and whether the execution goes on. -/
def Op.effect (draw : Nat → Stamp) : Op → View → View × Bool
  | .need cmd, v => v.command cmd
  | .attempt cmd, v => ((v.command cmd).1, true)
  | .send mail, v => ({ v with sent := mail :: v.sent }, true)
  | .notice to' reason, v =>
      ({ v with sent := noticeMail to' reason (draw v.sent.length) :: v.sent }, true)
  | .refuse _, v => (v, false)
  | .deleting _, v => (v, true)

/-- The effect of operations in order, up to the first that fails. -/
def effects (draw : Nat → Stamp) : List Op → View → View × Bool
  | [], v => (v, true)
  | op :: rest, v =>
      if (op.effect draw v).2 then effects draw rest (op.effect draw v).1
      else ((op.effect draw v).1, false)

section Effects

variable {draw : Nat → Stamp} {op : Op} {ops done : List Op} {w w' : World} {tr tr' : History}

theorem view_command_ok {cmd : ImapCommand}
    (h : (exactWorld draw).answers w (.command cmd) (.ok ()) w') :
    w.view.command cmd = (w'.view, true) := by
  obtain ⟨sel, s, hsel, hrun, rfl⟩ := h
  have hfolders := Server.folders_run w.server sel cmd
  rw [hrun, Option.map_some] at hfolders
  simp [View.command, World.view, hsel, ← hfolders]

theorem view_command_error {cmd : ImapCommand} {e : CoreError}
    (h : (exactWorld draw).answers w (.command cmd) (.error e) w') :
    w.view.command cmd = (w'.view, false) := by
  obtain ⟨-, hrefused, rfl⟩ := h
  cases hsel : w'.selected with
  | none => simp [View.command, World.view, hsel]
  | some sel =>
    have hfolders := Server.folders_run w'.server sel cmd
    rw [hrefused sel hsel, Option.map_none] at hfolders
    simp [View.command, World.view, hsel, ← hfolders]

theorem Op.Performed.effect_eq (h : op.Performed (exactWorld draw) w tr w' tr') :
    op.effect draw w.view = (w'.view, true) := by
  cases h with
  | need h => exact view_command_ok h
  | @attempt cmd r _ _ _ h =>
    cases r with
    | ok u => rw [Op.effect, view_command_ok h]
    | error e => rw [Op.effect, view_command_error h]
  | send h =>
    cases h
    rfl
  | notice h₁ h =>
    obtain ⟨rfl, rfl⟩ := h₁
    cases h
    rfl
  | deleting h =>
    cases h
    rfl

theorem Op.Fails.effect_eq {e : CoreError} (h : op.Fails (exactWorld draw) e w tr w' tr') :
    op.effect draw w.view = (w'.view, false) := by
  cases h with
  | need h => exact view_command_error h
  | send h => cases h
  | notice h₁ h => cases h
  | refuse => rfl

theorem Performs.effects_append (h : Performs (exactWorld draw) done w tr w' tr')
    (rest : List Op) : effects draw (done ++ rest) w.view = effects draw rest w'.view := by
  induction h with
  | nil => rfl
  | cons hop _ ih => rw [List.cons_append, effects, hop.effect_eq, if_pos rfl, ih]

/-- An execution in the exact world has the effects of its operations. -/
theorem effects_of_steps {r : Except CoreError Unit}
    (h : Steps (exactWorld draw) ⟨(runOps ops).run, w, tr⟩ ⟨.ret r, w', tr'⟩) :
    effects draw ops w.view = (w'.view, r.isOk) := by
  rcases steps_runOps_ret (fun _ _ hd => hd) h with ⟨rfl, hall⟩ |
      ⟨e, done, op, rest, w₁, tr₁, rfl, rfl, hdone, hfail⟩
  · have heffects := hall.effects_append []
    rwa [List.append_nil] at heffects
  · rw [hdone.effects_append, effects, hfail.effect_eq, if_neg Bool.false_ne_true]
    rfl

end Effects

/-! ## Section 3: The same effects with and without MOVE -/

/-- The two lists of operations have the same effects. -/
def SameEffects (draw : Nat → Stamp) (ops ops' : List Op) : Prop :=
  ∀ v, effects draw ops v = effects draw ops' v

section SameEffects

variable {draw : Nat → Stamp} {ops ops' rest rest' : List Op}

theorem effects_append (ops rest : List Op) (v : View) :
    effects draw (ops ++ rest) v =
      if (effects draw ops v).2 then effects draw rest (effects draw ops v).1
      else effects draw ops v := by
  induction ops generalizing v with
  | nil => rfl
  | cons op ops ih =>
    rw [List.cons_append, effects, effects]
    cases hok : (op.effect draw v).2 with
    | true => rw [if_pos rfl, if_pos rfl, ih]
    | false => rfl

theorem SameEffects.append (h : SameEffects draw ops ops') (hrest : SameEffects draw rest rest') :
    SameEffects draw (ops ++ rest) (ops' ++ rest') := by
  intro v
  rw [effects_append, effects_append, h v, hrest]

theorem SameEffects.flatMap {α : Type} {f g : α → List Op}
    (h : ∀ a, SameEffects draw (f a) (g a)) (l : List α) :
    SameEffects draw (l.flatMap f) (l.flatMap g) := by
  induction l with
  | nil => exact fun _ => rfl
  | cons a rest ih => exact (h a).append ih

end SameEffects

/-- The executor with or without MOVE, and with UIDPLUS. -/
def ActionExecutor.withMove (x : ActionExecutor) (supportsMove : Bool) : ActionExecutor :=
  { x with caps := { x.caps with supportsMove, uidplus := true } }

section Moves

variable {draw : Nat → Stamp} (x : ActionExecutor)

/-- The three commands of the fallback do what MOVE does, and are refused where it is. -/
theorem sameEffects_moveOps (uid : Nat) (target : String) :
    SameEffects draw (moveOps (x.withMove true).caps uid target)
      (moveOps (x.withMove false).caps uid target) := by
  intro v
  have hmove : moveOps (x.withMove true).caps uid target = [.need (.uidMove uid target)] := rfl
  have hfallback : moveOps (x.withMove false).caps uid target =
      [.need (.uidCopy uid target), .need (.uidStoreFlags uid .add ["\\Deleted"]),
        .need (.uidExpunge [uid])] := rfl
  rw [hmove, hfallback]
  obtain ⟨selected, folders, sent⟩ := v
  cases selected with
  -- no mailbox is selected: the first command is refused on both sides
  | none => rfl
  | some sel =>
    have hrun := folders.run_move sel uid target
    cases hcopy : folders.run sel (.uidCopy uid target) with
    | none =>
      -- the target does not exist: COPY is refused like MOVE
      rw [hcopy, Option.bind_none] at hrun
      simp [effects, Op.effect, View.command, hcopy, hrun]
    | some s₁ =>
      rw [hcopy, Option.bind_some] at hrun
      -- STORE and EXPUNGE are never refused
      obtain ⟨s₂, hstore⟩ : ∃ s₂, s₁.run sel (.uidStoreFlags uid .add ["\\Deleted"]) = some s₂ :=
        ⟨_, rfl⟩
      obtain ⟨s₃, hexpunge⟩ : ∃ s₃, s₂.run sel (.uidExpunge [uid]) = some s₃ := ⟨_, rfl⟩
      rw [hstore, Option.bind_some, hexpunge] at hrun
      simp [effects, Op.effect, View.command, hcopy, hstore, hexpunge, hrun]

theorem sameEffects_dispositionOps (ctx : MessageContext) (action : SieveAction) :
    SameEffects draw (dispositionOps (x.withMove true) ctx action)
      (dispositionOps (x.withMove false) ctx action) := by
  cases action with
  | fileInto mailbox copy create =>
    -- only the way of moving differs
    refine SameEffects.append (fun _ => rfl) ?_
    cases copy with
    | true => exact fun _ => rfl
    | false => exact sameEffects_moveOps x ctx.uid mailbox
  | _ => exact fun _ => rfl

theorem sameEffects_operations (ctx : MessageContext) (actions : List SieveAction) :
    SameEffects draw ((x.withMove true).operations ctx actions)
      ((x.withMove false).operations ctx actions) :=
  ((SameEffects.flatMap (fun _ _ => rfl) actions).append
    (.flatMap (sameEffects_dispositionOps x ctx) actions)).append fun _ => rfl

/-- With MOVE and with its fallback, `execute` returns; it returns `Ok` in the same cases, sends
the same mails, and leaves the same messages with the same flags in every mailbox. -/
theorem fallback_refines_move (draw : Nat → Stamp) (ctx : MessageContext)
    (actions : List SieveAction) (w : World) :
    (∀ supportsMove, ∃ r w' tr, Steps (exactWorld draw)
      ⟨((x.withMove supportsMove).execute ctx actions).run, w, []⟩ ⟨.ret r, w', tr⟩) ∧
    ∀ r r' w₁ w₂ tr₁ tr₂,
      Steps (exactWorld draw) ⟨((x.withMove true).execute ctx actions).run, w, []⟩
        ⟨.ret r, w₁, tr₁⟩ →
      Steps (exactWorld draw) ⟨((x.withMove false).execute ctx actions).run, w, []⟩
        ⟨.ret r', w₂, tr₂⟩ →
      (r = .ok () ↔ r' = .ok ()) ∧ w₁.sent = w₂.sent ∧
        ∀ name, (w₁.server.box name).map Mailbox.folder =
          (w₂.server.box name).map Mailbox.folder := by
  refine ⟨fun supportsMove =>
    (loopFree_execute _ ctx actions).returns (exactly_answered draw) w [], ?_⟩
  intro r r' w₁ w₂ tr₁ tr₂ h h'
  rw [execute_eq_runOps] at h h'
  -- a run has the effects of its operations, and these are the same
  have heffects := effects_of_steps h
  rw [sameEffects_operations x ctx actions, effects_of_steps h'] at heffects
  obtain ⟨hview, hok⟩ := Prod.mk.inj heffects
  obtain ⟨-, hfolders, hsent⟩ := View.mk.inj hview
  refine ⟨?_, hsent.symm, fun name => (congrFun hfolders (mailboxKey name)).symm⟩
  cases r <;> cases r' <;> simp_all [Except.isOk, Except.toBool]

end Moves

end ImapSieve
