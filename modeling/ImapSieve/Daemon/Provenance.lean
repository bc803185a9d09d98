import ImapSieve.Daemon.Feedback
import ImapSieve.Daemon.NewMail
import ImapSieve.Daemon.Reload

/-!
# What Orders the Effects of the Daemon

The daemon changes mailboxes and sends mail for one message at a time, and only what the latest
evaluation of that message orders: `Orders` says which calls the actions of an evaluation order,
given the capabilities of the server. `effects_ordered` is about all runs, whatever becomes of
connections and processes.
-/

namespace ImapSieve

open Effects

/-! ## Section 1: Evaluations and capabilities in a trace -/

/-- An evaluation that succeeded. -/
structure Evaluation where
  script : CompiledScript
  message : MessageContext
  actions : List SieveAction

/-- The latest evaluation since the process was started, if it succeeded. -/
def lastEvaluation : History → Option Evaluation
  | [] => none
  | .restarted _ :: _ => none
  | .called _ (.evaluate script message) (.ok actions) :: _ => some ⟨script, message, actions⟩
  | .called _ (.evaluate _ _) (.error _) :: _ => none
  | .called _ _ _ :: tr => lastEvaluation tr

/-- What the server said it supports, the last time it was asked. -/
def lastCapabilities : History → Option Capabilities
  | [] => none
  | .restarted _ :: _ => none
  | .called _ .capabilities (.ok caps) :: _ => some caps
  | .called _ .capabilities (.error _) :: _ => none
  | .called _ _ _ :: tr => lastCapabilities tr

/-- The script that was last found in the handle. -/
def lastScript : History → Option CompiledScript
  | [] => none
  | .restarted _ :: _ => none
  | .called _ .currentScript script :: _ => some script
  | .called _ _ _ :: tr => lastScript tr

def Call.isEvaluate : Call → Bool
  | .evaluate _ _ => true
  | _ => false

def Call.isCapabilities : Call → Bool
  | .capabilities => true
  | _ => false

section Trace

variable {w : World} {c : Call} {r : Reply c} {tr : History}

theorem lastEvaluation_called (hc : c.isEvaluate = false) :
    lastEvaluation (.called w c r :: tr) = lastEvaluation tr := by
  cases c <;> first | rfl | cases hc

theorem lastCapabilities_called (hc : c.isCapabilities = false) :
    lastCapabilities (.called w c r :: tr) = lastCapabilities tr := by
  cases c <;> first | rfl | cases hc

theorem lastScript_called (hc : c ≠ .currentScript) :
    lastScript (.called w c r :: tr) = lastScript tr := by
  cases c <;> first | rfl | exact absurd rfl hc

theorem isEvaluate_of_nextCall {ops : List Op} (h : nextCall ops = some c) :
    c.isEvaluate = false := by
  have hop := ofOp_of_nextCall h
  cases c <;> first | rfl | cases hop

theorem isCapabilities_of_nextCall {ops : List Op} (h : nextCall ops = some c) :
    c.isCapabilities = false := by
  have hop := ofOp_of_nextCall h
  cases c <;> first | rfl | cases hop

end Trace

/-! ## Section 2: What actions order -/

/-- The message is to leave the mailbox, by its deletion or by MOVE without the extension. -/
def ActionExecutor.Drops (x : ActionExecutor) (actions : List SieveAction) : Prop :=
  (∃ action ∈ actions, action.deletes = true) ∨
    x.caps.supportsMove = false ∧ ∃ mailbox create, .fileInto mailbox false create ∈ actions

/-- The actions order the call, which concerns this message. -/
inductive Orders (x : ActionExecutor) (msg : MessageContext) (actions : List SieveAction) :
    Call → Prop where
  | store {action : SieveAction} {op : FlagOp} {flags : List String} (h : action ∈ actions)
      (hflags : action.flagChange = some (op, flags)) :
      Orders x msg actions (.command (.uidStoreFlags msg.uid op flags))
  | create {mailbox : String} {copy : Bool} (h : .fileInto mailbox copy true ∈ actions) :
      Orders x msg actions (.command (.uidCreateMailbox mailbox))
  | copy {mailbox : String} {create : Bool} (h : .fileInto mailbox true create ∈ actions) :
      Orders x msg actions (.command (.uidCopy msg.uid mailbox))
  | move {mailbox : String} {create : Bool} (h : .fileInto mailbox false create ∈ actions)
      (hmove : x.caps.supportsMove = true) :
      Orders x msg actions (.command (.uidMove msg.uid mailbox))
  /-- The first step of MOVE without the extension. -/
  | copyOut {mailbox : String} {create : Bool} (h : .fileInto mailbox false create ∈ actions)
      (hmove : x.caps.supportsMove = false) :
      Orders x msg actions (.command (.uidCopy msg.uid mailbox))
  | mark (h : x.Drops actions) :
      Orders x msg actions (.command (.uidStoreFlags msg.uid .add ["\\Deleted"]))
  | expunge (h : x.Drops actions) (huidplus : x.caps.uidplus = true) :
      Orders x msg actions (.command (.uidExpunge [msg.uid]))
  | deleting {action : SieveAction} (h : action ∈ actions) (hdeletes : action.deletes = true) :
      Orders x msg actions (.deleting msg.uid)
  /-- The message as it was fetched. -/
  | redirect {addresses : List String} {raw : List UInt8} (h : .redirect addresses ∈ actions)
      (hsmtp : x.smtp = true) (hraw : msg.raw = some raw) :
      Orders x msg actions
        (.send { envelopeFrom := msg.envelopeFrom.getD "<>", envelopeTo := addresses, raw })
  | stamp {reason : String} (h : .reject reason ∈ actions) (hsmtp : x.smtp = true) :
      Orders x msg actions .stamp
  /-- The notice to the sender of the message. -/
  | notice {reason to' : String} (stamp : Stamp) (h : .reject reason ∈ actions)
      (hsmtp : x.smtp = true) (hfrom : msg.envelopeFrom = some to') :
      Orders x msg actions (.send (noticeMail to' reason stamp))

section Orders

variable {x : ActionExecutor} {msg : MessageContext} {actions : List SieveAction} {op : Op}
  {rest : List Op} {c : Call}

theorem orders_of_fileOps {mailbox : String} {copy create : Bool}
    (h : .fileInto mailbox copy create ∈ actions)
    (hop : op ∈ fileOps x.caps msg.uid mailbox copy create)
    (hnext : nextCall (op :: rest) = some c) : Orders x msg actions c := by
  rcases mem_fileOps.mp hop with ⟨rfl, rfl⟩ | ⟨rfl, rfl⟩ | ⟨rfl, hmoveOps⟩
  · cases hnext
    exact .create h
  · cases hnext
    exact .copy h
  · rcases mem_moveOps.mp hmoveOps with ⟨hmove, rfl⟩ | ⟨hmove, rfl | rfl | ⟨hplus, rfl⟩⟩
    · cases hnext
      exact .move h hmove
    · cases hnext
      exact .copyOut h hmove
    · cases hnext
      exact .mark (.inr ⟨hmove, _, _, h⟩)
    · cases hnext
      exact .expunge (.inr ⟨hmove, _, _, h⟩) hplus

theorem redirectOp_eq_send {ctx : MessageContext} {addresses : List String} {mail : OutgoingMail}
    (h : redirectOp x ctx addresses = .send mail) :
    x.smtp = true ∧ ∃ raw, ctx.raw = some raw ∧
      mail = { envelopeFrom := ctx.envelopeFrom.getD "<>", envelopeTo := addresses, raw } := by
  cases hsmtp : x.smtp <;> cases hraw : ctx.raw <;> simp_all [redirectOp]

theorem rejectOp_eq_notice {ctx : MessageContext} {reason to' reason' : String}
    (h : rejectOp x ctx reason = .notice to' reason') :
    x.smtp = true ∧ ctx.envelopeFrom = some to' ∧ reason' = reason := by
  cases hsmtp : x.smtp <;> cases hfrom : ctx.envelopeFrom <;> simp_all [rejectOp]

/-- A notice among the operations of the actions answers a Reject. -/
theorem reject_of_notice {to' reason : String}
    (h : .notice to' reason ∈ x.operations msg actions) :
    .reject reason ∈ actions ∧ x.smtp = true ∧ msg.envelopeFrom = some to' := by
  rcases List.mem_append.mp h with hpass | hdelete
  · rcases List.mem_append.mp hpass with hflag | hdisp
    · obtain ⟨action, -, hop⟩ := List.mem_flatMap.mp hflag
      obtain ⟨_, _, -, hne⟩ := mem_flagOps.mp hop
      cases hne
    · obtain ⟨action, haction, hop⟩ := List.mem_flatMap.mp hdisp
      cases action with
      | fileInto mailbox copy create =>
        rcases mem_fileOps.mp hop with ⟨-, hne⟩ | ⟨-, hne⟩ | ⟨-, hmoveOps⟩
        · cases hne
        · cases hne
        · rcases mem_moveOps.mp hmoveOps with ⟨-, hne⟩ | ⟨-, hne | hne | ⟨-, hne⟩⟩ <;> cases hne
      | redirect addresses =>
        rcases redirectOp_cases x msg addresses with ⟨e, hrefuse⟩ | ⟨mail, -, -, hsend⟩
        · simp [dispositionOps, hrefuse] at hop
        · simp [dispositionOps, hsend] at hop
      | reject reason' =>
        obtain ⟨hsmtp, hfrom, rfl⟩ := rejectOp_eq_notice (List.mem_singleton.mp hop).symm
        exact ⟨haction, hsmtp, hfrom⟩
      | _ => cases hop
  · split at hdelete
    · rcases mem_deleteOps.mp hdelete with hne | hne | ⟨-, hne⟩ <;> cases hne
    · cases hdelete

/-- The operations of the actions make calls that the actions order. -/
theorem orders_of_mem (h : op ∈ x.operations msg actions)
    (hnext : nextCall (op :: rest) = some c) : Orders x msg actions c := by
  rcases List.mem_append.mp h with hpass | hdelete
  · rcases List.mem_append.mp hpass with hflag | hdisp
    · obtain ⟨action, haction, hop⟩ := List.mem_flatMap.mp hflag
      obtain ⟨fop, flags, hflags, rfl⟩ := mem_flagOps.mp hop
      cases hnext
      exact .store haction hflags
    · obtain ⟨action, haction, hop⟩ := List.mem_flatMap.mp hdisp
      cases action with
      | fileInto mailbox copy create => exact orders_of_fileOps haction hop hnext
      | redirect addresses =>
        have hmem := List.mem_singleton.mp hop
        rcases redirectOp_cases x msg addresses with ⟨e, hrefuse⟩ | ⟨mail, -, -, hsend⟩
        · rw [hmem, hrefuse] at hnext
          cases hnext
        · rw [hmem, hsend] at hnext
          cases hnext
          obtain ⟨hsmtp, raw, hraw, rfl⟩ := redirectOp_eq_send hsend
          exact .redirect haction hsmtp hraw
      | reject reason =>
        have hmem := List.mem_singleton.mp hop
        subst hmem
        -- a notice starts with drawing its date
        unfold rejectOp at hnext
        split at hnext
        · next hsmtp =>
          split at hnext
          · cases hnext
          · cases hnext
            exact .stamp haction hsmtp
        · cases hnext
      | _ => cases hop
  · split at hdelete
    · next hany =>
      obtain ⟨action, haction, hdeletes⟩ := List.any_eq_true.mp hany
      rcases mem_deleteOps.mp hdelete with rfl | rfl | ⟨hplus, rfl⟩
      · cases hnext
        exact .deleting haction hdeletes
      · cases hnext
        exact .mark (.inl ⟨action, haction, hdeletes⟩)
      · cases hnext
        exact .expunge (.inl ⟨action, haction, hdeletes⟩) hplus
    · cases hdelete

end Orders

/-! ## Section 3: What remains of operations -/

/-- What may be left of the operations `all` at some point of their execution. -/
inductive Remainder (all : List Op) : List Op → Prop where
  | rest {ops : List Op} (h : ops <:+ all) : Remainder all ops
  /-- The date and the message id of a notice are drawn. -/
  | drawn {to' reason : String} {ops : List Op} (stamp : Stamp)
      (h : .notice to' reason :: ops <:+ all) :
      Remainder all (.send (noticeMail to' reason stamp) :: ops)
  /-- An operation failed. -/
  | failed (e : CoreError) : Remainder all [.refuse e]

theorem remainder_proceed {all ops : List Op} (h : Remainder all ops) {c : Call}
    (hnext : nextCall ops = some c) (r : Reply c) : Remainder all (proceed ops c r) := by
  have htail : ∀ op rest, op :: rest <:+ all → rest <:+ all :=
    fun op rest hsuffix => (List.suffix_cons op rest).trans hsuffix
  cases h with
  | rest h =>
    cases ops with
    | nil => cases hnext
    | cons op rest =>
      cases op with
      | need cmd =>
        cases hnext
        rcases r with e | u
        · exact .failed e
        · exact .rest (htail _ _ h)
      | attempt cmd =>
        cases hnext
        exact .rest (htail _ _ h)
      | send mail =>
        cases hnext
        rcases r with e | u
        · exact .failed e
        · exact .rest (htail _ _ h)
      | notice to' reason =>
        cases hnext
        exact .drawn r h
      | refuse e => cases hnext
      | deleting uid =>
        cases hnext
        exact .rest (htail _ _ h)
  | drawn stamp h =>
    cases hnext
    rcases r with e | u
    · exact .failed e
    · exact .rest (htail _ _ h)
  | failed e => cases hnext

/-- What is left of the operations of the actions makes a call that they order. -/
theorem orders_of_remainder {x : ActionExecutor} {msg : MessageContext} {actions : List SieveAction}
    {ops : List Op} {c : Call} (h : Remainder (x.operations msg actions) ops)
    (hnext : nextCall ops = some c) : Orders x msg actions c := by
  cases h with
  | rest h =>
    cases ops with
    | nil => cases hnext
    | cons op rest => exact orders_of_mem (h.subset List.mem_cons_self) hnext
  | drawn stamp h =>
    cases hnext
    obtain ⟨hmem, hsmtp, hfrom⟩ := reject_of_notice (h.subset List.mem_cons_self)
    exact .notice stamp hmem hsmtp hfrom
  | failed e => cases hnext

/-! ## Section 4: Runs -/

/-- The capabilities that the session goes by. -/
def Phase.caps? : Phase → Option Capabilities
  | .offline | .connected | .stopped _ _ => none
  | .capable caps => some caps
  | .selected s | .checked s | .validated s | .seeding s | .ready s | .ranged s _ _ => some s.caps
  | .fetched f => some f.caps
  | .evaluating b _ _ _ | .executing b _ _ _ _ _ | .advancing b _ _ _ | .idling b _ _ =>
      some b.caps

@[simp] theorem caps?_enter (b : Batch) (done todo : List MessageContext) :
    (Phase.enter b done todo).caps? = some b.caps := by
  cases todo <;> rfl

/-- The evaluation that orders what the phase is at, the script of its batch and the capabilities
of its session are the latest of the trace. -/
structure Phase.Traced (cfg : Settings) (tr : History) (ph : Phase) : Prop where
  caps : ∀ caps, ph.caps? = some caps → lastCapabilities tr = some caps
  script : ∀ script, ph.script? = some script → lastScript tr = some script
  evaluation : ∀ b done msg rest actions ops, ph = .executing b done msg rest actions ops →
    lastEvaluation tr = some ⟨b.script, msg, actions⟩ ∧
      Remainder ((cfg.processor b.caps).executor.operations msg actions) ops

section Runs

variable {cfg : Settings} {ph ph' : Phase} {w w' : World} {c : Call} {r : Reply c} {tr : History}

/-- A session goes by the capabilities that it has asked for. -/
theorem caps?_of_moves (h : ph.Moves cfg w c r ph') {caps : Capabilities}
    (hcaps : ph'.caps? = some caps) (hold : ∀ caps, ph.caps? = some caps →
      lastCapabilities tr = some caps) :
    lastCapabilities (.called w c r :: tr) = some caps := by
  cases h with
  | offline => cases hcaps
  | connected => cases hcaps
  | stopped h hne => cases hcaps
  | capable hidle => exact hcaps
  | taken script =>
    rw [caps?_enter] at hcaps
    exact hold _ hcaps
  | advanced =>
    rw [caps?_enter] at hcaps
    exact hold _ hcaps
  | performed hnext =>
    rw [lastCapabilities_called (isCapabilities_of_nextCall hnext)]
    exact hold _ hcaps
  | _ => exact hold _ hcaps

/-- A batch goes by the script that it has taken. -/
theorem lastScript_of_scripts {script? : Option CompiledScript} {script : CompiledScript}
    (h : Scripts ph c r script?)
    (hold : ∀ script, ph.script? = some script → lastScript tr = some script)
    (hscript : script? = some script) : lastScript (.called w c r :: tr) = some script := by
  cases h with
  | nothing => cases hscript
  | same _ htake =>
    rw [lastScript_called htake]
    exact hold _ hscript
  | taken script' => exact hscript

theorem traced_call (h : ph.Traced cfg tr) (hallow : ph.Allows cfg c) :
    (ph.next cfg w c r).Traced cfg (.called w c r :: tr) := by
  have hmoves := moves_next (w := w) (r := r) hallow
  have hscripts := scripts_next (w := w) (r := r) hallow
  generalize ph.next cfg w c r = ph' at hmoves hscripts ⊢
  refine ⟨fun caps hcaps => caps?_of_moves hmoves hcaps h.caps,
    fun script => lastScript_of_scripts hscripts h.script, ?_⟩
  rintro b done msg rest actions ops rfl
  -- an execution starts after its evaluation, or goes on
  generalize hph : Phase.executing b done msg rest actions ops = ph' at hmoves
  cases hmoves with
  | evaluated actions =>
    cases hph
    exact ⟨rfl, .rest List.suffix_rfl⟩
  | performed hnext =>
    cases hph
    obtain ⟨hlast, hremainder⟩ := h.evaluation _ _ _ _ _ _ rfl
    rw [lastEvaluation_called (isEvaluate_of_nextCall hnext)]
    exact ⟨hlast, remainder_proceed hremainder hnext r⟩
  | @taken f script =>
    unfold Phase.enter at hph
    split at hph <;> cases hph
  | advanced =>
    unfold Phase.enter at hph
    split at hph <;> cases hph
  | _ => cases hph

/-- What the executing phase calls is ordered by the evaluation, which was with the script of the
batch. -/
theorem orders_of_allows (h : ph.Traced cfg tr) (hallow : ph.Allows cfg c)
    (hc : c.ofOp = true) :
    ∃ b done msg rest actions ops, ph = .executing b done msg rest actions ops ∧
      lastCapabilities tr = some b.caps ∧ lastScript tr = some b.script ∧
      lastEvaluation tr = some ⟨b.script, msg, actions⟩ ∧
      Orders (cfg.processor b.caps).executor msg actions c := by
  cases hallow with
  | @perform b done msg rest actions ops c hnext =>
    obtain ⟨hlast, hremainder⟩ := h.evaluation _ _ _ _ _ _ rfl
    exact ⟨b, done, msg, rest, actions, ops, rfl, h.caps _ rfl, h.script _ rfl, hlast,
      orders_of_remainder hremainder hnext⟩
  | _ => cases hc

/-- With these settings the call is made for a message that the latest FETCH found in the
monitored mailbox. The latest evaluation was that of this message, with the script that was last
found in the handle, and its actions order the call. -/
def Accounted (cfg : Settings) (before : History) (c : Call) : Prop :=
  ∃ (caps : Capabilities) (w : World) (box : Mailbox) (m : StoredMessage)
    (script : CompiledScript) (actions : List SieveAction),
    lastCapabilities before = some caps ∧ lastFetch before = some w ∧
      w.selected = some cfg.mailbox ∧ w.box = some box ∧ m ∈ box.messages ∧
      lastScript before = some script ∧
      lastEvaluation before = some ⟨script, m.toContext, actions⟩ ∧
      Orders (cfg.processor caps).executor m.toContext actions c

theorem accounted_call (hsound : ph.Sound cfg w tr) (htraced : ph.Traced cfg tr)
    (hallow : ph.Allows cfg c) (hc : c.ofOp = true) : Accounted cfg tr c := by
  obtain ⟨b, done, msg, rest, actions, ops, rfl, hcaps, hscript, hlast, horders⟩ :=
    orders_of_allows htraced hallow hc
  obtain ⟨hat, -, -⟩ := hsound
  obtain ⟨box, hbox, hfetched⟩ := hat.fetch.fetched
  obtain ⟨m, hm, rfl⟩ := Mailbox.mem_of_fetched hfetched (List.mem_of_mem_take hat.mem_messages)
  exact ⟨b.caps, b.snapshot, box, m, b.script, actions, hcaps, hat.last, hat.fetch.selected,
    hbox, (List.mem_filter.mp hm).1, hscript, hlast, horders⟩

variable {S : Surroundings Call Reply World} {w₀ : World}
  {x : Config Call Reply World (Except CoreError Unit)}

theorem traced_offline (cfg : Settings) (tr : History) : Phase.offline.Traced cfg tr :=
  ⟨by simp [Phase.caps?], by simp [Phase.script?], by simp⟩

theorem serves_traced (hx : Serves S w₀ cfg x) : (phaseOf cfg x.trace).Traced cfg x.trace := by
  refine serves_invariant (I := fun cfg _ tr => (phaseOf cfg tr).Traced cfg tr) hx ?_ ?_ ?_ ?_
  · exact fun cfg => traced_offline cfg []
  · exact fun cfg p w tr c r w' _ h hallow _ => traced_call h hallow
  · exact fun _ _ _ _ h _ => h
  · exact fun _ cfg' _ _ _ _ _ => traced_offline cfg' _

/-- What the process has called since its start is accounted for under its settings. -/
def AccountedSinceStart (cfg : Settings) (tr : History) : Prop :=
  ∀ new w c r before, tr = new ++ .called w c r :: before → (∀ e ∈ new, e.isCall = true) →
    c.ofOp = true → Accounted cfg before c

theorem accountedSinceStart_called {r : Reply c} (h : AccountedSinceStart cfg tr)
    (hc : c.ofOp = true → Accounted cfg tr c) : AccountedSinceStart cfg (.called w c r :: tr) := by
  rintro (_ | ⟨e, new⟩) v d s before heq hnew
  · cases heq
    exact hc
  · obtain ⟨-, rfl⟩ := List.cons.inj heq
    exact h new v d s before rfl fun e he => hnew e (List.mem_cons_of_mem _ he)

theorem accountedSinceStart_restarted (cfg : Settings) (w : World) (tr : History) :
    AccountedSinceStart cfg (.restarted w :: tr) := by
  rintro (_ | ⟨e, new⟩) v d s before heq hnew
  · cases heq
  · obtain ⟨rfl, -⟩ := List.cons.inj heq
    cases hnew _ List.mem_cons_self

/-- Commands are issued and mail is sent on the orders of the latest evaluation only, which was
with the script of the batch. -/
theorem effects_ordered (hS : Admissible S) (hx : Serves S w₀ cfg x) :
    AccountedSinceStart cfg x.trace := by
  refine serves_invariant (I := fun cfg _ tr => AccountedSinceStart cfg tr) hx ?_ ?_ ?_ ?_
  · exact fun _ new _ _ _ _ heq => absurd heq (by simp)
  · exact fun cfg p w tr c r w' hat h hallow _ => accountedSinceStart_called h
      (accounted_call (serves_sound hS hat) (serves_traced hat) hallow)
  · exact fun _ _ _ _ h _ => h
  · exact fun _ cfg' w _ tr _ _ => accountedSinceStart_restarted cfg' w tr

end Runs

/-- The pending message is discarded. -/
theorem effects_ordered_discard :
    Accounted (sampleSettings 10)
      (sampleDaemon { idle := true } 10 (pendingWorld (.event .discard fun _ => .done)) 13).trace
      (.command (.uidStoreFlags 1 .add ["\\Deleted"])) := by
  have hserves : Serves daemonWorld (pendingWorld (.event .discard fun _ => .done))
      (sampleSettings 10)
      (sampleDaemon { idle := true } 10 (pendingWorld (.event .discard fun _ => .done)) 14) :=
    (reachable_freePlay .start).lives
  exact effects_ordered admissible_daemonWorld hserves [] _ (.command _) _ _ rfl (by simp) rfl

end ImapSieve
