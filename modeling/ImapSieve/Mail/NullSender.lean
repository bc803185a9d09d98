import ImapSieve.Mail.ReturnPath
import ImapSieve.SmtpSender
import ImapSieve.Executor.Message

/-!
# The Null Sender

A message may have no one to answer to: its Return-Path is `<>`, or it names no sender at all.
`fetch_uid_range` hands on the null sender as `Some("")`, as `None`, or as the `From` address,
`execute` sends a Redirect for `None` with the sender `<>`, and the mail sender takes only the
empty string for the null reverse-path. The three agree exactly for messages whose ENVELOPE
`From` starts with an empty address; for others nothing goes wrong only where nothing is mailed.
-/

namespace ImapSieve

open Effects Text

/-! ## Section 1: Messages with a null sender -/

/-- The Return-Path is `<>`, or there is no sender at all. -/
def FetchItem.NullSender (item : FetchItem) : Prop :=
  (item.returnPaths ≠ [] ∧ ∀ v ∈ item.returnPaths, v = "<>") ∨
    ((∀ v ∈ item.returnPaths, v = "") ∧ ∀ addr ∈ item.fromAddresses, addrToString addr = "")

/-- The ENVELOPE `From` starts with an address without mailbox and host, and there is no second
Return-Path. -/
def FetchItem.EmptySender (item : FetchItem) : Prop :=
  item.returnPaths.length ≤ 1 ∧ ∃ addr ∈ item.fromAddresses.head?, addrToString addr = ""

/-- There is no Return-Path, or only one that names no sender. -/
def FetchItem.Pathless (item : FetchItem) : Prop :=
  item.returnPaths = [] ∨ item.returnPaths = [""] ∨ item.returnPaths = ["<>"]

section Sender

variable {item : FetchItem}

theorem returnPath_of_null (h : item.NullSender) :
    ∀ v ∈ item.returnPaths, v = "<>" ∨ v = "" := by
  rcases h with ⟨-, hnull⟩ | ⟨hempty, -⟩
  · exact fun v hv => .inl (hnull v hv)
  · exact fun v hv => .inr (hempty v hv)

/-- With at most one Return-Path, the null sender is replaced by the ENVELOPE `From`. -/
theorem envelopeFrom_of_null (h : item.NullSender) (hlength : item.returnPaths.length ≤ 1) :
    item.toContext.envelopeFrom = item.fallback := by
  have hvalues := returnPath_of_null h
  apply envelopeFrom_of_empty
  intro s hjoined
  match hpaths : item.returnPaths, hlength with
  | [], _ =>
    rw [hpaths] at hjoined
    cases hjoined
  | [v], _ =>
    rw [hpaths] at hjoined hvalues
    cases hjoined
    rcases hvalues v (List.mem_singleton.mpr rfl) with rfl | rfl <;> decide

theorem notMem_joined {c : Char} (hc : c ≠ ',') (hspace : c ≠ ' ') {v : String}
    {rest : List String} (h : ∀ value ∈ v :: rest, c ∉ value.toList) :
    c ∉ (rest.foldl joinValues v).toList := by
  induction rest generalizing v with
  | nil => exact h v List.mem_cons_self
  | cons v' rest ih =>
    refine ih fun value hvalue => ?_
    have hv := h v List.mem_cons_self
    have hv' := h v' (by simp)
    rcases List.mem_cons.mp hvalue with rfl | hrest
    · simp [joinValues, hv, hv', hc, hspace]
    · exact h value (by simp [hrest])

theorem stripBrackets_subset {s : List Char} {c : Char} (h : c ∈ stripBrackets s) : c ∈ s := by
  apply mem_of_mem_trim
  unfold stripBrackets at h
  split at h
  · rename_i rest heq
    rw [heq]
    split at h
    · exact List.mem_cons_of_mem _ (List.dropLast_subset _ h)
    · rwa [heq] at h
  · exact h

/-- With several Return-Paths, the null sender is neither empty nor an address. -/
theorem envelopeFrom_of_null_several (h : item.NullSender) (hlength : 1 < item.returnPaths.length) :
    ∃ x, item.toContext.envelopeFrom = some x ∧ x ≠ "" ∧ '@' ∉ x.toList := by
  obtain ⟨s, hjoined, hsender, hcomma⟩ := envelopeFrom_of_several hlength
  refine ⟨_, hsender, ?_, ?_⟩
  · intro heq
    have hnil : stripBrackets s.toList = [] := by simpa using congrArg String.toList heq
    rw [hnil] at hcomma
    cases hcomma
  · rw [String.toList_ofList]
    intro hat
    have hvalues : ∀ value ∈ item.returnPaths, '@' ∉ value.toList := by
      intro value hvalue
      rcases returnPath_of_null h value hvalue with rfl | rfl <;> decide
    have hmem := stripBrackets_subset hat
    cases hpaths : item.returnPaths with
    | nil => simp [hpaths] at hlength
    | cons v rest =>
      rw [hpaths] at hjoined hvalues
      cases hjoined
      exact notMem_joined (by decide) (by decide) hvalues hmem

theorem trim_returnPath {v : String} (h : v ∈ item.returnPaths) : trim v.toList = v.toList := by
  obtain ⟨field, hfield, rfl⟩ := List.mem_map.mp h
  obtain ⟨line, -, hline⟩ := List.mem_filterMap.mp (List.mem_of_mem_filter hfield)
  obtain ⟨parts, -, rfl⟩ := Option.map_eq_some_iff.mp hline
  rw [String.toList_ofList, trim_trim]

theorem stripBrackets_eq_nil {s : List Char} (htrim : trim s = s) (h : stripBrackets s = []) :
    s = [] ∨ s = ['<', '>'] := by
  unfold stripBrackets at h
  split at h
  · rename_i rest heq
    rw [htrim] at heq
    split at h
    · rename_i hlast
      obtain ⟨front, rfl⟩ := List.getLast?_eq_some_iff.mp hlast
      rw [List.dropLast_concat] at h
      subst h
      exact .inr heq
    · rw [htrim, heq] at h
      cases h
  · exact .inl (htrim ▸ h)

theorem fallback_eq_none_iff : item.fallback = none ↔ item.fromAddresses = [] := by
  rw [FetchItem.fallback, Option.map_eq_none_iff, List.head?_eq_none_iff]

theorem envelopeFrom_of_pathless (h : item.Pathless) :
    item.toContext.envelopeFrom = item.fallback := by
  apply envelopeFrom_of_empty
  intro s hjoined
  rcases h with hnil | hempty | hnull
  · rw [hnil] at hjoined
    cases hjoined
  · rw [hempty] at hjoined
    cases hjoined
    decide
  · rw [hnull] at hjoined
    cases hjoined
    decide

/-- Any other Return-Paths leave something when the brackets are stripped off. -/
theorem stripBrackets_ne_nil (h : ¬ item.Pathless) {v : String} {rest : List String}
    (hpaths : item.returnPaths = v :: rest) :
    stripBrackets (rest.foldl joinValues v).toList ≠ [] := by
  cases rest with
  | nil =>
    intro hstrip
    apply h
    have hmem : v ∈ item.returnPaths := by simp [hpaths]
    rcases stripBrackets_eq_nil (trim_returnPath hmem) hstrip with hnil | hnull
    · have hv : v = "" := by simpa using hnil
      exact .inr (.inl (hv ▸ hpaths))
    · have hv : v = "<>" := String.toList_inj.mp (hnull.trans (by decide))
      exact .inr (.inr (hv ▸ hpaths))
  | cons v' rest =>
    -- the comma between two values is neither white space nor a bracket
    exact List.ne_nil_of_mem (mem_stripBrackets (comma_mem_joined v v' rest) (by decide)
      (by decide) (by decide))

/-- So they are the sender. -/
theorem envelopeFrom_of_not_pathless (h : ¬ item.Pathless) :
    ∃ v rest, item.returnPaths = v :: rest ∧ item.toContext.envelopeFrom =
      some (String.ofList (stripBrackets (rest.foldl joinValues v).toList)) := by
  obtain ⟨v, rest, hpaths⟩ := List.exists_cons_of_ne_nil fun hnil => h (.inl hnil)
  have hjoined : joined joinValues item.returnPaths = some (rest.foldl joinValues v) := by
    rw [hpaths]
    rfl
  exact ⟨v, rest, hpaths, envelopeFrom_of_ne hjoined (stripBrackets_ne_nil h hpaths)⟩

theorem nullSender_of_pathless (h : item.Pathless) (hfrom : item.fromAddresses = []) :
    item.NullSender := by
  rcases h with hnil | hempty | hnull
  · exact .inr ⟨by simp [hnil], by simp [hfrom]⟩
  · exact .inr ⟨by simp [hempty], by simp [hfrom]⟩
  · exact .inl ⟨by simp [hnull], by simp [hnull]⟩

/-- Any other message has a sender. -/
theorem exists_sender (h : ¬ item.NullSender) : ∃ s, item.toContext.envelopeFrom = some s := by
  by_cases hpathless : item.Pathless
  · have hfrom : item.fallback ≠ none := fun hnone =>
      h (nullSender_of_pathless hpathless (fallback_eq_none_iff.mp hnone))
    rw [envelopeFrom_of_pathless hpathless]
    exact Option.ne_none_iff_exists'.mp hfrom
  · obtain ⟨v, rest, -, hsender⟩ := envelopeFrom_of_not_pathless hpathless
    exact ⟨_, hsender⟩

/-- The null sender is handed on as the empty string for an empty ENVELOPE address only. -/
theorem envelopeFrom_eq_empty_iff (h : item.NullSender) :
    item.toContext.envelopeFrom = some "" ↔ item.EmptySender := by
  by_cases hlength : item.returnPaths.length ≤ 1
  · rw [envelopeFrom_of_null h hlength, FetchItem.fallback, Option.map_eq_some_iff]
    constructor
    · intro hsome
      exact ⟨hlength, hsome⟩
    · intro hempty
      exact hempty.2
  · obtain ⟨x, hsender, hne, -⟩ := envelopeFrom_of_null_several h (Nat.lt_of_not_le hlength)
    rw [hsender]
    exact ⟨fun heq => absurd (Option.some.inj heq) hne, fun hempty => absurd hempty.1 hlength⟩

end Sender

/-! ## Section 2: Mails under the mail sender -/

section Mails

variable {A E : Type} {l : Lettre A E} {item : FetchItem} {x : ActionExecutor}
  {actions : List SieveAction} {w w' : World} {tr tr' : History}

/-- Every mail is answered by the mail sender, whatever the transport says. Any other call may
get any reply and leave any world. -/
def relayWorld (l : Lettre A E) : Surroundings Call Reply World where
  answers _ c r _ :=
    match c, r with
    | .send mail, r => ∃ sendRaw, r = l.send sendRaw mail
    | _, _ => True
  drifts _ _ := False
  restarts _ _ := False

/-- A stamp was drawn last, so the next mail is a rejection notice. -/
def stamped : History → Bool
  | .called _ .stamp _ :: _ => true
  | _ => false

/-- What is asked of a mail: a notice about a message with a null sender is addressed to nobody,
and a Redirect has the null reverse-path or the sender of the message. -/
structure SenderKept (l : Lettre A E) (item : FetchItem) (notice : Bool) (mail : OutgoingMail) :
    Prop where
  unanswered : notice = true → item.NullSender → ∀ to' ∈ mail.envelopeTo, ¬ l.Accepts to'
  null : notice = false → item.NullSender → l.reversePath mail = .ok none
  sender : notice = false → ¬ item.NullSender →
    item.toContext.envelopeFrom = some mail.envelopeFrom
  bare : notice = false → ∀ addr, BareAddress addr →
    item.returnPaths = ["<" ++ addr ++ ">"] → mail.envelopeFrom = addr

/-- Every mail of the run is as it should be. -/
def SendersKept (l : Lettre A E) (item : FetchItem) (tr : History) : Prop :=
  Along (fun _ c _ before => ∀ mail, c = .send mail → SenderKept l item (stamped before) mail) tr

/-- The same of an operation. -/
def Op.Kept (l : Lettre A E) (item : FetchItem) : Op → Prop
  | .send mail => SenderKept l item false mail
  | .notice to' _ => item.NullSender → ¬ l.Accepts to'
  | _ => True

/-- The operation cannot be performed. -/
def Op.Held (l : Lettre A E) : Op → Prop
  | .refuse _ => True
  | .notice to' _ => ¬ l.Accepts to'
  | _ => False

theorem stamped_eq (tr : History) : stamped tr = (lastStamp tr).isSome := by
  match tr with
  | [] => rfl
  | .restarted w :: tr => rfl
  | .called w c r :: tr => cases c <;> rfl

theorem sendersKept_iff : SendersKept l item tr ↔
    MailsMeet (fun stamp mail => SenderKept l item stamp.isSome mail) tr := by
  simp only [SendersKept, MailsMeet, stamped_eq]

theorem not_held_of_performed {op : Op} (h : op.Performed (relayWorld l) w tr w' tr') :
    ¬ op.Held l := by
  cases h with
  | @notice to' reason stamp w w₁ w' tr h₁ h =>
    intro hheld
    obtain ⟨sendRaw, hsent⟩ := h
    have hmem : to' ∈ (noticeMail to' reason stamp).envelopeTo := List.mem_cons_self
    obtain ⟨e, he⟩ := Lettre.send_refused sendRaw hmem hheld
    rw [he] at hsent
    cases hsent
  | need h => exact not_false
  | attempt h => exact not_false
  | send h => exact not_false
  | deleting h => exact not_false

theorem kept_notice {to' reason : String} {stamp : Stamp}
    (h : (Op.notice to' reason).Kept l item) :
    SenderKept l item true (noticeMail to' reason stamp) where
  unanswered _ hnull to'' hmem := by
    rw [List.mem_singleton.mp hmem]
    exact h hnull
  null hnotice := by cases hnotice
  sender hnotice := by cases hnotice
  bare hnotice := by cases hnotice

theorem mailMeets_of_kept {op : Op} (h : op.Kept l item) : op.MailMeets (relayWorld l)
    fun stamp mail => SenderKept l item stamp.isSome mail := by
  cases op with
  | send mail => exact h
  | notice to' reason => exact fun _ _ _ _ => kept_notice h
  | _ => trivial

/-! ## Section 3: Operations and runs -/

theorem quiet_relayWorld (w w' : World) : ¬ (relayWorld l).drifts w w' := id

theorem not_held_of_performs {ops : List Op} (h : Performs (relayWorld l) ops w tr w' tr') :
    ∀ op ∈ ops, ¬ op.Held l := by
  induction h with
  | nil => simp
  | cons hop _ ih =>
    intro op hmem
    rcases List.mem_cons.mp hmem with rfl | hmem
    · exact not_held_of_performed hop
    · exact ih op hmem

/-- The mails of every run are as they should be, where the operations are that are not behind
one that cannot be performed. -/
theorem sendersKept_of_operations {ops : List Op}
    {y : Config Call Reply World (Except CoreError Unit)}
    (h : ∀ done op rest, ops = done ++ op :: rest → (∀ o ∈ done, ¬ o.Held l) → op.Kept l item)
    (hrun : Steps (relayWorld l) ⟨(runOps ops).run, w, []⟩ y) : SendersKept l item y.trace := by
  refine sendersKept_iff.mpr (mailsMeet_of_operations quiet_relayWorld ?_ hrun)
  rintro done op rest hops ⟨w₁, tr₁, hdone⟩
  exact mailMeets_of_kept (h done op rest hops (not_held_of_performs hdone))

/-- The operation sends nothing and may always succeed. -/
def Op.plain : Op → Bool
  | .need _ | .attempt _ | .deleting _ => true
  | _ => false

theorem performs_plain {ops : List Op} (hops : ∀ op ∈ ops, op.plain = true) (w : World)
    (tr : History) : ∃ tr', Performs (relayWorld l) ops w tr w tr' := by
  induction ops generalizing tr with
  | nil => exact ⟨tr, .nil⟩
  | cons op rest ih =>
    have hrest : ∀ o ∈ rest, o.plain = true := fun o ho => hops o (List.mem_cons_of_mem op ho)
    have hop : ∃ tr₁, op.Performed (relayWorld l) w tr w tr₁ := by
      cases op with
      | need cmd => exact ⟨_, .need trivial⟩
      | attempt cmd =>
        have hanswer : (relayWorld l).answers w (.command cmd) (.ok ()) w := trivial
        exact ⟨_, .attempt hanswer⟩
      | deleting uid => exact ⟨_, .deleting trivial⟩
      | send mail => cases hops _ List.mem_cons_self
      | notice to' reason => cases hops _ List.mem_cons_self
      | refuse e => cases hops _ List.mem_cons_self
    obtain ⟨tr₁, hop⟩ := hop
    obtain ⟨tr', hperforms⟩ := ih hrest tr₁
    exact ⟨tr', .cons hop hperforms⟩

theorem kept_of_plain {op : Op} (h : op.plain = true) : op.Kept l item := by
  cases op with
  | send mail => cases h
  | notice to' reason => cases h
  | _ => trivial

/-- The first operation that mails is reached, so it has to be as it should be. -/
theorem kept_of_sendersKept {done rest : List Op} {op : Op} (hdone : ∀ o ∈ done, o.plain = true)
    (w : World) (h : ∀ y, Steps (relayWorld l) ⟨(runOps (done ++ op :: rest)).run, w, []⟩ y →
      SendersKept l item y.trace) : op.Kept l item := by
  obtain ⟨tr₁, hperforms⟩ := performs_plain (l := l) hdone w []
  have hmeets : ∀ o ∈ done, o.MailMeets (relayWorld l)
      fun stamp mail => SenderKept l item stamp.isSome mail := fun o ho =>
    mailMeets_of_kept (kept_of_plain (hdone o ho))
  obtain ⟨-, hlast⟩ := mailsMeet_performs hmeets hperforms ⟨mailsMeet_nil, rfl⟩
  have hstamped : stamped tr₁ = false := by rw [stamped_eq, hlast, Option.isSome_none]
  have hreach := hperforms.steps (op :: rest)
  cases op with
  | send mail =>
    -- the mail is handed over, and answered somehow
    have hanswer : (relayWorld l).answers w (.send mail) (l.send (fun _ _ => .ok ()) mail) w :=
      ⟨_, rfl⟩
    have hstep := hreach.tail (.call hanswer)
    have hkept := h _ hstep w (.send mail) _ tr₁ List.suffix_rfl mail rfl
    rwa [hstamped] at hkept
  | notice to' reason =>
    let stamp : Stamp := ⟨"", ""⟩
    let mail := noticeMail to' reason stamp
    have hdraw : (relayWorld l).answers w .stamp stamp w := trivial
    have hanswer : (relayWorld l).answers w (.send mail) (l.send (fun _ _ => .ok ()) mail) w :=
      ⟨_, rfl⟩
    have hstep := (hreach.tail (.call hdraw)).tail (.call hanswer)
    have hkept := h _ hstep w (.send mail) _ _ List.suffix_rfl mail rfl
    exact fun hnull => hkept.unanswered rfl hnull to' List.mem_cons_self
  | need cmd => trivial
  | attempt cmd => trivial
  | deleting uid => trivial
  | refuse e => trivial

/-! ## Section 4: The first mail of an action list -/

def SieveAction.mails : SieveAction → Bool
  | .redirect _ | .reject _ => true
  | _ => false

/-- Nothing goes out for the action: the message to be redirected was not fetched, or the one who
would get the notice has no address. -/
def Withheld (l : Lettre A E) (item : FetchItem) : SieveAction → Prop
  | .redirect _ => item.body = none
  | .reject _ => 1 < item.returnPaths.length ∨
      ∀ addr ∈ item.fromAddresses.head?, ¬ l.Accepts (addrToString addr)
  | _ => True

/-- The first action that mails, if there is one, does not get a mail out. -/
def HeldUp (l : Lettre A E) (x : ActionExecutor) (item : FetchItem) (actions : List SieveAction) :
    Prop :=
  ∀ a ∈ actions.find? SieveAction.mails, x.smtp = false ∨ Withheld l item a

theorem plain_flagOps {uid : Nat} {op : Op} (h : op ∈ actions.flatMap (flagOps uid)) :
    op.plain = true := by
  obtain ⟨a, -, hop⟩ := List.mem_flatMap.mp h
  obtain ⟨_, _, -, rfl⟩ := mem_flagOps.mp hop
  rfl

theorem plain_dispositionOps {ctx : MessageContext} {a : SieveAction} (ha : a.mails = false)
    {op : Op} (h : op ∈ dispositionOps x ctx a) : op.plain = true := by
  cases a with
  | fileInto mailbox copy create =>
    rcases mem_fileOps.mp h with ⟨-, rfl⟩ | ⟨-, rfl⟩ | ⟨-, hmove⟩
    · rfl
    · rfl
    · rcases mem_moveOps.mp hmove with ⟨-, rfl⟩ | ⟨-, rfl | rfl | ⟨-, rfl⟩⟩ <;> rfl
  | redirect addresses => cases ha
  | reject reason => cases ha
  | _ => cases h

/-- An operation that is not plain is that of a Redirect or Reject. -/
theorem mail_of_operations {ctx : MessageContext} {op : Op} (h : op ∈ x.operations ctx actions) :
    op.plain = true ∨ (∃ addresses, .redirect addresses ∈ actions ∧
      op = redirectOp x ctx addresses) ∨
      ∃ reason, .reject reason ∈ actions ∧ op = rejectOp x ctx reason := by
  rcases List.mem_append.mp h with hpass | hdelete
  · rcases List.mem_append.mp hpass with hflag | hdisp
    · exact .inl (plain_flagOps hflag)
    · obtain ⟨a, ha, hop⟩ := List.mem_flatMap.mp hdisp
      cases a with
      | redirect addresses => exact .inr (.inl ⟨addresses, ha, List.mem_singleton.mp hop⟩)
      | reject reason => exact .inr (.inr ⟨reason, ha, List.mem_singleton.mp hop⟩)
      | _ => exact .inl (plain_dispositionOps rfl hop)
  · split at hdelete
    · rcases mem_deleteOps.mp hdelete with rfl | rfl | ⟨-, rfl⟩ <;> exact .inl rfl
    · cases hdelete

/-- The operation of the first action that mails comes after plain ones. -/
theorem exists_first_mail {ctx : MessageContext} {a : SieveAction}
    (h : actions.find? SieveAction.mails = some a) {op : Op}
    (hop : dispositionOps x ctx a = [op]) :
    ∃ done rest, x.operations ctx actions = done ++ op :: rest ∧ ∀ o ∈ done, o.plain = true := by
  obtain ⟨-, pre, post, rfl, hpre⟩ := List.find?_eq_some_iff_append.mp h
  refine ⟨x.ahead ctx pre a post, x.behind ctx pre a post, ?_, fun o ho => ?_⟩
  · rw [operations_split, hop, List.singleton_append]
  · rcases mem_ahead ho with ⟨_, _, rfl⟩ | ⟨b, hb, hob⟩
    · rfl
    · exact plain_dispositionOps (by simpa using hpre b hb) hob

/-- Where two lists of operations are the same list split twice, the second split is at the first
one, or behind it. -/
theorem eq_or_mem_of_split {α : Type} {done done' rest rest' : List α} {a b : α}
    (h : done ++ a :: rest = done' ++ b :: rest') (hb : b ∉ done) : b = a ∨ a ∈ done' := by
  rcases List.append_eq_append_iff.mp h with ⟨middle, rfl, hmiddle⟩ | ⟨middle, rfl, hmiddle⟩
  · cases middle with
    | nil => exact .inl (List.cons.inj hmiddle).1.symm
    | cons c middle =>
      cases (List.cons.inj hmiddle).1
      exact .inr (by simp)
  · cases middle with
    | nil => exact .inl (List.cons.inj hmiddle).1
    | cons c middle =>
      cases (List.cons.inj hmiddle).1
      exact absurd (by simp) hb

/-! ## Section 5: The sender from fetch to SMTP -/

theorem kept_redirect (h : item.NullSender → item.toContext.envelopeFrom = some "")
    (addresses : List String) : (redirectOp x item.toContext addresses).Kept l item := by
  unfold redirectOp
  split
  · split
    · trivial
    · refine ⟨fun hnotice => (by cases hnotice), fun _ hnull => ?_, fun _ hnull => ?_,
        fun _ addr haddr hpaths => ?_⟩
      · rw [Lettre.reversePath_eq_none_iff, h hnull, Option.getD_some]
      · obtain ⟨s, hs⟩ := exists_sender hnull
        rw [hs, Option.getD_some]
      · rw [envelopeFrom_of_bracketed haddr.ne_empty hpaths, Option.getD_some]
  · trivial

theorem kept_reject (h : item.NullSender → ∀ to' ∈ item.toContext.envelopeFrom, ¬ l.Accepts to')
    (reason : String) : (rejectOp x item.toContext reason).Kept l item := by
  rcases rejectOp_cases x item.toContext reason with ⟨e, hrefuse⟩ | ⟨to', hto, hnotice⟩
  · rw [hrefuse]
    trivial
  · rw [hnotice]
    exact fun hnull => h hnull to' hto

/-- Who would be notified of the rejection of a message with a null sender. -/
theorem not_accepts_of_withheld (hat : ∀ s : String, '@' ∉ s.toList → ∃ e, l.parse s = .error e)
    (hnull : item.NullSender) {reason : String} (h : Withheld l item (.reject reason)) :
    ∀ to' ∈ item.toContext.envelopeFrom, ¬ l.Accepts to' := by
  intro to' hto
  by_cases hlength : 1 < item.returnPaths.length
  · -- several Return-Paths are no address
    obtain ⟨s, hsender, -, hs⟩ := envelopeFrom_of_null_several hnull hlength
    rw [hsender] at hto
    cases hto
    rintro ⟨a, ha⟩
    obtain ⟨e, he⟩ := hat _ hs
    rw [ha] at he
    cases he
  · rw [envelopeFrom_of_null hnull (Nat.le_of_not_lt hlength), FetchItem.fallback] at hto
    obtain ⟨addr, haddr, rfl⟩ := Option.map_eq_some_iff.mp hto
    exact (h.resolve_left hlength) addr haddr

/-- The first action that mails is held up: its operation is as it should be, and cannot be
performed. -/
theorem held_of_withheld (hat : ∀ s : String, '@' ∉ s.toList → ∃ e, l.parse s = .error e)
    (hnull : item.NullSender) {a : SieveAction} (ha : a.mails = true)
    (h : x.smtp = false ∨ Withheld l item a) :
    ∃ op, dispositionOps x item.toContext a = [op] ∧ op.Held l ∧ op.Kept l item := by
  cases a with
  | redirect addresses =>
    have hrefuse : ∃ e, redirectOp x item.toContext addresses = .refuse e := by
      unfold redirectOp
      rcases h with hsmtp | hbody
      · rw [if_neg (by simp [hsmtp])]
        exact ⟨_, rfl⟩
      · have hraw : item.toContext.raw = none := hbody
        rw [hraw]
        split <;> exact ⟨_, rfl⟩
    obtain ⟨e, he⟩ := hrefuse
    exact ⟨_, rfl, by rw [he]; trivial, by rw [he]; trivial⟩
  | reject reason =>
    refine ⟨_, rfl, ?_⟩
    rcases rejectOp_cases x item.toContext reason with ⟨e, hrefuse⟩ | ⟨to', hto, hnotice⟩
    · rw [hrefuse]
      exact ⟨trivial, trivial⟩
    · have hsmtp : x.smtp ≠ false := by
        intro hsmtp
        rw [rejectOp, if_neg (by simp [hsmtp])] at hnotice
        cases hnotice
      have hnot := not_accepts_of_withheld hat hnull (h.resolve_left hsmtp) to' hto
      rw [hnotice]
      exact ⟨hnot, fun _ => hnot⟩
  | _ => cases ha

/-- With the empty string for the null sender every operation is as it should be. -/
theorem kept_of_empty (hat : ∀ s : String, '@' ∉ s.toList → ∃ e, l.parse s = .error e)
    (hsender : item.NullSender → item.toContext.envelopeFrom = some "") {op : Op}
    (hmem : op ∈ x.operations item.toContext actions) : op.Kept l item := by
  rcases mail_of_operations hmem with hplain | ⟨addresses, -, rfl⟩ | ⟨reason, -, rfl⟩
  · exact kept_of_plain hplain
  · exact kept_redirect hsender addresses
  · refine kept_reject (fun hnull to' hto => ?_) reason
    rw [hsender hnull] at hto
    cases hto
    rintro ⟨a, ha⟩
    obtain ⟨e, he⟩ := hat "" (by decide)
    rw [ha] at he
    cases he

/-- Where the first action that mails is held up, no operation behind it is reached. -/
theorem kept_of_heldUp (hat : ∀ s : String, '@' ∉ s.toList → ∃ e, l.parse s = .error e)
    (hnull : item.NullSender) (hup : HeldUp l x item actions) {done rest : List Op} {op : Op}
    (hops : x.operations item.toContext actions = done ++ op :: rest)
    (hdone : ∀ o ∈ done, ¬ o.Held l) : op.Kept l item := by
  cases hplain : op.plain with
  | true => exact kept_of_plain hplain
  | false =>
    cases hfind : actions.find? SieveAction.mails with
    | none =>
      -- no action mails
      have hnone := List.find?_eq_none.mp hfind
      have hmem : op ∈ x.operations item.toContext actions := by simp [hops]
      rcases mail_of_operations hmem with htrue | ⟨addresses, ha, -⟩ | ⟨reason, ha, -⟩
      · rw [htrue] at hplain
        cases hplain
      · exact absurd rfl (hnone _ ha)
      · exact absurd rfl (hnone _ ha)
    | some a =>
      obtain ⟨held, hop, hstuck, hkept⟩ :=
        held_of_withheld hat hnull (List.find?_some hfind) (hup a hfind)
      obtain ⟨done', rest', hsplit, hplain'⟩ := exists_first_mail hfind hop
      have hnotMem : op ∉ done' := fun hmem' => by
        rw [hplain' op hmem'] at hplain
        cases hplain
      rcases eq_or_mem_of_split (hsplit.symm.trans hops) hnotMem with rfl | hbehind
      · exact hkept
      · exact absurd hstuck (hdone held hbehind)

/-- Under either condition every operation that may be reached is as it should be. -/
theorem kept_of_operations (hat : ∀ s : String, '@' ∉ s.toList → ∃ e, l.parse s = .error e)
    (h : item.NullSender → item.EmptySender ∨ HeldUp l x item actions) {done rest : List Op}
    {op : Op} (hops : x.operations item.toContext actions = done ++ op :: rest)
    (hdone : ∀ o ∈ done, ¬ o.Held l) : op.Kept l item := by
  by_cases hheld : item.NullSender ∧ ¬ item.EmptySender
  · exact kept_of_heldUp hat hheld.1 ((h hheld.1).resolve_left hheld.2) hops hdone
  · have hmem : op ∈ x.operations item.toContext actions := by simp [hops]
    refine kept_of_empty hat (fun hnull => ?_) hmem
    exact (envelopeFrom_eq_empty_iff hnull).mpr (by_contra fun hempty => hheld ⟨hnull, hempty⟩)

/-- Where the operation of the first action that mails is as it should be, the null sender is
handed on as the empty string or nothing goes out. -/
theorem withheld_of_kept (hnull : item.NullSender) (hempty : ¬ item.EmptySender)
    (hsmtp : x.smtp = true) {a : SieveAction} (ha : a.mails = true)
    (h : ∀ op, dispositionOps x item.toContext a = [op] → op.Kept l item) :
    Withheld l item a := by
  cases a with
  | redirect addresses =>
    have hop := h _ rfl
    rw [redirectOp, if_pos hsmtp] at hop
    cases hraw : item.toContext.raw with
    | none => exact hraw
    | some raw =>
      rw [hraw] at hop
      -- the mail has the null reverse-path, so its sender is empty
      have hfrom : item.toContext.envelopeFrom.getD "<>" = "" :=
        Lettre.reversePath_eq_none_iff.mp (hop.null rfl hnull)
      have hsender : item.toContext.envelopeFrom = some "" := by
        cases hsender : item.toContext.envelopeFrom with
        | none =>
          rw [hsender, Option.getD_none] at hfrom
          exact absurd hfrom (by decide)
        | some s => exact congrArg some (by rwa [hsender, Option.getD_some] at hfrom)
      exact absurd ((envelopeFrom_eq_empty_iff hnull).mp hsender) hempty
  | reject reason =>
    by_cases hlength : 1 < item.returnPaths.length
    · exact .inl hlength
    · refine .inr fun addr haddr => ?_
      have hop := h _ rfl
      have hsender : item.toContext.envelopeFrom = some (addrToString addr) := by
        rw [envelopeFrom_of_null hnull (Nat.le_of_not_lt hlength), FetchItem.fallback, haddr,
          Option.map_some]
      rw [rejectOp, if_pos hsmtp, hsender] at hop
      exact hop hnull
  | _ => cases ha

/-- A null sender stays null from fetch to SMTP in every run exactly when the null sender is
handed on as the empty string or no mail gets out. -/
theorem execute_sender_iff (l : Lettre A E) (item : FetchItem) (x : ActionExecutor)
    (actions : List SieveAction)
    (hat : ∀ s : String, '@' ∉ s.toList → ∃ e, l.parse s = .error e) :
    (∀ w y, Steps (relayWorld l) ⟨(x.execute item.toContext actions).run, w, []⟩ y →
      SendersKept l item y.trace) ↔
    (item.NullSender → item.EmptySender ∨ HeldUp l x item actions) := by
  rw [execute_eq_runOps]
  constructor
  · intro hruns hnull
    by_cases hempty : item.EmptySender
    · exact .inl hempty
    · refine .inr fun a hfind => ?_
      cases hsmtp : x.smtp with
      | false => exact .inl rfl
      | true =>
        refine .inr (withheld_of_kept hnull hempty hsmtp (List.find?_some hfind) fun op hop => ?_)
        obtain ⟨done, rest, hsplit, hplain⟩ := exists_first_mail hfind hop
        rw [hsplit] at hruns
        exact kept_of_sendersKept hplain sampleExecutorWorld (hruns sampleExecutorWorld)
  · intro h w y hrun
    exact sendersKept_of_operations
      (fun done op rest hops hdone => kept_of_operations hat h hops hdone) hrun

end Mails

/-! ## Section 6: Bounces -/

/-- A parser that takes everything with an `@` for an address, and envelopes that have to have a
recipient. -/
def sampleLettre : Lettre String (Option String × List String) where
  parse s := if '@' ∈ s.toList then .ok s else .error "missing domain"
  newEnvelope sender to' := if to' = [] then .error "missing destination" else .ok (sender, to')

theorem sampleLettre_parse (s : String) (h : '@' ∉ s.toList) :
    ∃ e, sampleLettre.parse s = .error e :=
  ⟨"missing domain", if_neg h⟩

/-- A bounce with the given ENVELOPE `From`. -/
def bounce (sender : List Address) : FetchItem where
  uid := some 7
  body := some (encode "Return-Path: <>\r\n\r\nHi".toList)
  size := some 21
  flags := []
  envelope := some ⟨some sender, none⟩

theorem returnPaths_bounce (sender : List Address) : (bounce sender).returnPaths = ["<>"] :=
  show returnPaths (encode "Return-Path: <>\r\n\r\nHi".toList) = ["<>"] by decide

theorem nullSender_bounce (sender : List Address) : (bounce sender).NullSender := by
  refine .inl ⟨?_, ?_⟩ <;> simp [returnPaths_bounce]

/-- A bounce whose ENVELOPE `From` has neither mailbox nor host may be redirected and rejected. -/
theorem execute_sender_iff_bounce :
    (bounce [⟨none, none⟩]).NullSender ∧
    ∀ w y, Steps (relayWorld sampleLettre)
        ⟨((⟨true, {}, "INBOX"⟩ : ActionExecutor).execute (bounce [⟨none, none⟩]).toContext
          [.redirect ["a@x"], .reject "no"]).run, w, []⟩ y →
      SendersKept sampleLettre (bounce [⟨none, none⟩]) y.trace := by
  refine ⟨nullSender_bounce _, ?_⟩
  refine (execute_sender_iff sampleLettre _ _ _ sampleLettre_parse).mpr fun _ => .inl ⟨?_, ?_⟩
  · rw [returnPaths_bounce]
    exact Nat.le_refl 1
  · exact ⟨⟨none, none⟩, rfl, by decide⟩

/-- The rejection of a bounce is sent to its author. -/
theorem not_unanswered :
    ¬ ∀ (A E : Type) (l : Lettre A E) (item : FetchItem) (x : ActionExecutor)
      (actions : List SieveAction),
      (∀ s : String, '@' ∉ s.toList → ∃ e, l.parse s = .error e) →
      ∀ w y, Steps (relayWorld l) ⟨(x.execute item.toContext actions).run, w, []⟩ y →
        SendersKept l item y.trace := by
  intro hall
  let author : Address := ⟨some (encode "MAILER-DAEMON".toList), some (encode "mx".toList)⟩
  let x : ActionExecutor := ⟨true, {}, "INBOX"⟩
  have hsender : (bounce [author]).toContext.envelopeFrom = some "MAILER-DAEMON@mx" := by
    rw [envelopeFrom_of_null (nullSender_bounce _) (by simp [returnPaths_bounce])]
    decide
  have hfind : [SieveAction.reject "no"].find? SieveAction.mails = some (.reject "no") := rfl
  have hop : dispositionOps x (bounce [author]).toContext (.reject "no") =
      [.notice "MAILER-DAEMON@mx" "no"] := by
    rw [dispositionOps, rejectOp, hsender, if_pos rfl]
  have hruns := hall _ _ sampleLettre (bounce [author]) x [.reject "no"] sampleLettre_parse
    sampleExecutorWorld
  obtain ⟨done, rest, hsplit, hplain⟩ := exists_first_mail hfind hop
  rw [execute_eq_runOps, hsplit] at hruns
  have hkept := kept_of_sendersKept hplain sampleExecutorWorld hruns
  exact hkept (nullSender_bounce _) ⟨"MAILER-DAEMON@mx", by decide⟩

end ImapSieve
