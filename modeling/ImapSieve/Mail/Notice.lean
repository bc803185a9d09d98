import ImapSieve.Mail.NullSender
import ImapSieve.Text.Crlf

/-!
# The Shape of a Rejection Notice

A rejection notice is one template with four strings put into it. The date and the message id are
the daemon's own. The reason comes from the script, and `execute` replaces CRLF and LF in it; the
address comes from the message, and nothing is replaced in it. So the notice has the lines of the
template exactly for reasons without a lone CR and for senders without either.
-/

namespace ImapSieve

open Effects Text

/-! ## Section 1: The lines of the template -/

/-- The text does not end a line. -/
def CleanText (s : String) : Prop := '\r' ∉ s.toList ∧ '\n' ∉ s.toList

instance (s : String) : Decidable (CleanText s) := inferInstanceAs (Decidable (_ ∧ _))

/-- Dates and UUIDs are written in one line. -/
def Stamp.Clean (stamp : Stamp) : Prop := CleanText stamp.date ∧ CleanText stamp.messageId

/-- The fields of the header section. -/
def noticeFields (to' : String) (stamp : Stamp) : List String :=
  ["From: <>", "To: " ++ to', "Date: " ++ stamp.date,
    "Message-ID: <reject-" ++ stamp.messageId ++ "@imap-sieve>", "MIME-Version: 1.0",
    "Subject: Mail rejected", "Content-Type: text/plain; charset=utf-8"]

/-- The header section, the empty line below it, a body of one line, and its end. -/
def noticeLines (to' : String) (stamp : Stamp) (body : String) : List String :=
  noticeFields to' stamp ++ ["", body, ""]

/-- The notice has the lines of the template, and CR and LF only between them. -/
structure Shaped (to' : String) (stamp : Stamp) (body : String) (raw : List UInt8) : Prop where
  lines : crlfLines raw = (noticeLines to' stamp body).map fun line => encode line.toList
  alone : ∀ line ∈ crlfLines raw, 13 ∉ line ∧ 10 ∉ line

theorem rejectNotice_eq_render (to' reason : String) (stamp : Stamp) :
    rejectNotice to' reason stamp =
      renderCrlf ((noticeLines to' stamp (safeReason reason)).map fun line =>
        encode line.toList) := by
  have htext : "From: <>\r\nTo: " ++ to' ++ "\r\nDate: " ++ stamp.date ++
      "\r\nMessage-ID: <reject-" ++ stamp.messageId ++
      "@imap-sieve>\r\nMIME-Version: 1.0\r\nSubject: Mail rejected\r\n" ++
      "Content-Type: text/plain; charset=utf-8\r\n\r\n" ++ safeReason reason ++ "\r\n" =
      "\r\n".intercalate (noticeLines to' stamp (safeReason reason)) := by
    rw [← String.toList_inj]
    simp [noticeLines, noticeFields]
  rw [rejectNotice, data_toUTF8, htext, String.toList_intercalate, encode_intercalate,
    List.map_map]
  rfl

theorem cleanText_append {s t : String} : CleanText (s ++ t) ↔ CleanText s ∧ CleanText t := by
  simp only [CleanText, String.toList_append, List.mem_append]
  tauto

/-- CR and LF are single bytes, and no other character has these bytes in it. -/
theorem cleanText_iff {s : String} :
    CleanText s ↔ 13 ∉ encode s.toList ∧ 10 ∉ encode s.toList := by
  have hcr : 13 ∈ encode s.toList ↔ '\r' ∈ s.toList := mem_encode_iff (c := '\r') (by decide)
  have hlf : 10 ∈ encode s.toList ↔ '\n' ∈ s.toList := mem_encode_iff (c := '\n') (by decide)
  rw [hcr, hlf, CleanText]

/-- What is put into the template decides whether its lines end a line too early. -/
theorem cleanText_noticeLines {to' body : String} {stamp : Stamp} (hstamp : stamp.Clean) :
    (∀ line ∈ noticeLines to' stamp body, CleanText line) ↔ CleanText to' ∧ CleanText body := by
  constructor
  · intro h
    have hto : CleanText ("To: " ++ to') := h _ (by simp [noticeLines, noticeFields])
    exact ⟨(cleanText_append.mp hto).2, h body (by simp [noticeLines])⟩
  · rintro ⟨hto, hbody⟩ line hline
    simp only [noticeLines, noticeFields, List.cons_append, List.nil_append, List.mem_cons,
      List.not_mem_nil, or_false] at hline
    -- a line of the template as it is, or with a string put in
    rcases hline with rfl | rfl | rfl | rfl | rfl | rfl | rfl | rfl | rfl | rfl
    · decide
    · exact cleanText_append.mpr ⟨by decide, hto⟩
    · exact cleanText_append.mpr ⟨by decide, hstamp.1⟩
    · exact cleanText_append.mpr ⟨cleanText_append.mpr ⟨by decide, hstamp.2⟩, by decide⟩
    · decide
    · decide
    · decide
    · decide
    · exact hbody
    · decide

/-- The notice has the shape of the template exactly if the address and the body end no line. -/
theorem shaped_iff {to' reason : String} {stamp : Stamp} (hstamp : stamp.Clean) :
    Shaped to' stamp (safeReason reason) (rejectNotice to' reason stamp) ↔
      CleanText to' ∧ CleanText (safeReason reason) := by
  rw [← cleanText_noticeLines hstamp]
  constructor
  · intro h line hline
    rw [cleanText_iff]
    exact h.alone _ (h.lines ▸ List.mem_map_of_mem hline)
  · intro h
    have hclean : ∀ bytes ∈ (noticeLines to' stamp (safeReason reason)).map
        (fun line => encode line.toList), 13 ∉ bytes ∧ 10 ∉ bytes := by
      intro bytes hbytes
      obtain ⟨line, hline, rfl⟩ := List.mem_map.mp hbytes
      exact cleanText_iff.mp (h line hline)
    have hlines : crlfLines (rejectNotice to' reason stamp) =
        (noticeLines to' stamp (safeReason reason)).map fun line => encode line.toList := by
      rw [rejectNotice_eq_render]
      exact crlfLines_render (by simp [noticeLines]) fun bytes hbytes => (hclean bytes hbytes).1
    exact ⟨hlines, hlines ▸ hclean⟩

/-! ## Section 2: The reason -/

/-- Every CR of the reason is that of a CRLF. -/
def CleanReason (reason : String) : Prop :=
  ∀ front back, reason.toList = front ++ '\r' :: back → back.head? = some '\n'

/-- The first replacement leaves the lone CRs. -/
theorem cr_mem_replaceCrLf_iff (cs : List Char) :
    '\r' ∈ replaceCrLf cs ↔ ∃ front back, cs = front ++ '\r' :: back ∧ back.head? ≠ some '\n' := by
  induction cs using replaceCrLf.induct with
  | case1 rest ih =>
    rw [replaceCrLf, List.mem_cons, ih]
    constructor
    · rintro (hspace | ⟨front, back, rfl, hback⟩)
      · cases hspace
      · exact ⟨'\r' :: '\n' :: front, back, rfl, hback⟩
    · rintro ⟨front, back, heq, hback⟩
      -- the CR in front is followed by its LF
      match front, heq with
      | [], heq =>
        cases heq
        exact absurd rfl hback
      | [c], heq => cases heq
      | c :: d :: front, heq =>
        cases heq
        exact .inr ⟨front, back, rfl, hback⟩
  | case2 c rest hpair ih =>
    rw [replaceCrLf, List.mem_cons, ih]
    · constructor
      · rintro (rfl | ⟨front, back, rfl, hback⟩)
        · refine ⟨[], rest, rfl, fun hhead => ?_⟩
          obtain ⟨tail, rfl⟩ := List.head?_eq_some_iff.mp hhead
          exact hpair tail rfl rfl
        · exact ⟨c :: front, back, rfl, hback⟩
      · rintro ⟨front, back, heq, hback⟩
        cases front with
        | nil =>
          cases heq
          exact .inl rfl
        | cons d front =>
          cases heq
          exact .inr ⟨front, back, rfl, hback⟩
    · exact hpair
  | case3 =>
    rw [replaceCrLf]
    simp

/-- What is left of the reason ends no line exactly if there was no lone CR in it. -/
theorem cleanText_safeReason_iff {reason : String} :
    CleanText (safeReason reason) ↔ CleanReason reason := by
  -- the second replacement takes the LFs and leaves the CRs
  have hcr : '\r' ∈ (safeReason reason).toList ↔ '\r' ∈ replaceCrLf reason.toList := by
    rw [safeReason, String.toList_ofList, replaceLf, List.mem_map]
    constructor
    · rintro ⟨c, hc, heq⟩
      split at heq
      · cases heq
      · exact heq ▸ hc
    · intro hmem
      exact ⟨'\r', hmem, rfl⟩
  have hlf : '\n' ∉ (safeReason reason).toList := by
    rw [safeReason, String.toList_ofList, replaceLf, List.mem_map]
    rintro ⟨c, -, heq⟩
    split at heq
    · cases heq
    · rename_i hne
      exact hne heq
  rw [CleanText, hcr, cr_mem_replaceCrLf_iff, CleanReason]
  constructor
  · rintro ⟨hlone, -⟩ front back heq
    by_contra hback
    exact hlone ⟨front, back, heq, hback⟩
  · intro h
    refine ⟨?_, hlf⟩
    rintro ⟨front, back, heq, hback⟩
    exact hback (h front back heq)

/-! ## Section 3: The sender -/

/-- No Return-Path has a CR in it; and where none names a sender, the first ENVELOPE `From`
address has neither CR nor LF. -/
structure FetchItem.CleanSender (item : FetchItem) : Prop where
  returnPath : ∀ v ∈ item.returnPaths, '\r' ∉ v.toList
  envelope : item.Pathless → ∀ addr ∈ item.fromAddresses.head?, CleanText (addrToString addr)

section Sender

variable {item : FetchItem}

/-- A value of a header field is in one line. -/
theorem newline_notMem_returnPath {v : String} (h : v ∈ item.returnPaths) : '\n' ∉ v.toList := by
  obtain ⟨field, hfield, rfl⟩ := List.mem_map.mp h
  obtain ⟨line, hline, hfieldOf⟩ := List.mem_filterMap.mp (List.mem_of_mem_filter hfield)
  have hnewline : '\n' ∉ line :=
    (gatherLines_newline fun l hl => mem_lines (List.takeWhile_subset _ hl)).2 line hline
  obtain ⟨parts, hsplit, rfl⟩ := Option.map_eq_some_iff.mp hfieldOf
  rw [String.toList_ofList]
  intro hmem
  apply hnewline
  rw [eq_of_splitOnce hsplit]
  exact List.mem_append_right _ (List.mem_cons_of_mem _ (mem_of_mem_trim hmem))

theorem exists_foldl_joinValues (v : String) (rest : List String) :
    ∃ back, (rest.foldl joinValues v).toList = v.toList ++ back := by
  induction rest generalizing v with
  | nil => exact ⟨[], by simp⟩
  | cons v' rest ih =>
    obtain ⟨back, heq⟩ := ih (joinValues v v')
    refine ⟨", ".toList ++ v'.toList ++ back, ?_⟩
    rw [List.foldl_cons, heq]
    simp [joinValues]

/-- Each value is in the joined one as it is. -/
theorem exists_joined_eq {v value : String} {rest : List String} (h : value ∈ v :: rest) :
    ∃ front back, (rest.foldl joinValues v).toList = front ++ value.toList ++ back := by
  induction rest generalizing v with
  | nil =>
    rw [List.mem_singleton.mp h]
    exact ⟨[], [], by simp⟩
  | cons v' rest ih =>
    rcases List.mem_cons.mp h with rfl | hrest
    · obtain ⟨back, heq⟩ := exists_foldl_joinValues value (v' :: rest)
      exact ⟨[], back, heq⟩
    · rcases List.mem_cons.mp hrest with rfl | hrest
      · obtain ⟨back, heq⟩ := exists_foldl_joinValues (joinValues v value) rest
        refine ⟨v.toList ++ ", ".toList, back, ?_⟩
        rw [List.foldl_cons, heq]
        simp [joinValues]
      · exact ih (List.mem_cons_of_mem _ hrest)

/-- White space within a trimmed text has something else on both sides. -/
theorem visible_around {text : List Char} (htrim : trim text = text) {c : Char} (hmem : c ∈ text)
    (hspace : isWhitespace c = true) :
    ∃ before after, text = before ++ [c] ++ after ∧ Visible before ∧ Visible after := by
  -- neither the first nor the last character is white space, so neither is `c`
  have hfirst : ∀ d ∈ text.head?, isWhitespace d = false := fun d hd =>
    head?_trim (htrim.symm ▸ hd)
  have hlast : ∀ d ∈ text.getLast?, isWhitespace d = false := fun d hd =>
    getLast?_trim (htrim.symm ▸ hd)
  obtain ⟨before, after, rfl⟩ := List.append_of_mem hmem
  refine ⟨before, after, by simp, ?_, ?_⟩
  · cases before with
    | nil =>
      rw [hfirst c rfl] at hspace
      cases hspace
    | cons d before => exact ⟨d, List.mem_cons_self, hfirst d rfl⟩
  · rcases List.eq_nil_or_concat after with rfl | ⟨front, d, rfl⟩
    · rw [hlast c List.getLast?_concat] at hspace
      cases hspace
    · refine ⟨d, by simp, hlast d ?_⟩
      rw [List.concat_eq_append, ← List.cons_append, ← List.append_assoc]
      exact List.getLast?_concat

/-- What stands between other things than white space survives the stripping of the brackets. -/
theorem mem_stripBrackets_between {before after : List Char} (hbefore : Visible before)
    (hafter : Visible after) (c : Char) : c ∈ stripBrackets (before ++ [c] ++ after) := by
  obtain ⟨before', after', hfront, hback, htrim⟩ := trim_between hbefore hafter [c]
  unfold stripBrackets
  rw [htrim]
  split
  · rename_i rest heq
    obtain ⟨d, front, rfl⟩ := List.exists_cons_of_ne_nil hfront
    obtain ⟨back, e, rfl⟩ := (List.eq_nil_or_concat after').resolve_left hback
    have hrest : rest = front ++ [c] ++ back ++ [e] := by
      rw [List.concat_eq_append] at heq
      simpa using (List.cons.inj heq).2.symm
    split
    · rw [hrest, List.dropLast_concat]
      simp
    · simp
  · simp

/-- A CR in one of the values is in what the brackets are stripped off. -/
theorem cr_mem_stripBrackets {v value : String} {rest : List String}
    (hpaths : item.returnPaths = v :: rest) (hvalue : value ∈ v :: rest)
    (hmem : '\r' ∈ value.toList) :
    '\r' ∈ stripBrackets (rest.foldl joinValues v).toList := by
  obtain ⟨before, after, heq, hbefore, hafter⟩ :=
    visible_around (trim_returnPath (hpaths ▸ hvalue)) hmem (by decide)
  obtain ⟨front, back, hjoined⟩ := exists_joined_eq hvalue
  have hsplit : (rest.foldl joinValues v).toList =
      (front ++ before) ++ ['\r'] ++ (after ++ back) := by
    rw [hjoined, heq]
    simp
  rw [hsplit]
  exact mem_stripBrackets_between (hbefore.append_left front) (hafter.append_right back) '\r'

/-- What is left of the Return-Paths ends no line exactly if there is no CR in one of them. -/
theorem cleanText_stripBrackets_iff {v : String} {rest : List String}
    (hpaths : item.returnPaths = v :: rest) :
    CleanText (String.ofList (stripBrackets (rest.foldl joinValues v).toList)) ↔
      ∀ value ∈ v :: rest, '\r' ∉ value.toList := by
  rw [CleanText, String.toList_ofList]
  constructor
  · rintro ⟨hcr, -⟩ value hvalue hmem
    exact hcr (cr_mem_stripBrackets hpaths hvalue hmem)
  · intro h
    -- a newline cannot come from the message, and joining adds neither
    have hnewline : ∀ value ∈ v :: rest, '\n' ∉ value.toList := fun value hvalue =>
      newline_notMem_returnPath (hpaths ▸ hvalue)
    exact ⟨fun hcr => notMem_joined (by decide) (by decide) h (stripBrackets_subset hcr),
      fun hlf => notMem_joined (by decide) (by decide) hnewline (stripBrackets_subset hlf)⟩

/-- An empty Return-Path has no CR. -/
theorem cr_notMem_of_pathless (h : item.Pathless) : ∀ v ∈ item.returnPaths, '\r' ∉ v.toList := by
  intro v hv
  rcases h with hnil | hempty | hnull
  · simp [hnil] at hv
  · rw [hempty, List.mem_singleton] at hv
    simp [hv]
  · rw [hnull, List.mem_singleton] at hv
    simp [hv]

/-- The sender that is handed on ends no line exactly if the message is clean. -/
theorem cleanSender_iff {to' : String} (h : item.toContext.envelopeFrom = some to') :
    CleanText to' ↔ item.CleanSender := by
  by_cases hpathless : item.Pathless
  · rw [envelopeFrom_of_pathless hpathless, FetchItem.fallback, Option.map_eq_some_iff] at h
    obtain ⟨addr, haddr, rfl⟩ := h
    constructor
    · intro hclean
      refine ⟨cr_notMem_of_pathless hpathless, fun _ addr' haddr' => ?_⟩
      cases haddr.symm.trans haddr'
      exact hclean
    · intro hclean
      exact hclean.envelope hpathless addr haddr
  · -- the ENVELOPE is not looked at
    obtain ⟨v, rest, hpaths, hsender⟩ := envelopeFrom_of_not_pathless hpathless
    cases h.symm.trans hsender
    rw [cleanText_stripBrackets_iff hpaths, ← hpaths]
    exact ⟨fun hcr => ⟨hcr, fun hnone => absurd hnone hpathless⟩, fun hclean => hclean.returnPath⟩

end Sender

/-! ## Section 4: The notices of a run -/

section Runs

variable {item : FetchItem} {x : ActionExecutor} {actions : List SieveAction} {w : World}
  {tr : History} {stamp : Stamp} {mail : OutgoingMail}
  {y : Config Call Reply World (Except CoreError Unit)}

/-- Dates and message ids are drawn in one line. Any other call may get any reply and leave any
world. -/
def noticeWorld : Surroundings Call Reply World where
  answers _ c r _ :=
    match c, r with
    | .stamp, stamp => Stamp.Clean stamp
    | _, _ => True
  drifts _ _ := False
  restarts _ _ := False

/-- A notice with the stamp was handed to the mail sender. -/
def SentNotice (tr : History) (stamp : Stamp) (mail : OutgoingMail) : Prop :=
  ∃ w r before, .called w (.send mail) r :: before <:+ tr ∧ lastStamp before = some stamp

/-- The mail is a notice of the operations, if there is a stamp for it. -/
def NoticeOf (ops : List Op) (drawn : Option Stamp) (mail : OutgoingMail) : Prop :=
  ∀ stamp ∈ drawn, stamp.Clean ∧
    ∃ to' reason, .notice to' reason ∈ ops ∧ mail = noticeMail to' reason stamp

theorem mailMeets_notice {ops : List Op} {op : Op} (h : op ∈ ops) :
    op.MailMeets noticeWorld (NoticeOf ops) := by
  cases op with
  | send mail =>
    intro stamp hstamp
    cases hstamp
  | notice to' reason =>
    intro w stamp w' hclean stamp' hstamp
    cases hstamp
    exact ⟨hclean, to', reason, h, rfl⟩
  | _ => trivial

theorem redirectOp_ne_notice (ctx : MessageContext) (addresses : List String)
    (to' reason : String) : redirectOp x ctx addresses ≠ .notice to' reason := by
  intro h
  unfold redirectOp at h
  split at h
  · split at h <;> cases h
  · cases h

/-- A notice belongs to a Reject of the list, and is addressed to the sender. -/
theorem exists_reject_of_notice {ctx : MessageContext} {to' reason : String}
    (h : .notice to' reason ∈ x.operations ctx actions) :
    .reject reason ∈ actions ∧ ctx.envelopeFrom = some to' := by
  rcases mail_of_operations h with hplain | ⟨addresses, -, heq⟩ | ⟨reason', hreject, heq⟩
  · cases hplain
  · exact absurd heq.symm (redirectOp_ne_notice ctx addresses to' reason)
  · rcases rejectOp_cases x ctx reason' with ⟨e, hrefuse⟩ | ⟨to'', hto, hnotice⟩
    · rw [hrefuse] at heq
      cases heq
    · rw [hnotice] at heq
      cases heq
      exact ⟨hreject, hto⟩

/-- Every notice of a run comes from a Reject of the action list. -/
theorem exists_notice_of_execute
    (h : Steps noticeWorld ⟨(x.execute item.toContext actions).run, w, []⟩ y)
    (hsent : SentNotice y.trace stamp mail) :
    ∃ to' reason, item.toContext.envelopeFrom = some to' ∧ .reject reason ∈ actions ∧
      mail = noticeMail to' reason stamp ∧ stamp.Clean := by
  rw [execute_eq_runOps] at h
  have hmeet : MailsMeet (NoticeOf (x.operations item.toContext actions)) y.trace := by
    refine mailsMeet_of_operations (fun _ _ => id) (fun done op rest hops _ => ?_) h
    exact mailMeets_notice (by simp [hops])
  obtain ⟨w₁, r, before, hsuffix, hlast⟩ := hsent
  obtain ⟨hclean, to', reason, hmem, hmail⟩ := hmeet w₁ _ r before hsuffix mail rfl stamp hlast
  obtain ⟨hreject, hto⟩ := exists_reject_of_notice hmem
  exact ⟨to', reason, hto, hreject, hmail, hclean⟩

/-- Where there is a sender, the notice goes out. -/
theorem exists_sentNotice {to' : String} (hto : item.toContext.envelopeFrom = some to')
    (hsmtp : x.smtp = true) (reason : String) (hstamp : stamp.Clean) (w : World) :
    ∃ y, Steps noticeWorld ⟨(x.execute item.toContext [.reject reason]).run, w, []⟩ y ∧
      SentNotice y.trace stamp (noticeMail to' reason stamp) := by
  have hops : x.operations item.toContext [.reject reason] =
      .notice to' reason :: deleteOps x.caps item.toContext.uid := by
    simp [ActionExecutor.operations, ActionExecutor.passes, flagOps, dispositionOps, rejectOp,
      hsmtp, hto, SieveAction.deletes]
  have hperformed : (Op.notice to' reason).Performed noticeWorld w [] w
      [.called w (.send (noticeMail to' reason stamp)) (.ok ()), .called w .stamp stamp] :=
    .notice hstamp trivial
  rw [execute_eq_runOps, hops]
  exact ⟨_, hperformed.steps _, w, .ok (), _, List.suffix_rfl, rfl⟩

/-! ## Section 5: Two runs -/

/-- The lines are the same, but for the date, the message id and the body. -/
def SameButBody (raw₁ raw₂ : List UInt8) : Prop :=
  ∀ i, i ≠ 2 → i ≠ 3 → i ≠ 8 → (crlfLines raw₁)[i]? = (crlfLines raw₂)[i]?

theorem noticeLines_getElem? (to' : String) (stamp₁ stamp₂ : Stamp) (body₁ body₂ : String) {i : Nat}
    (hdate : i ≠ 2) (hid : i ≠ 3) (hbody : i ≠ 8) :
    (noticeLines to' stamp₁ body₁)[i]? = (noticeLines to' stamp₂ body₂)[i]? := by
  match i with
  | 2 => exact absurd rfl hdate
  | 3 => exact absurd rfl hid
  | 8 => exact absurd rfl hbody
  | 0 | 1 | 4 | 5 | 6 | 7 | 9 => rfl
  | i + 10 => rfl

theorem sameButBody_of_shaped {to' body₁ body₂ : String} {stamp₁ stamp₂ : Stamp}
    {raw₁ raw₂ : List UInt8} (h₁ : Shaped to' stamp₁ body₁ raw₁)
    (h₂ : Shaped to' stamp₂ body₂ raw₂) : SameButBody raw₁ raw₂ := by
  intro i hdate hid hbody
  rw [h₁.lines, h₂.lines, List.getElem?_map, List.getElem?_map,
    noticeLines_getElem? to' stamp₁ stamp₂ body₁ body₂ hdate hid hbody]

theorem shaped_iff_clean {to' : String} (hto : item.toContext.envelopeFrom = some to')
    (reason : String) (hstamp : stamp.Clean) :
    Shaped to' stamp (safeReason reason) (rejectNotice to' reason stamp) ↔
      item.CleanSender ∧ CleanReason reason := by
  rw [shaped_iff hstamp, cleanSender_iff hto, cleanText_safeReason_iff]

/-- Two notices about a message, of any two runs, have the shape of the template and differ only
in the body exactly if the message and both reasons are clean. -/
theorem notices_shaped_iff {x₁ x₂ : ActionExecutor} {actions₁ actions₂ : List SieveAction}
    {w₁ w₂ : World} {y₁ y₂ : Config Call Reply World (Except CoreError Unit)}
    {stamp₁ stamp₂ : Stamp} {mail₁ mail₂ : OutgoingMail}
    (h₁ : Steps noticeWorld ⟨(x₁.execute item.toContext actions₁).run, w₁, []⟩ y₁)
    (h₂ : Steps noticeWorld ⟨(x₂.execute item.toContext actions₂).run, w₂, []⟩ y₂)
    (hsent₁ : SentNotice y₁.trace stamp₁ mail₁) (hsent₂ : SentNotice y₂.trace stamp₂ mail₂) :
    ∃ to' reason₁ reason₂, item.toContext.envelopeFrom = some to' ∧
      .reject reason₁ ∈ actions₁ ∧ mail₁ = noticeMail to' reason₁ stamp₁ ∧
      .reject reason₂ ∈ actions₂ ∧ mail₂ = noticeMail to' reason₂ stamp₂ ∧
      ((Shaped to' stamp₁ (safeReason reason₁) mail₁.raw ∧
          Shaped to' stamp₂ (safeReason reason₂) mail₂.raw ∧ SameButBody mail₁.raw mail₂.raw) ↔
        CleanReason reason₁ ∧ CleanReason reason₂ ∧ item.CleanSender) := by
  obtain ⟨to', reason₁, hto, hreject₁, rfl, hstamp₁⟩ := exists_notice_of_execute h₁ hsent₁
  obtain ⟨to'', reason₂, hto', hreject₂, rfl, hstamp₂⟩ := exists_notice_of_execute h₂ hsent₂
  -- both are addressed to the sender of the message
  cases hto.symm.trans hto'
  refine ⟨to', reason₁, reason₂, hto, hreject₁, rfl, hreject₂, rfl, ?_⟩
  have hshaped₁ := shaped_iff_clean hto reason₁ hstamp₁
  have hshaped₂ := shaped_iff_clean hto reason₂ hstamp₂
  constructor
  · rintro ⟨hraw₁, hraw₂, -⟩
    exact ⟨(hshaped₁.mp hraw₁).2, (hshaped₂.mp hraw₂).2, (hshaped₁.mp hraw₁).1⟩
  · rintro ⟨hreason₁, hreason₂, hsender⟩
    have hraw₁ := hshaped₁.mpr ⟨hsender, hreason₁⟩
    have hraw₂ := hshaped₂.mpr ⟨hsender, hreason₂⟩
    exact ⟨hraw₁, hraw₂, sameButBody_of_shaped hraw₁ hraw₂⟩

end Runs

def sampleStamp : Stamp := ⟨"Mon, 01 Jan 2024 00:00:00 +0000", "1"⟩

theorem clean_sampleStamp : sampleStamp.Clean := ⟨by decide, by decide⟩

theorem envelopeFrom_deliveredOnce : deliveredOnce.toContext.envelopeFrom = some "a@x" :=
  envelopeFrom_of_bracketed (by decide) (by decide)

/-- A message with a bracketed Return-Path is about to be rejected. -/
def rejection (reason : String) : Config Call Reply World (Except CoreError Unit) :=
  ⟨((⟨true, {}, "INBOX"⟩ : ActionExecutor).execute deliveredOnce.toContext [.reject reason]).run,
    sampleExecutorWorld, []⟩

/-- The notices for a reason of one line and for a reason of two lines. -/
theorem notices_shaped_iff_lines :
    ∃ y₁ y₂, Steps noticeWorld (rejection "no") y₁ ∧
      Steps noticeWorld (rejection "not\r\nhere") y₂ ∧
      SentNotice y₁.trace sampleStamp (noticeMail "a@x" "no" sampleStamp) ∧
      SentNotice y₂.trace sampleStamp (noticeMail "a@x" "not\r\nhere" sampleStamp) ∧
      Shaped "a@x" sampleStamp "no" (noticeMail "a@x" "no" sampleStamp).raw ∧
      Shaped "a@x" sampleStamp "not here" (noticeMail "a@x" "not\r\nhere" sampleStamp).raw ∧
      SameButBody (noticeMail "a@x" "no" sampleStamp).raw
        (noticeMail "a@x" "not\r\nhere" sampleStamp).raw := by
  obtain ⟨y₁, hsteps₁, hsent₁⟩ := exists_sentNotice (x := ⟨true, {}, "INBOX"⟩)
    envelopeFrom_deliveredOnce rfl "no" clean_sampleStamp sampleExecutorWorld
  obtain ⟨y₂, hsteps₂, hsent₂⟩ := exists_sentNotice (x := ⟨true, {}, "INBOX"⟩)
    envelopeFrom_deliveredOnce rfl "not\r\nhere" clean_sampleStamp sampleExecutorWorld
  obtain ⟨to', reason₁, reason₂, hto, hreject₁, -, hreject₂, -, hiff⟩ :=
    notices_shaped_iff hsteps₁ hsteps₂ hsent₁ hsent₂
  cases envelopeFrom_deliveredOnce.symm.trans hto
  cases List.mem_singleton.mp hreject₁
  cases List.mem_singleton.mp hreject₂
  have hclean : deliveredOnce.CleanSender :=
    (cleanSender_iff envelopeFrom_deliveredOnce).mp (by decide)
  have hreason₁ : CleanReason "no" := cleanText_safeReason_iff.mp (by decide)
  have hreason₂ : CleanReason "not\r\nhere" := cleanText_safeReason_iff.mp (by decide)
  exact ⟨y₁, y₂, hsteps₁, hsteps₂, hsent₁, hsent₂, hiff.mpr ⟨hreason₁, hreason₂, hclean⟩⟩

/-- A message whose Return-Path has a field behind a CR. -/
def smuggled : FetchItem where
  uid := some 7
  body := some (encode "Return-Path: <a@x\rBcc: b@y>\r\n\r\nHi".toList)
  size := some 34
  flags := []
  envelope := none

/-- The CR of a Return-Path gets into the header section of the notice. -/
theorem not_notices_shaped :
    ¬ ∀ (item : FetchItem) (x : ActionExecutor) (actions : List SieveAction) (w : World)
      (y : Config Call Reply World (Except CoreError Unit)) (stamp : Stamp) (mail : OutgoingMail),
      Steps noticeWorld ⟨(x.execute item.toContext actions).run, w, []⟩ y →
      SentNotice y.trace stamp mail →
      ∃ to' reason, item.toContext.envelopeFrom = some to' ∧ .reject reason ∈ actions ∧
        Shaped to' stamp (safeReason reason) mail.raw := by
  intro hall
  have hto : smuggled.toContext.envelopeFrom = some "a@x\rBcc: b@y" :=
    envelopeFrom_of_bracketed (by decide) (by decide)
  let x : ActionExecutor := ⟨true, {}, "INBOX"⟩
  obtain ⟨y, hsteps, hsent⟩ :=
    exists_sentNotice (x := x) hto rfl "no" clean_sampleStamp sampleExecutorWorld
  obtain ⟨to', reason, hto', hreject, hshaped⟩ := hall _ _ _ _ _ _ _ hsteps hsent
  cases hto.symm.trans hto'
  cases List.mem_singleton.mp hreject
  -- the address would have to be without a CR
  have hclean := ((shaped_iff clean_sampleStamp).mp hshaped).1
  exact absurd hclean (by decide)

end ImapSieve
