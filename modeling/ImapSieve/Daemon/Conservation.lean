import ImapSieve.Daemon.Provenance
import ImapSieve.Executor.Loss

/-!
# The Daemon Loses No Mail

`content_conserved`: as long as others take nothing away, every content that was in some mailbox
at some time of a run is in some mailbox still, unless a script had a message with that content
discarded or rejected. This is about all messages and all of a run, with its lost connections,
failed commands, losses of the process and reloads of the script.

The only command that takes a content away is EXPUNGE. What the daemon has left to do never has an
EXPUNGE coming for a message whose content is nowhere else (`Phase.Guards`).
-/

namespace ImapSieve

open Effects

/-! ## Section 1: Mailboxes that nothing is taken from -/

namespace Mailbox

/-- The UIDs that were given out before stand for the contents that they stood for. -/
def Recalls (b b' : Mailbox) : Prop :=
  b.uidnext ≤ b'.uidnext ∧ ∀ m' ∈ b'.messages, m'.uid < b.uidnext →
    ∃ m ∈ b.messages, m.uid = m'.uid ∧ m.content = m'.content

theorem Recalls.trans {b₁ b₂ b₃ : Mailbox} (h₁ : b₁.Recalls b₂) (h₂ : b₂.Recalls b₃) :
    b₁.Recalls b₃ := by
  refine ⟨h₁.1.trans h₂.1, fun m₃ hm₃ hlt => ?_⟩
  obtain ⟨m₂, hm₂, huid, hcontent⟩ := h₂.2 m₃ hm₃ (hlt.trans_le h₁.1)
  obtain ⟨m₁, hm₁, huid', hcontent'⟩ := h₁.2 m₂ hm₂ (huid ▸ hlt)
  exact ⟨m₁, hm₁, huid'.trans huid, hcontent'.trans hcontent⟩

theorem recalls_append (b : Mailbox) (flags : List String) (content : Content) :
    b.Recalls (b.append flags content) := by
  refine ⟨Nat.le_succ _, fun m hm hlt => ?_⟩
  rcases List.mem_append.mp hm with hold | hnew
  · exact ⟨m, hold, rfl, rfl⟩
  · rw [List.mem_singleton.mp hnew] at hlt
    exact absurd hlt (lt_irrefl _)

theorem recalls_storeFlags (b : Mailbox) (uid : Nat) (op : FlagOp) (flags : List String) :
    b.Recalls (b.storeFlags uid op flags) := by
  refine ⟨le_rfl, fun m' hm' _ => ?_⟩
  obtain ⟨m, hm, rfl⟩ := List.mem_map.mp hm'
  exact ⟨m, hm, by split <;> rfl, by split <;> rfl⟩

theorem lasting_recalls : Lasting Recalls where
  refl _ := ⟨le_rfl, fun m hm _ => ⟨m, hm, rfl, rfl⟩⟩
  trans := .trans
  append := recalls_append
  keepOnly _ _ := ⟨le_rfl, fun m hm _ => ⟨m, List.mem_of_mem_filter hm, rfl, rfl⟩⟩
  storeFlags := recalls_storeFlags

/-- Nothing was taken away. -/
def Spares (b b' : Mailbox) : Prop :=
  b.Recalls b' ∧ ∀ m ∈ b.messages, ∃ m' ∈ b'.messages, m'.uid = m.uid ∧ m'.content = m.content

end Mailbox

namespace Server

/-- Nothing was taken away, from no mailbox. -/
def Spares (s s' : Server) : Prop := ∀ name, Keeps Mailbox.Spares s s' name

/-- The content is in some mailbox. -/
def Holds (s : Server) (c : Content) : Prop := ∃ name uid, Present name uid c s

section Spares

variable {s s' : Server} {name sel : String} {uid : Nat} {c : Content}

theorem Spares.refl (s : Server) : s.Spares s :=
  fun _ b hb => ⟨b, hb, Mailbox.lasting_recalls.refl b, fun m hm => ⟨m, hm, rfl, rfl⟩⟩

theorem Spares.recalls (h : s.Spares s') (name : String) : Keeps Mailbox.Recalls s s' name := by
  intro b hb
  obtain ⟨b', hb', hspares⟩ := h name b hb
  exact ⟨b', hb', hspares.1⟩

theorem Spares.present (h : s.Spares s') (hp : Present name uid c s) : Present name uid c s' := by
  obtain ⟨m, hm, rfl⟩ := hp
  obtain ⟨b, hbox, hfind⟩ := exists_box_of_find? hm
  obtain ⟨hmem, rfl⟩ := b.find?_eq_some_iff.mp hfind
  obtain ⟨b', hbox', -, hstays⟩ := h name b hbox
  obtain ⟨m', hm', huid, hcontent⟩ := hstays m hmem
  exact ⟨m', by rw [find?_of_box hbox', b'.find?_eq_some_iff]; exact ⟨hm', huid⟩, hcontent⟩

theorem Spares.holds (h : s.Spares s') (hc : s.Holds c) : s'.Holds c := by
  obtain ⟨name, uid, hp⟩ := hc
  exact ⟨name, uid, h.present hp⟩

theorem Spares.copyIn {target : String} {n : Nat} (h : s.Spares s')
    (hcopy : CopyIn sel uid c target n s) : CopyIn sel uid c target n s' := by
  obtain ⟨v, m, hv, hother, hm, hc⟩ := hcopy
  obtain ⟨m', hm', hc'⟩ := h.present ⟨m, hm, hc⟩
  exact ⟨v, m', hv, hother, hm', hc'⟩

/-- What is under an old UID was under it before. -/
theorem present_of_recalls (h : Keeps Mailbox.Recalls s s' name) {b : Mailbox}
    (hbox : s.box name = some b) (huid : uid < b.uidnext) (hp : Present name uid c s') :
    Present name uid c s := by
  obtain ⟨m', hm', rfl⟩ := hp
  obtain ⟨b', hbox', -, hrecalls⟩ := h b hbox
  rw [find?_of_box hbox', b'.find?_eq_some_iff] at hm'
  obtain ⟨hmem, rfl⟩ := hm'
  obtain ⟨m, hm, huid', hcontent⟩ := hrecalls m' hmem huid
  exact ⟨m, by rw [find?_of_box hbox, b.find?_eq_some_iff]; exact ⟨hm, huid'⟩, hcontent⟩

end Spares

/-- Only the EXPUNGE of a message whose content is nowhere else takes the content away. -/
theorem holds_run {s s' : Server} {sel : String} {uid : Nat} {c : Content} {cmd : ImapCommand}
    (h : s.run sel cmd = some s') (habout : cmd.About uid) (hc : s.Holds c) :
    s'.Holds c ∨ (∃ uids, cmd = .uidExpunge uids) ∧ Present sel uid c s ∧
      ¬ ∃ target, CopyIn sel uid c target 0 s := by
  by_cases hcopy : ∃ target, CopyIn sel uid c target 0 s
  · obtain ⟨target, hcopy⟩ := hcopy
    obtain ⟨v, m, -, -, hm, hcontent⟩ := hcopy.run h habout
    exact .inl ⟨target, v, m, hm, hcontent⟩
  · obtain ⟨name, v, m, hm, hcontent⟩ := hc
    by_cases hat : mailboxKey name = mailboxKey sel ∧ v = uid
    · obtain ⟨hkey, rfl⟩ := hat
      have hpresent : Present sel v c s := ⟨m, by rw [← hm, s.find?_congr hkey], hcontent⟩
      cases cmd with
      | uidExpunge uids => exact .inr ⟨⟨uids, rfl⟩, hpresent, hcopy⟩
      | uidMove u target =>
        obtain ⟨v', m', -, -, hm', hcontent'⟩ := hpresent.copyIn h habout rfl (Nat.zero_le _)
        exact .inl ⟨target, v', m', hm', hcontent'⟩
      | uidCopy u target => exact .inl ⟨sel, v, hpresent.run h habout rfl⟩
      | uidStoreFlags u op flags => exact .inl ⟨sel, v, hpresent.run h habout rfl⟩
      | uidCreateMailbox mailbox => exact .inl ⟨sel, v, hpresent.run h habout rfl⟩
    · exact absurd ⟨name, v, m, Nat.zero_le _, hat, hm, hcontent⟩ hcopy

end Server

/-! ## Section 2: What is left to do -/

/-- The content of a message that was fetched. -/
def MessageContext.content (msg : MessageContext) : Content where
  headers := msg.headers
  envelopeFrom := msg.envelopeFrom
  envelopeTo := msg.envelopeTo
  raw := msg.raw
  size := msg.size

/-- What is left to do with the message takes its content away only if the actions delete it, if
it is gone, or if it is somewhere else. -/
def Guarded (sel : String) (msg : MessageContext) (actions : List SieveAction) (ops : List Op)
    (s : Server) : Prop :=
  Covered ops ∨ actions.any SieveAction.deletes = true ∨ Gone sel msg.uid s ∨
    ∃ target, CopyIn sel msg.uid msg.content target 0 s

section Guarded

variable {sel : String} {msg : MessageContext} {actions : List SieveAction} {ops : List Op}
  {s s' : Server}

/-- Actions that do not delete leave no EXPUNGE uncovered. -/
theorem guarded_operations (x : ActionExecutor) (s : Server) :
    Guarded sel msg actions (x.operations msg actions) s := by
  cases hdeletes : actions.any SieveAction.deletes with
  | true => exact .inr (.inl hdeletes)
  | false =>
    have hpasses : x.operations msg actions = x.passes msg actions := by
      rw [ActionExecutor.operations, hdeletes, if_neg (by simp), List.append_nil]
    exact .inl (hpasses ▸ covered_passes x msg actions)

/-- Others take nothing away. -/
theorem Guarded.spares (h : Guarded sel msg actions ops s) (hspares : s.Spares s')
    {b : Mailbox} (hbox : s.box sel = some b) (huid : msg.uid < b.uidnext) :
    Guarded sel msg actions ops s' := by
  rcases h with h | h | hgone | ⟨target, hcopy⟩
  · exact .inl h
  · exact .inr (.inl h)
  · refine .inr (.inr (.inl ?_))
    -- what is gone does not come back under its UID
    by_contra hback
    obtain ⟨m', hm'⟩ := Option.ne_none_iff_exists'.mp hback
    obtain ⟨m, hm, -⟩ :=
      Server.present_of_recalls (hspares.recalls sel) hbox huid ⟨m', hm', rfl⟩
    rw [Gone, hm] at hgone
    cases hgone
  · exact .inr (.inr (.inr ⟨target, hspares.copyIn hcopy⟩))

/-- A command about the message. -/
theorem Guarded.run {cmd : ImapCommand} (h : Guarded sel msg actions ops s)
    (hrun : s.run sel cmd = some s') (habout : cmd.About msg.uid) {rest : List Op}
    (hcovered : Covered ops → Guarded sel msg actions rest s') :
    Guarded sel msg actions rest s' := by
  rcases h with h | h | hgone | ⟨target, hcopy⟩
  · exact hcovered h
  · exact .inr (.inl h)
  · exact .inr (.inr (.inl (Server.run_gone hrun habout hgone)))
  · exact .inr (.inr (.inr ⟨target, hcopy.run hrun habout⟩))

/-- Without a command the server stays as it is. -/
theorem Guarded.rest (h : Guarded sel msg actions ops s) {rest : List Op}
    (hcovered : Covered ops → Covered rest) : Guarded sel msg actions rest s :=
  h.imp_left hcovered

/-- After a COPY the content is somewhere else, or the message is gone. -/
theorem guarded_copied {target : String}
    (hrun : s.run sel (.uidCopy msg.uid target) = some s')
    (hcontent : ∀ content, Present sel msg.uid content s → content = msg.content) :
    Guarded sel msg actions ops s' := by
  cases hfind : s.find? sel msg.uid with
  | none => exact .inr (.inr (.inl (Server.run_gone hrun rfl hfind)))
  | some m =>
    have hpresent : Present sel msg.uid msg.content s :=
      ⟨m, hfind, hcontent m.content ⟨m, hfind, rfl⟩⟩
    exact .inr (.inr (.inr ⟨target, hpresent.copyIn hrun rfl rfl (Nat.zero_le _)⟩))

/-- The next call of what is left, answered. -/
theorem Guarded.proceed {w w' : World} {c : Call} {r : Reply c}
    (h : Guarded sel msg actions ops w.server) (hsel : w.selected = some sel)
    (hcontent : ∀ content, Present sel msg.uid content w.server → content = msg.content)
    (habout : ∀ cmd, c = .command cmd → cmd.About msg.uid) (hnext : nextCall ops = some c)
    (hans : w.Answers c r w') : Guarded sel msg actions (proceed ops c r) w'.server := by
  have hsame : (∀ cmd, c ≠ .command cmd) → w'.server = w.server := by
    intro hno
    rcases hans.server with heq | ⟨cmd, sel', hc, -⟩
    · exact heq
    · exact absurd hc (hno cmd)
  cases ops with
  | nil => cases hnext
  | cons op rest =>
    cases op with
    | need cmd =>
      cases hnext
      rcases r with e | u
      · exact .inl trivial
      · obtain ⟨sel', s, hsel', hrun, rfl⟩ := hans
        rw [hsel] at hsel'
        cases hsel'
        refine h.run hrun (habout cmd rfl) fun hcovered => ?_
        cases cmd with
        | uidExpunge uids => exact hcovered.elim
        | uidCopy uid target =>
          obtain rfl : uid = msg.uid := habout _ rfl
          exact guarded_copied hrun hcontent
        | uidMove uid target => exact .inl hcovered
        | uidStoreFlags uid op flags => exact .inl hcovered
        | uidCreateMailbox mailbox => exact .inl hcovered
    | attempt cmd =>
      cases hnext
      rcases hans.server with heq | ⟨cmd', sel', hcmd, hsel', hrun⟩
      · rw [heq]
        exact h.rest And.right
      · cases hcmd
        rw [hsel] at hsel'
        cases hsel'
        exact h.run hrun (habout cmd rfl) fun hcovered => .inl hcovered.2
    | send mail =>
      cases hnext
      rw [hsame (by simp)]
      rcases r with e | u
      · exact .inl trivial
      · exact h.rest id
    | notice to' reason =>
      cases hnext
      rw [hsame (by simp)]
      exact h.rest id
    | refuse e => cases hnext
    | deleting uid =>
      cases hnext
      rw [hsame (by simp)]
      exact h.rest id

end Guarded

/-! ## Section 3: Runs -/

/-- A script had a message with this content discarded or rejected. -/
def Dismissed (tr : History) (c : Content) : Prop :=
  ∃ w script msg actions, .called w (.evaluate script msg) (.ok actions) ∈ tr ∧
    msg.content = c ∧ actions.any SieveAction.deletes = true

/-- The content was in some mailbox at some time of the run. -/
def Met (w₀ : World) (tr : History) (c : Content) : Prop :=
  w₀.server.Holds c ∨ ∃ w c' r, .called w c' r ∈ tr ∧ w.server.Holds c

theorem Dismissed.mono {tr : History} {content : Content} {e : Entry Call Reply World}
    (h : Dismissed tr content) : Dismissed (e :: tr) content := by
  obtain ⟨w, script, msg, actions, hmem, h⟩ := h
  exact ⟨w, script, msg, actions, List.mem_cons_of_mem _ hmem, h⟩

/-- The latest evaluation is one of the trace. -/
theorem mem_of_lastEvaluation {tr : History} {ev : Evaluation} (h : lastEvaluation tr = some ev) :
    ∃ w, .called w (.evaluate ev.script ev.message) (.ok ev.actions) ∈ tr := by
  induction tr with
  | nil => cases h
  | cons e tr ih =>
    cases e with
    | restarted w => cases h
    | called w c r =>
      by_cases hc : c.isEvaluate = true
      · cases c with
        | evaluate script msg =>
          cases r with
          | error e => cases h
          | ok actions =>
            cases h
            exact ⟨w, List.mem_cons_self⟩
        | _ => cases hc
      · rw [lastEvaluation_called (by simpa using hc)] at h
        obtain ⟨v, hmem⟩ := ih h
        exact ⟨v, List.mem_cons_of_mem _ hmem⟩

/-- What holds of a run in which others take nothing away. -/
structure Conserves (cfg : Settings) (w₀ w : World) (tr : History) : Prop where
  sound : (phaseOf cfg tr).Sound cfg w tr
  traced : (phaseOf cfg tr).Traced cfg tr
  recalls : ∀ v, lastFetch tr = some v →
    ∀ name, Server.Keeps Mailbox.Recalls v.server w.server name
  guards : ∀ b done msg rest actions ops,
    phaseOf cfg tr = .executing b done msg rest actions ops →
      Guarded cfg.mailbox msg actions ops w.server
  holds : ∀ content, Met w₀ tr content → w.server.Holds content ∨ Dismissed tr content

section Runs

variable {cfg : Settings} {w₀ w w' : World} {tr : History} {b : Batch}
  {done rest : List MessageContext} {msg : MessageContext} {actions : List SieveAction}
  {ops : List Op} {c : Call} {r : Reply c}

/-- The message at hand is one of the mailbox as it was when it was fetched. -/
theorem Batch.At.fetched (h : b.At cfg done (msg :: rest) w tr) :
    ∃ box m, b.snapshot.server.box cfg.mailbox = some box ∧ m ∈ box.messages ∧
      msg = m.toContext := by
  obtain ⟨box, hbox, hfetched⟩ := h.fetch.fetched
  obtain ⟨m, hm, rfl⟩ := Mailbox.mem_of_fetched hfetched (List.mem_of_mem_take h.mem_messages)
  rw [World.box, h.fetch.selected, Option.bind_some] at hbox
  exact ⟨box, m, hbox, (List.mem_filter.mp hm).1, rfl⟩

/-- What is under the UID of the message at hand is this message. -/
theorem Batch.At.content (h : b.At cfg done (msg :: rest) w tr)
    (hrecalls : Server.Keeps Mailbox.Recalls b.snapshot.server w.server cfg.mailbox)
    {content : Content} (hp : Present cfg.mailbox msg.uid content w.server) :
    content = msg.content := by
  obtain ⟨box, m, hbox, hm, rfl⟩ := h.fetched
  obtain ⟨m', hm', rfl⟩ := Server.present_of_recalls hrecalls hbox (box.uid_lt m hm) hp
  rw [Server.find?_of_box hbox, box.find?_eq_some_iff.mpr ⟨hm, rfl⟩] at hm'
  cases hm'
  rfl

/-- A covered list does not start with an EXPUNGE. -/
theorem not_covered_expunge {uids : List Nat}
    (hnext : nextCall ops = some (.command (.uidExpunge uids))) : ¬ Covered ops := by
  intro hcovered
  cases ops with
  | nil => cases hnext
  | cons op rest =>
    cases op with
    | need cmd =>
      cases hnext
      exact hcovered
    | attempt cmd =>
      cases hnext
      cases hcovered.1
    | _ => cases hnext

/-- A command takes no content away but that of a message that is dismissed. -/
theorem Conserves.command {cmd : ImapCommand} {sel : String} {s : Server}
    (h : Conserves cfg w₀ w tr) (hallow : (phaseOf cfg tr).Allows cfg (.command cmd))
    (hsel : w.selected = some sel) (hrun : w.server.run sel cmd = some s) {content : Content}
    (hholds : w.server.Holds content) : s.Holds content ∨ Dismissed tr content := by
  have hsound := h.sound
  have hguards := h.guards
  have htraced := h.traced
  generalize phaseOf cfg tr = ph at hsound hguards htraced hallow
  cases hallow with
  | @perform b done msg rest actions ops c hnext =>
    obtain ⟨hat, -, habout⟩ := hsound
    rw [hat.live.selected] at hsel
    cases hsel
    rcases Server.holds_run hrun (about_of_nextCall habout hnext) hholds with hkept |
        ⟨⟨uids, rfl⟩, hpresent, hnowhere⟩
    · exact .inl hkept
    · -- an EXPUNGE of a message that is nowhere else
      obtain rfl := hat.content (h.recalls _ hat.last cfg.mailbox) hpresent
      rcases hguards _ _ _ _ _ _ rfl with hcovered | hdeletes | hgone | hcopy
      · exact absurd hcovered (not_covered_expunge hnext)
      · obtain ⟨v, hmem⟩ := mem_of_lastEvaluation (htraced.evaluation _ _ _ _ _ _ rfl).1
        exact .inr ⟨v, b.script, msg, actions, hmem, rfl, hdeletes⟩
      · exact absurd hgone (not_gone_of_present hpresent)
      · exact absurd hcopy hnowhere

/-- The invariant is preserved by every call. -/
theorem Conserves.call (h : Conserves cfg w₀ w tr) (hallow : (phaseOf cfg tr).Allows cfg c)
    (hans : w.Answers c r w') : Conserves cfg w₀ w' (.called w c r :: tr) where
  sound := sound_call h.sound hallow hans
  traced := traced_call h.traced hallow
  recalls := by
    intro v hv name
    have hkeeps := hans.keepsBox Mailbox.lasting_recalls name
    rw [lastFetch] at hv
    split at hv
    · cases hv
      exact hkeeps
    · exact (h.recalls v hv name).trans Mailbox.lasting_recalls hkeeps
  guards := by
    intro b done msg rest actions ops hph
    have hmoves := moves_next (w := w) (r := r) hallow
    have hsound := h.sound
    have hguards := h.guards
    rw [phaseOf_called] at hph
    rw [hph] at hmoves
    generalize phaseOf cfg tr = ph at hmoves hsound hguards
    generalize hexecuting : Phase.executing b done msg rest actions ops = ph' at hmoves
    cases hmoves with
    | evaluated actions =>
      cases hexecuting
      exact guarded_operations _ _
    | performed hnext =>
      cases hexecuting
      obtain ⟨hat, -, habout⟩ := hsound
      refine (hguards _ _ _ _ _ _ rfl).proceed hat.live.selected
        (fun content => hat.content (h.recalls _ hat.last cfg.mailbox)) ?_ hnext hans
      rintro cmd rfl
      exact about_of_nextCall habout hnext
    | taken script => unfold Phase.enter at hexecuting; split at hexecuting <;> cases hexecuting
    | advanced => unfold Phase.enter at hexecuting; split at hexecuting <;> cases hexecuting
    | _ => cases hexecuting
  holds := by
    intro content hmet
    have hnow : w.server.Holds content ∨ Dismissed tr content := by
      rcases hmet with hstart | ⟨v, c', r', hmem, hholds⟩
      · exact h.holds content (.inl hstart)
      · rcases List.mem_cons.mp hmem with heq | hmem
        · cases heq
          exact .inl hholds
        · exact h.holds content (.inr ⟨v, c', r', hmem, hholds⟩)
    rcases hnow with hholds | hdismissed
    · rcases hans.server with heq | ⟨cmd, sel, rfl, hsel, hrun⟩
      · rw [heq]
        exact .inl hholds
      · exact (h.command hallow hsel hrun hholds).imp_right Dismissed.mono
    · exact .inr hdismissed.mono

/-- The invariant is preserved by what others do. -/
theorem Conserves.drift (h : Conserves cfg w₀ w tr) (hdrift : w.Drifts w')
    (hspares : w.server.Spares w'.server) : Conserves cfg w₀ w' tr where
  sound := h.sound.same hdrift.same
  traced := h.traced
  recalls v hv name := (h.recalls v hv name).trans Mailbox.lasting_recalls (hspares.recalls name)
  guards := by
    intro b done msg rest actions ops hph
    have hsound := h.sound
    rw [hph] at hsound
    obtain ⟨hat, -, -⟩ := hsound
    -- the message had its UID when it was fetched
    obtain ⟨box, m, hbox, hm, rfl⟩ := hat.fetched
    obtain ⟨box', hbox', hnext, -⟩ := h.recalls _ hat.last cfg.mailbox box hbox
    exact (h.guards _ _ _ _ _ _ hph).spares hspares hbox' ((box.uid_lt m hm).trans_le hnext)
  holds content hmet := (h.holds content hmet).imp_left hspares.holds

/-- The next process starts with nothing to do. -/
theorem Conserves.restart (h : Conserves cfg w₀ w tr) (cfg' : Settings) :
    Conserves cfg' w₀ w.restart (.restarted w :: tr) where
  sound := trivial
  traced := traced_offline _ _
  recalls v hv name := h.recalls v hv name
  guards := by simp
  holds := by
    intro content hmet
    have hmet' : Met w₀ tr content := by
      rcases hmet with hstart | ⟨v, c', r', hmem, hholds⟩
      · exact .inl hstart
      · exact .inr ⟨v, c', r', (List.mem_cons.mp hmem).resolve_left (by simp), hholds⟩
    exact (h.holds content hmet').imp_right Dismissed.mono

/-- Others take nothing away. -/
def sparing : Regime Call Reply World where
  drift w w' := w.server.Spares w'.server

variable {S : Surroundings Call Reply World}
  {x : Config Call Reply World (Except CoreError Unit)}

theorem serves_conserves (hS : Admissible S)
    (hspares : ∀ w w', S.drifts w w' → w.server.Spares w'.server) (hx : Serves S w₀ cfg x) :
    Conserves cfg w₀ x.world x.trace := by
  refine serves_invariant (I := fun cfg w tr => Conserves cfg w₀ w tr) hx ?_ ?_ ?_ ?_
  · intro cfg
    refine ⟨trivial, traced_offline _ _, by simp [lastFetch], by simp, ?_⟩
    rintro content (hstart | ⟨v, c', r', hmem, -⟩)
    · exact .inl hstart
    · cases hmem
  · exact fun cfg p w tr c r w' _ h hallow hans => h.call hallow (hS.answers hans)
  · exact fun cfg w w' tr h hdrift => h.drift (hS.drifts hdrift) (hspares w w' hdrift)
  · intro cfg cfg' w w' tr h hlost
    rw [hS.restarts hlost]
    exact h.restart cfg'

/-- As long as others take nothing away, a content that was in some mailbox at some time of the
run is in some mailbox still, or a script has had a message with this content discarded or
rejected. -/
theorem content_conserved (cfg : Settings) (w₀ : World) (content : Content)
    (hx : Serves (daemonWorld.under sparing) w₀ cfg x) (hmet : Met w₀ x.trace content) :
    x.world.server.Holds content ∨ Dismissed x.trace content :=
  (serves_conserves (admissible_under sparing) (fun _ _ h => h.2) hx).holds content hmet

end Runs

/-- The pending message is moved to `Archive` by COPY, STORE and EXPUNGE. -/
def movingDaemon : Config Call Reply World (Except CoreError Unit) :=
  sampleDaemon { idle := true, uidplus := true } 10
    (pendingWorld (.event (.fileInto "Archive" [] false 0) fun _ => .done)) 17

theorem content_conserved_moved :
    movingDaemon.world.server.Holds sampleContent ∨ Dismissed movingDaemon.trace sampleContent :=
  content_conserved (sampleSettings 10) _ sampleContent
    (reachable_sampleDaemon 10 _ fun _ _ => admits_of_regular (fun _ _ => trivial) _).lives
    (.inl ⟨"INBOX", 1, ⟨1, 2, [], sampleContent⟩, by decide, rfl⟩)

end ImapSieve
