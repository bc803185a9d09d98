import ImapSieve.Daemon.Provenance
import ImapSieve.Daemon.Reload
import ImapSieve.Storage.Agreement
import ImapSieve.System.World

/-!
# How the Process Represents the Daemon

The process of `System.World` does on the wire and in the file system what the daemon of `World`
does by its calls. `Represents` says how a world of the process, with what the process holds,
stands for a world of the daemon. This module shows that the calls which the process answers by
at most one call of its own keep it; `ImapSieve.System.Refinement` has the others and puts the
process together.
-/

namespace ImapSieve

open Effects

/-! ## Section 1: The relation -/

/-- What is more known of the daemon's world when it is the one of a process: evaluations are
those of the engine, the script is a compiled one, others change the server as `others` says. -/
def site (others : Server → Server → Prop) (compiled : CompiledScript → Prop) :
    Regime Call Reply World where
  call _ c r _ :=
    match c, r with
    | .evaluate script context, result => result = evaluate script context
    | .currentScript, script => compiled script
    | _, _ => True
  drift w w' := w'.server = w.server ∨ others w.server w'.server

/-- The commands of the IMAP client. -/
def NetCall.isCommand : NetCall → Bool
  | .uidMv _ _ | .uidCopy _ _ | .uidStore _ _ | .uidExpunge _ | .create _ => true
  | _ => false

def SystemCall.command? {E : Type} : SystemCall E → Option NetCall
  | .net c => if c.isCommand then some c else none
  | _ => none

/-- The commands on the wire, newest first. -/
def wireCommands {E : Type} (tr : Trace (SystemCall E) (SystemReply E) (SystemWorld E)) :
    List NetCall :=
  tr.filterMap fun
    | .called _ c _ => c.command?
    | .restarted _ => none

def Call.command? : Call → Option ImapCommand
  | .command cmd => some cmd
  | _ => none

/-- The commands of the daemon, newest first. -/
def commandsOf (tr : History) : List ImapCommand :=
  tr.filterMap fun
    | .called _ c _ => c.command?
    | .restarted _ => none

variable {A E : Type}

/-- The mail was handed to the relay in its envelope. -/
def Crates.Forwards (crates : Crates A E) (mail : OutgoingMail) (taken : E × List UInt8) : Prop :=
  crates.lettre.envelope mail = .ok taken.1 ∧ taken.2 = mail.raw

/-- The flags that the script sets are flags. -/
def CompiledScript.Hygienic (script : CompiledScript) : Prop :=
  ∀ context actions, evaluate script context = .ok actions → ∀ action ∈ actions, ∀ op flags,
    action.flagChange = some (op, flags) → ∀ flag ∈ flags, Text.isFlag flag.toList = true

/-- The scripts that are installed, at the start or by the watcher, are of this kind. -/
def installs (kind : CompiledScript → Prop) :
    Regime (SystemCall E) (SystemReply E) (SystemWorld E) where
  call _ c _ _ :=
    match c with
    | .install script => kind script
    | _ => True
  drift w w' := w'.handle = w.handle ∨ kind w'.handle

/-- Where the process runs: what it is built with, its state file, what others do to the server,
which scripts are installed. The daemon that it stands for was first started in the world `origin`,
and it sees others change the server as `around` says. -/
structure Host (A E : Type) where
  crates : Crates A E
  path : String
  others : Server → Server → Prop
  kind : CompiledScript → Prop
  origin : World
  around : Server → Server → Prop
  others_around : ∀ {s s'}, others s s' → around s s'
  /-- The server may read another STORE than the one that was meant. Then the daemon issues the one
  that was meant, and the rest has to pass for a change by others. -/
  read : (∀ script, kind script → script.Hygienic) ∨ ∀ s s', around s s'

namespace Host

/-- The process where all scripts that are installed set proper flags. -/
def careful (crates : Crates A E) (path : String) (others : Server → Server → Prop)
    (origin : World) : Host A E where
  crates
  path
  others
  kind := CompiledScript.Hygienic
  origin
  around := others
  others_around := id
  read := .inl fun _ => id

/-- The process with whatever scripts. Its daemon is next to others that change anything. -/
def anywhere (crates : Crates A E) (path : String) (others : Server → Server → Prop)
    (origin : World) : Host A E where
  crates
  path
  others
  kind _ := True
  origin
  around _ _ := True
  others_around _ := trivial
  read := .inr fun _ _ => trivial

variable (host : Host A E)

/-- The script may have been installed. -/
def Installed (script : CompiledScript) : Prop := host.crates.Compiled script ∧ host.kind script

def daemon : Surroundings Call Reply World := daemonWorld.under (site host.around host.Installed)

def system : Surroundings (SystemCall E) (SystemReply E) (SystemWorld E) :=
  (systemWorld host.crates host.path host.others).under (installs host.kind)

end Host

/-- The regime that demands nothing. -/
theorem within_anywhere (crates : Crates A E) (path : String) (others : Server → Server → Prop)
    (origin : World) :
    (systemWorld crates path others).Within (Host.anywhere crates path others origin).system where
  answers {w c r w'} h := ⟨h, by cases c <;> trivial⟩
  drifts h := ⟨h, .inr trivial⟩
  restarts h := ⟨h, trivial⟩

/-- What remains of the relation when the process is lost. -/
structure Remains (crates : Crates A E) (path : String) (w' : SystemWorld E)
    (tr' : Trace (SystemCall E) (SystemReply E) (SystemWorld E)) (w : World) (tr : History) :
    Prop where
  server : w.server = w'.server
  script : w.script = w'.handle
  permit : w.permit = w'.permit
  sent : List.Forall₂ crates.Forwards w.sent w'.outbox
  disk : Reopens crates.codec path w'.directory w.disk
  issued : (wireCommands tr').Sublist ((commandsOf tr).map NetCall.ofCommand)

/-- The process with its client and its store stands for the daemon. -/
structure Represents (host : Host A E) (t : Process) (w' : SystemWorld E)
    (tr' : Trace (SystemCall E) (SystemReply E) (SystemWorld E)) (w : World) (tr : History) : Prop
    extends Remains host.crates host.path w' tr' w tr where
  installed : host.Installed w'.handle
  path : t.store.path = host.path
  memory : t.store.state = w.memory
  selected : t.client.session = true → w.selected = w'.selected

section Traces

variable {crates : Crates A E} {path : String} {w' v' : SystemWorld E}
  {tr' : Trace (SystemCall E) (SystemReply E) (SystemWorld E)} {w v : World} {tr : History}
  {c' : SystemCall E} {r' : SystemReply E c'} {c : Call} {r : Reply c}

theorem wireCommands_called (h : c'.command? = none) :
    wireCommands (.called w' c' r' :: tr') = wireCommands tr' := by
  simp [wireCommands, h]

theorem commandsOf_sublist_called : (commandsOf tr).Sublist (commandsOf (.called w c r :: tr)) :=
  (List.sublist_cons_self _ tr).filterMap _

/-- A call that is no command on the wire. -/
theorem Remains.quiet (h : Remains crates path w' tr' w tr) (hc : c'.command? = none) :
    Remains crates path w' (.called v' c' r' :: tr') w tr :=
  { h with issued := by rw [wireCommands_called hc]; exact h.issued }

/-- A call of the daemon. -/
theorem Remains.called (h : Remains crates path w' tr' w tr) :
    Remains crates path w' tr' w (.called v c r :: tr) :=
  { h with issued := h.issued.trans (commandsOf_sublist_called.map _) }

/-- A command on the wire is the one of the daemon. -/
theorem issued_command {cmd : ImapCommand} {u : SystemWorld E}
    {r' : NetReply (.ofCommand cmd)} {r : Reply (.command cmd)}
    (h : (wireCommands tr').Sublist ((commandsOf tr).map NetCall.ofCommand)) :
    (wireCommands (.called u (.net (.ofCommand cmd)) r' :: tr')).Sublist
      ((commandsOf (.called v (.command cmd) r :: tr)).map NetCall.ofCommand) := by
  have hcommand : (SystemCall.net (E := E) (.ofCommand cmd)).command? =
      some (NetCall.ofCommand cmd) := by
    cases cmd <;> rfl
  have hwire : wireCommands (.called u (.net (.ofCommand cmd)) r' :: tr') =
      NetCall.ofCommand cmd :: wireCommands tr' :=
    List.filterMap_cons_some hcommand
  rw [hwire]
  exact h.cons_cons _

end Traces

/-! ## Section 2: Updates of both worlds -/

namespace Represents

variable {host : Host A E} {t : Process} {w' v' : SystemWorld E}
  {tr' : Trace (SystemCall E) (SystemReply E) (SystemWorld E)} {w v : World} {tr : History}
  {c' : SystemCall E} {r' : SystemReply E c'} {c : Call} {r : Reply c}

theorem quiet (h : Represents host t w' tr' w tr) (hc : c'.command? = none) :
    Represents host t w' (.called v' c' r' :: tr') w tr :=
  { h with toRemains := h.toRemains.quiet hc }

theorem called (h : Represents host t w' tr' w tr) :
    Represents host t w' tr' w (.called v c r :: tr) :=
  { h with toRemains := h.toRemains.called }

theorem step (h : Represents host t w' tr' w tr) (hc : c'.command? = none) :
    Represents host t w' (.called v' c' r' :: tr') w (.called v c r :: tr) :=
  (h.quiet hc).called

theorem setPermit (h : Represents host t w' tr' w tr) (permit : Bool) :
    Represents host t { w' with permit } tr' { w with permit } tr :=
  { h with permit := rfl }

theorem setSelected (h : Represents host t w' tr' w tr) (selected : Option String) :
    Represents host t { w' with selected } tr' { w with selected } tr :=
  { h with selected := fun _ => rfl }

theorem setServer (h : Represents host t w' tr' w tr) (server : Server) :
    Represents host t { w' with server } tr' { w with server } tr :=
  { h with server := rfl }

theorem setAnnounced (h : Represents host t w' tr' w tr) (announced : Option (List Nat)) :
    Represents host t w' tr' { w with announced } tr :=
  { h with }

/-- The client may have lost its session. -/
theorem setClient (h : Represents host t w' tr' w tr) {client : AsyncImapClient}
    (hclient : client.session = true → t.client.session = true) :
    Represents host { t with client } w' tr' w tr :=
  { h with selected := fun hsession => h.selected (hclient hsession) }

/-- Without a session it does not matter what was selected. -/
theorem setUnselected (h : Represents host t w' tr' w tr)
    (hclient : t.client.session = false) (selected : Option String) :
    Represents host t { w' with selected } tr' w tr :=
  { h with selected := fun hsession => by rw [hclient] at hsession; cases hsession }

/-- A connection that was just made. -/
theorem setConnected (h : Represents host t w' tr' w tr) :
    Represents host { t with client := ⟨true⟩ } { w' with selected := none } tr'
      { w with selected := none, announced := none } tr :=
  { h with selected := fun _ => rfl }

theorem setSent (h : Represents host t w' tr' w tr) {mail : OutgoingMail} {envelope : E}
    (hmail : host.crates.lettre.envelope mail = .ok envelope) :
    Represents host t { w' with outbox := (envelope, mail.raw) :: w'.outbox } tr'
      { w with sent := mail :: w.sent } tr :=
  { h with sent := .cons ⟨hmail, rfl⟩ h.sent }

end Represents

/-! ## Section 3: The process and its daemon -/

namespace Host

variable (host : Host A E)

/-- The daemon may be here. -/
def Serving (cfg : Settings) (x : Config Call Reply World (Except CoreError Unit)) : Prop :=
  Serves host.daemon host.origin cfg x

/-- The process stands for a daemon that is at the program `p`. -/
def Stands (cfg : Settings) (t : Process) (p : Program (Except CoreError Unit)) :
    Assertion (SystemCall E) (SystemReply E) (SystemWorld E) :=
  Matched (host.Serving cfg) (Represents host t) p

/-- There is always a daemon that the process may be lost as. -/
def keeps (cfg : Settings) : Contract (SystemCall E) (SystemReply E) (SystemWorld E) :=
  .always (Somewhere (host.Serving cfg) (Remains host.crates host.path))

/-- What answers the call `c` does so like the world of the daemon. -/
def Answering (cfg : Settings) (c : Call) (k : Reply c → Program (Except CoreError Unit))
    (t : Process) (p : SystemProgram E (Reply c × Process)) : Prop :=
  Obeys host.system (host.keeps cfg) (host.Stands cfg t (.call c k)) p fun rt =>
    host.Stands cfg rt.2 (k rt.1)

end Host

section Host

variable {host : Host A E} {cfg : Settings} {t : Process} {w' w'' : SystemWorld E}
  {tr' : Trace (SystemCall E) (SystemReply E) (SystemWorld E)} {w : World} {tr : History}

theorem closed_serving (host : Host A E) (cfg : Settings) :
    Closed host.daemon (host.Serving cfg) :=
  fun _ _ hx hstep => Lives.step hx hstep

/-- The world of the daemon after what the process's world has drifted to. -/
def World.follow (w : World) (w'' : SystemWorld E) : World :=
  { w with server := w''.server, script := w''.handle, permit := w''.permit }

theorem Remains.drifts (h : Remains host.crates host.path w' tr' w tr)
    (hd : host.system.drifts w' w'') :
    host.daemon.drifts w (w.follow w'') ∧
      Remains host.crates host.path w'' tr' (w.follow w'') tr := by
  obtain ⟨hd, -⟩ := hd
  refine ⟨⟨⟨rfl, rfl, rfl, rfl, fun hpermit => hd.permit (h.permit ▸ hpermit), [], ?_⟩, ?_⟩,
    ⟨rfl, rfl, rfl, ?_, ?_, h.issued⟩⟩
  · simp [World.follow]
  · simp only [site, World.follow, h.server]
    exact hd.server.imp_right host.others_around
  · rw [hd.outbox]
    exact h.sent
  · rw [hd.directory]
    exact h.disk

theorem installed_of_drifts (hd : host.system.drifts w' w'') (h : host.Installed w'.handle) :
    host.Installed w''.handle := by
  obtain ⟨⟨-, hcompiled, -⟩, hkind⟩ := hd
  rcases hcompiled with heq | hcompiled
  · exact heq ▸ h
  · rcases hkind with heq | hkind
    · exact heq ▸ h
    · exact ⟨hcompiled, hkind⟩

theorem absorbs_represents (host : Host A E) (t : Process) :
    Absorbs host.daemon host.system (Represents host t) := by
  intro w' w'' tr' w tr h hd
  obtain ⟨hdrift, hremains⟩ := h.toRemains.drifts hd
  refine ⟨w.follow w'', .single hdrift, hremains, ?_, h.path, h.memory, ?_⟩
  · exact installed_of_drifts hd h.installed
  · intro hsession
    rw [hd.1.selected]
    exact h.selected hsession

theorem stable_stands (host : Host A E) (cfg : Settings) (t : Process)
    (p : Program (Except CoreError Unit)) : Stable host.system (host.Stands cfg t p) :=
  stable_matched (closed_serving host cfg) (absorbs_represents host t) p

theorem keeps_of_stands {p : Program (Except CoreError Unit)}
    (h : host.Stands cfg t p w' tr') :
    Somewhere (host.Serving cfg) (Remains host.crates host.path) w' tr' :=
  ⟨p, Matched.mono (fun _ _ _ _ hrep => hrep.toRemains) h⟩

end Host

/-! ## Section 4: Calls that are answered by at most one call -/

section Answering

variable {host : Host A E} {cfg : Settings} {c : Call}
  {k : Reply c → Program (Except CoreError Unit)} {t : Process}

/-- A call that is answered by what the process holds. -/
theorem answering_reply {r : Reply c}
    (hans : ∀ w' tr' w tr, host.Serving cfg ⟨.call c k, w, tr⟩ →
      Represents host t w' tr' w tr →
        ∃ v, host.daemon.answers w c r v ∧
          Represents host t w' tr' v (.called w c r :: tr)) :
    host.Answering cfg c k t (.ret (r, t)) :=
  obeys_reply _ (closed_serving host cfg) (absorbs_represents host t) hans

/-- A call that is answered by one call. -/
theorem answering_relay (c : Call) {k : Reply c → Program (Except CoreError Unit)}
    (c' : SystemCall E) (g : SystemReply E c' → Reply c)
    (hans : ∀ w' tr' r' v' w tr, host.Serving cfg ⟨.call c k, w, tr⟩ →
      Represents host t w' tr' w tr →
      w'.Answers host.crates.codec host.path c' r' v' →
        ∃ v, host.daemon.answers w c (g r') v ∧
          Represents host t v' (.called w' c' r' :: tr') v
            (.called w c (g r') :: tr)) :
    host.Answering cfg c k t (.call c' fun r' => .ret (g r', t)) :=
  obeys_relay _ (closed_serving host cfg) (absorbs_represents host)
    (fun _ _ _ _ _ h => h.toRemains) c' g fun w' tr' r' v' w tr hx h hr =>
      hans w' tr' r' v' w tr hx h hr.1

variable {account : Account}

theorem answering_sleep {delay : Nat} {k : Selected Unit → Program (Except CoreError Unit)} :
    host.Answering cfg (.sleep delay) k t (host.crates.handler account (.sleep delay) t) := by
  refine answering_relay (.sleep delay) (.sleep delay) id ?_
  rintro w' tr' (_ | ⟨⟩) v' w tr - h hans
  · obtain ⟨hpermit, rfl⟩ := hans
    exact ⟨{ w with permit := false }, ⟨⟨h.permit.trans hpermit, rfl⟩, trivial⟩,
      (h.step rfl).setPermit false⟩
  · cases hans
    exact ⟨w, ⟨rfl, trivial⟩, h.step rfl⟩

theorem answering_genRange {jitter : ℚ} {k : ℚ → Program (Except CoreError Unit)} :
    host.Answering cfg (.genRange jitter) k t
      (host.crates.handler account (.genRange jitter) t) := by
  refine answering_relay (.genRange jitter) (.genRange jitter) id ?_
  rintro w' tr' r' v' w tr - h ⟨hrange, rfl⟩
  exact ⟨w, ⟨⟨hrange, rfl⟩, trivial⟩, h.step rfl⟩

theorem answering_stamp {k : Stamp → Program (Except CoreError Unit)} :
    host.Answering cfg .stamp k t (host.crates.handler account .stamp t) := by
  refine answering_relay .stamp .stamp id ?_
  rintro w' tr' r' v' w tr - h hans
  cases hans
  exact ⟨w, ⟨rfl, trivial⟩, h.step rfl⟩

theorem answering_state {k : State → Program (Except CoreError Unit)} :
    host.Answering cfg .state k t (host.crates.handler account .state t) :=
  answering_reply fun _ _ w _ _ h => ⟨w, ⟨⟨h.memory, rfl⟩, trivial⟩, h.called⟩

theorem answering_evaluate {script : CompiledScript} {context : MessageContext}
    {k : Except SieveError (List SieveAction) → Program (Except CoreError Unit)} :
    host.Answering cfg (.evaluate script context) k t
      (host.crates.handler account (.evaluate script context) t) :=
  answering_reply fun _ _ w _ _ h => ⟨w, ⟨rfl, rfl⟩, h.called⟩

theorem answering_deleting {uid : Nat} {k : Unit → Program (Except CoreError Unit)} :
    host.Answering cfg (.deleting uid) k t (host.crates.handler account (.deleting uid) t) :=
  answering_reply fun _ _ w _ _ h => ⟨w, ⟨rfl, trivial⟩, h.called⟩

theorem answering_executed {uid : Nat} {result : Except CoreError Unit}
    {k : Unit → Program (Except CoreError Unit)} :
    host.Answering cfg (.executed uid result) k t
      (host.crates.handler account (.executed uid result) t) :=
  answering_reply fun _ _ w _ _ h => ⟨w, ⟨rfl, trivial⟩, h.called⟩

/-- The script in the handle was installed. -/
theorem answering_currentScript {k : CompiledScript → Program (Except CoreError Unit)} :
    host.Answering cfg .currentScript k t (host.crates.handler account .currentScript t) := by
  refine answering_relay .currentScript .load id ?_
  rintro w' tr' script v' w tr - h ⟨rfl, rfl⟩
  exact ⟨w, ⟨⟨h.script.symm, rfl⟩, h.installed⟩, h.step rfl⟩

theorem envelope_isSmtp {l : Lettre A E} {mail : OutgoingMail} {e : CoreError}
    (h : l.envelope mail = .error e) : e.IsSmtp := by
  rcases except_bind_error h with hsender | ⟨sender, h⟩
  · exact Lettre.reversePath_isSmtp hsender
  · rcases except_bind_error h with hto | ⟨to', henvelope⟩
    · exact Lettre.forwardPath_isSmtp hto
    · exact except_mapError_error henvelope

/-- A mail without an envelope is not sent. -/
theorem answering_send {mail : OutgoingMail}
    {k : Except CoreError Unit → Program (Except CoreError Unit)} :
    host.Answering cfg (.send mail) k t (host.crates.handler account (.send mail) t) := by
  change host.Answering cfg (.send mail) k t
    (host.crates.lettre.sendMail mail >>= fun result => .ret (result, t))
  cases henvelope : host.crates.lettre.envelope mail with
  | error e =>
    rw [Lettre.sendMail, henvelope]
    exact answering_reply fun _ _ w _ _ h =>
      ⟨w, ⟨⟨envelope_isSmtp henvelope, .inl rfl⟩, trivial⟩, h.called⟩
  | ok envelope =>
    rw [Lettre.sendMail, henvelope]
    refine answering_relay (.send mail) (.sendRaw envelope mail.raw)
      (fun r => r.mapError CoreError.smtp) ?_
    rintro w' tr' (e | ⟨⟩) v' w tr - h hans
    · rcases hans with rfl | rfl
      · exact ⟨w, ⟨⟨⟨e, rfl⟩, .inl rfl⟩, trivial⟩, h.step rfl⟩
      · exact ⟨{ w with sent := mail :: w.sent }, ⟨⟨⟨e, rfl⟩, .inr rfl⟩, trivial⟩,
          (h.step rfl).setSent henvelope⟩
    · cases hans
      exact ⟨{ w with sent := mail :: w.sent }, ⟨rfl, trivial⟩, (h.step rfl).setSent henvelope⟩

/-! Requests of the IMAP client. Without a session there is none. -/

theorem onNet_request {α : Type} {client : AsyncImapClient} (h : client.session = true)
    (c : NetCall) (result : NetReply c → Except CoreError α) :
    (onNet (client.request c result) : SystemProgram E _) =
      .call (.net c) fun r => .ret (result r) := by
  rw [AsyncImapClient.request, if_pos h]
  rfl

theorem onNet_request_none {α : Type} {client : AsyncImapClient} (h : client.session = false)
    (c : NetCall) (result : NetReply c → Except CoreError α) :
    (onNet (client.request c result) : SystemProgram E _) =
      .ret (.error (.imap "session not available")) := by
  rw [AsyncImapClient.request, if_neg (by simp [h])]
  rfl

theorem answering_capabilities
    {k : Except CoreError Capabilities → Program (Except CoreError Unit)} :
    host.Answering cfg .capabilities k t (host.crates.handler account .capabilities t) := by
  change host.Answering cfg .capabilities k t
    (onNet (t.client.request .capabilities _) >>= fun result => .ret (result, t))
  cases hsession : t.client.session with
  | false =>
    rw [onNet_request_none hsession]
    exact answering_reply fun _ _ w _ _ h => ⟨w, ⟨⟨⟨_, rfl⟩, rfl⟩, trivial⟩, h.called⟩
  | true =>
    rw [onNet_request hsession]
    refine answering_relay .capabilities (.net .capabilities)
      (fun reply => (reply.mapError CoreError.imap).map capabilitiesOf) ?_
    rintro w' tr' (e | atoms) v' w tr - h rfl
    · exact ⟨w, ⟨⟨⟨e, rfl⟩, rfl⟩, trivial⟩, h.step rfl⟩
    · exact ⟨w, ⟨rfl, trivial⟩, h.step rfl⟩

theorem answering_select {mailbox : String}
    {k : Except CoreError MailboxStatus → Program (Except CoreError Unit)} :
    host.Answering cfg (.select mailbox) k t
      (host.crates.handler account (.select mailbox) t) := by
  change host.Answering cfg (.select mailbox) k t
    (onNet (t.client.request (.select mailbox) _) >>= fun result => .ret (result, t))
  cases hsession : t.client.session with
  | false =>
    rw [onNet_request_none hsession]
    refine answering_reply fun _ _ w _ _ h =>
      ⟨{ w with selected := none }, ⟨⟨⟨_, rfl⟩, rfl⟩, trivial⟩, ?_⟩
    -- what the daemon thinks is selected does not matter
    exact { h.called with
      selected := fun hsession' => by rw [hsession] at hsession'; cases hsession' }
  | true =>
    rw [onNet_request hsession]
    refine answering_relay (.select mailbox) (.net (.select mailbox))
      (fun reply => (reply.mapError CoreError.imap).map Selection.status) ?_
    rintro w' tr' (e | selection) v' w tr - h hans
    · cases hans
      exact ⟨_, ⟨⟨⟨e, rfl⟩, rfl⟩, trivial⟩, (h.step rfl).setSelected none⟩
    · cases hans
      exact ⟨_, ⟨rfl, trivial⟩, (h.step rfl).setSelected (some mailbox)⟩

/-- What is fetched are the messages of the mailbox that the daemon has selected. -/
theorem answering_fetchUidRange {mailbox : String} {start : Nat} {since : Option Nat}
    {k : Except CoreError (List MessageContext) → Program (Except CoreError Unit)} :
    host.Answering cfg (.fetchUidRange mailbox start since) k t
      (host.crates.handler account (.fetchUidRange mailbox start since) t) := by
  change host.Answering cfg (.fetchUidRange mailbox start since) k t
    (onNet (t.client.request (.uidFetch (toString start ++ ":*") (fetchSpec since)) _) >>=
      fun result => .ret (result, t))
  cases hsession : t.client.session with
  | false =>
    rw [onNet_request_none hsession]
    exact answering_reply fun _ _ w _ _ h => ⟨w, ⟨⟨⟨_, rfl⟩, rfl⟩, trivial⟩, h.called⟩
  | true =>
    rw [onNet_request hsession]
    refine answering_relay (.fetchUidRange mailbox start since)
      (.net (.uidFetch (toString start ++ ":*") (fetchSpec since))) fetchResult ?_
    rintro w' tr' r v' w tr - h hans
    cases hresult : fetchResult r with
    | error e =>
      obtain rfl : v' = w' := by
        cases r with
        | error message => exact hans
        | ok items => exact hans.2
      exact ⟨w, ⟨⟨fetchResult_isImap hresult, rfl⟩, trivial⟩, h.step rfl⟩
    | ok messages =>
      cases r with
      | error message => cases hresult
      | ok items =>
        obtain ⟨herror | ⟨b, shown, hbox, rfl, hpresents⟩, rfl⟩ := hans
        · obtain ⟨e, he⟩ := herror
          obtain ⟨e', he'⟩ := collectItems_of_error he
          rw [fetchResult, he'] at hresult
          cases hresult
        · rw [fetchResult, collectItems_ok] at hresult
          cases hresult
          have hselected : w.box = some b := by
            rw [World.box, h.selected hsession, h.server]
            exact hbox
          exact ⟨_, ⟨⟨⟨b, hselected, fetched_of_presents hpresents⟩, rfl⟩, trivial⟩,
            (h.step rfl).setAnnounced (some [])⟩

theorem commandResult_isImap {cmd : ImapCommand} {r : NetReply (.ofCommand cmd)} {e : CoreError}
    (h : commandResult cmd r = .error e) : e.IsImap := by
  cases cmd with
  | uidMove uid target => exact except_mapError_error h
  | uidCopy uid target => exact except_mapError_error h
  | uidStoreFlags uid op flags => exact storeResult_error h
  | uidExpunge uids => exact storeResult_error h
  | uidCreateMailbox mailbox => exact except_mapError_error h

theorem toBool_mapError {ε ε' α : Type} (r : Except ε α) (f : ε → ε') :
    (r.mapError f).toBool = r.toBool := by
  cases r <;> rfl

/-- The server carries out the command that it reads off the call. -/
theorem carries_of_netAnswers {w' v' : SystemWorld E} {cmd : ImapCommand}
    {r : NetReply (.ofCommand cmd)} (h : w'.NetAnswers (.ofCommand cmd) r v') :
    w'.Carries (.ofCommand cmd) (commandResult cmd r).toBool v' := by
  cases cmd with
  | uidMove uid target => exact (toBool_mapError r CoreError.imap).symm ▸ h
  | uidCopy uid target => exact (toBool_mapError r CoreError.imap).symm ▸ h
  | uidStoreFlags uid op flags => exact h
  | uidExpunge uids => exact h
  | uidCreateMailbox mailbox => exact (toBool_mapError r CoreError.imap).symm ▸ h

/-- A command without proper flags is a STORE, which is never refused. -/
theorem run_of_not_properFlags {cmd : ImapCommand} (hflags : ¬ cmd.ProperFlags) (s : Server)
    (sel : String) : ∃ s', s.run sel cmd = some s' := by
  cases cmd with
  | uidStoreFlags uid op flags => exact ⟨_, rfl⟩
  | _ => exact absurd trivial hflags

/-- What the server has read is the daemon's command, or the rest passes for a change by others. -/
theorem exists_run_of_read {cmd read : ImapCommand}
    (hread : (NetCall.ofCommand cmd).command? = some read)
    (hflags : cmd.ProperFlags ∨ ∀ s s', host.around s s') {s s' : Server} {sel : String}
    (hrun : s.run sel read = some s') :
    ∃ s₁, s.run sel cmd = some s₁ ∧ (s' = s₁ ∨ host.around s₁ s') := by
  by_cases hproper : cmd.ProperFlags
  · obtain rfl := eq_of_command? hproper hread
    exact ⟨s', hrun, .inl rfl⟩
  · obtain ⟨s₁, hs₁⟩ := run_of_not_properFlags hproper s sel
    exact ⟨s₁, hs₁, .inr (hflags.resolve_left hproper s₁ s')⟩

/-- The server changes by itself. -/
theorem drifts_setServer (host : Host A E) (w : World) {s s' : Server}
    (h : s' = s ∨ host.around s s') :
    host.daemon.drifts { w with server := s } { w with server := s' } :=
  ⟨⟨rfl, rfl, rfl, rfl, id, [], by simp⟩, h⟩

/-- The daemon's command is carried out, and then it may be that others change the server. -/
theorem answering_command {cmd : ImapCommand}
    {k : Except CoreError Unit → Program (Except CoreError Unit)}
    (hflags : ∀ w tr, host.Serving cfg ⟨.call (.command cmd) k, w, tr⟩ →
      cmd.ProperFlags ∨ ∀ s s', host.around s s') :
    host.Answering cfg (.command cmd) k t (host.crates.handler account (.command cmd) t) := by
  change host.Answering cfg (.command cmd) k t
    (onNet (t.client.command cmd) >>= fun result => .ret (result, t))
  rw [command_eq_request]
  cases hsession : t.client.session with
  | false =>
    rw [onNet_request_none hsession]
    exact answering_reply fun _ _ w _ _ h =>
      ⟨w, ⟨⟨⟨_, rfl⟩, .inl rfl⟩, trivial⟩, h.called⟩
  | true =>
    rw [onNet_request hsession]
    refine obeys_relay_drifts (c := .command cmd) _ (closed_serving host cfg)
      (absorbs_represents host) (fun _ _ _ _ _ h => h.toRemains) (.net (.ofCommand cmd))
      (commandResult cmd) ?_
    rintro w' tr' r v' w tr hx h ⟨hans, -⟩
    have hissued : Represents host t w'
        (.called w' (.net (.ofCommand cmd)) r :: tr') w
        (.called w (.command cmd) (commandResult cmd r) :: tr) :=
      { h with issued := issued_command h.issued }
    rcases carries_of_netAnswers hans with ⟨read, sel, s, hread, hsel, hrun, rfl⟩ | ⟨hfailed, rfl⟩
    · -- the server has run what it read
      have hselected : w.selected = some sel := (h.selected hsession).trans hsel
      rw [← h.server] at hrun
      obtain ⟨s₁, hs₁, haround⟩ := exists_run_of_read hread (hflags w tr hx) hrun
      refine ⟨{ w with server := s₁ }, { w with server := s }, ⟨?_, trivial⟩,
        .single (drifts_setServer host w haround), hissued.setServer s⟩
      cases hresult : commandResult cmd r with
      | ok u => exact ⟨sel, s₁, hselected, hs₁, rfl⟩
      | error e => exact ⟨commandResult_isImap hresult, .inr ⟨sel, s₁, hselected, hs₁, rfl⟩⟩
    · refine ⟨w, w, ⟨?_, trivial⟩, .refl, hissued⟩
      cases hresult : commandResult cmd r with
      | ok u =>
        rw [hresult] at hfailed
        cases hfailed
      | error e => exact ⟨commandResult_isImap hresult, .inl rfl⟩

end Answering

/-! ## Section 5: Flags -/

/-- The batch has a compiled script, and the latest evaluation was of a compiled script. -/
def Phase.Hosted (compiled : CompiledScript → Prop) (tr : History) (ph : Phase) : Prop :=
  (∀ script, ph.script? = some script → compiled script) ∧
    ∀ ev, lastEvaluation tr = some ev →
      compiled ev.script ∧ evaluate ev.script ev.message = .ok ev.actions

section Hosted

variable {others : Server → Server → Prop} {compiled : CompiledScript → Prop} {cfg : Settings}
  {ph ph' : Phase} {w w' w₀ : World} {c : Call} {r : Reply c} {tr : History}

theorem compiled_of_scripts {script? : Option CompiledScript} {script : CompiledScript}
    (h : Scripts ph c r script?) (hold : ∀ script, ph.script? = some script → compiled script)
    (hcall : (site others compiled).call w c r w') (hscript : script? = some script) :
    compiled script := by
  cases h with
  | nothing => cases hscript
  | same => exact hold _ hscript
  | taken script' =>
    cases hscript
    exact hcall

theorem hosted_call (h : ph.Hosted compiled tr) (hallow : ph.Allows cfg c)
    (hcall : (site others compiled).call w c r w') :
    (ph.next cfg w c r).Hosted compiled (.called w c r :: tr) := by
  refine ⟨fun script => compiled_of_scripts (scripts_next hallow) h.1 hcall, ?_⟩
  intro ev hev
  by_cases hc : c.isEvaluate = true
  · cases c with
    | evaluate script msg =>
      obtain ⟨b, done, rest, rfl, rfl⟩ := evaluating_of_evaluate hallow
      have heval : r = evaluate b.script msg := hcall
      cases r with
      | error e => cases hev
      | ok actions =>
        cases hev
        exact ⟨h.1 _ rfl, heval.symm⟩
    | _ => cases hc
  · rw [lastEvaluation_called (by simpa using hc)] at hev
    exact h.2 ev hev

theorem serves_hosted {x : Config Call Reply World (Except CoreError Unit)}
    (hx : Serves (daemonWorld.under (site others compiled)) w₀ cfg x) :
    (phaseOf cfg x.trace).Hosted compiled x.trace := by
  have hstart : ∀ tr, lastEvaluation tr = none → Phase.offline.Hosted compiled tr :=
    fun tr hnone => ⟨by simp [Phase.script?], by simp [hnone]⟩
  refine serves_invariant (I := fun cfg _ tr => (phaseOf cfg tr).Hosted compiled tr) hx
    ?_ ?_ ?_ ?_
  · exact fun _ => hstart [] rfl
  · exact fun cfg p w tr c r w' _ h hallow hans => hosted_call h hallow hans.2
  · exact fun _ _ _ _ h _ => h
  · exact fun _ _ _ _ _ _ _ => hstart _ rfl

end Hosted

/-- The daemon stores proper flags only, or there are others that may change anything. -/
theorem properFlags_of_serving {host : Host A E} {cfg : Settings} {cmd : ImapCommand}
    {k : Except CoreError Unit → Program (Except CoreError Unit)} {w : World} {tr : History}
    (hx : host.Serving cfg ⟨.call (.command cmd) k, w, tr⟩) :
    cmd.ProperFlags ∨ ∀ s s', host.around s s' := by
  refine host.read.imp_left fun hhygienic => ?_
  have hallow : (phaseOf cfg tr).Allows cfg (.command cmd) :=
    hx.complies (K := protocol) (P := fun _ tr => sinceStart tr = [])
      (Q := fun cfg => EndsIn cfg SessionEnds)
      (fun cfg => (walks_supervisor cfg).pre fun _ _ h => phaseOf_of_sinceStart h) rfl
      fun _ _ _ _ => rfl
  obtain ⟨b, done, msg, rest, actions, ops, hph, -, -, hlast, horders⟩ :=
    orders_of_allows (serves_traced hx) hallow rfl
  obtain ⟨⟨-, hkind⟩, heval⟩ := (serves_hosted hx).2 _ hlast
  generalize hc : Call.command cmd = c at horders
  cases horders with
  | store haction hflags =>
    cases hc
    exact hhygienic _ hkind _ _ heval _ haction _ _ hflags
  | mark hdrops =>
    cases hc
    intro flag hflag
    rw [List.mem_singleton.mp hflag]
    decide
  | _ => cases hc <;> trivial

end ImapSieve
