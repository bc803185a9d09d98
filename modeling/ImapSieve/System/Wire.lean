import ImapSieve.System.Refinement

/-!
# The Order of Calls of the Process

What the process may ask for, and when: `Boot` follows the process from its start, and `Wire` the
connection to the mail server. `wire_protocol` says that the process keeps to both.

- Nothing goes over the network before the script is loaded and the state file is read.
- The password is sent once a connection, after the TLS handshake with the configured host, unless
  the configuration asks for a plain connection.
- Requests are made on a connection that is logged in and has not been lost.
- While a connection is being made or IDLE is under way, nothing else is asked for.
-/

namespace ImapSieve

open Effects

/-! ## Section 1: The connection -/

/-- The connection to the mail server, as the client knows it. -/
inductive Wire where
  | down
  /-- TCP, without TLS -/
  | greeted
  /-- The server has accepted STARTTLS. -/
  | upgrading
  | secured
  /-- The login has succeeded. -/
  | ready
  | idling
  /-- IDLE has been woken, and DONE is due. -/
  | woken
deriving DecidableEq, Repr

/-- No connection is being made and no IDLE is under way. -/
def Wire.AtRest (q : Wire) : Prop := q = .down ∨ q = .ready

/-- The requests of a client with a session, but IDLE. -/
def NetCall.isRequest : NetCall → Bool
  | .capabilities | .select _ | .uidFetch _ _ => true
  | c => c.isCommand

/-- What may be asked of the network. -/
inductive Wire.Allows (account : Account) : Wire → NetCall → Prop where
  | notified {q : Wire} (h : q.AtRest) : Allows account q .notified
  | output {q : Wire} (command : String) (h : q.AtRest) : Allows account q (.output command)
  | join {q : Wire} (h : q.AtRest) : Allows account q .join
  | tcpConnect {q : Wire} (h : q.AtRest) :
      Allows account q (.tcpConnect account.imap.host account.imap.port)
  | starttls (h : account.tlsMode = .starttls) : Allows account .greeted .starttls
  | implicit (h : account.tlsMode = .implicit) :
      Allows account .greeted (.tlsHandshake account.imap.host)
  | upgrade : Allows account .upgrading (.tlsHandshake account.imap.host)
  | plain (password : String) (h : account.tlsMode = .plain) :
      Allows account .greeted (.login account.username password)
  | login (password : String) : Allows account .secured (.login account.username password)
  | request {c : NetCall} (h : c.isRequest = true) : Allows account .ready c
  | idleInit : Allows account .ready .idleInit
  | idleWait (timeout : Nat) : Allows account .idling (.idleWait timeout)
  | idleDone : Allows account .woken .idleDone

/-- What becomes of the connection. What is cut off by the notification is dropped. -/
def Wire.next : Wire → (c : NetCall) → NetReply c → Wire
  | _, .tcpConnect _ _, .finished (.ok ()) => .greeted
  | _, .tcpConnect _ _, _ => .down
  | _, .starttls, .finished (.ok ()) => .upgrading
  | _, .starttls, _ => .down
  | _, .tlsHandshake _, .finished (.ok ()) => .secured
  | _, .tlsHandshake _, _ => .down
  | _, .login _ _, .finished (.ok ()) => .ready
  | _, .login _ _, _ => .down
  | _, .idleInit, .finished (.ok ()) => .idling
  | _, .idleInit, _ => .down
  | _, .idleWait _, .finished _ => .woken
  | _, .idleWait _, .notified => .down
  | _, .idleDone, .finished (.ok ()) => .ready
  | _, .idleDone, _ => .down
  | q, _, _ => q

/-! ## Section 2: The process -/

/-- How far the process has come. -/
inductive Boot where
  | started
  /-- The script was read. -/
  | read
  | loaded
  | watching
  /-- The directory of the state file is there. -/
  | prepared
  | serving (q : Wire)
deriving DecidableEq, Repr

/-- What the process may ask for. While a connection is being made or IDLE is under way, it asks for
nothing else. -/
inductive Boot.Allows {E : Type} (path : String) (cfg : Setup) : Boot → SystemCall E → Prop where
  | readScript : Allows path cfg .started .readScript
  | install (script : CompiledScript) : Allows path cfg .read (.install script)
  | spawnWatcher (h : cfg.watch = true) : Allows path cfg .loaded .spawnWatcher
  | createDir (h : cfg.watch = false) : Allows path cfg .loaded (.file .createDirAll)
  | createDirWatching : Allows path cfg .watching (.file .createDirAll)
  | read : Allows path cfg .prepared (.file (.read path))
  /-- The password of the relay is asked for before anything else. -/
  | output (command : String) : Allows path cfg (.serving .down) (.output command)
  | net {q : Wire} {c : NetCall} (h : q.Allows cfg.account c) :
      Allows path cfg (.serving q) (.net c)
  | file {q : Wire} (c : FileCall) (h : q.AtRest) : Allows path cfg (.serving q) (.file c)
  | sendRaw {q : Wire} (envelope : E) (raw : List UInt8) (h : q.AtRest) :
      Allows path cfg (.serving q) (.sendRaw envelope raw)
  | genRange {q : Wire} (jitter : ℚ) (h : q.AtRest) :
      Allows path cfg (.serving q) (.genRange jitter)
  | sleep {q : Wire} (delay : Nat) (h : q.AtRest) : Allows path cfg (.serving q) (.sleep delay)
  | stamp {q : Wire} (h : q.AtRest) : Allows path cfg (.serving q) .stamp
  | load {q : Wire} (h : q.AtRest) : Allows path cfg (.serving q) .load

def Boot.next {E : Type} : Boot → (c : SystemCall E) → SystemReply E c → Boot
  | .started, .readScript, .ok _ => .read
  | .read, .install _, _ => .loaded
  | .loaded, .spawnWatcher, .ok () => .watching
  | .loaded, .file .createDirAll, .ok () => .prepared
  | .watching, .file .createDirAll, .ok () => .prepared
  | .prepared, .file (.read _), _ => .serving .down
  | .serving q, .net c, r => .serving (q.next c r)
  | q, _, _ => q

/-- How far the process has come, read off what it has asked for. -/
def bootOf {E : Type} : Trace (SystemCall E) (SystemReply E) (SystemWorld E) → Boot
  | [] => .started
  | .restarted _ :: _ => .started
  | .called _ c r :: tr => (bootOf tr).next c r

/-- The monitor of the process. -/
def conduct {E : Type} (path : String) (cfg : Setup) :
    Monitor (SystemCall E) (SystemReply E) (SystemWorld E) Boot where
  start := .started
  next q _ c r := q.next c r
  allows q c := q.Allows path cfg c
  loops q := ∃ r, q = .serving r

theorem state_conduct {E : Type} (path : String) (cfg : Setup)
    (tr : Trace (SystemCall E) (SystemReply E) (SystemWorld E)) :
    (conduct path cfg).state tr = bootOf tr := by
  induction tr with
  | nil => rfl
  | cons e tr ih =>
    cases e with
    | restarted w => rfl
    | called w c r => exact congrArg (fun q => Boot.next q c r) ih

/-! ## Section 3: The client -/

/-- A connection that is at rest, and that stands if there is a session. -/
def Linked (session : Bool) (q : Boot) : Prop :=
  ∃ r : Wire, q = .serving r ∧ r.AtRest ∧ (session = true → r = .ready)

/-- A future inside the `select!` has come to the connection `r`, or it has ended without one. -/
def Reached (r : Wire) {α : Type} : Except Stop α → Boot → Prop
  | .ok _, q => q = .serving r
  | .error _, q => Linked false q

section Walks

variable {A E : Type} {S : Surroundings (SystemCall E) (SystemReply E) (SystemWorld E)}
  {path : String} {cfg : Setup} {q : Boot} {r r' : Wire} {α β : Type}

theorem linked_false (h : r.AtRest) : Linked false (.serving r) := ⟨r, rfl, h, by simp⟩

theorem linked_ready (session : Bool) : Linked session (.serving .ready) :=
  ⟨.ready, rfl, .inr rfl, fun _ => rfl⟩

/-- A call of the client. -/
theorem walks_netAsk {c : NetCall} {P : NetReply c → Boot → Prop} (hallow : r.Allows cfg.account c)
    (hP : ∀ reply, P reply (.serving (r.next c reply))) :
    (conduct path cfg).Walks S (.serving r) (onNet c.ask) P :=
  Monitor.walks_call (.net hallow) fun _ reply _ _ => Monitor.walks_ret (hP reply)

/-- Awaiting the reply to a call. -/
theorem walks_settle {ρ : Type} (c : NetCall) (hreply : NetReply c = Selected ρ)
    (f : ρ → Except CoreError α) (hallow : r.Allows cfg.account c)
    (hnext : ∀ reply, Reached r' (settle f (cast hreply reply)) (.serving (r.next c reply))) :
    (conduct path cfg).Walks S (.serving r)
      (onNet (c.ask >>= fun reply => .ret (settle f (cast hreply reply)))) (Reached r') := by
  rw [onNet_bind]
  exact Monitor.walks_bind (walks_netAsk hallow (P := fun reply q => Reached r' (settle f
    (cast hreply reply)) q) hnext) fun _ _ h => Monitor.walks_ret h

/-- Sequencing inside the `select!`. -/
theorem walks_reached_bind {p : Interruptible α} {f : α → Interruptible β} {r s t : Wire}
    (hp : (conduct path cfg).Walks S (.serving r) (onNet p.run) (Reached s))
    (hf : ∀ a, (conduct path cfg).Walks S (.serving s) (onNet (f a).run) (Reached t)) :
    (conduct path cfg).Walks S (.serving r) (onNet (p >>= f).run) (Reached t) := by
  rw [ExceptT.run_bind, onNet_bind]
  refine Monitor.walks_bind hp ?_
  rintro (stop | a) q h
  · exact Monitor.walks_ret h
  · obtain rfl : q = .serving s := h
    exact hf a

/-- Whatever a future at rest ends with. -/
theorem reached_atRest (h : r.AtRest) (x : Except Stop α) : Reached r x (.serving r) := by
  rcases x with stop | a
  · exact linked_false h
  · rfl

theorem walks_resolvePassword (h : r.AtRest) :
    (conduct path cfg).Walks S (.serving r) (onNet cfg.account.resolvePassword.run)
      (Reached r) := by
  rw [run_resolvePassword]
  refine walks_reached_bind (s := r) ?_ fun secret =>
    walks_settle .join rfl _ (.join h) fun _ => reached_atRest h _
  unfold resolveSecret
  split
  · exact Monitor.walks_ret rfl
  · split
    · next command _ =>
      refine walks_reached_bind (s := r) ?_ fun _ => Monitor.walks_ret rfl
      rw [run_awaitOutput]
      exact walks_settle (.output command) rfl _ (.output command h) fun _ => reached_atRest h _
    · exact Monitor.walks_ret rfl

theorem walks_tlsConnect (hallow : r.Allows cfg.account (.tlsHandshake cfg.account.imap.host)) :
    (conduct path cfg).Walks S (.serving r) (onNet (tlsConnect cfg.account.imap.host).run)
      (Reached .secured) := by
  rw [tlsConnect, run_await]
  refine walks_settle (.tlsHandshake cfg.account.imap.host) rfl _ hallow ?_
  rintro (_ | e | ⟨⟩)
  · exact linked_false (.inl rfl)
  · exact linked_false (.inl rfl)
  · rfl

theorem walks_login {password : String}
    (hallow : r.Allows cfg.account (.login cfg.account.username password)) :
    (conduct path cfg).Walks S (.serving r) (onNet (login cfg.account.username password).run)
      (Reached .ready) := by
  rw [login, run_await]
  refine walks_settle (.login cfg.account.username password) rfl _ hallow ?_
  rintro (_ | e | ⟨⟩)
  · exact linked_false (.inl rfl)
  · exact linked_false (.inl rfl)
  · rfl

/-- The three ways from TCP to the login. -/
theorem walks_accountConnect (h : r.AtRest) :
    (conduct path cfg).Walks S (.serving r) (onNet cfg.account.connect.run) (Reached .ready) := by
  refine walks_reached_bind (walks_resolvePassword h) fun password => ?_
  refine walks_reached_bind (s := .greeted) ?_ fun _ => ?_
  · rw [run_await]
    refine walks_settle (.tcpConnect cfg.account.imap.host cfg.account.imap.port) rfl _
      (.tcpConnect h) ?_
    rintro (_ | e | ⟨⟩)
    · exact linked_false (.inl rfl)
    · exact linked_false (.inl rfl)
    · rfl
  · cases hmode : cfg.account.tlsMode with
    | implicit =>
      exact walks_reached_bind (walks_tlsConnect (.implicit hmode)) fun _ =>
        walks_login (.login password)
    | starttls =>
      refine walks_reached_bind (s := .upgrading) ?_ fun _ =>
        walks_reached_bind (walks_tlsConnect .upgrade) fun _ => walks_login (.login password)
      rw [run_await]
      refine walks_settle .starttls rfl _ (.starttls hmode) ?_
      rintro (_ | e | ⟨⟩)
      · exact linked_false (.inl rfl)
      · exact linked_false (.inl rfl)
      · rfl
    | plain => exact walks_login (.plain password hmode)

/-- A connection is only there once connecting has succeeded. -/
theorem walks_connectOrNotified (h : r.AtRest) :
    (conduct path cfg).Walks S (.serving r) (onNet (connectOrNotified cfg.account))
      fun x => Linked x.2.session := by
  rw [connectOrNotified, onNet_bind]
  refine Monitor.walks_bind (walks_netAsk (P := fun _ q => q = .serving r) (.notified h)
    fun _ => rfl) ?_
  rintro (_ | _) q rfl
  · rw [if_neg Bool.false_ne_true, onNet_bind]
    refine Monitor.walks_bind (walks_accountConnect h) ?_
    rintro (stop | u) q hq
    · exact Monitor.walks_ret hq
    · obtain rfl : q = .serving .ready := hq
      exact Monitor.walks_ret (linked_ready true)
  · exact Monitor.walks_ret (linked_false h)

/-- IDLE ends with DONE, or the connection is dropped. -/
theorem walks_idle (client : AsyncImapClient) (timeout : Nat) (h : r.AtRest)
    (hready : client.session = true → r = .ready) :
    (conduct path cfg).Walks S (.serving r) (onNet (client.idle timeout))
      fun x => Linked x.2.session := by
  cases hsession : client.session with
  | false =>
    rw [AsyncImapClient.idle, hsession]
    exact Monitor.walks_ret (linked_false h)
  | true =>
    obtain rfl := hready hsession
    rw [AsyncImapClient.idle, if_neg (by simp [hsession]), onNet_bind]
    refine Monitor.walks_bind (walks_netAsk (P := fun reply q => q = .serving (Wire.next .ready
      .idleInit reply)) .idleInit fun _ => rfl) ?_
    rintro (_ | e | ⟨⟩) q rfl
    · exact Monitor.walks_ret (linked_false (.inl rfl))
    · exact Monitor.walks_ret (linked_false (.inl rfl))
    change Monitor.Walks _ _ _ (onNet ((NetCall.idleWait timeout).ask >>= _)) _
    rw [onNet_bind]
    refine Monitor.walks_bind (walks_netAsk (P := fun reply q => q = .serving (Wire.next .idling
      (.idleWait timeout) reply)) (.idleWait timeout) fun _ => rfl) ?_
    rintro (_ | result) q rfl
    · exact Monitor.walks_ret (linked_false (.inl rfl))
    change Monitor.Walks _ _ _ (onNet (NetCall.idleDone.ask >>= _)) _
    rw [onNet_bind]
    refine Monitor.walks_bind (walks_netAsk (P := fun reply q => q = .serving (Wire.next .woken
      .idleDone reply)) .idleDone fun _ => rfl) ?_
    rintro (_ | e | ⟨⟩) q rfl
    · exact Monitor.walks_ret (linked_false (.inl rfl))
    · exact Monitor.walks_ret (linked_false (.inl rfl))
    · exact Monitor.walks_ret (linked_ready true)

theorem walks_idleOrNotified (client : AsyncImapClient) (timeout : Nat) (h : r.AtRest)
    (hready : client.session = true → r = .ready) :
    (conduct path cfg).Walks S (.serving r) (onNet (idleOrNotified client timeout))
      fun x => Linked x.2.session := by
  rw [idleOrNotified, onNet_bind]
  refine Monitor.walks_bind (walks_netAsk (P := fun _ q => q = .serving r) (.notified h)
    fun _ => rfl) ?_
  rintro (_ | _) q rfl
  · exact walks_idle client timeout h hready
  · exact Monitor.walks_ret ⟨r, rfl, h, hready⟩

theorem next_request {c : NetCall} (hc : c.isRequest = true) (reply : NetReply c) :
    r.next c reply = r := by
  cases c <;> first | rfl | cases hc

/-- A request, or none where there is no session. -/
theorem walks_request (client : AsyncImapClient) {c : NetCall}
    (result : NetReply c → Except CoreError α) (hc : c.isRequest = true)
    (hready : client.session = true → r = .ready) :
    (conduct path cfg).Walks S (.serving r) (onNet (client.request c result))
      fun _ q => q = .serving r := by
  cases hsession : client.session with
  | false =>
    rw [onNet_request_none hsession]
    exact Monitor.walks_ret rfl
  | true =>
    obtain rfl := hready hsession
    rw [onNet_request hsession]
    exact Monitor.walks_call (.net (.request hc)) fun _ reply _ _ =>
      Monitor.walks_ret (congrArg Boot.serving (next_request hc reply))

/-- The calls of the store do not concern the connection. -/
theorem walks_onFile (p : FileProgram α) (h : r.AtRest) :
    (conduct path cfg).Walks S (.serving r) (onFile p) fun _ q => q = .serving r := by
  refine Monitor.walks_bind (Monitor.walks_handle (J := fun _ q => q = .serving r) ?_ ?_ p rfl)
    fun _ _ h => Monitor.walks_ret h
  · rintro _ _ rfl
    exact ⟨r, rfl⟩
  · rintro c _ _ rfl
    exact Monitor.walks_call (.file c h) fun _ _ _ _ => Monitor.walks_ret rfl

theorem isRequest_ofCommand (cmd : ImapCommand) : (NetCall.ofCommand cmd).isRequest = true := by
  cases cmd <;> rfl

/-- Every call of the supervisor leaves the connection at rest. -/
theorem walks_handler (crates : Crates A E) (c : Call) (t : Process) (q : Boot)
    (h : Linked t.client.session q) :
    (conduct path cfg).Walks S q (crates.handler cfg.account c t)
      fun rt q' => Linked rt.2.client.session q' := by
  obtain ⟨r, rfl, hrest, hready⟩ := h
  have hret : ∀ {ρ : Type} (x : ρ), (conduct (E := E) path cfg).Walks S (.serving r) (.ret (x, t))
      fun rt q' => Linked rt.2.client.session q' :=
    fun x => Monitor.walks_ret ⟨r, rfl, hrest, hready⟩
  cases c with
  | connect =>
    exact Monitor.walks_bind (walks_connectOrNotified hrest) fun _ _ h => Monitor.walks_ret h
  | idle timeout =>
    exact Monitor.walks_bind (walks_idleOrNotified t.client timeout hrest hready)
      fun _ _ h => Monitor.walks_ret h
  | capabilities =>
    refine Monitor.walks_bind (walks_request t.client _ rfl hready) ?_
    rintro result q rfl
    exact hret result
  | select mailbox =>
    refine Monitor.walks_bind (walks_request t.client _ rfl hready) ?_
    rintro result q rfl
    exact hret result
  | fetchUidRange mailbox start since =>
    refine Monitor.walks_bind (walks_request t.client _ rfl hready) ?_
    rintro result q rfl
    exact hret result
  | command cmd =>
    change Monitor.Walks _ _ _ (onNet (t.client.command cmd) >>= fun result => .ret (result, t)) _
    rw [command_eq_request]
    refine Monitor.walks_bind (walks_request t.client _ (isRequest_ofCommand cmd) hready) ?_
    rintro result q rfl
    exact hret result
  | update change =>
    refine Monitor.walks_bind (walks_onFile (t.store.update change.apply) hrest) ?_
    rintro ⟨result, store⟩ q rfl
    exact Monitor.walks_ret ⟨r, rfl, hrest, hready⟩
  | send mail =>
    change Monitor.Walks _ _ _ (crates.lettre.sendMail mail >>= fun result => .ret (result, t)) _
    rw [Lettre.sendMail]
    cases crates.lettre.envelope mail with
    | error e => exact hret _
    | ok envelope => exact Monitor.walks_call (.sendRaw _ _ hrest) fun _ _ _ _ => hret _
  | sleep delay => exact Monitor.walks_call (.sleep delay hrest) fun _ _ _ _ => hret _
  | genRange jitter => exact Monitor.walks_call (.genRange jitter hrest) fun _ _ _ _ => hret _
  | stamp => exact Monitor.walks_call (.stamp hrest) fun _ _ _ _ => hret _
  | currentScript => exact Monitor.walks_call (.load hrest) fun _ _ _ _ => hret _
  | state => exact hret _
  | evaluate script context => exact hret _
  | deleting uid => exact hret _
  | executed uid result => exact hret _

end Walks

/-! ## Section 4: `daemon::run` -/

/-- A preparation has come to `b`, or it has failed. -/
def Come (b : Boot) {α : Type} : Except Exit α → Boot → Prop
  | .ok _, q => q = b
  | .error _, _ => True

section Run

variable {A E : Type} {S : Surroundings (SystemCall E) (SystemReply E) (SystemWorld E)}
  {path : String} {cfg : Setup} {q b d : Boot} {α β : Type}

theorem walks_come_bind {p : ExceptT Exit (SystemProgram E) α}
    {f : α → ExceptT Exit (SystemProgram E) β}
    (hp : (conduct path cfg).Walks S q p.run (Come b))
    (hf : ∀ a, (conduct path cfg).Walks S b (f a).run (Come d)) :
    (conduct path cfg).Walks S q (p >>= f).run (Come d) := by
  refine Monitor.walks_bindExcept hp (fun _ _ _ => trivial) ?_
  rintro a q' rfl
  exact hf a

/-- A call of a preparation, after which the process has come to `next`. -/
theorem walks_lift {c : SystemCall E} {P : Except Exit (SystemReply E c) → Boot → Prop}
    (hallow : q.Allows path cfg c) (hP : ∀ r, P (.ok r) (q.next c r)) :
    (conduct path cfg).Walks S q
      (ExceptT.lift (systemCall c) : ExceptT Exit (SystemProgram E) (SystemReply E c)).run P :=
  Monitor.walks_call hallow fun _ r _ _ => Monitor.walks_ret (hP r)

theorem walks_loadScript (crates : Crates A E) :
    (conduct path cfg).Walks S .started crates.loadScript.run (Come .loaded) := by
  refine Monitor.walks_bindExcept (walks_lift (c := .readScript) (P := fun r q =>
    ∀ text : String, r = .ok (Except.ok text) → q = .read) .readScript ?_) (fun _ _ _ => trivial) ?_
  · rintro _ text ⟨⟩
    rfl
  · rintro (e | text) q hq
    · exact Monitor.walks_ret trivial
    · obtain rfl := hq text rfl
      cases (⟨crates.compile, ""⟩ : ScriptLoader).load (.ok text) with
      | error e => exact Monitor.walks_ret trivial
      | ok script => exact walks_lift (.install script) fun _ => rfl

/-- What comes before the state file. -/
def Boot.launched (cfg : Setup) : Boot := if cfg.watch then .watching else .loaded

theorem walks_spawnWatcher :
    (conduct (E := E) path cfg).Walks S .loaded (spawnWatcher cfg.watch).run
      (Come (Boot.launched cfg)) := by
  cases hwatch : cfg.watch with
  | false => exact Monitor.walks_ret (by rw [Come, Boot.launched, hwatch]; rfl)
  | true =>
    refine Monitor.walks_bindExcept (walks_lift (c := .spawnWatcher) (P := fun r q =>
      r = .ok (Except.ok ()) → q = .watching) (.spawnWatcher hwatch) ?_) (fun _ _ _ => trivial) ?_
    · rintro _ ⟨⟩
      rfl
    · rintro (e | ⟨⟩) q hq
      · exact Monitor.walks_ret trivial
      · obtain rfl := hq rfl
        exact Monitor.walks_ret (by rw [Come, Boot.launched, hwatch]; rfl)

theorem walks_openStore (crates : Crates A E) :
    (conduct path cfg).Walks S (Boot.launched cfg) (crates.openStore path).run
      (Come (.serving .down)) := by
  have hopen : (conduct (E := E) path cfg).Walks S (Boot.launched cfg)
      (onFile (StateStore.open crates.codec path).run) fun r q =>
        ∀ store, r = .ok store → q = .serving .down := by
    rw [run_open]
    refine Monitor.walks_call (c := SystemCall.file .createDirAll) ?_ ?_
    · cases hwatch : cfg.watch with
      | false =>
        rw [Boot.launched, hwatch]
        exact .createDir hwatch
      | true =>
        rw [Boot.launched, hwatch]
        exact .createDirWatching
    rintro _ (e | ⟨⟩) _ -
    · exact Monitor.walks_ret (by simp)
    · have hprepared : (Boot.launched cfg).next (E := E) (.file .createDirAll) (.ok ()) =
          .prepared := by
        cases hwatch : cfg.watch <;> simp [Boot.launched, hwatch, Boot.next]
      change (conduct path cfg).Walks S ((Boot.launched cfg).next _ _) _ _
      rw [hprepared]
      -- what was read is decoded without a call
      refine Monitor.walks_call (c := SystemCall.file (.read path)) .read fun _ contents _ _ => ?_
      exact (walks_onFile (afterRead crates.codec path contents) (.inl rfl)).post fun _ _ h _ _ => h
  refine Monitor.walks_bindExcept (P := fun r q => ∀ store, r = .ok (.ok store) →
    q = .serving .down) ?_ (fun _ _ _ => trivial) ?_
  · refine Monitor.walks_bind hopen fun r q hq => Monitor.walks_ret ?_
    rintro store ⟨⟩
    exact hq store rfl
  · rintro (e | store) q hq
    · exact Monitor.walks_ret trivial
    · exact Monitor.walks_ret (hq store rfl)

theorem walks_makeSmtp (crates : Crates A E) (smtp : SmtpConfig) :
    (conduct path cfg).Walks S (.serving .down) (crates.makeSmtp smtp).run
      (Come (.serving .down)) := by
  refine walks_come_bind (b := .serving .down) ?_ ?_
  · refine Monitor.walks_bind (P := fun _ q => q = .serving .down) ?_ ?_
    swap
    · rintro secret _ rfl
      exact Monitor.walks_ret rfl
    unfold resolveSecret
    split
    · exact Monitor.walks_ret rfl
    · split
      · next command _ => exact Monitor.walks_call (.output command) fun _ _ _ _ =>
          Monitor.walks_ret rfl
      · exact Monitor.walks_ret rfl
  · rintro (e | password)
    · exact Monitor.walks_ret trivial
    · cases hrelay : crates.relay smtp password with
      | error e =>
        simp only [hrelay]
        exact Monitor.walks_ret trivial
      | ok u =>
        simp only [hrelay]
        exact Monitor.walks_ret rfl

theorem walks_prepare (crates : Crates A E) :
    (conduct path cfg).Walks S .started (crates.prepare path cfg).run
      (Come (.serving .down)) := by
  refine walks_come_bind (walks_loadScript crates) fun _ => ?_
  refine walks_come_bind walks_spawnWatcher fun _ => ?_
  refine walks_come_bind (walks_openStore crates) fun store => ?_
  refine walks_come_bind (b := .serving .down) ?_ fun _ => Monitor.walks_ret rfl
  cases cfg.config.smtp with
  | none => exact Monitor.walks_ret rfl
  | some smtp => exact walks_makeSmtp crates smtp

theorem walks_run (crates : Crates A E) :
    (conduct path cfg).Walks S .started (crates.run path cfg) fun _ _ => True := by
  refine Monitor.walks_bind (walks_prepare crates) ?_
  rintro (exit | store) q hq
  · exact Monitor.walks_ret trivial
  · obtain rfl : q = .serving .down := hq
    have hloops : ∀ (t : Process) q, Linked t.client.session q →
        (conduct (E := E) path cfg).loops q := by
      rintro t q ⟨r, rfl, -, -⟩
      exact ⟨r, rfl⟩
    exact Monitor.walks_bind (Monitor.walks_handle hloops (walks_handler crates)
      (Supervisor.run cfg.config.settings) (linked_false (.inl rfl))) fun _ _ _ =>
        Monitor.walks_ret trivial

end Run

/-! ## Section 5: Runs -/

section Runs

variable {A E : Type} {crates : Crates A E} {path : String} {others : Server → Server → Prop}
  {cfg : Setup} {w₀ : SystemWorld E}
  {x : Config (SystemCall E) (SystemReply E) (SystemWorld E) Exit}
  {tr : Trace (SystemCall E) (SystemReply E) (SystemWorld E)}

theorem reachable_allows
    (hx : Reachable (systemWorld crates path others) (crates.run path cfg) w₀ x) :
    Along (fun _ c _ before => (bootOf before).Allows path cfg c) x.trace := by
  refine hx.visits.invariant
    (I := fun _ tr => Along (fun _ c _ before => (bootOf before).Allows path cfg c) tr)
    (walks_run crates) rfl (fun _ _ _ _ => rfl) along_nil ?_ (fun _ _ _ _ h _ => h)
    fun _ _ _ _ h _ => along_restarted h
  intro w tr c r w' _ h hallow _
  refine along_called ?_ h
  rw [← state_conduct path cfg]
  exact hallow

/-- What is asked of the network. -/
def asksNet : Entry (SystemCall E) (SystemReply E) (SystemWorld E) → Bool
  | .called _ (.net _) _ => true
  | _ => false

/-- The latest that was asked of the network is the TLS handshake, and it succeeded. -/
def Handshaken (host : String) (tr : Trace (SystemCall E) (SystemReply E) (SystemWorld E)) :
    Prop :=
  ∃ between w older, tr = between ++ .called w (.net (.tlsHandshake host)) (.finished (.ok ())) ::
    older ∧ ∀ e ∈ between, asksNet e = false

theorem Handshaken.cons {host : String} (h : Handshaken host tr)
    {e : Entry (SystemCall E) (SystemReply E) (SystemWorld E)} (he : asksNet e = false) :
    Handshaken host (e :: tr) := by
  obtain ⟨between, w, older, rfl, hbetween⟩ := h
  exact ⟨e :: between, w, older, rfl, List.forall_mem_cons.mpr ⟨he, hbetween⟩⟩

/-- Only the handshake secures a connection, and it is one with the configured host. -/
theorem handshaken_of_next {q : Wire} {c : NetCall} {r : NetReply c} {w : SystemWorld E}
    (hallow : q.Allows cfg.account c) (h : q.next c r = .secured) :
    Handshaken cfg.config.imap.host (.called w (.net c) r :: tr) := by
  cases hallow with
  | notified hrest => rcases hrest with rfl | rfl <;> cases h
  | output command hrest => rcases hrest with rfl | rfl <;> cases h
  | join hrest => rcases hrest with rfl | rfl <;> cases h
  | tcpConnect hrest => rcases r with _ | e | ⟨⟩ <;> cases h
  | starttls hmode => rcases r with _ | e | ⟨⟩ <;> cases h
  | implicit hmode =>
    rcases r with _ | e | ⟨⟩
    · cases h
    · cases h
    · exact ⟨[], w, tr, rfl, by simp⟩
  | upgrade =>
    rcases r with _ | e | ⟨⟩
    · cases h
    · cases h
    · exact ⟨[], w, tr, rfl, by simp⟩
  | plain password hmode => rcases r with _ | e | ⟨⟩ <;> cases h
  | login password => rcases r with _ | e | ⟨⟩ <;> cases h
  | request hc =>
    rw [next_request hc] at h
    cases h
  | idleInit => rcases r with _ | e | ⟨⟩ <;> cases h
  | idleWait timeout => rcases r with _ | result <;> cases h
  | idleDone => rcases r with _ | e | ⟨⟩ <;> cases h

/-- A connection is secured by the handshake. -/
theorem handshaken_of_secured
    (halong : Along (fun _ c _ before => (bootOf before).Allows path cfg c) tr)
    (h : bootOf tr = .serving .secured) : Handshaken cfg.config.imap.host tr := by
  induction tr with
  | nil => cases h
  | cons e tr ih =>
    cases e with
    | restarted w => cases h
    | called w c r =>
      have hallow := halong w c r tr List.suffix_rfl
      have hbefore := ih fun w c r before hsuffix =>
        halong w c r before (hsuffix.trans (List.suffix_cons _ _))
      rw [bootOf] at h
      generalize bootOf tr = q at hallow hbefore h
      cases hallow with
      | readScript => cases r <;> cases h
      | install script => cases h
      | spawnWatcher hwatch => cases r <;> cases h
      | createDir hwatch => cases r <;> cases h
      | createDirWatching => cases r <;> cases h
      | read => cases h
      | output command => cases h
      | net hq => exact handshaken_of_next hq (Boot.serving.inj h)
      | file c hrest =>
        refine (hbefore ?_).cons rfl
        cases c <;> exact h
      | sendRaw envelope raw hrest => exact (hbefore h).cons rfl
      | genRange jitter hrest => exact (hbefore h).cons rfl
      | sleep delay hrest => exact (hbefore h).cons rfl
      | stamp hrest => exact (hbefore h).cons rfl
      | load hrest => exact (hbefore h).cons rfl

end Runs

/-- The process asks for nothing that is out of order: it boots step by step, it connects step by
step, and it makes requests on a connection that stands. -/
theorem wire_protocol {A E : Type} (crates : Crates A E) (path : String)
    (others : Server → Server → Prop) (cfg : Setup) (w₀ : SystemWorld E)
    (x : Config (SystemCall E) (SystemReply E) (SystemWorld E) Exit)
    (hx : Reachable (systemWorld crates path others) (crates.run path cfg) w₀ x) :
    Along (fun _ c _ before => (bootOf before).Allows path cfg c) x.trace :=
  reachable_allows hx

/-- The process that has discarded its first message. -/
theorem wire_protocol_discard :
    Along (fun _ c _ before => (bootOf before).Allows "state.json" sampleSetup c)
      (sampleProcess 29).trace :=
  wire_protocol sampleCrates "state.json" _ sampleSetup sampleSystem _ (reachable_sampleProcess 29)

/-- The password is sent only to whom the TLS handshake with the configured host was made, and the
handshake was the last that was asked of the network; unless the configuration asks for a plain
connection. -/
theorem login_secured {A E : Type} (crates : Crates A E) (path : String)
    (others : Server → Server → Prop) (cfg : Setup) (w₀ w : SystemWorld E)
    (x : Config (SystemCall E) (SystemReply E) (SystemWorld E) Exit)
    (hx : Reachable (systemWorld crates path others) (crates.run path cfg) w₀ x)
    (username password : String) (r : Selected (Except String Unit))
    (before : Trace (SystemCall E) (SystemReply E) (SystemWorld E))
    (hlogin : .called w (.net (.login username password)) r :: before <:+ x.trace)
    (hmode : cfg.tlsMode ≠ .plain) : Handshaken cfg.config.imap.host before := by
  have halong := reachable_allows hx
  have hallow : (bootOf before).Allows path cfg (.net (.login username password)) :=
    halong w (.net (.login username password)) r before hlogin
  have hbefore : Along (fun _ c _ before => (bootOf before).Allows path cfg c) before :=
    fun v c' r' before' hsuffix =>
      halong v c' r' before' (hsuffix.trans ((List.suffix_cons _ _).trans hlogin))
  generalize hq : bootOf before = q at hallow
  cases hallow with
  | net hwire =>
    cases hwire with
    | plain password hplain => exact absurd hplain hmode
    | login password => exact handshaken_of_secured hbefore hq
    | request hc => cases hc

/-- The process logs in. -/
theorem login_secured_first : Handshaken "imap.example.org" (sampleProcess 10).trace :=
  login_secured sampleCrates "state.json" _ sampleSetup sampleSystem (sampleProcess 10).world
    (sampleProcess 11) (reachable_sampleProcess 11) "me" "secret" (.finished (.ok ())) _
    List.suffix_rfl (by decide)

end ImapSieve
