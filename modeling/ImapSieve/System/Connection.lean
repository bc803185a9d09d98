import ImapSieve.System.Relation

/-!
# Connections of the Process

Connecting and IDLE go on until they end or shutdown is notified, whichever comes first. Either
way it is one call of the daemon.
-/

namespace ImapSieve

open Effects

variable {A E : Type} {host : Host A E} {cfg : Settings} {t : Process}

/-! ## Section 1: Futures in a `select!` -/

theorem onNet_bind {α β : Type} (p : NetProgram α) (f : α → NetProgram β) :
    (onNet (p >>= f) : SystemProgram E β) = onNet p >>= fun a => onNet (f a) :=
  embed_bind p f

/-- What becomes of an awaited result that may be an error of the connection. -/
def settle {ρ α : Type} (f : ρ → Except CoreError α) : Selected ρ → Except Stop α
  | .notified => .error .notified
  | .finished x => (f x).mapError .failed

theorem run_await {ε α : Type} (p : NetProgram (Selected (Except ε α))) (convert : ε → String) :
    (await p convert).run = p >>= fun r =>
      .ret (settle (fun x => x.mapError fun e => .imap (convert e)) r) := by
  refine congrArg (p >>= ·) (funext fun r => ?_)
  rcases r with _ | e | a <;> rfl

theorem run_awaitOutput (command : String) :
    (awaitOutput command).run = (NetCall.output command).ask >>= fun r =>
      .ret (settle .ok r) := by
  refine congrArg ((NetCall.output command).ask >>= ·) (funext fun r => ?_)
  cases r <;> rfl

section Connect

variable {k : Selected (Except CoreError Unit) → Program (Except CoreError Unit)} {α β ρ : Type}

/-- A future inside the `select!` of `connect` has gone on, or it has ended the `select!`. -/
def Connecting (host : Host A E) (cfg : Settings) (t : Process)
    (k : Selected (Except CoreError Unit) → Program (Except CoreError Unit))
    (M : Assertion (SystemCall E) (SystemReply E) (SystemWorld E)) :
    Except Stop α → Assertion (SystemCall E) (SystemReply E) (SystemWorld E)
  | .ok _ => M
  | .error stop => host.Stands cfg t (k (Stop.selected (.error stop)))

theorem stable_connecting {M : Assertion (SystemCall E) (SystemReply E) (SystemWorld E)}
    (hM : Stable host.system M) (r : Except Stop α) :
    Stable host.system (Connecting host cfg t k M r) := by
  cases r with
  | ok a => exact hM
  | error stop => exact stable_stands host cfg _ _

/-- A call of the IMAP client. -/
theorem obeys_ask (c : NetCall) {p : Program (Except CoreError Unit)}
    {M : NetReply c → Assertion (SystemCall E) (SystemReply E) (SystemWorld E)}
    (hstable : ∀ r, Stable host.system (M r))
    (hans : ∀ w' tr' r v', host.Stands cfg t p w' tr' → w'.NetAnswers c r v' →
      M r v' (.called w' (.net c) r :: tr')) :
    Obeys host.system (host.keeps cfg) (host.Stands cfg t p) (onNet c.ask) M :=
  obeys_call (stable_stands host cfg t p) (fun _ _ => keeps_of_stands)
    (fun w' tr' r v' hstands h => hans w' tr' r v' hstands h.1)
    fun r => obeys_ret (hstable r) fun _ _ h => h

/-- The `select!` of `connect` ends without a client where what it awaits ends it. -/
theorem connecting_settle {f : ρ → Except CoreError α} {c : NetCall} {r' : NetReply c}
    {w' v' done : SystemWorld E} {tr' : Trace (SystemCall E) (SystemReply E) (SystemWorld E)}
    {r : Selected ρ} {M : Assertion (SystemCall E) (SystemReply E) (SystemWorld E)}
    (hclient : t.client.session = false) (hc : (SystemCall.net (E := E) c).command? = none)
    (h : host.Stands cfg t (.call .connect k) w' tr') (hans : w'.Awaits done r v')
    (hdone : ∃ selected, done = { w' with selected })
    (hM : ∀ x a, r = .finished x → f x = .ok a → w'.permit = false →
      M done (.called w' (.net c) r' :: tr')) :
    Connecting host cfg t k M (settle f r) v' (.called w' (.net c) r' :: tr') := by
  obtain ⟨w, tr, hx, hrep⟩ := h
  obtain ⟨selected, rfl⟩ := hdone
  cases r with
  | notified =>
    obtain ⟨hpermit, rfl⟩ := hans
    have hstep : Step host.daemon ⟨.call .connect k, w, tr⟩
        ⟨k .notified, { w with permit := false }, .called w .connect .notified :: tr⟩ :=
      .call ⟨⟨hrep.permit.trans hpermit, rfl⟩, trivial⟩
    exact ⟨_, _, closed_serving host cfg _ _ hx hstep, (hrep.step hc).setPermit false⟩
  | finished x =>
    obtain ⟨hpermit, rfl⟩ := hans
    cases hf : f x with
    | ok a =>
      rw [settle, hf]
      exact hM x a rfl hf hpermit
    | error e =>
      rw [settle, hf]
      have hstep : Step host.daemon ⟨.call .connect k, w, tr⟩
          ⟨k (.finished (.error e)), w, .called w .connect (.finished (.error e)) :: tr⟩ :=
        .call ⟨⟨hrep.permit.trans hpermit, rfl⟩, trivial⟩
      exact ⟨_, _, closed_serving host cfg _ _ hx hstep,
        (hrep.step hc).setUnselected hclient selected⟩

/-- Awaiting the reply to a call. `done` is what the call leaves if it is not cut off. -/
theorem obeys_settle (c : NetCall) (hreply : NetReply c = Selected ρ) (f : ρ → Except CoreError α)
    (done : SystemWorld E → SystemWorld E)
    {M : Assertion (SystemCall E) (SystemReply E) (SystemWorld E)} (hM : Stable host.system M)
    (hclient : t.client.session = false) (hc : (SystemCall.net (E := E) c).command? = none)
    (hdone : ∀ w', ∃ selected, done w' = { w' with selected })
    (hans : ∀ (w' : SystemWorld E) r v', w'.NetAnswers c r v' →
      w'.Awaits (done w') (cast hreply r) v')
    (hok : ∀ w' tr' r', host.Stands cfg t (.call .connect k) w' tr' → w'.permit = false →
      M (done w') (.called w' (.net c) r' :: tr')) :
    Obeys host.system (host.keeps cfg) (host.Stands cfg t (.call .connect k))
      (onNet (c.ask >>= fun r => .ret (settle f (cast hreply r))))
      (Connecting host cfg t k M) := by
  rw [onNet_bind]
  refine obeys_bind (obeys_ask c
    (M := fun r => Connecting host cfg t k M (settle f (cast hreply r)))
    (fun r => stable_connecting hM _) ?_) fun r =>
      obeys_ret (stable_connecting hM _) fun _ _ h => h
  intro w' tr' r v' hstands hnet
  exact connecting_settle hclient hc hstands (hans w' r v' hnet) (hdone w')
    fun _ _ _ _ hpermit => hok w' tr' r hstands hpermit

/-- Awaiting a reply after which connecting goes on. -/
theorem obeys_settle_on (c : NetCall) (hreply : NetReply c = Selected ρ)
    (f : ρ → Except CoreError α) (done : SystemWorld E → SystemWorld E)
    (hclient : t.client.session = false) (hc : (SystemCall.net (E := E) c).command? = none)
    (hdone : ∀ w', ∃ selected, done w' = { w' with selected })
    (hans : ∀ (w' : SystemWorld E) r v', w'.NetAnswers c r v' →
      w'.Awaits (done w') (cast hreply r) v') :
    Obeys host.system (host.keeps cfg) (host.Stands cfg t (.call .connect k))
      (onNet (c.ask >>= fun r => .ret (settle f (cast hreply r))))
      (Connecting host cfg t k (host.Stands cfg t (.call .connect k))) := by
  refine obeys_settle c hreply f done (stable_stands host cfg _ _) hclient hc hdone hans ?_
  rintro w' tr' r' ⟨w, tr, hx, hrep⟩ -
  obtain ⟨selected, hselected⟩ := hdone w'
  rw [hselected]
  exact ⟨w, tr, hx, (hrep.quiet hc).setUnselected hclient selected⟩

/-- Sequencing inside the `select!`. -/
theorem obeys_connecting_bind {p : Interruptible α} {f : α → Interruptible β}
    {M N : Assertion (SystemCall E) (SystemReply E) (SystemWorld E)}
    {P : Assertion (SystemCall E) (SystemReply E) (SystemWorld E)}
    (hp : Obeys host.system (host.keeps cfg) P (onNet p.run) (Connecting host cfg t k M))
    (hf : ∀ a, Obeys host.system (host.keeps cfg) M (onNet (f a).run)
      (Connecting host cfg t k N)) :
    Obeys host.system (host.keeps cfg) P (onNet (p >>= f).run) (Connecting host cfg t k N) := by
  rw [ExceptT.run_bind, onNet_bind]
  refine obeys_bind hp fun r => ?_
  cases r with
  | ok a => exact hf a
  | error stop => exact obeys_ret (stable_stands host cfg _ _) fun _ _ h => h

variable {account : Account}

/-- What follows the password command is decided when its thread is joined. -/
def joined (secret : Except SecretError String) : Except String Unit → Except CoreError String
  | .error e => .error (.imap ("spawn_blocking: " ++ e))
  | .ok () => secret.mapError fun e => .imap ("password: " ++ e.display)

theorem run_resolvePassword (account : Account) :
    account.resolvePassword.run =
      (resolveSecret awaitOutput account.imap.password account.imap.passwordCommand >>=
        fun secret => ExceptT.mk (NetCall.join.ask >>= fun r =>
          .ret (settle (joined secret) r))).run := by
  refine congrArg (ExceptT.run ∘ (resolveSecret awaitOutput account.imap.password
    account.imap.passwordCommand >>= ·)) (funext fun secret => ?_)
  refine congrArg ExceptT.mk (congrArg (NetCall.join.ask >>= ·) (funext fun r => ?_))
  rcases r with _ | e | ⟨⟩
  · rfl
  · rfl
  · cases secret <;> rfl

theorem obeys_resolvePassword (hclient : t.client.session = false) :
    Obeys host.system (host.keeps cfg) (host.Stands cfg t (.call .connect k))
      (onNet account.resolvePassword.run)
      (Connecting host cfg t k (host.Stands cfg t (.call .connect k))) := by
  have hpure : ∀ secret : Except SecretError String,
      Obeys host.system (host.keeps cfg) (host.Stands cfg t (.call .connect k))
        (onNet (pure secret : Interruptible (Except SecretError String)).run)
        (Connecting host cfg t k (host.Stands cfg t (.call .connect k))) :=
    fun secret => obeys_ret (stable_stands host cfg _ _) fun _ _ h => h
  rw [run_resolvePassword]
  refine obeys_connecting_bind (M := host.Stands cfg t (.call .connect k)) ?_ fun secret => ?_
  · unfold resolveSecret
    split
    · exact hpure _
    · split
      · next command _ =>
        refine obeys_connecting_bind (M := host.Stands cfg t (.call .connect k)) ?_ fun r => hpure _
        rw [run_awaitOutput]
        exact obeys_settle_on (.output command) rfl .ok (fun w' => w') hclient rfl
          (fun w' => ⟨w'.selected, rfl⟩) fun _ _ _ h => h
      · exact hpure _
  · exact obeys_settle_on .join rfl (joined secret) (fun w' => w') hclient rfl
      (fun w' => ⟨w'.selected, rfl⟩) fun _ _ _ h => h

theorem obeys_tlsConnect (hclient : t.client.session = false) (name : String) :
    Obeys host.system (host.keeps cfg) (host.Stands cfg t (.call .connect k))
      (onNet (tlsConnect name).run)
      (Connecting host cfg t k (host.Stands cfg t (.call .connect k))) := by
  rw [tlsConnect, run_await]
  exact obeys_settle_on (.tlsHandshake name) rfl _ (fun w' => w') hclient rfl
    (fun w' => ⟨w'.selected, rfl⟩) fun _ _ _ h => h

/-- With the login the connection is made. -/
theorem obeys_login (hclient : t.client.session = false) (username password : String) :
    Obeys host.system (host.keeps cfg) (host.Stands cfg t (.call .connect k))
      (onNet (login username password).run)
      (Connecting host cfg t k (host.Stands cfg { t with client := ⟨true⟩ }
        (k (.finished (.ok ()))))) := by
  rw [login, run_await]
  refine obeys_settle (.login username password) rfl _ (fun w' => { w' with selected := none })
    (stable_stands host cfg _ _) hclient rfl (fun _ => ⟨none, rfl⟩) (fun _ _ _ h => h) ?_
  rintro w' tr' r' ⟨w, tr, hx, hrep⟩ hpermit
  have hstep : Step host.daemon ⟨.call .connect k, w, tr⟩
      ⟨k (.finished (.ok ())), { w with selected := none, announced := none },
        .called w .connect (.finished (.ok ())) :: tr⟩ :=
    .call ⟨⟨hrep.permit.trans hpermit, rfl⟩, trivial⟩
  exact ⟨_, _, closed_serving host cfg _ _ hx hstep, (hrep.step rfl).setConnected⟩

theorem obeys_connect (hclient : t.client.session = false) :
    Obeys host.system (host.keeps cfg) (host.Stands cfg t (.call .connect k))
      (onNet account.connect.run)
      (Connecting host cfg t k (host.Stands cfg { t with client := ⟨true⟩ }
        (k (.finished (.ok ()))))) := by
  refine obeys_connecting_bind (obeys_resolvePassword hclient) fun password => ?_
  refine obeys_connecting_bind (M := host.Stands cfg t (.call .connect k)) ?_ fun _ => ?_
  · rw [run_await]
    exact obeys_settle_on (.tcpConnect account.imap.host account.imap.port) rfl _
      (fun w' => { w' with selected := none }) hclient rfl (fun _ => ⟨none, rfl⟩)
      fun _ _ _ h => h
  · cases account.tlsMode with
    | implicit =>
      exact obeys_connecting_bind (obeys_tlsConnect hclient _) fun _ => obeys_login hclient _ _
    | starttls =>
      refine obeys_connecting_bind (M := host.Stands cfg t (.call .connect k)) ?_ fun _ =>
        obeys_connecting_bind (obeys_tlsConnect hclient _) fun _ => obeys_login hclient _ _
      rw [run_await]
      exact obeys_settle_on .starttls rfl _ (fun w' => w') hclient rfl
        (fun w' => ⟨w'.selected, rfl⟩) fun _ _ _ h => h
    | plain => exact obeys_login hclient _ _

/-- `connect` either is notified, or it has made a connection, or it has failed. -/
theorem answering_connect :
    host.Answering cfg .connect k t (host.crates.handler account .connect t) := by
  change host.Answering cfg .connect k t
    (onNet (connectOrNotified account) >>= fun x => .ret (x.1, { t with client := x.2 }))
  refine obeys_bind (M := fun x => host.Stands cfg { t with client := x.2 } (k x.1)) ?_
    fun x => obeys_ret (stable_stands host cfg _ _) fun _ _ h => h
  rw [connectOrNotified, onNet_bind]
  -- the old client is gone
  refine obeys_bind (M := fun taken => if taken then host.Stands cfg { t with client := ⟨false⟩ }
    (k .notified) else host.Stands cfg { t with client := ⟨false⟩ } (.call .connect k))
    (obeys_ask .notified ?_ ?_) fun taken => ?_
  · rintro (_ | _) <;> exact stable_stands host cfg _ _
  · rintro w' tr' (_ | _) v' ⟨w, tr, hx, hrep⟩ ⟨hpermit, rfl⟩
    · exact ⟨w, tr, hx, (hrep.quiet rfl).setClient (by simp)⟩
    · have hstep : Step host.daemon ⟨.call .connect k, w, tr⟩
          ⟨k .notified, { w with permit := false }, .called w .connect .notified :: tr⟩ :=
        .call ⟨⟨hrep.permit.trans hpermit, rfl⟩, trivial⟩
      exact ⟨_, _, closed_serving host cfg _ _ hx hstep,
        ((hrep.step rfl).setPermit false).setClient (by simp)⟩
  · cases taken with
    | true => exact obeys_ret (stable_stands host cfg _ _) fun _ _ h => h
    | false =>
      rw [if_neg Bool.false_ne_true, if_neg Bool.false_ne_true, onNet_bind]
      refine obeys_bind (obeys_connect rfl) fun result => ?_
      cases result with
      | ok u => exact obeys_ret (stable_stands host cfg _ _) fun _ _ h => h
      | error stop => exact obeys_ret (stable_stands host cfg _ _) fun _ _ h => h

end Connect

/-! ## Section 2: IDLE -/

section Idle

variable {timeout : Nat}
  {k : Selected (Except CoreError IdleEvent) → Program (Except CoreError Unit)}

/-- The `select!` of `idle` is notified; the client has lost what the future had taken. -/
theorem idle_notified {c : NetCall} {r' : NetReply c} {w' : SystemWorld E}
    {tr' : Trace (SystemCall E) (SystemReply E) (SystemWorld E)} {client : AsyncImapClient}
    (hclient : client.session = true → t.client.session = true)
    (hc : (SystemCall.net (E := E) c).command? = none)
    (h : host.Stands cfg t (.call (.idle timeout) k) w' tr') (hpermit : w'.permit = true) :
    host.Stands cfg { t with client } (k .notified) { w' with permit := false }
      (.called w' (.net c) r' :: tr') := by
  obtain ⟨w, tr, hx, hrep⟩ := h
  have hstep : Step host.daemon ⟨.call (.idle timeout) k, w, tr⟩
      ⟨k .notified, { w with permit := false, announced := none },
        .called w (.idle timeout) .notified :: tr⟩ :=
    .call ⟨⟨hrep.permit.trans hpermit, rfl⟩, trivial⟩
  exact ⟨_, _, closed_serving host cfg _ _ hx hstep,
    (((hrep.step hc).setPermit false).setAnnounced none).setClient hclient⟩

/-- IDLE ends with a result. -/
theorem idle_finished {c : NetCall} {r' : NetReply c} {w' : SystemWorld E}
    {tr' : Trace (SystemCall E) (SystemReply E) (SystemWorld E)}
    {result : Except CoreError IdleEvent} {client : AsyncImapClient}
    (hclient : client.session = true → t.client.session = true)
    (hc : (SystemCall.net (E := E) c).command? = none)
    (hresult : ∀ e, result = .error e → e.IsImap)
    (h : host.Stands cfg t (.call (.idle timeout) k) w' tr') (hpermit : w'.permit = false) :
    host.Stands cfg { t with client } (k (.finished result)) w'
      (.called w' (.net c) r' :: tr') := by
  obtain ⟨w, tr, hx, hrep⟩ := h
  have hstep : Step host.daemon ⟨.call (.idle timeout) k, w, tr⟩
      ⟨k (.finished result), { w with announced := none },
        .called w (.idle timeout) (.finished result) :: tr⟩ := by
    refine .call ⟨?_, trivial⟩
    cases result with
    | ok event => exact ⟨hrep.permit.trans hpermit, rfl⟩
    | error e => exact ⟨hresult e rfl, hrep.permit.trans hpermit, rfl⟩
  exact ⟨_, _, closed_serving host cfg _ _ hx hstep,
    ((hrep.step hc).setAnnounced none).setClient hclient⟩

/-- IDLE goes on. -/
theorem idle_goes_on {c : NetCall} {r' : NetReply c} {w' : SystemWorld E}
    {tr' : Trace (SystemCall E) (SystemReply E) (SystemWorld E)}
    (hc : (SystemCall.net (E := E) c).command? = none)
    (h : host.Stands cfg t (.call (.idle timeout) k) w' tr') :
    host.Stands cfg t (.call (.idle timeout) k) w' (.called w' (.net c) r' :: tr') := by
  obtain ⟨w, tr, hx, hrep⟩ := h
  exact ⟨w, tr, hx, hrep.quiet hc⟩

variable {account : Account}

theorem obeys_onNet_ret (x : Selected (Except CoreError IdleEvent) × AsyncImapClient) :
    Obeys host.system (host.keeps cfg) (host.Stands cfg { t with client := x.2 } (k x.1))
      (onNet (.ret x)) fun x => host.Stands cfg { t with client := x.2 } (k x.1) :=
  obeys_ret (stable_stands host cfg _ _) fun _ _ h => h

/-- Where the daemon is once IDLE is asked for. -/
def Host.Initiated (host : Host A E) (cfg : Settings) (t : Process) (timeout : Nat)
    (k : Selected (Except CoreError IdleEvent) → Program (Except CoreError Unit)) :
    Selected (Except String Unit) → Assertion (SystemCall E) (SystemReply E) (SystemWorld E)
  | .notified => host.Stands cfg { t with client := ⟨false⟩ } (k .notified)
  | .finished (.error e) => host.Stands cfg { t with client := ⟨false⟩ }
      (k (.finished (.error (.imap ("idle init: " ++ e)))))
  | .finished (.ok ()) => host.Stands cfg t (.call (.idle timeout) k)

/-- Where it is once IDLE has been woken. -/
def Host.Awoken (host : Host A E) (cfg : Settings) (t : Process) (timeout : Nat)
    (k : Selected (Except CoreError IdleEvent) → Program (Except CoreError Unit)) :
    Selected (Except String IdleResponse) →
      Assertion (SystemCall E) (SystemReply E) (SystemWorld E)
  | .notified => host.Stands cfg { t with client := ⟨false⟩ } (k .notified)
  | .finished _ => host.Stands cfg t (.call (.idle timeout) k)

/-- Where it is once DONE is sent. -/
def Host.Concluded (host : Host A E) (cfg : Settings) (t : Process)
    (k : Selected (Except CoreError IdleEvent) → Program (Except CoreError Unit))
    (result : Except String IdleResponse) :
    Selected (Except String Unit) → Assertion (SystemCall E) (SystemReply E) (SystemWorld E)
  | .notified => host.Stands cfg { t with client := ⟨false⟩ } (k .notified)
  | .finished done => host.Stands cfg { t with client := ⟨done.toBool⟩ } (k (.finished
      ((result.mapError fun e => .imap ("idle wait: " ++ e)).map IdleResponse.event)))

/-- IDLE takes the session, and puts it back after DONE. -/
theorem obeys_idle (hsession : t.client.session = true) :
    Obeys host.system (host.keeps cfg) (host.Stands cfg t (.call (.idle timeout) k))
      (onNet (t.client.idle timeout)) fun x =>
        host.Stands cfg { t with client := x.2 } (k x.1) := by
  have hgoing := stable_stands host cfg t (.call (.idle timeout) k)
  rw [AsyncImapClient.idle, if_neg (by simp [hsession]), onNet_bind]
  refine obeys_bind (M := host.Initiated cfg t timeout k) (obeys_ask .idleInit ?_ ?_) ?_
  · rintro (_ | e | ⟨⟩)
    · exact stable_stands host cfg _ _
    · exact stable_stands host cfg _ _
    · exact hgoing
  · rintro w' tr' (_ | e | ⟨⟩) v' hstands ⟨hpermit, rfl⟩
    · exact idle_notified (by simp) rfl hstands hpermit
    · exact idle_finished (by simp) rfl (by rintro _ ⟨⟩; exact ⟨_, rfl⟩) hstands hpermit
    · exact idle_goes_on rfl hstands
  rintro (_ | e | ⟨⟩)
  · exact obeys_onNet_ret (.notified, ⟨false⟩)
  · exact obeys_onNet_ret
      (.finished (.error (.imap ("idle init: " ++ e))), ⟨false⟩)
  change Obeys _ _ _ (onNet ((NetCall.idleWait timeout).ask >>= _)) _
  rw [onNet_bind]
  refine obeys_bind (M := host.Awoken cfg t timeout k) (obeys_ask (.idleWait timeout) ?_ ?_) ?_
  · rintro (_ | result)
    · exact stable_stands host cfg _ _
    · exact hgoing
  · rintro w' tr' (_ | result) v' hstands ⟨hpermit, rfl⟩
    · exact idle_notified (by simp) rfl hstands hpermit
    · exact idle_goes_on rfl hstands
  rintro (_ | result)
  · exact obeys_onNet_ret (.notified, ⟨false⟩)
  change Obeys _ _ _ (onNet (NetCall.idleDone.ask >>= _)) _
  rw [onNet_bind]
  refine obeys_bind (M := host.Concluded cfg t k result) (obeys_ask .idleDone ?_ ?_) ?_
  · rintro (_ | done) <;> exact stable_stands host cfg _ _
  · rintro w' tr' (_ | done) v' hstands ⟨hpermit, rfl⟩
    · exact idle_notified (by simp) rfl hstands hpermit
    · refine idle_finished (fun _ => hsession) rfl ?_ hstands hpermit
      rcases result with e | response
      · rintro _ ⟨⟩
        exact ⟨_, rfl⟩
      · rintro _ ⟨⟩
  · rintro (_ | done)
    · exact obeys_onNet_ret (.notified, ⟨false⟩)
    · exact obeys_onNet_ret (.finished ((result.mapError fun e =>
        .imap ("idle wait: " ++ e)).map IdleResponse.event), ⟨done.toBool⟩)

/-- IDLE is begun if there is no notification yet. -/
theorem answering_idle :
    host.Answering cfg (.idle timeout) k t
      (host.crates.handler account (.idle timeout) t) := by
  change host.Answering cfg (.idle timeout) k t
    (onNet (idleOrNotified t.client timeout) >>= fun x => .ret (x.1, { t with client := x.2 }))
  refine obeys_bind (M := fun x => host.Stands cfg { t with client := x.2 } (k x.1)) ?_
    fun x => obeys_ret (stable_stands host cfg _ _) fun _ _ h => h
  rw [idleOrNotified, onNet_bind]
  cases hsession : t.client.session with
  | true =>
    refine obeys_bind (M := fun taken => if taken then host.Stands cfg t (k .notified)
      else host.Stands cfg t (.call (.idle timeout) k)) (obeys_ask .notified ?_ ?_) ?_
    · rintro (_ | _) <;> exact stable_stands host cfg _ _
    · rintro w' tr' (_ | _) v' hstands ⟨hpermit, rfl⟩
      · exact idle_goes_on rfl hstands
      · exact idle_notified id rfl hstands hpermit
    · rintro (_ | _)
      · exact obeys_idle hsession
      · exact obeys_onNet_ret (.notified, t.client)
  | false =>
    refine obeys_bind (M := fun taken => if taken then host.Stands cfg t (k .notified)
      else host.Stands cfg { t with client := ⟨false⟩ }
        (k (.finished (.error (.imap "session not available"))))) (obeys_ask .notified ?_ ?_) ?_
    · rintro (_ | _) <;> exact stable_stands host cfg _ _
    · rintro w' tr' (_ | _) v' hstands ⟨hpermit, rfl⟩
      · exact idle_finished (by simp) rfl (by rintro _ ⟨⟩; exact ⟨_, rfl⟩) hstands hpermit
      · exact idle_notified id rfl hstands hpermit
    · rintro (_ | _)
      · rw [AsyncImapClient.idle, hsession]
        exact obeys_onNet_ret (.finished (.error (.imap "session not available")), ⟨false⟩)
      · exact obeys_onNet_ret (.notified, t.client)

end Idle

end ImapSieve
