import ImapSieve.Daemon.Drain

/-!
# The CONDSTORE Fast Path

The session setup stores the HIGHESTMODSEQ that SELECT reports, and the FETCH after it asks
for `CHANGEDSINCE` that value. So what was unprocessed at SELECT is hidden from the batch. No
other step hides anything: what arrives later gets a higher mod-sequence.

Where every SELECT that leads to a stored mod-sequence finds nothing above the bookmark
(`SelectsDrained`), nothing above the bookmark is ever hidden (`Revealed`), and the batches
are those of the plain path.
-/

namespace ImapSieve

open Effects

/-! ## Section 1: What CHANGEDSINCE shows -/

namespace Mailbox

variable {b b' : Mailbox} {u u' h n : Nat} {since since' : Option Nat} {l : List MessageContext}

/-- `CHANGEDSINCE h` shows every message above the bookmark, if there is one, and will show
what arrives. -/
def Shows (b : Mailbox) (h : Nat) (bookmark : Option Nat) : Prop :=
  h ≤ b.highestmodseq ∧ ∀ u ∈ bookmark, ∀ m ∈ b.messages, u < m.uid → h < m.modseq

theorem Shows.evolves {bookmark : Option Nat} (hshows : b.Shows h bookmark)
    (hevolves : b.Evolves b') : b'.Shows h bookmark := by
  refine ⟨hshows.1.trans hevolves.1, fun u hu m' hm' hlt => ?_⟩
  rcases hevolves.2 m' hm' with ⟨m, hm, huid, hle⟩ | hnew
  · exact (hshows.2 u hu m hm (huid ▸ hlt)).trans_le hle
  · exact hshows.1.trans_lt hnew

theorem Shows.mono (hshows : b.Shows h (some u)) (hle : u ≤ u') : b.Shows h (some u') := by
  refine ⟨hshows.1, fun v hv m hm hlt => ?_⟩
  cases hv
  exact hshows.2 u rfl m hm (hle.trans_lt hlt)

/-- The first `n` messages of an answer to the FETCH may be `l` above the bookmark `u`, in
this order. -/
def Yields (b : Mailbox) (u : Nat) (since : Option Nat) (n : Nat) (l : List MessageContext) :
    Prop :=
  ∃ reply, b.Fetched (MessageProcessor.startUid u) since reply ∧
    l = (reply.take n).filter fun msg => u < msg.uid

/-- With no mail above the bookmark an answer yields none. -/
theorem yields_of_none_above (hnone : ∀ m, m ∉ b.above u) : b.Yields u since n l ↔ l = [] := by
  have hfilter : ∀ reply, b.Fetched (MessageProcessor.startUid u) since reply →
      ((reply.take n).filter fun msg => u < msg.uid) = [] := by
    intro reply hfetched
    refine List.filter_eq_nil_iff.mpr fun msg hmsg hlt => ?_
    obtain ⟨m, hm, rfl⟩ := mem_of_fetched hfetched (List.mem_of_mem_take hmsg)
    exact hnone m (mem_above.mpr ⟨List.mem_of_mem_filter hm, of_decide_eq_true hlt⟩)
  constructor
  · rintro ⟨reply, hfetched, rfl⟩
    exact hfilter reply hfetched
  · rintro rfl
    have hfetched : b.Fetched (MessageProcessor.startUid u) since
        ((b.fetch (MessageProcessor.startUid u) since).map StoredMessage.toContext) :=
      .inl (.refl _)
    exact ⟨_, hfetched, (hfilter _ hfetched).symm⟩

/-- Two FETCHes that hide nothing above the bookmark yield the same. -/
theorem yields_iff (hvisible : b.Visible u since) (hvisible' : b.Visible u since') :
    b.Yields u since n l ↔ b.Yields u since' n l := by
  by_cases habove : ∃ m, m ∈ b.above u
  · obtain ⟨m, hm⟩ := habove
    simp only [Yields, hvisible.fetched_iff hm, hvisible'.fetched_iff hm]
  · have hnone : ∀ m, m ∉ b.above u := fun m hm => habove ⟨m, hm⟩
    rw [yields_of_none_above hnone, yields_of_none_above hnone]

end Mailbox

/-- A stored mod-sequence shows every message of the mailbox above the bookmark. -/
def Server.Shows (s : Server) (name : String) (modseq bookmark : Option Nat) : Prop :=
  ∀ h ∈ modseq, ∃ b ∈ s.box name, b.Shows h bookmark

section Shows

variable {s s' : Server} {name : String} {modseq : Option Nat} {u u' : Nat}

theorem Server.Shows.evolves {bookmark : Option Nat} (hshows : s.Shows name modseq bookmark)
    (hevolves : s.Evolves s' name) : s'.Shows name modseq bookmark := by
  intro h hh
  obtain ⟨b, hb, hshows⟩ := hshows h hh
  obtain ⟨b', hb', hevolves⟩ := hevolves b hb
  exact ⟨b', hb', hshows.evolves hevolves⟩

theorem Server.Shows.mono (hshows : s.Shows name modseq (some u)) (hle : u ≤ u') :
    s.Shows name modseq (some u') := by
  intro h hh
  obtain ⟨b, hb, hshows⟩ := hshows h hh
  exact ⟨b, hb, hshows.mono hle⟩

/-- A bookmark that is still missing is no condition. -/
theorem Server.Shows.of_getD {bookmark : Option Nat} {seed : Nat}
    (hshows : s.Shows name modseq (some (bookmark.getD seed))) : s.Shows name modseq bookmark := by
  cases bookmark with
  | some u => exact hshows
  | none =>
    intro h hh
    obtain ⟨b, hb, hle, -⟩ := hshows h hh
    exact ⟨b, hb, hle, by simp⟩

end Shows

/-! ## Section 2: The server and the condition on SELECT -/

/-- SELECT reports no mod-sequence or the highest one of the mailbox, and UIDs are 32-bit
numbers. -/
def CondstoreServer (w : World) : (c : Call) → Reply c → World → Prop
  | .select mailbox, .ok status, _ => ∀ h ∈ status.highestmodseq,
      ∃ box ∈ w.server.box mailbox, h = box.highestmodseq
  | .fetchUidRange _ _ _, _, _ => ∀ box ∈ w.box, ∀ m ∈ box.messages, m.uid < 2 ^ 32
  | _, _, _ => True

/-- The bookmark of a session that begins with the state: the stored one, or the seed. -/
def MailboxStatus.bookmark (status : MailboxStatus) (state : State) : Nat :=
  state.lastSeenUid.getD (status.uidnext - 1)

/-- The session that begins with the status passes the check of UIDVALIDITY. -/
def MailboxStatus.Passes (status : MailboxStatus) (state : State) : Prop :=
  ∀ cached ∈ state.uidvalidity, cached = status.uidvalidity

/-- The condition on SELECT: when the mod-sequence or the bookmark to go by is new, there is
no message above the bookmark. -/
def SelectsDrained (w : World) : (c : Call) → Reply c → World → Prop
  | .select mailbox, .ok status, _ => status.Passes w.memory →
      (status.highestmodseq.isSome ∨
        w.memory.highestmodseq.isSome ∧ w.memory.lastSeenUid = none) →
      ∀ box ∈ w.server.box mailbox, ∀ m ∈ box.messages, m.uid ≤ status.bookmark w.memory
  | _, _, _ => True

instance (w : World) (c : Call) (r : Reply c) (w' : World) :
    Decidable (CondstoreServer w c r w') :=
  match c, r with
  | .select _, .ok status => inferInstanceAs (Decidable (∀ h ∈ status.highestmodseq, _))
  | .fetchUidRange _ _ _, _ =>
      inferInstanceAs (Decidable (∀ box ∈ w.box, ∀ m ∈ box.messages, _))
  | .select _, .error _ | .connect, _ | .sleep _, _ | .genRange _, _ | .capabilities, _
  | .command _, _ | .idle _, _ | .send _, _ | .stamp, _ | .state, _ | .update _, _
  | .currentScript, _ | .evaluate _ _, _ | .deleting _, _ | .executed _ _, _ => isTrue trivial

instance (status : MailboxStatus) (state : State) : Decidable (status.Passes state) :=
  inferInstanceAs (Decidable (∀ cached ∈ state.uidvalidity, _))

instance (w : World) (c : Call) (r : Reply c) (w' : World) :
    Decidable (SelectsDrained w c r w') :=
  match c, r with
  | .select mailbox, .ok _ =>
      inferInstanceAs (Decidable (_ → _ → ∀ box ∈ w.server.box mailbox, _))
  | .select _, .error _ | .connect, _ | .sleep _, _ | .genRange _, _ | .capabilities, _
  | .fetchUidRange _ _ _, _ | .command _, _ | .idle _, _ | .send _, _ | .stamp, _ | .state, _
  | .update _, _ | .currentScript, _ | .evaluate _ _, _ | .deleting _, _ | .executed _ _, _ =>
      isTrue trivial

/-- Runs against a server with mod-sequences. -/
def condstoreWorld (cfg : Settings) : Surroundings Call Reply World :=
  daemonWorld.under
    { call := CondstoreServer, drift := fun w w' => w.server.Evolves w'.server cfg.mailbox }

/-- Runs in which, moreover, nothing is pending at a SELECT. -/
def drainedWorld (cfg : Settings) : Surroundings Call Reply World :=
  daemonWorld.under
    { call := fun w c r w' => CondstoreServer w c r w' ∧ SelectsDrained w c r w'
      drift := fun w w' => w.server.Evolves w'.server cfg.mailbox }

/-! ## Section 3: Nothing is hidden -/

/-- What is about to be stored hides nothing. -/
def Phase.Reveals (cfg : Settings) (w : World) : Phase → Prop
  | .selected s => s.status.Passes w.memory →
      w.server.Shows cfg.mailbox (s.status.highestmodseq <|> w.memory.highestmodseq)
        (some (s.status.bookmark w.memory))
  | .checked s =>
      w.server.Shows cfg.mailbox (s.status.highestmodseq <|> w.memory.highestmodseq)
        (some (s.status.bookmark w.memory))
  | .validated s | .seeding s =>
      w.server.Shows cfg.mailbox w.memory.highestmodseq (some (s.status.bookmark w.memory))
  | _ => True

/-- Neither what is stored nor what is about to be hides a message above the bookmark. -/
structure Revealed (cfg : Settings) (w : World) (ph : Phase) : Prop where
  memory : w.server.Shows cfg.mailbox w.memory.highestmodseq w.memory.lastSeenUid
  disk : w.server.Shows cfg.mailbox w.disk.highestmodseq w.disk.lastSeenUid
  phase : ph.Reveals cfg w

section Revealed

variable {cfg : Settings} {ph : Phase} {w w' : World} {tr : History} {c : Call} {r : Reply c}

theorem Phase.Reveals.evolves (h : ph.Reveals cfg w)
    (hevolves : w.server.Evolves w'.server cfg.mailbox) (hmemory : w'.memory = w.memory) :
    ph.Reveals cfg w' := by
  cases ph with
  | selected s =>
    intro hpasses
    rw [hmemory] at hpasses ⊢
    exact (h hpasses).evolves hevolves
  | checked s =>
    rw [Phase.Reveals, hmemory]
    exact Server.Shows.evolves h hevolves
  | validated s =>
    rw [Phase.Reveals, hmemory]
    exact Server.Shows.evolves h hevolves
  | seeding s =>
    rw [Phase.Reveals, hmemory]
    exact Server.Shows.evolves h hevolves
  | _ => trivial

/-- Calls let the monitored mailbox evolve. -/
theorem World.Answers.evolves (hans : w.Answers c r w') (name : String) :
    w.server.Evolves w'.server name :=
  hans.keepsBox Mailbox.lasting_evolves name

/-- Every update stores a state that hides nothing. -/
theorem shows_apply (h : Revealed cfg w ph) (hsound : ph.Sound cfg w tr) {change : StateChange}
    (hallow : ph.Allows cfg (.update change)) :
    w.server.Shows cfg.mailbox (change.apply w.memory).highestmodseq
      (change.apply w.memory).lastSeenUid := by
  cases hallow with
  | persist s => exact Server.Shows.of_getD h.phase
  | seed s =>
    have hphase := h.phase
    rw [Phase.Reveals, MailboxStatus.bookmark, hsound.2, Option.getD_none] at hphase
    exact hphase
  | perform hnext =>
    cases ofOp_of_nextCall hnext
  | advance b done msg rest =>
    have hmemory := h.memory
    rw [hsound.1.bookmark] at hmemory
    rw [apply_advance_highestmodseq, apply_advance_lastSeenUid, hsound.1.bookmark]
    exact hmemory.mono (le_max_right _ _)

/-- A SELECT that the condition admits leads to a mod-sequence that hides nothing. -/
theorem shows_of_select {status : MailboxStatus}
    (hmemory : w.server.Shows cfg.mailbox w.memory.highestmodseq w.memory.lastSeenUid)
    (hserver : CondstoreServer w (.select cfg.mailbox) (.ok status) w')
    (hdrained : SelectsDrained w (.select cfg.mailbox) (.ok status) w')
    (hpasses : status.Passes w.memory) :
    w.server.Shows cfg.mailbox (status.highestmodseq <|> w.memory.highestmodseq)
      (some (status.bookmark w.memory)) := by
  intro h hh
  cases hstatus : status.highestmodseq with
  | some h₀ =>
    -- a new value is of this moment: SELECT has found nothing above the bookmark
    rw [hstatus] at hh
    cases hh
    obtain ⟨box, hbox, rfl⟩ := hserver h hstatus
    refine ⟨box, hbox, le_rfl, fun u hu m hm hlt => ?_⟩
    cases hu
    have hle := hdrained hpasses (.inl (by rw [hstatus]; rfl)) box hbox m hm
    exact absurd hlt (Nat.not_lt.mpr hle)
  | none =>
    -- the old value stays, and so does what it shows
    rw [hstatus] at hh
    replace hh : w.memory.highestmodseq = some h := hh
    obtain ⟨box, hbox, hshows⟩ := hmemory h hh
    refine ⟨box, hbox, hshows.1, fun u hu m hm hlt => ?_⟩
    cases hu
    cases hseen : w.memory.lastSeenUid with
    | some u =>
      rw [MailboxStatus.bookmark, hseen] at hlt
      exact hshows.2 u hseen m hm hlt
    | none =>
      have hle := hdrained hpasses (.inr ⟨by rw [hh]; rfl, hseen⟩) box hbox m hm
      exact absurd hlt (Nat.not_lt.mpr hle)

/-- No call hides a message, if SELECT finds nothing above the bookmark. -/
theorem reveals_next (h : Revealed cfg w ph) (hallow : ph.Allows cfg c) (hans : w.Answers c r w')
    (hserver : CondstoreServer w c r w') (hdrained : SelectsDrained w c r w') :
    (ph.next cfg w c r).Reveals cfg w' := by
  have hmoves := moves_next (w := w) (r := r) hallow
  generalize ph.next cfg w c r = ph' at hmoves ⊢
  cases hmoves with
  | selected status =>
    have hshows := shows_of_select h.memory hserver hdrained
    cases hans
    exact hshows
  | checked hmatch =>
    obtain ⟨rfl, rfl⟩ := hans
    exact h.phase hmatch
  | validated s =>
    have hphase := h.phase
    cases hans
    exact hphase
  | unseeded hnone =>
    obtain ⟨rfl, rfl⟩ := hans
    exact h.phase
  | taken script =>
    generalize List.take _ _ = msgs
    cases msgs <;> trivial
  | @advanced b done msg rest => cases rest <;> trivial
  | _ => trivial

theorem revealed_call (h : Revealed cfg w ph) (hsound : ph.Sound cfg w tr)
    (hallow : ph.Allows cfg c) (hans : w.Answers c r w') (hserver : CondstoreServer w c r w')
    (hdrained : SelectsDrained w c r w') : Revealed cfg w' (ph.next cfg w c r) := by
  have hphase := reveals_next h hallow hans hserver hdrained
  have hevolves := hans.evolves cfg.mailbox
  by_cases hupdate : ∃ change, c = .update change
  · obtain ⟨change, rfl⟩ := hupdate
    have hmemory := (shows_apply h hsound hallow).evolves hevolves
    obtain ⟨-, -, heq, ⟨-, hdisk⟩ | ⟨-, hdisk⟩⟩ := hans.update
    · exact ⟨heq ▸ hmemory, by rw [hdisk, heq]; exact hmemory, hphase⟩
    · exact ⟨heq ▸ hmemory, hdisk ▸ h.disk.evolves hevolves, hphase⟩
  · obtain ⟨hmemory, hdisk⟩ := hans.stored fun change hc => hupdate ⟨change, hc⟩
    exact ⟨hmemory ▸ h.memory.evolves hevolves, hdisk ▸ h.disk.evolves hevolves, hphase⟩

end Revealed

section Runs

variable {cfg : Settings} {w₀ w : World} {tr : History}

/-- Where nothing is pending at a SELECT, nothing is ever hidden. -/
theorem revealed_of_comes (hfresh : w₀.Fresh) (hx : Comes (drainedWorld cfg) cfg w₀ w tr) :
    Revealed cfg w (phaseOf cfg tr) := by
  refine daemon_invariant (I := fun w tr => Revealed cfg w (phaseOf cfg tr)) hx ?_ ?_ ?_ ?_
  · have hempty : w₀.server.Shows cfg.mailbox none none := by simp [Server.Shows]
    refine ⟨?_, ?_, trivial⟩
    · rw [hfresh.1]
      exact hempty
    · rw [hfresh.2]
      exact hempty
  · intro w tr c r w' hat h hallow hans
    exact revealed_call h (daemon_sound (admissible_under _) hat) hallow hans.1 hans.2.1 hans.2.2
  · rintro w w' tr - ⟨hmemory, hdisk, hphase⟩ hdrift
    refine ⟨?_, ?_, hphase.evolves hdrift.2 hdrift.1.memory⟩
    · rw [hdrift.1.memory]
      exact hmemory.evolves hdrift.2
    · rw [hdrift.1.disk]
      exact hdisk.evolves hdrift.2
  · rintro w w' tr - h ⟨rfl, -⟩
    exact ⟨h.disk, h.disk, trivial⟩

/-! ## Section 4: The fast path and the plain path -/

/-- At a FETCH from the bookmark, CHANGEDSINCE makes no difference to what is received above
the bookmark, nor to any first part of it, in order. -/
def FastPathAgrees (w : World) (c : Call) (_ : Reply c) (_ : History) : Prop :=
  ∀ mailbox start since, c = .fetchUidRange mailbox start since →
    ∃ u, w.memory.lastSeenUid = some u ∧ start = MessageProcessor.startUid u ∧
      ∀ box ∈ w.box, ∀ n l, box.Yields u since n l ↔ box.Yields u none n l

theorem visible_none {box : Mailbox} (hbound : ∀ m ∈ box.messages, m.uid < 2 ^ 32) (u : Nat) :
    box.Visible u none :=
  fun m hm => ⟨hbound m (Mailbox.mem_above.mp hm).1, rfl⟩

/-- The lower bound of a session hides nothing if the stored one does not. -/
theorem visible_of_shows {box : Mailbox} (hbound : ∀ m ∈ box.messages, m.uid < 2 ^ 32) {u : Nat}
    (hshows : w.server.Shows cfg.mailbox w.memory.highestmodseq (some u))
    (hbox : w.server.box cfg.mailbox = some box) (caps : Capabilities) :
    box.Visible u ((cfg.processor caps).changedSince w.memory) := by
  intro m hm
  obtain ⟨hmem, hlt⟩ := Mailbox.mem_above.mp hm
  refine ⟨hbound m hmem, ?_⟩
  rw [MessageProcessor.changedSince]
  split
  · cases hmodseq : w.memory.highestmodseq with
    | none => rfl
    | some h =>
      obtain ⟨box', hbox', hshows⟩ := hshows h hmodseq
      rw [hbox] at hbox'
      cases hbox'
      exact decide_eq_true (hshows.2 u rfl m hmem hlt)
  · rfl

/-- Before a FETCH the two paths agree. -/
theorem yields_iff_of_comes (hfresh : w₀.Fresh) (hx : Comes (drainedWorld cfg) cfg w₀ w tr)
    {s : Session} {u : Nat} (hph : phaseOf cfg tr = .ranged s w.memory u) {box : Mailbox}
    (hbox : w.box = some box) (hbound : ∀ m ∈ box.messages, m.uid < 2 ^ 32) (n : Nat)
    (l : List MessageContext) :
    box.Yields u ((cfg.processor s.caps).changedSince w.memory) n l ↔ box.Yields u none n l := by
  have hsound := daemon_sound (admissible_under _) hx
  have hmemory := (revealed_of_comes hfresh hx).memory
  rw [hph] at hsound
  obtain ⟨hlive, -, hbookmark⟩ := hsound
  rw [World.box, hlive.selected, Option.bind_some] at hbox
  rw [hbookmark] at hmemory
  exact Mailbox.yields_iff (visible_of_shows hbound hmemory hbox s.caps) (visible_none hbound u)

theorem fastPathAgrees_of_comes (hfresh : w₀.Fresh) (hx : Comes (drainedWorld cfg) cfg w₀ w tr) :
    Along FastPathAgrees tr := by
  refine daemon_along hx ?_
  rintro w tr c r w' hat hallow hans mailbox start since rfl
  have hsound := daemon_sound (admissible_under _) hat
  obtain ⟨s, state, u, hph, -, rfl, rfl⟩ := ranged_of_fetch hallow
  rw [hph] at hsound
  obtain ⟨-, rfl, hbookmark⟩ := hsound
  exact ⟨u, hbookmark, rfl, fun box hbox =>
    yields_iff_of_comes hfresh hat hph hbox (hans.2.1 box hbox)⟩

/-- The plain path could have given what was received above the bookmark. -/
def Fetch.Agrees (f : Fetch) : Prop :=
  ∃ box ∈ f.snapshot.box, f.snapshot.memory.lastSeenUid = some f.bookmark ∧
    ∀ n, box.Yields f.bookmark none n ((f.reply.take n).filter fun msg => f.bookmark < msg.uid)

theorem agrees_of_comes (hfresh : w₀.Fresh) (hx : Comes (drainedWorld cfg) cfg w₀ w tr)
    {f : Fetch} (hf : (phaseOf cfg tr).known.fetch? = some f) : f.Agrees := by
  refine daemon_fetch (F := Fetch.Agrees) (admissible_under _) hx ?_ hf
  intro w tr s u reply w' hat hph hans
  have hsound := daemon_sound (admissible_under _) hat
  rw [hph] at hsound
  obtain ⟨⟨box, hbox, hfetched⟩, -⟩ := hans.1
  refine ⟨box, hbox, hsound.2.2, fun n => ?_⟩
  exact (yields_iff_of_comes hfresh hat hph hbox (hans.2.1 box hbox) n _).mp ⟨reply, hfetched, rfl⟩

end Runs

/-! ## Section 5: What a batch processes -/

/-- Since the latest FETCH the first messages of its answer were executed, in order. -/
def Took (cfg : Settings) (F : Fetch → Prop) (tr : History) : Prop :=
  ∀ snapshot ∈ lastFetch tr, ∃ f : Fetch, F f ∧ f.snapshot = snapshot ∧
    ∃ n ≤ cfg.batchSize, (executedUids (sinceFetch tr)).reverse =
      (f.reply.take n).map MessageContext.uid

section Took

variable {S : Surroundings Call Reply World} {cfg : Settings} {F : Fetch → Prop} {ph : Phase}
  {w₀ w w' : World} {tr : History} {c : Call} {r : Reply c}

theorem taken_enter (b : Batch) (done rest : List MessageContext) :
    (Phase.enter b done rest).taken = done := by
  cases rest <;> rfl

/-- Within a batch only the success of `execute` adds to what the batch has taken. -/
theorem taken_next (hallow : ph.Allows cfg c) (hfetch : c.isFetch = false)
    (hexecuted : ∀ uid, c ≠ .executed uid (.ok ()))
    (hsome : (ph.next cfg w c r).known.fetch?.isSome) :
    (ph.next cfg w c r).taken = ph.taken := by
  have hmoves := moves_next (w := w) (r := r) hallow
  generalize ph.next cfg w c r = ph' at hmoves hsome ⊢
  cases hmoves with
  | fetched reply => cases hfetch
  | taken script => exact taken_enter _ _ _
  | evaluated actions => rfl
  | unevaluated e => rfl
  | performed hnext => rfl
  | executed => exact absurd rfl (hexecuted _)
  | unexecuted e => rfl
  | advanced => exact taken_enter _ _ _
  | _ => cases hsome

/-- What a batch has taken are the first messages of the answer. -/
theorem taken_eq_take (hsound : ph.Sound cfg w tr) {f : Fetch}
    (hf : ph.known.fetch? = some f) :
    lastFetch tr = some f.snapshot ∧ ∃ n ≤ cfg.batchSize, ph.taken = f.reply.take n := by
  -- a prefix of the batch is one of the answer
  have hfirst : ∀ {b : Batch} {taken rest : List MessageContext},
      taken ++ rest = b.messages cfg → ∃ n ≤ cfg.batchSize, taken = b.reply.take n := by
    intro b taken rest hmessages
    refine ⟨min taken.length cfg.batchSize, min_le_right _ _, ?_⟩
    rw [← List.take_take, ← Batch.messages, ← hmessages, List.take_left]
  cases ph with
  | fetched f' =>
    cases hf
    exact ⟨hsound.2.2.2, 0, Nat.zero_le _, rfl⟩
  | evaluating b done msg rest =>
    cases hf
    exact ⟨Batch.At.last hsound, hfirst (Batch.At.messages hsound)⟩
  | executing b done msg rest actions ops =>
    cases hf
    exact ⟨hsound.1.last, hfirst hsound.1.messages⟩
  | advancing b done msg rest =>
    cases hf
    have hmessages : (done ++ [msg]) ++ rest = b.messages cfg := by
      rw [List.append_assoc]
      exact hsound.1.messages
    exact ⟨hsound.1.last, hfirst hmessages⟩
  | idling b done allOk =>
    cases hf
    obtain ⟨rest, hat, -⟩ := hsound
    exact ⟨hat.last, hfirst hat.messages⟩
  | _ => cases hf

/-- A batch executes the messages that it takes, in order. -/
theorem executed_eq_taken (hx : Comes S cfg w₀ w tr) :
    (phaseOf cfg tr).known.fetch?.isSome →
      (executedUids (sinceFetch tr)).reverse = (phaseOf cfg tr).taken.map MessageContext.uid := by
  refine daemon_invariant (I := fun _ tr => (phaseOf cfg tr).known.fetch?.isSome →
      (executedUids (sinceFetch tr)).reverse = (phaseOf cfg tr).taken.map MessageContext.uid) hx
    ?_ ?_ (fun _ _ _ _ h _ => h) ?_
  · intro hsome
    cases hsome
  · intro w tr c r w' _ h hallow _ hsome
    rw [phaseOf_called] at hsome ⊢
    cases hfetch : c.isFetch with
    | true =>
      -- an answered FETCH begins a batch that has taken nothing yet
      generalize phaseOf cfg tr = ph at hallow hsome
      cases hallow with
      | fetch s state bookmark =>
        rcases r with e | reply
        · cases hsome
        · rfl
      | perform hnext =>
        rw [isFetch_of_nextCall hnext] at hfetch
        cases hfetch
      | _ => cases hfetch
    | false =>
      -- within a batch
      have hbatch : (phaseOf cfg tr).known.fetch?.isSome := by
        have hlearns := learns_next (w := w) (r := r) hallow
        generalize ((phaseOf cfg tr).next cfg w c r).known = k at hlearns hsome
        cases hlearns with
        | same hc => exact hsome
        | fetch reply hph => cases hfetch
        | _ => cases hsome
      rw [sinceFetch_called hfetch]
      by_cases hexecuted : ∃ uid, c = .executed uid (.ok ())
      -- the success of an execution adds its message on both sides
      · obtain ⟨uid, rfl⟩ := hexecuted
        obtain ⟨b, done, msg, rest, actions, ops, hph, rfl, -⟩ := executing_of_executed hallow
        rw [hph] at h ⊢
        change (msg.uid :: executedUids (sinceFetch tr)).reverse =
          (done ++ [msg]).map MessageContext.uid
        rw [List.reverse_cons, h rfl, List.map_append]
        rfl
      -- no other call adds to either side
      · rw [taken_next hallow hfetch (fun uid hc => hexecuted ⟨uid, hc⟩) hsome, ← h hbatch]
        rcases executedUids_called w c r (sinceFetch tr) with heq | ⟨uid, hc, -⟩
        · rw [heq]
        · exact absurd ⟨uid, hc⟩ hexecuted
  · intro w w' tr _ _ _ hsome
    cases hsome

theorem took_of_batch {f : Fetch} (hF : F f) (hsound : ph.Sound cfg w tr)
    (hf : ph.known.fetch? = some f)
    (hexecuted : (executedUids (sinceFetch tr)).reverse = ph.taken.map MessageContext.uid) :
    Took cfg F tr := by
  intro snapshot hsnapshot
  obtain ⟨hlast, n, hn, htaken⟩ := taken_eq_take hsound hf
  rw [hlast] at hsnapshot
  cases hsnapshot
  exact ⟨f, hF, rfl, n, hn, by rw [hexecuted, htaken]⟩

theorem Took.called (h : Took cfg F tr) (hfetch : answersFetch (.called w c r) = false)
    (hexecuted : ∀ uid, c ≠ .executed uid (.ok ())) : Took cfg F (.called w c r :: tr) := by
  intro snapshot hsnapshot
  rw [lastFetch, if_neg (by rw [hfetch]; exact Bool.false_ne_true)] at hsnapshot
  obtain ⟨f, hF, hf, n, hn, heq⟩ := h snapshot hsnapshot
  refine ⟨f, hF, hf, n, hn, ?_⟩
  rw [← heq, sinceFetch, List.takeWhile_cons_of_pos (by rw [hfetch]; rfl)]
  rcases executedUids_called w c r (sinceFetch tr) with hsame | ⟨uid, hc, -⟩
  · exact congrArg List.reverse hsame
  · exact absurd hc (hexecuted uid)

/-- A call that does not lead into a batch answers no FETCH and reports no success. -/
theorem outside_of_next (hallow : ph.Allows cfg c)
    (hnone : (ph.next cfg w c r).known.fetch? = none) :
    answersFetch (.called w c r) = false ∧ ∀ uid, c ≠ .executed uid (.ok ()) := by
  refine ⟨?_, ?_⟩
  · cases hfetch : c.isFetch with
    | false => exact answersFetch_of_not_isFetch hfetch
    | true =>
      cases hallow with
      | fetch s state bookmark =>
        rcases r with e | reply
        · rfl
        · cases hnone
      | perform hnext =>
        rw [isFetch_of_nextCall hnext] at hfetch
        cases hfetch
      | _ => cases hfetch
  · rintro uid rfl
    obtain ⟨b, done, msg, rest, actions, ops, rfl, -, -⟩ := executing_of_executed hallow
    cases hnone

/-- The batches of a run execute the first messages of the answers to their FETCHes. -/
theorem took_of_comes (hS : Admissible S)
    (hF : ∀ {w tr f}, Comes S cfg w₀ w tr → (phaseOf cfg tr).known.fetch? = some f → F f)
    (hx : Comes S cfg w₀ w tr) : Took cfg F tr := by
  -- inside of a batch, from what it has taken
  have hinside : ∀ {w tr f}, Comes S cfg w₀ w tr → (phaseOf cfg tr).known.fetch? = some f →
      Took cfg F tr := fun hat hf =>
    took_of_batch (hF hat hf) (daemon_sound hS hat) hf (executed_eq_taken hat (by rw [hf]; rfl))
  have houtside : (phaseOf cfg tr).known.fetch? = none → Took cfg F tr := by
    refine daemon_invariant (I := fun _ tr => (phaseOf cfg tr).known.fetch? = none →
      Took cfg F tr) hx ?_ ?_ (fun _ _ _ _ h _ => h) ?_
    · intro _ snapshot hsnapshot
      cases hsnapshot
    · intro w tr c r w' hat h hallow _ hnone
      obtain ⟨hfetch, hexecuted⟩ := outside_of_next hallow hnone
      refine Took.called ?_ hfetch hexecuted
      cases hf : (phaseOf cfg tr).known.fetch? with
      | none => exact h hf
      | some f => exact hinside hat hf
    · intro w w' tr hat h _ _ snapshot hsnapshot
      cases hf : (phaseOf cfg tr).known.fetch? with
      | none => exact h hf snapshot hsnapshot
      | some f => exact hinside hat hf snapshot hsnapshot
  cases hf : (phaseOf cfg tr).known.fetch? with
  | none => exact houtside hf
  | some f => exact hinside hx hf

end Took

/-- The CONDSTORE fast path agrees with the plain path, where nothing is pending at a SELECT
that leads to a stored mod-sequence. Before every FETCH, with `CHANGEDSINCE` or without it, the
same messages above the bookmark are received, and the same are among the first `n`; and what
the batch of the latest FETCH has executed above the bookmark, the plain path may have, too. -/
theorem condstore_agrees (cfg : Settings) (w₀ : World) (hfresh : w₀.Fresh)
    (x : Config Call Reply World (Except CoreError Unit))
    (hx : Reachable (drainedWorld cfg) (Supervisor.run cfg) w₀ x) :
    Along FastPathAgrees x.trace ∧
      ∀ snapshot ∈ lastFetch x.trace, ∃ box ∈ snapshot.box, ∃ u,
        snapshot.memory.lastSeenUid = some u ∧ ∃ n ≤ cfg.batchSize, ∃ l,
          box.Yields u none n l ∧
            (executedUids (sinceFetch x.trace)).reverse.filter (fun uid => u < uid) =
              l.map MessageContext.uid := by
  refine ⟨fastPathAgrees_of_comes hfresh hx.visits, fun snapshot hsnapshot => ?_⟩
  have htook : Took cfg Fetch.Agrees x.trace :=
    took_of_comes (admissible_under _) (fun hat hf => agrees_of_comes hfresh hat hf) hx.visits
  obtain ⟨f, ⟨box, hbox, hseen, hyields⟩, rfl, n, hn, heq⟩ := htook snapshot hsnapshot
  refine ⟨box, hbox, f.bookmark, hseen, n, hn, _, hyields n, ?_⟩
  rw [heq, List.filter_map]
  rfl

/-- The first session of a server with CONDSTORE, up to IDLE on an empty mailbox. -/
def emptyRun : Config Call Reply World (Except CoreError Unit) :=
  sampleDaemon { idle := true, condstore := true } 10 (sampleWorld (sampleServer 0) .done) 13

/-- A message arrives during IDLE. -/
def shownRun (n : Nat) : Config Call Reply World (Except CoreError Unit) :=
  resume { idle := true, condstore := true } (sampleServer 1) emptyRun n

/-- What arrives during IDLE is shown by `CHANGEDSINCE`. -/
theorem condstore_agrees_arrival : Along FastPathAgrees (shownRun 8).trace :=
  (condstore_agrees (sampleSettings 10) (sampleWorld (sampleServer 0) .done) ⟨rfl, rfl⟩
    (shownRun 8) (reachable_resume (reachable_sampleDaemon 10 _ (by decide)) (sampleServer 1)
      (by decide) (by decide))).1

/-- A message arrives while the daemon is down. -/
def missedRun (n : Nat) : Config Call Reply World (Except CoreError Unit) :=
  resume { idle := true, condstore := true } (sampleServer 1)
    ⟨Supervisor.run (sampleSettings 10), emptyRun.world.restart,
      .restarted emptyRun.world :: emptyRun.trace⟩ n

/-- The mailbox after the arrival. -/
def missedBox : Mailbox := Mailbox.empty.append [] sampleContent

/-- What arrives between shutdown and restart is hidden: the new session stores the mod-sequence
of the message itself before it asks what changed since. -/
theorem not_condstore_agrees :
    ∃ x, Reachable (condstoreWorld (sampleSettings 10)) (Supervisor.run (sampleSettings 10))
        (sampleWorld (sampleServer 0) .done) x ∧
      (sampleWorld (sampleServer 0) .done).Fresh ∧ ¬ Along FastPathAgrees x.trace := by
  refine ⟨missedRun 10, ?_, ⟨rfl, rfl⟩, fun halong => ?_⟩
  · refine reachable_resume (Reachable.restart ?_ ⟨rfl, trivial⟩) (sampleServer 1) (by decide)
      (by decide)
    exact reachable_sampleDaemon 10 _ (by decide)
  · obtain ⟨u, hseen, -, hagree⟩ := halong _ (.fetchUidRange _ _ _) _ _ List.suffix_rfl _ _ _ rfl
    have hseen' : (missedRun 9).world.memory.lastSeenUid = some 0 := by decide
    cases hseen.symm.trans hseen'
    have hplain : missedBox.Yields 0 none 1
        [StoredMessage.toContext ⟨1, 2, [], sampleContent⟩] := ⟨_, .inl (.refl _), by decide⟩
    obtain ⟨reply, hfetched, hreply⟩ := (hagree missedBox rfl 1 _).mpr hplain
    have hnil : reply = [] := by
      rcases hfetched with hperm | hperm <;> exact List.perm_nil.mp hperm
    rw [hnil] at hreply
    cases hreply

end ImapSieve
