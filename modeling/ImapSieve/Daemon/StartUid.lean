import ImapSieve.Daemon.Ownership

/-!
# Where a FETCH Starts

A batch fetches from `uid + 1` on, in `u32`, where `uid` is the bookmark. The seeding stays
below the largest UID, since it is one below UIDNEXT; an update of the bookmark stays below it
unless the message has that UID. Nothing else sets a bookmark, and a restart only brings an
older one back. So the start does not wrap, whatever the server does, until the bookmark is
advanced for the last UID there can be.
-/

namespace ImapSieve

open Effects

/-! ## Section 1: A server of which nothing is known -/

/-- The state in memory and the one on disk are left alone. -/
structure World.SameStorage (w w' : World) : Prop where
  memory : w'.memory = w.memory
  disk : w'.disk = w.disk

/-- The server and all others do as they like, in 32-bit numbers; only the state store is what
it is. -/
def World.AnswersAny (w : World) : (c : Call) → Reply c → World → Prop
  | .select _, .ok status, w' => status.uidnext < 2 ^ 32 ∧ w.SameStorage w'
  | .fetchUidRange _ _ _, .ok messages, w' =>
      (∀ msg ∈ messages, msg.uid < 2 ^ 32) ∧ w.SameStorage w'
  | .state, state, w' => state = w.memory ∧ w.SameStorage w'
  | .update change, .ok (), w' =>
      w'.memory = change.apply w.memory ∧ w'.disk = change.apply w.memory
  | .update change, .error _, w' => w'.memory = change.apply w.memory ∧ w'.disk = w.disk
  | _, _, w' => w.SameStorage w'

/-- What the daemon runs against when nothing is known of the server. -/
def anyServer : Surroundings Call Reply World where
  answers := World.AnswersAny
  drifts := World.SameStorage
  restarts w w' := w'.memory = w.disk ∧ w'.disk = w.disk

/-- The UIDs and UIDNEXT of the reply have 32 bits. -/
def Fits32 : (c : Call) → Reply c → Prop
  | .select _, .ok status => status.uidnext < 2 ^ 32
  | .fetchUidRange _ _ _, .ok messages => ∀ msg ∈ messages, msg.uid < 2 ^ 32
  | _, _ => True

section Answers

variable {w w' : World} {c : Call} {r : Reply c}

/-- An answer changes the storage by an update only. -/
theorem World.AnswersAny.same (h : w.AnswersAny c r w') (hc : ∀ change, c ≠ .update change) :
    w.SameStorage w' := by
  cases c with
  | update change => exact absurd rfl (hc change)
  | select mailbox =>
    cases r with
    | ok status => exact h.2
    | error e => exact h
  | fetchUidRange mailbox start since =>
    cases r with
    | ok messages => exact h.2
    | error e => exact h
  | state => exact h.2
  | _ => exact h

theorem World.AnswersAny.update {change : StateChange} {r : Except StateError Unit}
    (h : w.AnswersAny (.update change) r w') :
    w'.memory = change.apply w.memory ∧ (w'.disk = w'.memory ∨ w'.disk = w.disk) := by
  cases r with
  | ok u => exact ⟨h.1, .inl (h.2.trans h.1.symm)⟩
  | error e => exact ⟨h.1, .inr h.2⟩

/-- The server of the daemon's world is such a server, as long as its numbers have 32 bits. -/
theorem answersAny_of_answers (h : w.Answers c r w') (hfits : Fits32 c r) :
    w.AnswersAny c r w' := by
  by_cases hupdate : ∃ change, c = .update change
  · obtain ⟨change, rfl⟩ := hupdate
    obtain ⟨-, -, hmemory, ⟨rfl, hdisk⟩ | ⟨⟨e, rfl⟩, hdisk⟩⟩ := h.update
    · exact ⟨hmemory, hdisk.trans hmemory⟩
    · exact ⟨hmemory, hdisk⟩
  · obtain ⟨hmemory, hdisk⟩ := h.stored fun change hc => hupdate ⟨change, hc⟩
    have hsame : w.SameStorage w' := ⟨hmemory, hdisk⟩
    cases c with
    | update change => exact absurd ⟨change, rfl⟩ hupdate
    | select mailbox =>
      cases r with
      | ok status => exact ⟨hfits, hsame⟩
      | error e => exact hsame
    | fetchUidRange mailbox start since =>
      cases r with
      | ok messages => exact ⟨hfits, hsame⟩
      | error e => exact hsame
    | state => exact ⟨h.1, hsame⟩
    | _ => exact hsame

end Answers

/-! ## Section 2: The start and the bookmark -/

/-- `uid + 1` does not leave `u32`, and it is above the bookmark and not 0. -/
def StartsAbove (uid : Nat) : Prop :=
  uid + 1 < 2 ^ 32 ∧ uid < MessageProcessor.startUid uid ∧ MessageProcessor.startUid uid ≠ 0

/-- The bookmark of a state is below the largest UID. -/
def State.Below (s : State) : Prop := ∀ uid, s.lastSeenUid = some uid → uid < 2 ^ 32 - 1

/-- Among the 32-bit numbers, the only one that the start wraps for is the largest. -/
theorem startsAbove_iff {uid : Nat} (h : uid < 2 ^ 32) : StartsAbove uid ↔ uid ≠ 2 ^ 32 - 1 := by
  constructor
  · rintro ⟨hfits, -, -⟩ rfl
    exact absurd hfits (by decide)
  · intro hne
    have hfits : uid + 1 < 2 ^ 32 := by omega
    have hstart : MessageProcessor.startUid uid = uid + 1 := Nat.mod_eq_of_lt hfits
    exact ⟨hfits, by omega, by omega⟩

theorem State.Below.startsAbove {s : State} (h : s.Below) {uid : Nat}
    (huid : s.lastSeenUid = some uid) : StartsAbove uid := by
  have hlt := h uid huid
  exact (startsAbove_iff (by omega)).mpr hlt.ne

/-- A message above the bookmark moves it to its own UID, and others do not move it. -/
theorem below_advance {s : State} {uid : Nat} (h : s.Below) (huid : uid < 2 ^ 32 - 1) :
    ((StateChange.advance uid).apply s).Below := by
  intro u hu
  rw [apply_advance_lastSeenUid] at hu
  cases hu
  cases hseen : s.lastSeenUid with
  | none => simpa using huid
  | some seen =>
    have := h seen hseen
    rw [Option.getD_some]
    omega

/-- The seed is one below UIDNEXT. -/
theorem below_seed {s : State} {uidnext : Nat} (h : uidnext < 2 ^ 32) :
    ((StateChange.seed (uidnext - 1)).apply s).Below := by
  intro u hu
  cases hu
  omega

/-! ## Section 3: The numbers that a phase goes by -/

/-- UIDNEXT and the UIDs left to process have 32 bits, and a FETCH is about to start from the
bookmark in memory. -/
def Phase.Fits (w : World) : Phase → Prop
  | .offline | .connected | .capable _ | .stopped _ _ => True
  | .selected s | .checked s | .validated s | .seeding s | .ready s => s.status.uidnext < 2 ^ 32
  | .ranged s _ bookmark => s.status.uidnext < 2 ^ 32 ∧ w.memory.lastSeenUid = some bookmark
  | .fetched f => f.status.uidnext < 2 ^ 32 ∧ ∀ m ∈ f.reply, m.uid < 2 ^ 32
  | .evaluating b _ msg rest | .executing b _ msg rest _ _ | .advancing b _ msg rest =>
      b.status.uidnext < 2 ^ 32 ∧ ∀ m ∈ msg :: rest, m.uid < 2 ^ 32
  | .idling b _ _ => b.status.uidnext < 2 ^ 32

section Steps

variable {cfg : Settings} {ph : Phase} {w w' : World} {tr : History} {c : Call} {r : Reply c}

theorem Phase.Fits.same (h : ph.Fits w) (hmemory : w'.memory = w.memory) : ph.Fits w' := by
  cases ph <;> simp only [Phase.Fits, hmemory] at h ⊢ <;> exact h

theorem fits_enter {b : Batch} {done rest : List MessageContext}
    (h : b.status.uidnext < 2 ^ 32) (hrest : ∀ m ∈ rest, m.uid < 2 ^ 32) :
    (Phase.enter b done rest).Fits w := by
  cases rest with
  | nil => exact h
  | cons msg rest => exact ⟨h, hrest⟩

/-- Every call keeps the numbers of the phase in 32 bits. -/
theorem fits_next (hallow : ph.Allows cfg c) (hans : w.AnswersAny c r w') (h : ph.Fits w) :
    (ph.next cfg w c r).Fits w' := by
  have hmoves := moves_next (w := w) (r := r) hallow
  generalize ph.next cfg w c r = ph' at hmoves ⊢
  cases hmoves with
  | offline => trivial
  | connected => trivial
  | capable hidle => trivial
  | stopped hcached hne => trivial
  | selected status => exact hans.1
  | ranged hseen =>
    -- the bookmark was read from the memory
    obtain ⟨rfl, hsame⟩ := hans
    exact ⟨h, hsame.memory ▸ hseen⟩
  | fetched reply => exact ⟨h.1, hans.1⟩
  | taken script => exact fits_enter h.1 fun m hm => h.2 m (List.mem_of_mem_take hm)
  | unevaluated e => exact h.1
  | unexecuted e => exact h.1
  | advanced => exact fits_enter h.1 fun m hm => h.2 m (List.mem_cons_of_mem _ hm)
  | _ => exact h

end Steps

/-! ## Section 4: Runs that spare the last UID -/

/-- The bookmark is not advanced for a message with the largest UID there is. -/
def SparesLast (_ : World) : (c : Call) → Reply c → World → Prop
  | .update (.advance uid), _, _ => uid ≠ 2 ^ 32 - 1
  | _, _, _ => True

/-- A FETCH starts right above the bookmark in memory. -/
def FetchesAbove (w : World) (c : Call) (_ : Reply c) (_ : History) : Prop :=
  ∀ mailbox start since, c = .fetchUidRange mailbox start since →
    ∃ uid, w.memory.lastSeenUid = some uid ∧ start = uid + 1 ∧ StartsAbove uid

/-- What is known of the bookmarks and of the numbers that become bookmarks. -/
structure Unwrapped (cfg : Settings) (w : World) (tr : History) : Prop where
  phase : (phaseOf cfg tr).Fits w
  memory : w.memory.Below
  disk : w.disk.Below

theorem unwrapped_call {cfg : Settings} {w w' : World} {tr : History} {c : Call} {r : Reply c}
    (hallow : (phaseOf cfg tr).Allows cfg c) (hans : w.AnswersAny c r w')
    (hspares : SparesLast w c r w') (h : Unwrapped cfg w tr) :
    Unwrapped cfg w' (.called w c r :: tr) := by
  have hphase : (phaseOf cfg (.called w c r :: tr)).Fits w' := fits_next hallow hans h.phase
  -- only an update sets a bookmark
  by_cases hupdate : ∃ change, c = .update change
  · obtain ⟨change, rfl⟩ := hupdate
    obtain ⟨hmemory, hdisk⟩ := hans.update
    have hbelow : w'.memory.Below := by
      rw [hmemory]
      have hfits := h.phase
      cases change with
      | session status mailbox => exact h.memory
      | seed uid =>
        obtain ⟨s, hph, rfl⟩ := seeding_of_seed hallow
        rw [hph] at hfits
        exact below_seed hfits
      | advance uid =>
        obtain ⟨b, done, msg, rest, hph, rfl⟩ := advancing_of_advance hallow
        rw [hph] at hfits
        have hlt := hfits.2 msg List.mem_cons_self
        have hne : msg.uid ≠ 2 ^ 32 - 1 := hspares
        exact below_advance h.memory (by omega)
    refine ⟨hphase, hbelow, ?_⟩
    -- the file has the new state, or still the old one
    rcases hdisk with hdisk | hdisk
    · exact hdisk ▸ hbelow
    · exact hdisk ▸ h.disk
  · have hsame := hans.same fun change hc => hupdate ⟨change, hc⟩
    exact ⟨hphase, hsame.memory ▸ h.memory, hsame.disk ▸ h.disk⟩

section Runs

variable {cfg : Settings} {w₀ : World} {x : Config Call Reply World (Except CoreError Unit)}

theorem unwrapped_of_serves (hfresh : w₀.Fresh)
    (hx : Serves (anyServer.under { call := SparesLast }) w₀ cfg x) :
    Unwrapped cfg x.world x.trace := by
  refine serves_invariant (I := Unwrapped) hx ?_ ?_ ?_ ?_
  · intro cfg
    refine ⟨trivial, fun uid huid => ?_, fun uid huid => ?_⟩
    · rw [hfresh.1] at huid
      cases huid
    · rw [hfresh.2] at huid
      cases huid
  · intro cfg p w tr c r w' _ h hallow hans
    exact unwrapped_call hallow hans.1 hans.2 h
  · rintro cfg w w' tr h ⟨hsame, -⟩
    exact ⟨h.phase.same hsame.memory, hsame.memory ▸ h.memory, hsame.disk ▸ h.disk⟩
  -- the next run starts with the bookmark on disk
  · rintro cfg cfg' w w' tr h ⟨⟨hmemory, hdisk⟩, -⟩
    exact ⟨trivial, hmemory ▸ h.disk, hdisk ▸ h.disk⟩

/-- The start of a FETCH never wraps. In any sequence of runs on one state file, against any
server, in which the bookmark is never advanced for a message with the largest UID, the start
is above the bookmark in every state reached and in every FETCH made. -/
theorem start_never_wraps (w₀ : World) (hfresh : w₀.Fresh) (cfg : Settings)
    (x : Config Call Reply World (Except CoreError Unit))
    (hx : Serves (anyServer.under { call := SparesLast }) w₀ cfg x) :
    (∀ uid, x.world.memory.lastSeenUid = some uid ∨ x.world.disk.lastSeenUid = some uid →
      StartsAbove uid) ∧ Along FetchesAbove x.trace := by
  have hunwrapped := unwrapped_of_serves hfresh hx
  refine ⟨fun uid huid => ?_, ?_⟩
  · rcases huid with hmemory | hdisk
    · exact hunwrapped.memory.startsAbove hmemory
    · exact hunwrapped.disk.startsAbove hdisk
  · refine serves_invariant (I := fun _ _ tr => Along FetchesAbove tr) hx (fun _ => along_nil) ?_
      (fun _ _ _ _ h _ => h) fun _ _ _ _ _ h _ => along_restarted h
    intro cfg p w tr c r w' hat h hallow _
    refine along_called ?_ h
    rintro mailbox start since rfl
    -- a FETCH starts from the bookmark in memory, which is below the largest UID
    have hnow := unwrapped_of_serves hfresh hat
    obtain ⟨s, state, uid, hph, rfl, rfl, -⟩ := ranged_of_fetch hallow
    have hseen := hnow.phase
    rw [hph] at hseen
    have habove := hnow.memory.startsAbove hseen.2
    exact ⟨uid, hseen.2, Nat.mod_eq_of_lt habove.1, habove⟩

end Runs

/-! ## Section 5: The server of the daemon's world -/

/-- The daemon's world with 32-bit numbers, under a regime. -/
def numberedWorld (reg : Regime Call Reply World) : Surroundings Call Reply World :=
  daemonWorld.under { reg with call := fun w c r w' => Fits32 c r ∧ reg.call w c r w' }

theorem within_anyServer (reg : Regime Call Reply World)
    (hdrift : ∀ w w', reg.drift w w') (hrestart : ∀ w, reg.restart w) :
    (numberedWorld reg).Within (anyServer.under reg) where
  answers h := ⟨answersAny_of_answers h.1 h.2.1, h.2.2⟩
  drifts h := ⟨⟨h.1.memory, h.1.disk⟩, hdrift _ _⟩
  restarts h := by
    obtain ⟨rfl, -⟩ := h
    exact ⟨⟨rfl, rfl⟩, hrestart _⟩

instance (c : Call) (r : Reply c) : Decidable (Fits32 c r) :=
  match c, r with
  | .select _, .ok status => inferInstanceAs (Decidable (status.uidnext < 2 ^ 32))
  | .fetchUidRange _ _ _, .ok messages =>
      inferInstanceAs (Decidable (∀ msg ∈ messages, msg.uid < 2 ^ 32))
  | .select _, .error _ | .fetchUidRange _ _ _, .error _ | .connect, _ | .sleep _, _
  | .genRange _, _ | .capabilities, _ | .command _, _ | .idle _, _ | .send _, _ | .stamp, _
  | .state, _ | .update _, _ | .currentScript, _ | .evaluate _ _, _ | .deleting _, _
  | .executed _ _, _ => isTrue trivial

instance (w : World) (c : Call) (r : Reply c) (w' : World) : Decidable (SparesLast w c r w') :=
  match c, r with
  | .update (.advance uid), _ => inferInstanceAs (Decidable (uid ≠ 2 ^ 32 - 1))
  | .update (.session _ _), _ | .update (.seed _), _ | .connect, _ | .sleep _, _ | .genRange _, _
  | .capabilities, _ | .select _, _ | .fetchUidRange _ _ _, _ | .command _, _ | .idle _, _
  | .send _, _ | .stamp, _ | .state, _ | .currentScript, _ | .evaluate _ _, _ | .deleting _, _
  | .executed _ _, _ => isTrue trivial

/-- A second run on the state file of a first one. -/
theorem start_never_wraps_again :
    (∀ uid, (secondRun "INBOX" 13).world.memory.lastSeenUid = some uid ∨
      (secondRun "INBOX" 13).world.disk.lastSeenUid = some uid → StartsAbove uid) ∧
      Along FetchesAbove (secondRun "INBOX" 13).trace :=
  start_never_wraps (sampleWorld (sampleServer 1) .done) ⟨rfl, rfl⟩
    { sampleSettings 10 with mailbox := "INBOX" } (secondRun "INBOX" 13)
    ((serves_secondRun _ (by decide) (fun _ => trivial) (by decide)).within
      (within_anyServer { call := SparesLast } (fun _ _ => trivial) fun _ => trivial))

/-- A server whose `INBOX` has one UID left, or has just used it. -/
def lastServer (count : Nat) : Server where
  boxes name :=
    if name = "INBOX" then
      some ((List.range count).foldl (fun b _ => b.append [] sampleContent)
        { Mailbox.empty with
          uidnext := 2 ^ 32 - 1
          uid_lt := by simp [Mailbox.empty] })
    else none

/-- The daemon is in IDLE when a message with the last UID arrives, and makes `n` steps. -/
def lastRun (n : Nat) : Config Call Reply World (Except CoreError Unit) :=
  resume { idle := true } (lastServer 1)
    (sampleDaemon { idle := true } 10 (sampleWorld (lastServer 0) .done) 13) n

theorem serves_lastRun {n : Nat}
    (hafter : ∀ i < n, Regime.admits { call := fun _ c r _ => Fits32 c r ∧ True }
      (World.respond { idle := true }) (lastRun i)) :
    Serves anyServer (sampleWorld (lastServer 0) .done) (sampleSettings 10) (lastRun n) := by
  have hx : Serves (numberedWorld {}) (sampleWorld (lastServer 0) .done) (sampleSettings 10)
      (lastRun n) :=
    (reachable_resume (reachable_sampleDaemon 10 _ (by decide)) (lastServer 1) trivial hafter).lives
  exact (hx.within (within_anyServer {} (fun _ _ => trivial) fun _ => trivial)).of_under

/-- The message with the last UID is processed, and the next FETCH starts at 0. -/
theorem not_start_never_wraps :
    ∃ w₀ cfg x, w₀.Fresh ∧ Serves anyServer w₀ cfg x ∧
      x.world.memory.lastSeenUid = some 4294967295 ∧ ¬ StartsAbove 4294967295 ∧
      ¬ Along FetchesAbove x.trace := by
  refine ⟨sampleWorld (lastServer 0) .done, sampleSettings 10, lastRun 11, ⟨rfl, rfl⟩,
    serves_lastRun (by decide), by decide, fun habove => absurd habove.1 (by decide), ?_⟩
  intro halong
  obtain ⟨uid, -, hstart, -⟩ := halong _ (.fetchUidRange _ _ _) _ _ List.suffix_rfl _ _ _ rfl
  cases hstart

end ImapSieve
