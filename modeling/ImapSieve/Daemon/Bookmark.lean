import ImapSieve.Daemon.Validity

/-!
# The Bookmark Never Overtakes Unprocessed Mail

Without CONDSTORE and with FETCH answered in ascending order, every UID up to the bookmark
and above the seeded value was passed by an update of the bookmark, and whenever the
bookmark passes a UID, the message was processed or was not there when the batch fetched.

The reason is in one step (`processed_of_passes`): the batch holds a prefix of all messages
above its bookmark, in order, so the only message that an update passes is the one just
processed.
-/

namespace ImapSieve

open Effects

/-! ## Section 1: A server without CONDSTORE -/

/-- CONDSTORE is not offered, and a FETCH is answered in ascending UID order. -/
def PlainFetch (w : World) : (c : Call) → Reply c → World → Prop
  | .capabilities, .ok caps, _ => caps.condstore = false
  | .fetchUidRange _ start since, .ok reply, _ => ∃ box, w.box = some box ∧
      (reply = (box.fetch start since).map StoredMessage.toContext ∨
        reply = (box.fetchFrom start since).map StoredMessage.toContext)
  | _, _, _ => True

/-- The daemon's world with such a server. -/
def plainWorld : Surroundings Call Reply World := daemonWorld.under { call := PlainFetch }

/-- The answer holds every message from the bookmark on, in order. -/
def Fetch.Complete (f : Fetch) : Prop :=
  ∃ box, f.snapshot.box = some box ∧ (f.reply.Pairwise fun m m' => m.uid < m'.uid) ∧
    ∀ m ∈ box.messages, f.bookmark < m.uid → ∃ msg ∈ f.reply, msg.uid = m.uid

theorem startUid_le (u : Nat) : MessageProcessor.startUid u ≤ u + 1 := Nat.mod_le _ _

/-- Filtered messages of a mailbox are still in order. -/
theorem pairwise_toContext (box : Mailbox) (test : StoredMessage → Bool) :
    ((box.messages.filter test).map StoredMessage.toContext).Pairwise fun m m' => m.uid < m'.uid :=
  List.pairwise_map.mpr (box.ascending.filter test)

/-- A plain FETCH is complete. -/
theorem complete_of_plainFetch {cfg : Settings} {s : Session} {bookmark : Nat} {w w' : World}
    {reply : List MessageContext} (hcaps : s.caps.condstore = false)
    (h : PlainFetch w (.fetchUidRange cfg.mailbox (MessageProcessor.startUid bookmark)
      ((cfg.processor s.caps).changedSince w.memory)) (.ok reply) w') :
    (⟨s, bookmark, w, reply⟩ : Fetch).Complete := by
  obtain ⟨box, hbox, hreply⟩ := h
  -- without CONDSTORE nothing is filtered
  have hsince : (cfg.processor s.caps).changedSince w.memory = none := by
    simp [MessageProcessor.changedSince, Settings.processor, hcaps]
  rw [hsince] at hreply
  have hstart : ∀ m : StoredMessage, bookmark < m.uid →
      MessageProcessor.startUid bookmark ≤ m.uid := fun m hm => (startUid_le bookmark).trans hm
  refine ⟨box, hbox, ?_, fun m hm hlt => ?_⟩
  -- in order, as the mailbox is
  · rcases hreply with rfl | rfl
    · exact pairwise_toContext box _
    · exact pairwise_toContext box _
  · refine ⟨m.toContext, ?_, rfl⟩
    rcases hreply with rfl | rfl
    · refine List.mem_map_of_mem (List.mem_filter.mpr ⟨hm, ?_⟩)
      simp [Mailbox.inRange, Mailbox.changedAfter, hstart m hlt]
    · refine List.mem_map_of_mem (List.mem_filter.mpr ⟨hm, ?_⟩)
      simp [Mailbox.changedAfter, hstart m hlt]

theorem complete_of_comes {cfg : Settings} {w₀ w : World} {tr : History}
    (hx : Comes plainWorld cfg w₀ w tr) {f : Fetch}
    (hf : (phaseOf cfg tr).known.fetch? = some f) : f.Complete := by
  refine daemon_fetch (F := Fetch.Complete) (admissible_under _) hx ?_ hf
  intro w tr s bookmark reply w' hat hph hans
  have hplain : PlainFetch w (.fetchUidRange cfg.mailbox (MessageProcessor.startUid bookmark)
      ((cfg.processor s.caps).changedSince w.memory)) (.ok reply) w' := hans.2
  refine complete_of_plainFetch ?_ hplain
  exact daemon_caps (F := fun caps => caps.condstore = false) hat
    (fun _ _ _ hans => hans.2) (by rw [hph]; rfl)

/-! ## Section 2: What an update of the bookmark passes -/

/-- The call moves the bookmark past the UID. -/
def Passes (v : Nat) (w : World) (c : Call) : Prop :=
  ∃ uid, c = .update (.advance uid) ∧ v ≤ uid ∧ ∀ l, w.memory.lastSeenUid = some l → l < v

/-- The only message of a complete FETCH that an update passes is the one just processed. -/
theorem eq_of_passed {cfg : Settings} {b : Batch} {done rest : List MessageContext}
    {msg : MessageContext} {w : World} {tr : History} (hat : b.At cfg done (msg :: rest) w tr)
    {box : Mailbox} (hbox : b.snapshot.box = some box) (hcomplete : b.toFetch.Complete) {v : Nat}
    (hlt : b.reached done < v) (hle : v ≤ msg.uid) (hv : box.Has v) : msg.uid = v := by
  obtain ⟨box', hbox', hsorted, hall⟩ := hcomplete
  rw [hbox] at hbox'
  cases hbox'
  obtain ⟨m, hm, rfl⟩ := hv
  obtain ⟨msg', hmem, huid⟩ := hall m hm ((bookmark_le_reached b done).trans_lt hlt)
  -- the answer: what is done, the message, what is left, what was cut off
  have hsplit : b.reply = done ++ msg :: (rest ++ b.reply.drop cfg.batchSize) := by
    rw [← List.cons_append, ← List.append_assoc, hat.messages, Batch.messages,
      List.take_append_drop]
  rw [hsplit] at hmem hsorted
  rcases List.mem_append.mp hmem with hdone | hlater
  · have := uid_le_reached b hdone
    omega
  · rcases List.mem_cons.mp hlater with rfl | hlater
    · exact huid
    · have := (List.pairwise_cons.mp (List.pairwise_append.mp hsorted).2.1).1 msg' hlater
      omega

/-- Whenever the bookmark passes a UID, its message was processed or was not there. -/
theorem processed_of_passes {cfg : Settings} {w₀ w : World} {tr : History}
    (hx : Comes plainWorld cfg w₀ w tr) (v : Nat) :
    Along (fun w c _ before => Passes v w c →
      (∃ msg, msg.uid = v ∧ Processed before msg) ∨
        ∃ snapshot box, lastFetch before = some snapshot ∧ snapshot.box = some box ∧ ¬ box.Has v)
      tr := by
  refine daemon_along hx ?_
  rintro w tr c r w' hat hallow - ⟨uid, rfl, hle, hlt⟩
  have hsound := daemon_sound (admissible_under _) hat
  have hcomplete : ∀ f, (phaseOf cfg tr).known.fetch? = some f → f.Complete :=
    fun f hf => complete_of_comes hat hf
  obtain ⟨b, done, msg, rest, hph, rfl⟩ := advancing_of_advance hallow
  rw [hph] at hsound
  obtain ⟨hbatch, hprocessed⟩ := hsound
  obtain ⟨box, hbox, -⟩ := hbatch.fetch.fetched
  by_cases hv : box.Has v
  -- the FETCH found the message, so it is the one just processed
  · have hall : b.toFetch.Complete := hcomplete _ (by rw [hph]; rfl)
    have heq := eq_of_passed hbatch hbox hall (hlt _ hbatch.bookmark) hle hv
    exact .inl ⟨msg, heq, hprocessed.mono (sinceFetch_subset tr)⟩
  -- there was no such message at the FETCH
  · exact .inr ⟨b.snapshot, box, hbatch.last, hbox, hv⟩

/-! ## Section 3: Every UID up to the bookmark was passed -/

/-- The value the bookmark was last seeded with. -/
def lastSeed : History → Option Nat
  | [] => none
  | .restarted _ :: tr => lastSeed tr
  | .called _ c _ :: tr =>
      match c with
      | .update (.seed uid) => some uid
      | _ => lastSeed tr

theorem lastSeed_called {w : World} {c : Call} {r : Reply c} {tr : History}
    (hc : ∀ change, c ≠ .update change) : lastSeed (.called w c r :: tr) = lastSeed tr := by
  cases c with
  | update change => exact absurd rfl (hc change)
  | _ => rfl

/-- Every UID above the seeded value and up to `l` was passed. -/
def PassedUpTo (l : Nat) (tr : History) : Prop :=
  ∃ seed, lastSeed tr = some seed ∧ ∀ v, seed < v → v ≤ l →
    ∃ w c r before, .called w c r :: before <:+ tr ∧ Passes v w c

theorem PassedUpTo.mono {l l' : Nat} {tr tr' : History} (h : PassedUpTo l tr) (hl : l' ≤ l)
    (htrace : tr <:+ tr') (hseed : lastSeed tr' = lastSeed tr) : PassedUpTo l' tr' := by
  obtain ⟨seed, hlast, hpassed⟩ := h
  refine ⟨seed, hseed.trans hlast, fun v hlt hle => ?_⟩
  obtain ⟨w, c, r, before, hsuffix, hpass⟩ := hpassed v hlt (hle.trans hl)
  exact ⟨w, c, r, before, hsuffix.trans htrace, hpass⟩

theorem passedUpTo_memory {S : Surroundings Call Reply World} {cfg : Settings} {w₀ w : World}
    {tr : History} (hS : Admissible S) (hfresh : w₀.Fresh) (hx : Comes S cfg w₀ w tr) {l : Nat}
    (hl : w.memory.lastSeenUid = some l) : PassedUpTo l tr := by
  have h : ∀ l, w.memory.lastSeenUid = some l → PassedUpTo l tr := by
    refine daemon_invariant
      (I := fun w tr => ∀ l, w.memory.lastSeenUid = some l → PassedUpTo l tr) hx ?_ ?_ ?_ ?_
    · intro l hl
      rw [hfresh.1] at hl
      cases hl
    · intro w tr c r w' hat h hallow hans l hl
      by_cases hupdate : ∃ change, c = .update change
      · obtain ⟨change, rfl⟩ := hupdate
        obtain ⟨-, -, hmemory, -⟩ := (hS.answers hans).update
        rw [hmemory] at hl
        cases change with
        | session status mailbox => exact (h l hl).mono le_rfl (List.suffix_cons _ _) rfl
        | seed uid =>
          cases hl
          exact ⟨l, rfl, fun v hlt hle => absurd (hlt.trans_le hle) (lt_irrefl _)⟩
        | advance uid =>
          have hsound := daemon_sound hS hat
          obtain ⟨u, hu⟩ : ∃ u, w.memory.lastSeenUid = some u := by
            obtain ⟨b, done, msg, rest, hph, -⟩ := advancing_of_advance hallow
            rw [hph] at hsound
            exact ⟨_, hsound.1.bookmark⟩
          rw [apply_advance_lastSeenUid, hu, Option.getD_some] at hl
          cases hl
          obtain ⟨seed, hlast, hpassed⟩ := h u hu
          refine ⟨seed, hlast, fun v hlt hle => ?_⟩
          -- passed before, or by this update
          by_cases hold : v ≤ u
          · obtain ⟨w₁, c₁, r₁, before, hsuffix, hpass⟩ := hpassed v hlt hold
            exact ⟨w₁, c₁, r₁, before, hsuffix.trans (List.suffix_cons _ _), hpass⟩
          · refine ⟨w, _, r, tr, List.suffix_rfl, uid, rfl, by omega, fun l hl => ?_⟩
            rw [hu] at hl
            cases hl
            omega
      · have hc : ∀ change, c ≠ .update change := fun change hc => hupdate ⟨change, hc⟩
        rw [((hS.answers hans).stored hc).1] at hl
        exact (h l hl).mono le_rfl (List.suffix_cons _ _) (lastSeed_called hc)
    · intro w w' tr _ h hdrift l hl
      rw [(hS.drifts hdrift).memory] at hl
      exact h l hl
    · intro w w' tr hat h hr l hl
      cases hS.restarts hr
      -- the memory is now what the disk was, which was behind the memory
      have hbehind := disk_extends_memory hS (hfresh.1.trans hfresh.2.symm) hat
      obtain ⟨l', hl', hle⟩ := hbehind.lastSeenUid l hl
      exact (h l' hl').mono hle (List.suffix_cons _ _) rfl
  exact h l hl

/-! ## Section 4: The bookmark and the messages -/

/-- The bookmark never overtakes unprocessed mail. Every UID above the seeded value and up to
the bookmark, in memory or on disk, was passed by an update, and whenever an update passes it,
its message was evaluated and executed successfully before, or was not in the mailbox when
the batch of that update fetched. -/
theorem bookmark_never_overtakes (cfg : Settings) (w₀ : World) (hfresh : w₀.Fresh)
    (x : Config Call Reply World (Except CoreError Unit))
    (hx : Reachable plainWorld (Supervisor.run cfg) w₀ x) (l : Nat)
    (hl : x.world.memory.lastSeenUid = some l ∨ x.world.disk.lastSeenUid = some l) :
    ∃ seed, lastSeed x.trace = some seed ∧ ∀ v, seed < v → v ≤ l →
      (∃ w c r before, .called w c r :: before <:+ x.trace ∧ Passes v w c) ∧
      Along (fun w c _ before => Passes v w c →
        (∃ msg, msg.uid = v ∧ Processed before msg) ∨
          ∃ snapshot box, lastFetch before = some snapshot ∧ snapshot.box = some box ∧
            ¬ box.Has v) x.trace := by
  have hS : Admissible plainWorld := admissible_under _
  have hpassed : PassedUpTo l x.trace := by
    rcases hl with hmemory | hdisk
    · exact passedUpTo_memory hS hfresh hx.visits hmemory
    · have hload : w₀.Loaded := hfresh.1.trans hfresh.2.symm
      obtain ⟨l', hl', hle⟩ := (disk_extends_memory hS hload hx.visits).lastSeenUid l hdisk
      exact (passedUpTo_memory hS hfresh hx.visits hl').mono hle List.suffix_rfl rfl
  obtain ⟨seed, hseed, hall⟩ := hpassed
  exact ⟨seed, hseed, fun v hlt hle => ⟨hall v hlt hle, processed_of_passes hx.visits v⟩⟩

theorem plainFetch_respond (w : World) (c : Call) :
    PlainFetch w c (w.respond { idle := true } c).1 (w.respond { idle := true } c).2 := by
  cases c with
  | capabilities => rfl
  | fetchUidRange mailbox start since =>
    cases hbox : w.box with
    | none => simp [World.respond, hbox, PlainFetch]
    | some box =>
      simp only [World.respond, hbox]
      exact ⟨box, hbox, .inl rfl⟩
  | _ => trivial

/-- A message arrives during IDLE, and the bookmark passes it. -/
theorem bookmark_never_overtakes_arrival :
    ∃ seed, lastSeed (arrivalRun 7).trace = some seed ∧ ∀ v, seed < v → v ≤ 1 →
      (∃ w c r before, .called w c r :: before <:+ (arrivalRun 7).trace ∧ Passes v w c) ∧
      Along (fun w c _ before => Passes v w c →
        (∃ msg, msg.uid = v ∧ Processed before msg) ∨
          ∃ snapshot box, lastFetch before = some snapshot ∧ snapshot.box = some box ∧
            ¬ box.Has v) (arrivalRun 7).trace :=
  bookmark_never_overtakes (sampleSettings 10) (sampleWorld (sampleServer 0) .done) ⟨rfl, rfl⟩
    (arrivalRun 7)
    (reachable_arrivalRun (fun _ _ => admits_of_regular plainFetch_respond _)
      (fun _ _ => trivial) fun _ _ => admits_of_regular plainFetch_respond _)
    1 (.inl (by decide))

end ImapSieve
