import ImapSieve.Daemon.NewMail

/-!
# The First Run

A daemon without a bookmark anchors it at UIDNEXT - 1, above every message that is in the
mailbox by then. A server may leave UIDNEXT out of its SELECT response. The client reports 0
in its place, and the bookmark is anchored at 0, below every message there is.

Where UIDNEXT is reported, or the mailbox is empty, no message that was there at a SELECT made
without a bookmark is ever above it, whenever the process is lost and started again.
-/

namespace ImapSieve

open Effects

/-! ## Section 1: SELECT and the anchor -/

/-- The mailbox as it was when the latest SELECT was answered. -/
def selectedBox : History → Option Mailbox
  | [] => none
  | .restarted _ :: tr => selectedBox tr
  | .called w c r :: tr =>
      match c, r with
      | .select mailbox, .ok _ => w.server.box mailbox
      | _, _ => selectedBox tr

/-- The mailbox as it was at the SELECT of the session that seeded the bookmark last. -/
def anchor : History → Option Mailbox
  | [] => none
  | .restarted _ :: tr => anchor tr
  | .called _ c _ :: tr =>
      match c with
      | .update (.seed _) => selectedBox tr
      | _ => anchor tr

/-- The mailbox `b` was selected while there was no bookmark. -/
def FirstSelect (tr : History) (b : Mailbox) : Prop :=
  ∃ w mailbox status before, .called w (.select mailbox) (.ok status) :: before <:+ tr ∧
    w.memory.lastSeenUid = none ∧ w.server.box mailbox = some b

/-- The answer of SELECT is one for the mailbox, given the bookmark in memory. -/
def SelectsAs (P : Option Nat → Mailbox → MailboxStatus → Prop) (w : World) :
    (c : Call) → Reply c → World → Prop
  | .select mailbox, .ok status, _ =>
      ∃ b ∈ w.server.box mailbox, P w.memory.lastSeenUid b status
  | _, _, _ => True

instance (P : Option Nat → Mailbox → MailboxStatus → Prop)
    [∀ bookmark b status, Decidable (P bookmark b status)] (w : World) (c : Call) (r : Reply c)
    (w' : World) : Decidable (SelectsAs P w c r w') :=
  match c, r with
  | .select mailbox, .ok status =>
      inferInstanceAs (Decidable (∃ b ∈ w.server.box mailbox, P w.memory.lastSeenUid b status))
  | .select _, .error _ | .connect, _ | .sleep _, _ | .genRange _, _ | .capabilities, _
  | .fetchUidRange _ _ _, _ | .command _, _ | .idle _, _ | .send _, _ | .stamp, _ | .state, _
  | .update _, _ | .currentScript, _ | .evaluate _ _, _ | .deleting _, _
  | .executed _ _, _ => isTrue trivial

/-- The status is consistent with the mailbox: UIDNEXT and UIDVALIDITY are its own, or they are
left out. No message has the UID 0. -/
def Consistent (_ : Option Nat) (b : Mailbox) (status : MailboxStatus) : Prop :=
  (status.uidnext = b.uidnext ∨ status.uidnext = 0) ∧
    (status.uidvalidity = b.uidvalidity ∨ status.uidvalidity = 0) ∧ ∀ m ∈ b.messages, 0 < m.uid

/-- Moreover, as long as there is no bookmark, UIDNEXT is reported or the mailbox is empty. -/
def Telling (bookmark : Option Nat) (b : Mailbox) (status : MailboxStatus) : Prop :=
  Consistent bookmark b status ∧ (bookmark = none → status.uidnext ≠ 0 ∨ b.messages = [])

instance (bookmark : Option Nat) (b : Mailbox) (status : MailboxStatus) :
    Decidable (Consistent bookmark b status) :=
  inferInstanceAs (Decidable ((_ ∨ _) ∧ (_ ∨ _) ∧ ∀ m ∈ b.messages, 0 < m.uid))

instance (bookmark : Option Nat) (b : Mailbox) (status : MailboxStatus) :
    Decidable (Telling bookmark b status) :=
  inferInstanceAs (Decidable (_ ∧ (bookmark = none → status.uidnext ≠ 0 ∨ b.messages = [])))

/-- The daemon's world where SELECT answers consistently. -/
def reportWorld : Surroundings Call Reply World :=
  daemonWorld.under { call := SelectsAs Consistent }

/-- The daemon's world where SELECT tells what the bookmark has to be anchored at. -/
def tellingWorld : Surroundings Call Reply World := daemonWorld.under { call := SelectsAs Telling }

/-- Moreover, UIDs of the monitored mailbox are not given out anew. -/
def steadyWorld (cfg : Settings) : Surroundings Call Reply World :=
  daemonWorld.under
    { call := SelectsAs Telling, drift := fun w w' => w.server.Precedes w'.server cfg.mailbox }

/-- A seeded bookmark covers every message that was in the mailbox at SELECT if, and only if,
UIDNEXT was reported or there is none. -/
def SeedCovers (_ : World) (c : Call) (_ : Reply c) (before : History) : Prop :=
  ∀ uid, c = .update (.seed uid) → ∃ b status, selectedBox before = some b ∧
    lastSelect before = some status ∧
    ((∀ m ∈ b.messages, m.uid ≤ uid) ↔ status.uidnext ≠ 0 ∨ b.messages = [])

/-- A bookmark, where there is one, covers every message that was in the mailbox at the SELECT
it was anchored after. -/
def Covers (bookmark : Option Nat) (tr : History) : Prop :=
  ∀ u, bookmark = some u → ∃ b, anchor tr = some b ∧ ∀ m ∈ b.messages, m.uid ≤ u

/-- FETCH starts above a bookmark, and no message above it was there when the mailbox was
selected without a bookmark. -/
def FetchesArrivals (w : World) (c : Call) (_ : Reply c) (before : History) : Prop :=
  ∀ mailbox start since, c = .fetchUidRange mailbox start since →
    ∃ u, w.memory.lastSeenUid = some u ∧ start = MessageProcessor.startUid u ∧
      ∀ b, w.server.box mailbox = some b → ∀ m ∈ b.messages, u + 1 ≤ m.uid →
        ∀ b₁, FirstSelect before b₁ → ¬ b₁.Has m.uid

section Ghosts

variable {w : World} {c : Call} {r : Reply c} {tr : History}

theorem selectedBox_called (hc : ∀ mailbox, c ≠ .select mailbox) :
    selectedBox (.called w c r :: tr) = selectedBox tr := by
  cases c with
  | select mailbox => exact absurd rfl (hc mailbox)
  | _ => rfl

theorem anchor_called (hc : ∀ uid, c ≠ .update (.seed uid)) :
    anchor (.called w c r :: tr) = anchor tr := by
  cases c with
  | update change =>
    cases change with
    | seed uid => exact absurd rfl (hc uid)
    | _ => rfl
  | _ => rfl

theorem FirstSelect.mono {tr' : History} {b : Mailbox} (h : FirstSelect tr b)
    (htrace : tr <:+ tr') : FirstSelect tr' b := by
  obtain ⟨w, mailbox, status, before, hsuffix, hrest⟩ := h
  exact ⟨w, mailbox, status, before, hsuffix.trans htrace, hrest⟩

/-- A mailbox was selected before, or it is now. -/
theorem firstSelect_called {b : Mailbox} (h : FirstSelect (.called w c r :: tr) b) :
    FirstSelect tr b ∨ selectedBox (.called w c r :: tr) = some b ∧
      w.memory.lastSeenUid = none ∧
      ∃ mailbox, c = .select mailbox ∧ w.server.box mailbox = some b := by
  obtain ⟨w₁, mailbox, status, before, hsuffix, hnone, hbox⟩ := h
  rcases List.suffix_cons_iff.mp hsuffix with heq | hold
  · cases heq
    exact .inr ⟨hbox, hnone, mailbox, rfl, hbox⟩
  · exact .inl ⟨w₁, mailbox, status, before, hold, hnone, hbox⟩

theorem firstSelect_restarted {b : Mailbox} (h : FirstSelect (.restarted w :: tr) b) :
    FirstSelect tr b := by
  obtain ⟨w₁, mailbox, status, before, hsuffix, hnone, hbox⟩ := h
  rcases List.suffix_cons_iff.mp hsuffix with heq | hold
  · cases heq
  · exact ⟨w₁, mailbox, status, before, hold, hnone, hbox⟩

end Ghosts

/-! ## Section 2: From SELECT to the seeding -/

/-- From the SELECT of a session to its seeding the bookmark in memory stays as it was when
SELECT was answered. -/
def Phase.Opened (P : Option Nat → Mailbox → MailboxStatus → Prop) (w : World) (tr : History) :
    Phase → Prop
  | .selected s | .checked s | .validated s | .seeding s =>
      ∃ b, selectedBox tr = some b ∧ P w.memory.lastSeenUid b s.status ∧
        (w.memory.lastSeenUid = none → FirstSelect tr b)
  | _ => True

section Opened

variable {P : Option Nat → Mailbox → MailboxStatus → Prop} {cfg : Settings} {ph : Phase}
  {w w' : World} {tr : History} {c : Call} {r : Reply c}

/-- What was known of the SELECT stays known. -/
theorem opened_called {s : Session} (hseen : w'.memory.lastSeenUid = w.memory.lastSeenUid)
    (hc : ∀ mailbox, c ≠ .select mailbox)
    (h : ∃ b, selectedBox tr = some b ∧ P w.memory.lastSeenUid b s.status ∧
      (w.memory.lastSeenUid = none → FirstSelect tr b)) :
    ∃ b, selectedBox (.called w c r :: tr) = some b ∧ P w'.memory.lastSeenUid b s.status ∧
      (w'.memory.lastSeenUid = none → FirstSelect (.called w c r :: tr) b) := by
  obtain ⟨b, hbox, hP, hfirst⟩ := h
  rw [selectedBox_called hc, hseen]
  exact ⟨b, hbox, hP, fun hnone => (hfirst hnone).mono (List.suffix_cons _ _)⟩

theorem opened_enter {b : Batch} {done rest : List MessageContext} :
    (Phase.enter b done rest).Opened P w tr := by
  cases rest <;> trivial

theorem opened_next (hallow : ph.Allows cfg c) (hans : w.Answers c r w')
    (hselect : SelectsAs P w c r w') (h : ph.Opened P w tr) :
    (ph.next cfg w c r).Opened P w' (.called w c r :: tr) := by
  have hmoves := moves_next (w := w) (r := r) hallow
  generalize ph.next cfg w c r = ph' at hmoves ⊢
  cases hmoves with
  | selected status =>
    cases hans
    obtain ⟨b, hb, hP⟩ := hselect
    exact ⟨b, hb, hP, fun hnone => ⟨w, _, status, tr, List.suffix_rfl, hnone, hb⟩⟩
  | checked hmatch =>
    obtain ⟨rfl, rfl⟩ := hans
    exact opened_called rfl (by simp) h
  | validated s =>
    cases hans
    exact opened_called (apply_session_lastSeenUid ..) (by simp) h
  | unseeded hnone =>
    obtain ⟨rfl, rfl⟩ := hans
    exact opened_called rfl (by simp) h
  | taken script => exact opened_enter
  | advanced => exact opened_enter
  | _ => trivial

theorem Phase.Opened.same (h : ph.Opened P w tr) (hmemory : w'.memory = w.memory) :
    ph.Opened P w' tr := by
  cases ph <;> simp only [Phase.Opened, hmemory] at h ⊢ <;> exact h

end Opened

section Runs

variable {P : Option Nat → Mailbox → MailboxStatus → Prop} {S : Surroundings Call Reply World}
  {cfg : Settings} {w₀ w : World} {tr : History}

theorem opened_of_comes (hS : Admissible S)
    (hselect : ∀ {w c r w'}, S.answers w c r w' → SelectsAs P w c r w')
    (hx : Comes S cfg w₀ w tr) : (phaseOf cfg tr).Opened P w tr := by
  refine daemon_invariant (I := fun w tr => (phaseOf cfg tr).Opened P w tr) hx trivial ?_ ?_ ?_
  · intro w tr c r w' _ h hallow hans
    exact opened_next hallow (hS.answers hans) (hselect hans) h
  · intro w w' tr _ h hdrift
    exact h.same (hS.drifts hdrift).memory
  · intro w w' tr _ _ _
    trivial

/-- At the seeding there is no bookmark, and the mailbox is known as it was at SELECT. -/
theorem seeding_opened (hS : Admissible S)
    (hselect : ∀ {w c r w'}, S.answers w c r w' → SelectsAs P w c r w')
    (hx : Comes S cfg w₀ w tr) {uid : Nat}
    (hallow : (phaseOf cfg tr).Allows cfg (.update (.seed uid))) :
    ∃ b status, selectedBox tr = some b ∧ lastSelect tr = some status ∧
      uid = status.uidnext - 1 ∧ P none b status ∧ w.memory.lastSeenUid = none ∧
      FirstSelect tr b := by
  obtain ⟨s, hph, rfl⟩ := seeding_of_seed hallow
  have hsound := daemon_sound hS hx
  have hopened := opened_of_comes hS hselect hx
  rw [hph] at hsound hopened
  obtain ⟨b, hbox, hP, hfirst⟩ := hopened
  have hnone : w.memory.lastSeenUid = none := hsound.2
  rw [hnone] at hP
  exact ⟨b, s.status, hbox, lastSelect_session hx (by rw [hph]; rfl), rfl, hP, hnone, hfirst hnone⟩

end Runs

/-! ## Section 3: The anchored bookmark -/

section Anchor

variable {S : Surroundings Call Reply World} {cfg : Settings} {w₀ w : World} {tr : History}

/-- UIDNEXT - 1 covers the mailbox if it was reported, or if there is nothing to cover. -/
theorem covers_iff {bookmark : Option Nat} {b : Mailbox} {status : MailboxStatus}
    (h : Consistent bookmark b status) :
    (∀ m ∈ b.messages, m.uid ≤ status.uidnext - 1) ↔ status.uidnext ≠ 0 ∨ b.messages = [] := by
  obtain ⟨hnext, -, hpositive⟩ := h
  constructor
  · intro hcovers
    by_cases hzero : status.uidnext = 0
    · refine .inr (List.eq_nil_iff_forall_not_mem.mpr fun m hm => ?_)
      have hle := hcovers m hm
      rw [hzero] at hle
      exact absurd (hpositive m hm) (by omega)
    · exact .inl hzero
  · rintro (hne | hempty) m hm
    · have hlt := b.uid_lt m hm
      rcases hnext with heq | hzero
      · omega
      · exact absurd hzero hne
    · rw [hempty] at hm
      cases hm

theorem seedCovers_of_comes (hx : Comes reportWorld cfg w₀ w tr) : Along SeedCovers tr := by
  refine daemon_along hx ?_
  rintro w tr c r w' hat hallow - uid rfl
  obtain ⟨b, status, hbox, hlast, rfl, hconsistent, -, -⟩ :=
    seeding_opened (admissible_under _) (fun hans => hans.2) hat hallow
  exact ⟨b, status, hbox, hlast, covers_iff hconsistent⟩

/-- What a seeded bookmark has, and a higher one has as well, the bookmarks in memory and on
disk keep. -/
theorem bookmark_invariant {B : Nat → Assertion Call Reply World} (hS : Admissible S)
    (hload : w₀.Loaded) (hx : Comes S cfg w₀ w tr)
    (hinit : ∀ u, w₀.memory.lastSeenUid = some u → B u w₀ [])
    (hmono : ∀ u u' w tr, B u w tr → u ≤ u' → B u' w tr)
    (hseed : ∀ w tr uid r w', Comes S cfg w₀ w tr →
      (phaseOf cfg tr).Allows cfg (.update (.seed uid)) → S.answers w (.update (.seed uid)) r w' →
      B uid w' (.called w (.update (.seed uid)) r :: tr))
    (hcall : ∀ u w tr c r w', Comes S cfg w₀ w tr → w.memory.lastSeenUid ≠ none →
      (∀ uid, c ≠ .update (.seed uid)) → S.answers w c r w' → B u w tr →
      B u w' (.called w c r :: tr))
    (hdrift : ∀ u w w' tr, Comes S cfg w₀ w tr → B u w tr → S.drifts w w' → B u w' tr)
    (hlost : ∀ u w w' tr, B u w tr → S.restarts w w' → B u w' (.restarted w :: tr)) :
    ∀ u, w.memory.lastSeenUid = some u ∨ w.disk.lastSeenUid = some u → B u w tr := by
  refine daemon_invariant (I := fun w tr =>
    ∀ u, w.memory.lastSeenUid = some u ∨ w.disk.lastSeenUid = some u → B u w tr) hx ?_ ?_ ?_ ?_
  · rintro u (hu | hu)
    · exact hinit u hu
    · exact hinit u (hload ▸ hu)
  · intro w tr c r w' hat h hallow hans
    -- a bookmark on disk is one in memory, too
    have hmemory : ∀ u, w.memory.lastSeenUid = some u ∨ w.disk.lastSeenUid = some u →
        w.memory.lastSeenUid ≠ none := by
      rintro u (hu | hu)
      · simp [hu]
      · obtain ⟨u', hu', -⟩ := (disk_extends_memory hS hload hat).lastSeenUid u hu
        simp [hu']
    have hold : (∀ uid, c ≠ .update (.seed uid)) → ∀ u,
        w.memory.lastSeenUid = some u ∨ w.disk.lastSeenUid = some u →
        B u w' (.called w c r :: tr) :=
      fun hc u hu => hcall u w tr c r w' hat (hmemory u hu) hc hans (h u hu)
    by_cases hupdate : ∃ change, c = .update change
    · obtain ⟨change, rfl⟩ := hupdate
      obtain ⟨-, -, hchange, hdisk⟩ := (hS.answers hans).update
      -- what the change leaves in memory
      have happly : ∀ u, w'.memory.lastSeenUid = some u →
          B u w' (.called w (.update change) r :: tr) := by
        intro u hu
        rw [hchange] at hu
        cases change with
        | session status mailbox => exact hold (by simp) u (.inl hu)
        | seed uid =>
          cases hu
          exact hseed w tr u r w' hat hallow hans
        | advance uid =>
          obtain ⟨b, done, msg, rest, hph, -⟩ := advancing_of_advance hallow
          have hsound := daemon_sound hS hat
          rw [hph] at hsound
          rw [apply_advance_lastSeenUid, hsound.1.bookmark, Option.getD_some] at hu
          cases hu
          exact hmono _ _ _ _ (hold (by simp) _ (.inl hsound.1.bookmark)) (le_max_right _ _)
      rintro u (hu | hu)
      · exact happly u hu
      · rcases hdisk with ⟨-, heq⟩ | ⟨-, heq⟩
        · exact happly u (heq ▸ hu)
        · rw [heq] at hu
          refine hold ?_ u (.inr hu)
          -- the seeding finds no bookmark
          rintro uid hc
          cases hc
          obtain ⟨s, hph, -⟩ := seeding_of_seed hallow
          have hsound := daemon_sound hS hat
          rw [hph] at hsound
          exact hmemory u (.inr hu) hsound.2
    · have hc : ∀ change, c ≠ .update change := fun change hc => hupdate ⟨change, hc⟩
      obtain ⟨hm, hd⟩ := (hS.answers hans).stored hc
      rw [hm, hd]
      exact hold fun uid => hc (.seed uid)
  · intro w w' tr hat h hd u hu
    rw [(hS.drifts hd).memory, (hS.drifts hd).disk] at hu
    exact hdrift u w w' tr hat (h u hu) hd
  · intro w w' tr hat h hr u hu
    refine hlost u w w' tr (h u (.inr ?_)) hr
    cases hS.restarts hr
    exact hu.elim id id

/-- The bookmarks in memory and on disk cover the mailbox they were anchored after. -/
theorem covers_of_comes (hS : Admissible S)
    (hselect : ∀ {w c r w'}, S.answers w c r w' → SelectsAs Telling w c r w')
    (hload : w₀.Loaded) (hfirst : w₀.memory.lastSeenUid = none) (hx : Comes S cfg w₀ w tr) :
    Covers w.memory.lastSeenUid tr ∧ Covers w.disk.lastSeenUid tr := by
  -- in memory and on disk alike
  have h : ∀ u, w.memory.lastSeenUid = some u ∨ w.disk.lastSeenUid = some u →
      ∃ b, anchor tr = some b ∧ ∀ m ∈ b.messages, m.uid ≤ u := by
    refine bookmark_invariant (B := fun u _ tr =>
      ∃ b, anchor tr = some b ∧ ∀ m ∈ b.messages, m.uid ≤ u) hS hload hx ?_ ?_ ?_ ?_
      (fun _ _ _ _ _ h _ => h) fun _ _ _ _ h _ => h
    · intro u hu
      rw [hfirst] at hu
      cases hu
    · rintro u u' w tr ⟨b, hb, hcovers⟩ hle
      exact ⟨b, hb, fun m hm => (hcovers m hm).trans hle⟩
    · intro w tr uid r w' hat hallow _
      obtain ⟨b, status, hbox, -, rfl, ⟨hconsistent, htells⟩, -, -⟩ :=
        seeding_opened hS hselect hat hallow
      exact ⟨b, hbox, (covers_iff hconsistent).mpr (htells rfl)⟩
    · rintro u w tr c r w' - - hc - h
      rwa [anchor_called hc]
  exact ⟨fun u hu => h u (.inl hu), fun u hu => h u (.inr hu)⟩

end Anchor

/-! ## Section 4: Messages above the bookmark -/

/-- The messages of the monitored mailbox above `u` were not there when it was selected without
a bookmark. -/
def Cleared (cfg : Settings) (u : Nat) (w : World) (tr : History) : Prop :=
  ∀ b, w.server.box cfg.mailbox = some b → ∀ m ∈ b.messages, u + 1 ≤ m.uid →
    ∀ b₁, FirstSelect tr b₁ → ¬ b₁.Has m.uid

/-- What is known of the mailboxes that were selected without a bookmark. -/
structure UidsKept (cfg : Settings) (w : World) (tr : History) : Prop where
  /-- The monitored mailbox has not given out their UIDs anew. -/
  precedes : ∀ b₁, FirstSelect tr b₁ → ∃ b, w.server.box cfg.mailbox = some b ∧ b₁.Precedes b
  /-- They are not newer than the mailbox selected last. -/
  selected : ∀ b₁, FirstSelect tr b₁ → ∀ b, selectedBox tr = some b → b₁.uidnext ≤ b.uidnext

section Cleared

variable {cfg : Settings} {w w' : World} {tr : History} {u : Nat}

theorem UidsKept.precedes_next (h : UidsKept cfg w tr)
    (hserver : w.server.Precedes w'.server cfg.mailbox) {b₁ : Mailbox} (hb₁ : FirstSelect tr b₁) :
    ∃ b, w'.server.box cfg.mailbox = some b ∧ b₁.Precedes b := by
  obtain ⟨b, hb, hprecedes⟩ := h.precedes b₁ hb₁
  obtain ⟨b', hb', hnext⟩ := hserver b hb
  exact ⟨b', hb', hprecedes.trans hnext⟩

theorem Cleared.precedes (h : Cleared cfg u w tr) (hkept : UidsKept cfg w tr)
    (hserver : w.server.Precedes w'.server cfg.mailbox) : Cleared cfg u w' tr := by
  intro b' hb' m hm hlt b₁ hb₁ hhas
  obtain ⟨b, hb, hprecedes⟩ := hkept.precedes b₁ hb₁
  obtain ⟨b'', hb'', hnext⟩ := hserver b hb
  obtain rfl : b'' = b' := Option.some.inj (hb''.symm.trans hb')
  -- a UID that was given out by then was still there before
  obtain ⟨m₁, hm₁, huid₁⟩ := hhas
  have hbelow : m.uid < b₁.uidnext := huid₁ ▸ b₁.uid_lt m₁ hm₁
  obtain ⟨m₂, hm₂, huid₂⟩ := hnext.2 m hm (hbelow.trans_le hprecedes.1)
  exact h b hb m₂ hm₂ (huid₂ ▸ hlt) b₁ hb₁ ⟨m₁, hm₁, huid₁.trans huid₂.symm⟩

end Cleared

section Runs

variable {cfg : Settings} {w₀ w : World} {tr : History}

/-- Every step of a run leaves the UIDs of the monitored mailbox as they were given out. -/
theorem precedes_answers {w w' : World} {c : Call} {r : Reply c} (hans : w.Answers c r w') :
    w.server.Precedes w'.server cfg.mailbox :=
  hans.keepsBox Mailbox.lasting_precedes cfg.mailbox

theorem kept_of_comes (hx : Comes (steadyWorld cfg) cfg w₀ w tr) : UidsKept cfg w tr := by
  have hS : Admissible (steadyWorld cfg) := admissible_under _
  refine daemon_invariant (I := UidsKept cfg) hx ?_ ?_ ?_ ?_
  · have hnil : ∀ b, ¬ FirstSelect [] b := by
      rintro b ⟨w, mailbox, status, before, hsuffix, -⟩
      cases List.suffix_nil.mp hsuffix
    exact ⟨fun b hb => absurd hb (hnil b), fun b hb => absurd hb (hnil b)⟩
  · intro w tr c r w' hat h hallow hans
    have hserver : w.server.Precedes w'.server cfg.mailbox := precedes_answers (hS.answers hans)
    constructor
    · intro b₁ hb₁
      rcases firstSelect_called hb₁ with hold | ⟨-, -, mailbox, rfl, hbox⟩
      · exact h.precedes_next hserver hold
      -- the SELECT is of this moment
      · obtain ⟨caps, -, rfl⟩ := capable_of_select hallow
        exact hserver b₁ hbox
    · intro b₁ hb₁ b hb
      rcases firstSelect_called hb₁ with hold | ⟨hnow, -⟩
      -- a later SELECT finds UIDNEXT where it was or above
      · by_cases hselect : ∃ mailbox, c = .select mailbox
        · obtain ⟨mailbox, rfl⟩ := hselect
          obtain ⟨caps, -, rfl⟩ := capable_of_select hallow
          rcases r with e | status
          · exact h.selected b₁ hold b hb
          · obtain ⟨b', hb', hprecedes⟩ := h.precedes b₁ hold
            obtain rfl : b' = b := Option.some.inj (hb'.symm.trans hb)
            exact hprecedes.1
        · rw [selectedBox_called fun mailbox hc => hselect ⟨mailbox, hc⟩] at hb
          exact h.selected b₁ hold b hb
      · cases hnow.symm.trans hb
        exact le_rfl
  · intro w w' tr _ h hdrift
    exact ⟨fun b₁ hb₁ => h.precedes_next hdrift.2 hb₁, h.selected⟩
  · intro w w' tr _ h hr
    cases hS.restarts hr
    exact ⟨fun b₁ hb₁ => h.precedes b₁ (firstSelect_restarted hb₁),
      fun b₁ hb₁ => h.selected b₁ (firstSelect_restarted hb₁)⟩

theorem cleared_of_comes (hload : w₀.Loaded) (hfirst : w₀.memory.lastSeenUid = none)
    (hx : Comes (steadyWorld cfg) cfg w₀ w tr) {u : Nat} (hu : w.memory.lastSeenUid = some u) :
    Cleared cfg u w tr := by
  have hS : Admissible (steadyWorld cfg) := admissible_under _
  refine bookmark_invariant (B := Cleared cfg) hS hload hx ?_ ?_ ?_ ?_ ?_ ?_ u (.inl hu)
  · intro u hu
    rw [hfirst] at hu
    cases hu
  · intro u u' w tr h hle b hb m hm hlt
    exact h b hb m hm (by omega)
  -- the seeding: the bookmark covers what its SELECT found
  · intro w tr uid r w' hat hallow hans b hb m hm hlt b₁ hb₁ hhas
    obtain ⟨b₂, status, hbox, -, rfl, ⟨hconsistent, htells⟩, -, hb₂⟩ :=
      seeding_opened hS (fun hans => hans.2) hat hallow
    have hkept := kept_of_comes hat
    have hcovers := (covers_iff hconsistent).mpr (htells rfl)
    rcases firstSelect_called hb₁ with hold | ⟨-, -, mailbox, hc, -⟩
    · obtain ⟨b', hb', hprecedes⟩ := hkept.precedes_next (precedes_answers (hS.answers hans)) hb₂
      obtain rfl : b' = b := Option.some.inj (hb'.symm.trans hb)
      -- the message was there at the SELECT before the seeding, too
      obtain ⟨m₁, hm₁, huid₁⟩ := hhas
      have hbelow : m.uid < b₁.uidnext := huid₁ ▸ b₁.uid_lt m₁ hm₁
      obtain ⟨m₂, hm₂, huid₂⟩ :=
        hprecedes.2 m hm (hbelow.trans_le (hkept.selected b₁ hold b₂ hbox))
      have hle := hcovers m₂ hm₂
      omega
    · cases hc
  · intro u w tr c r w' hat hne _ hans h
    have hnext := h.precedes (kept_of_comes hat) (precedes_answers (hS.answers hans))
    intro b hb m hm hlt b₁ hb₁
    rcases firstSelect_called hb₁ with hold | ⟨-, hnone, -⟩
    · exact hnext b hb m hm hlt b₁ hold
    · exact absurd hnone hne
  · intro u w w' tr hat h hdrift
    exact h.precedes (kept_of_comes hat) hdrift.2
  · intro u w w' tr h hr
    cases hS.restarts hr
    exact fun b hb m hm hlt b₁ hb₁ => h b hb m hm hlt b₁ (firstSelect_restarted hb₁)

/-- The first run never touches existing mail. In runs from a state without a bookmark, losses
and restarts included, whose SELECTs answer consistently: a seeded bookmark covers every
message present at SELECT if, and only if, UIDNEXT was reported or there is none. Where this
is so at every SELECT made without a bookmark, the bookmarks in memory and on disk cover the
mailbox they were anchored after; and if UIDs are not given out anew, every FETCH starts above
a bookmark above which there are only messages that have arrived since. -/
theorem first_run_anchored (cfg : Settings) (w₀ : World) (hload : w₀.Loaded)
    (hfirst : w₀.memory.lastSeenUid = none) :
    (∀ x, Reachable reportWorld (Supervisor.run cfg) w₀ x → Along SeedCovers x.trace) ∧
    (∀ x, Reachable tellingWorld (Supervisor.run cfg) w₀ x →
      Covers x.world.memory.lastSeenUid x.trace ∧ Covers x.world.disk.lastSeenUid x.trace) ∧
    ∀ x, Reachable (steadyWorld cfg) (Supervisor.run cfg) w₀ x →
      Along FetchesArrivals x.trace := by
  refine ⟨fun x hx => seedCovers_of_comes hx.visits, fun x hx =>
    covers_of_comes (admissible_under _) (fun hans => hans.2) hload hfirst hx.visits,
    fun x hx => daemon_along hx.visits ?_⟩
  rintro w tr c r w' hat hallow - mailbox start since rfl
  obtain ⟨s, state, u, hph, rfl, rfl, -⟩ := ranged_of_fetch hallow
  have hsound := daemon_sound (admissible_under _) hat
  rw [hph] at hsound
  obtain ⟨-, rfl, hu⟩ := hsound
  exact ⟨u, hu, rfl, cleared_of_comes hload hfirst hat hu⟩

end Runs

/-! ## Section 5: A loss in the setup, and a server without UIDNEXT -/

/-- The process is lost after it has persisted the UIDVALIDITY and before it has seeded the
bookmark; started again, it makes `n` steps. -/
def setupLostRun (n : Nat) : Config Call Reply World (Except CoreError Unit) :=
  let x := oldMailRun 7
  play (World.respond { idle := true }) n
    ⟨Supervisor.run (sampleSettings 10), x.world.restart, .restarted x.world :: x.trace⟩

theorem reachable_setupLostRun {reg : Regime Call Reply World} {n : Nat}
    (hbefore : ∀ i < 7, reg.admits (World.respond { idle := true }) (oldMailRun i))
    (hlost : reg.restart (oldMailRun 7).world)
    (hafter : ∀ i < n, reg.admits (World.respond { idle := true }) (setupLostRun i)) :
    Reachable (daemonWorld.under reg) (Supervisor.run (sampleSettings 10))
      (sampleWorld (sampleServer 1) .done) (setupLostRun n) :=
  reachable_play ((reachable_sampleDaemon 10 _ hbefore).restart ⟨rfl, hlost⟩) hafter

/-- The second process seeds the bookmark above the message, and fetches from there. -/
theorem first_run_anchored_lost :
    (setupLostRun 11).world.memory.lastSeenUid = some 1 ∧
      Along FetchesArrivals (setupLostRun 11).trace := by
  refine ⟨by decide, (first_run_anchored (sampleSettings 10)
    (sampleWorld (sampleServer 1) .done) rfl rfl).2.2 _ ?_⟩
  exact reachable_setupLostRun (by decide) trivial (by decide)

/-- A player that leaves out UIDNEXT. -/
def World.withhold (caps : Capabilities) (w : World) : (c : Call) → Reply c × World
  | .select mailbox =>
      match w.server.box mailbox with
      | some b => (.ok { b.status with uidnext := 0 }, { w with selected := some mailbox })
      | none => (.error (.imap "no such mailbox"), { w with selected := none })
  | c => w.respond caps c

theorem answers_withhold (caps : Capabilities) (w : World) (c : Call) :
    World.Answers w c (w.withhold caps c).1 (w.withhold caps c).2 := by
  cases c with
  | select mailbox =>
    cases hbox : w.server.box mailbox <;>
      simp [World.withhold, World.Answers, hbox, CoreError.IsImap]
  | _ => exact answers_respond caps w _

/-- Two messages are in the mailbox, and UIDNEXT is left out. -/
def withheldRun (n : Nat) : Config Call Reply World (Except CoreError Unit) :=
  play (World.withhold { idle := true }) n
    ⟨Supervisor.run (sampleSettings 10), sampleWorld (sampleServer 2) .done, []⟩

/-- The bookmark is anchored at 0, and the messages are processed. -/
theorem not_first_run_anchored :
    ∃ x, Reachable reportWorld (Supervisor.run (sampleSettings 10))
        (sampleWorld (sampleServer 2) .done) x ∧
      ¬ Covers x.world.memory.lastSeenUid x.trace ∧ evaluatedUids x.trace = [2, 1] := by
  refine ⟨withheldRun 17, ?_, fun hcovers => ?_, by decide⟩
  · exact Reachable.start.steps (steps_play (answers_withhold _) _ 17 _ (by decide))
  · obtain ⟨b, hb, hcovered⟩ := hcovers 1 (by decide)
    have hpresent : ∀ b ∈ anchor (withheldRun 17).trace, ∃ m ∈ b.messages, m.uid = 2 := by decide
    obtain ⟨m, hm, huid⟩ := hpresent b hb
    exact absurd (hcovered m hm) (by omega)

end ImapSieve
