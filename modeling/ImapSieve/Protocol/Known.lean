import ImapSieve.Protocol.Sound

/-!
# What the Daemon Goes by

Capabilities, the status of the mailbox and the answer to a FETCH are asked for once and
then relied on for a while. `Phase.known` is what a phase relies on, and `learns_next` says
where it comes from. So a condition on all replies of one kind carries over to what the
phases rely on (`daemon_caps`, `daemon_fetch`).
-/

namespace ImapSieve

open Effects

/-! ## Section 1: The knowledge of a phase -/

/-- What the daemon has learnt from the server and still goes by. -/
inductive Known where
  | nothing
  | caps (offered : Capabilities)
  | session (s : Session)
  | fetch (f : Fetch)

def Known.caps? : Known → Option Capabilities
  | .nothing => none
  | .caps offered => some offered
  | .session s => some s.caps
  | .fetch f => some f.caps

def Known.session? : Known → Option Session
  | .nothing | .caps _ => none
  | .session s => some s
  | .fetch f => some f.toSession

def Known.fetch? : Known → Option Fetch
  | .fetch f => some f
  | _ => none

def Phase.known : Phase → Known
  | .offline | .connected | .stopped _ _ => .nothing
  | .capable caps => .caps caps
  | .selected s | .checked s | .validated s | .seeding s | .ready s | .ranged s _ _ => .session s
  | .fetched f => .fetch f
  | .evaluating b _ _ _ | .executing b _ _ _ _ _ | .advancing b _ _ _ | .idling b _ _ =>
      .fetch b.toFetch

@[simp] theorem known_enter (b : Batch) (done rest : List MessageContext) :
    (Phase.enter b done rest).known = .fetch b.toFetch := by
  cases rest <;> rfl

/-- How the knowledge after a call comes about. -/
inductive Learns (cfg : Settings) (ph : Phase) (w : World) : (c : Call) → Reply c → Known → Prop
  where
  | nothing {c : Call} {r : Reply c} : Learns cfg ph w c r .nothing
  | same {c : Call} {r : Reply c} (hc : ∀ mailbox, c ≠ .select mailbox) :
      Learns cfg ph w c r ph.known
  /-- The batch is over, the session goes on. -/
  | back {b : Batch} {done : List MessageContext} {allOk : Bool} {t : Nat}
      {r : Reply (.idle t)} (h : ph = .idling b done allOk) :
      Learns cfg ph w (.idle t) r (.session b.toSession)
  | caps (offered : Capabilities) : Learns cfg ph w .capabilities (.ok offered) (.caps offered)
  | session {caps : Capabilities} (status : MailboxStatus) (h : ph = .capable caps) :
      Learns cfg ph w (.select cfg.mailbox) (.ok status) (.session ⟨caps, status⟩)
  | fetch {s : Session} {state : State} {bookmark : Nat} (reply : List MessageContext)
      (h : ph = .ranged s state bookmark) :
      Learns cfg ph w
        (.fetchUidRange cfg.mailbox (MessageProcessor.startUid bookmark)
          ((cfg.processor s.caps).changedSince state)) (.ok reply)
        (.fetch ⟨s, bookmark, w, reply⟩)

theorem learns_next {cfg : Settings} {ph : Phase} {w : World} {c : Call} {r : Reply c}
    (hallow : ph.Allows cfg c) : Learns cfg ph w c r (ph.next cfg w c r).known := by
  have hmoves := moves_next (w := w) (r := r) hallow
  generalize ph.next cfg w c r = ph' at hmoves ⊢
  cases hmoves with
  | offline => exact .nothing
  | connected => exact .nothing
  | capable hidle => exact .caps _
  | selected status => exact .session status rfl
  | stopped hcached hne => exact .nothing
  | fetched reply => exact .fetch reply rfl
  | taken script =>
    rw [known_enter]
    exact .same (by simp)
  | performed hnext =>
    -- no operation selects a mailbox
    refine .same ?_
    rintro mailbox rfl
    cases ofOp_of_nextCall hnext
  | advanced =>
    rw [known_enter]
    exact .same (by simp)
  | woken => exact .back rfl
  | _ => exact .same (by simp)

/-- Only an answered FETCH leads into a batch. -/
theorem fetch?_next_none {cfg : Settings} {ph : Phase} {w : World} {c : Call} {r : Reply c}
    (hallow : ph.Allows cfg c) (hnone : ph.known.fetch? = none)
    (hranged : ∀ s state bookmark, ph ≠ .ranged s state bookmark) :
    (ph.next cfg w c r).known.fetch? = none := by
  have hlearns := learns_next (w := w) (r := r) hallow
  generalize (ph.next cfg w c r).known = k at hlearns
  cases hlearns with
  | nothing => rfl
  | same hc => exact hnone
  | back hph => rfl
  | caps offered => rfl
  | session status hph => rfl
  | fetch reply hph => exact absurd hph (hranged _ _ _)

/-! ## Section 2: From replies to phases -/

section Known

variable {S : Surroundings Call Reply World} {cfg : Settings} {w₀ w : World} {tr : History}

/-- What holds of all capabilities that the server reports holds of those a phase goes by. -/
theorem daemon_caps {F : Capabilities → Prop} (hx : Comes S cfg w₀ w tr)
    (hcaps : ∀ w caps w', S.answers w .capabilities (.ok caps) w' → F caps)
    {caps : Capabilities} (h : (phaseOf cfg tr).known.caps? = some caps) : F caps := by
  have hF : ∀ caps, (phaseOf cfg tr).known.caps? = some caps → F caps := by
    refine daemon_invariant (I := fun _ tr =>
      ∀ caps, (phaseOf cfg tr).known.caps? = some caps → F caps) hx ?_ ?_ ?_ ?_
    · intro caps h
      cases h
    · intro w tr c r w' _ h hallow hans caps hknown
      rw [phaseOf_called] at hknown
      have hlearns := learns_next (w := w) (r := r) hallow
      generalize ((phaseOf cfg tr).next cfg w c r).known = k at hknown hlearns
      cases hlearns with
      | nothing => cases hknown
      | same hc => exact h caps hknown
      | back hph => exact h caps (by rw [hph]; exact hknown)
      | caps caps =>
        cases hknown
        exact hcaps _ _ _ hans
      | session status hph => exact h caps (by rw [hph]; exact hknown)
      | fetch reply hph => exact h caps (by rw [hph]; exact hknown)
    · intro w w' tr _ h _
      exact h
    · intro w w' tr _ _ _ caps h
      cases h
  exact hF caps h

/-- What holds of every FETCH when it is answered holds of the FETCH of every phase. -/
theorem daemon_fetch {F : Fetch → Prop} (hS : Admissible S) (hx : Comes S cfg w₀ w tr)
    (hfetch : ∀ w tr s bookmark reply w', Comes S cfg w₀ w tr →
      phaseOf cfg tr = .ranged s w.memory bookmark →
      S.answers w (.fetchUidRange cfg.mailbox (MessageProcessor.startUid bookmark)
        ((cfg.processor s.caps).changedSince w.memory)) (.ok reply) w' →
      F ⟨s, bookmark, w, reply⟩) {f : Fetch} (hf : (phaseOf cfg tr).known.fetch? = some f) :
    F f := by
  have h : ∀ f, (phaseOf cfg tr).known.fetch? = some f → F f := by
    refine daemon_invariant (I := fun _ tr => ∀ f, (phaseOf cfg tr).known.fetch? = some f → F f)
      hx ?_ ?_ ?_ ?_
    · intro f h
      cases h
    · intro w tr c r w' hat h hallow hans f hknown
      rw [phaseOf_called] at hknown
      have hlearns := learns_next (w := w) (r := r) hallow
      generalize ((phaseOf cfg tr).next cfg w c r).known = k at hknown hlearns
      cases hlearns with
      | nothing => cases hknown
      | same hc => exact h f hknown
      | back hph => cases hknown
      | caps caps => cases hknown
      | session status hph => cases hknown
      | fetch reply hph =>
        cases hknown
        have hsound := daemon_sound hS hat
        rw [hph] at hsound
        obtain ⟨-, rfl, -⟩ := hsound
        exact hfetch w tr _ _ reply w' hat hph hans
    · intro w w' tr _ h _
      exact h
    · intro w w' tr _ _ _ f h
      cases h
  exact h f hf

end Known

end ImapSieve
