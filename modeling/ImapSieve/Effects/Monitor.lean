import ImapSieve.Effects.Contract

/-!
# Monitors

A monitor follows a run: it has a state, and every answered call moves it on. As the state
can be read off the trace, a monitor is a contract, and a program obeys it when it can be
walked through from state to state.

`Walks M q p P` says that from the state `q` the program `p` makes only calls that its
states allow, and returns in a state that fits its result. Its rules follow the program;
how the world answers and drifts does not matter to them.
-/

namespace Effects

variable {C : Type} {R : C → Type} {W : Type} {Q α β σ ρ : Type}

/-! ## Section 1: Monitors as contracts -/

structure Monitor (C : Type) (R : C → Type) (W : Type) (Q : Type) where
  start : Q
  /-- The state after a call was answered in a world. -/
  next : Q → W → (c : C) → R c → Q
  allows : Q → C → Prop
  /-- A loop may start a round. -/
  loops : Q → Prop

namespace Monitor

/-- The state after the calls answered since the process was last started. -/
def state (M : Monitor C R W Q) : Trace C R W → Q
  | [] => M.start
  | .restarted _ :: _ => M.start
  | .called w c r :: tr => M.next (M.state tr) w c r

def contract (M : Monitor C R W Q) : Contract C R W where
  allows c _ tr := M.allows (M.state tr) c
  loops _ tr := M.loops (M.state tr)

/-- From the state `q`, the program keeps to the monitor and returns with `P`. -/
def Walks (S : Surroundings C R W) (M : Monitor C R W Q) (q : Q) (p : Prog C R α)
    (P : α → Q → Prop) : Prop :=
  Obeys S M.contract (fun _ tr => M.state tr = q) p fun a _ tr => P a (M.state tr)

/-! ## Section 2: Rules -/

section Rules

variable {S : Surroundings C R W} {M : Monitor C R W Q} {q : Q}

theorem stable_of_trace {P : Trace C R W → Prop} : Stable S fun _ tr => P tr :=
  fun _ _ _ h _ => h

theorem walks_ret {a : α} {P : α → Q → Prop} (h : P a q) : M.Walks S q (.ret a) P := by
  refine obeys_ret stable_of_trace ?_
  rintro w tr rfl
  exact h

theorem walks_call {c : C} {k : R c → Prog C R α} {P : α → Q → Prop} (hallow : M.allows q c)
    (hk : ∀ w r w', S.answers w c r w' → M.Walks S (M.next q w c r) (k r) P) :
    M.Walks S q (.call c k) P := by
  refine obeys_call (M := fun r _ tr => ∃ w w', M.state tr = M.next q w c r ∧ S.answers w c r w')
    stable_of_trace ?_ ?_ ?_
  · rintro w tr rfl
    exact hallow
  · rintro w tr r w' rfl hans
    exact ⟨w, w', rfl, hans⟩
  · rintro r w tr ⟨w₁, w₂, hq, hans⟩
    exact hk w₁ r w₂ hans w tr hq

/-- Sequencing: whatever state the first part ends in, the second part goes on from there. -/
theorem walks_bind {p : Prog C R α} {f : α → Prog C R β} {P : α → Q → Prop} {P' : β → Q → Prop}
    (hp : M.Walks S q p P) (hf : ∀ a q', P a q' → M.Walks S q' (f a) P') :
    M.Walks S q (p >>= f) P' :=
  obeys_bind hp fun a w tr hP => hf a _ hP w tr rfl

/-- Sequencing of programs that may fail: an error is passed on. -/
theorem walks_bindExcept {ε : Type} {p : ExceptT ε (Prog C R) α} {f : α → ExceptT ε (Prog C R) β}
    {P : Except ε α → Q → Prop} {P' : Except ε β → Q → Prop} (hp : M.Walks S q p.run P)
    (herr : ∀ e q', P (.error e) q' → P' (.error e) q')
    (hf : ∀ a q', P (.ok a) q' → M.Walks S q' (f a).run P') : M.Walks S q (p >>= f).run P' := by
  rw [ExceptT.run_bind]
  refine walks_bind hp ?_
  rintro (e | a) q' hP
  · exact walks_ret (herr e q' hP)
  · exact hf a q' hP

/-- A loop whose rounds start in states that allow it. -/
theorem walks_loop {body : σ → Prog C R (σ ⊕ ρ)} {s : σ} {I : σ → Q → Prop} {P : ρ → Q → Prop}
    (hI : I s q) (hloops : ∀ s q, I s q → M.loops q)
    (hbody : ∀ s q, I s q → M.Walks S q (body s) fun
      | .inl s', q' => I s' q'
      | .inr r, q' => P r q') : M.Walks S q (Prog.loop body s) P := by
  refine (obeys_iter (I := fun s _ tr => I s (M.state tr)) (M := fun r _ tr => P r (M.state tr))
    (fun _ => stable_of_trace) ?_ ?_ fun _ => obeys_ret stable_of_trace fun _ _ h => h).pre
    fun _ _ hq => ?_
  · intro s w tr h
    exact hloops s _ h
  · intro s w tr h
    refine (hbody s _ h).post ?_ w tr rfl
    rintro (s' | r) w tr h
    · exact h
    · exact h
  · rwa [hq]

/-- Consequence for what is returned. -/
theorem Walks.post {p : Prog C R α} {P P' : α → Q → Prop} (h : M.Walks S q p P)
    (hpost : ∀ a q', P a q' → P' a q') : M.Walks S q p P' :=
  Obeys.post h fun a _ _ hP => hpost a _ hP

end Rules

/-! ## Section 3: Parts of a program that a monitor does not notice -/

/-- The contract to make calls of one kind only. -/
def only (calls : C → Prop) : Contract C R W where
  allows c _ _ := calls c
  loops _ _ := True

section Only

variable {S : Surroundings C R W} {calls : C → Prop}

theorem only_ret {a : α} {P : α → Prop} (h : P a) :
    Obeys S (only calls) (fun _ _ => True) (.ret a) fun a _ _ => P a :=
  obeys_ret (fun _ _ _ h _ => h) fun _ _ _ => h

theorem only_call {c : C} {k : R c → Prog C R α} {P : α → Prop} (hc : calls c)
    (hk : ∀ w r w', S.answers w c r w' →
      Obeys S (only calls) (fun _ _ => True) (k r) fun a _ _ => P a) :
    Obeys S (only calls) (fun _ _ => True) (.call c k) fun a _ _ => P a := by
  refine obeys_call (M := fun r _ _ => ∃ w w', S.answers w c r w') (fun _ _ _ h _ => h) ?_ ?_ ?_
  · intro _ _ _
    exact hc
  · intro w tr r w' _ hans
    exact ⟨w, w', hans⟩
  · rintro r w tr ⟨w₁, w₂, hans⟩
    exact hk w₁ r w₂ hans w tr trivial

theorem only_bind {p : Prog C R α} {f : α → Prog C R β} {P : α → Prop} {Q : β → Prop}
    (hp : Obeys S (only calls) (fun _ _ => True) p fun a _ _ => P a)
    (hf : ∀ a, P a → Obeys S (only calls) (fun _ _ => True) (f a) fun a _ _ => Q a) :
    Obeys S (only calls) (fun _ _ => True) (p >>= f) fun a _ _ => Q a :=
  obeys_bind hp fun a w tr hP => hf a hP w tr trivial

/-- What is added to the trace are calls of the kind. -/
theorem calls_of_only {p : Prog C R α} {Q : α → Assertion C R W}
    (h : Obeys S (only calls) (fun _ _ => True) p Q) {w : W} {x : Config C R W α}
    (hx : Steps S ⟨p, w, []⟩ x) : ∀ e ∈ x.trace, ∃ w c r, e = .called w c r ∧ calls c := by
  induction hx with
  | refl =>
    intro e he
    cases he
  | @tail y z hpath hstep ih =>
    have hcomp := h w [] trivial y hpath
    cases hstep with
    | @call c k w₁ w₂ tr₁ r hans =>
      intro e he
      rcases List.mem_cons.mp he with rfl | hold
      · exact ⟨_, _, _, rfl, hcomp⟩
      · exact ih e hold
    | unroll => exact ih
    | drift _ => exact ih

/-- What the calls of the kind and the drift preserve. -/
theorem world_of_only {p : Prog C R α} {Q : α → Assertion C R W} {I : W → Prop}
    (h : Obeys S (only calls) (fun _ _ => True) p Q)
    (hcall : ∀ w c r w', calls c → S.answers w c r w' → I w → I w')
    (hdrift : ∀ w w', S.drifts w w' → I w → I w') {w : W} {tr : Trace C R W}
    {x : Config C R W α} (hx : Steps S ⟨p, w, tr⟩ x) (hI : I w) : I x.world := by
  induction hx with
  | refl => exact hI
  | @tail y z hpath hstep ih =>
    have hcomp := h w tr trivial y hpath
    cases hstep with
    | call hans => exact hcall _ _ _ _ hcomp hans ih
    | unroll => exact ih
    | drift hd => exact hdrift _ _ hd ih

end Only

/-- A part of a program whose calls keep the state of a monitor is walked through in it. -/
theorem walks_of_only {S : Surroundings C R W} {M : Monitor C R W Q} {q : Q} {p : Prog C R α}
    {calls : C → Prop} {P : α → Prop}
    (h : Obeys S (only calls) (fun _ _ => True) p fun a _ _ => P a)
    (hallow : ∀ c, calls c → M.allows q c) (hloops : M.loops q)
    (hnext : ∀ c w r, calls c → M.next q w c r = q) :
    M.Walks S q p fun a q' => q' = q ∧ P a := by
  intro w tr hq x hx
  -- the calls of the part leave the state as it was
  have hstate : M.state x.trace = q := by
    induction hx with
    | refl => exact hq
    | @tail y z hpath hstep ih =>
      have hcomp := h w tr trivial y hpath
      cases hstep with
      | @call c k w₁ w₂ tr₁ r hans =>
        have hcalls : calls c := hcomp
        simp only [state]
        rw [ih, hnext c w₁ r hcalls]
      | unroll => exact ih
      | drift _ => exact ih
  have hcomp := h w tr trivial x hx
  obtain ⟨p', w', tr'⟩ := x
  simp only at hstate
  cases p' with
  | ret a => exact ⟨hstate, hcomp⟩
  | call c k =>
    have hcalls : calls c := hcomp
    have hgoal : M.allows (M.state tr') c := by
      rw [hstate]
      exact hallow c hcalls
    exact hgoal
  | iter body s k =>
    have hgoal : M.loops (M.state tr') := by
      rw [hstate]
      exact hloops
    exact hgoal

/-! ## Section 4: Two monitors at once -/

section Product

variable {Q' : Type}

/-- Both monitors follow the run, and a call has to be allowed by both. -/
def prod (M : Monitor C R W Q) (M' : Monitor C R W Q') : Monitor C R W (Q × Q') where
  start := (M.start, M'.start)
  next q w c r := (M.next q.1 w c r, M'.next q.2 w c r)
  allows q c := M.allows q.1 c ∧ M'.allows q.2 c
  loops q := M.loops q.1 ∧ M'.loops q.2

@[simp] theorem state_prod (M : Monitor C R W Q) (M' : Monitor C R W Q') (tr : Trace C R W) :
    (M.prod M').state tr = (M.state tr, M'.state tr) := by
  induction tr with
  | nil => rfl
  | cons e tr ih =>
    cases e with
    | restarted w => rfl
    | called w c r =>
      simp only [state, ih]
      rfl

/-- A program that both monitors walk through is walked through by both at once. -/
theorem Walks.prod {S : Surroundings C R W} {M : Monitor C R W Q} {M' : Monitor C R W Q'} {q : Q}
    {q' : Q'} {p : Prog C R α} {P : α → Q → Prop} {P' : α → Q' → Prop} (h : M.Walks S q p P)
    (h' : M'.Walks S q' p P') :
    (M.prod M').Walks S (q, q') p fun a qs => P a qs.1 ∧ P' a qs.2 := by
  intro w tr hq x hx
  rw [state_prod] at hq
  obtain ⟨hq₁, hq₂⟩ := Prod.mk.inj hq
  have hcomp := h w tr hq₁ x hx
  have hcomp' := h' w tr hq₂ x hx
  obtain ⟨p', w', tr'⟩ := x
  cases p' with
  | ret a =>
    simp only [Contract.Complies, state_prod]
    exact ⟨hcomp, hcomp'⟩
  | call c k =>
    simp only [Contract.Complies, contract, state_prod]
    exact ⟨hcomp, hcomp'⟩
  | iter body s k =>
    simp only [Contract.Complies, contract, state_prod]
    exact ⟨hcomp, hcomp'⟩

end Product

/-! ## Section 5: Processes under a monitor -/

/-- Every configuration of a process is within the monitor that its program is walked through
by. -/
theorem complies {S : Surroundings C R W} {M : Monitor C R W Q} {main : Prog C R α}
    {P : α → Q → Prop} {w₀ : W} {x : Config C R W α} (h : M.Walks S M.start main P)
    (hx : Reachable S main w₀ x) :
    M.contract.Complies (fun a _ tr => P a (M.state tr)) x :=
  hx.complies h rfl fun _ _ _ _ => rfl

end Monitor

end Effects
