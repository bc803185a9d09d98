import ImapSieve.Effects.Run

/-!
# Contracts for Effectful Programs

A contract says which calls a program may make, given the world and the trace of what
was answered before. `Obeys S K P p Q` is the triple: started where `P` holds, every call
that `p` makes is allowed by the contract `K`, in any run in the surroundings `S`, and `Q`
holds of what `p` returns.

Because the trace is at hand, a contract can be a whole protocol. A program is checked
against its protocol once, with the rules of Section 2. After that, what holds over all
runs of the program is proved about the protocol alone, with `Visits.invariant`.

## Interference

The world may drift between any two steps, so preconditions and loop invariants have to
be `Stable`.
-/

namespace Effects

variable {C : Type} {R : C → Type} {W : Type} {α β γ σ ρ : Type}

/-! ## Section 1: Contracts and triples -/

/-- An assertion about the world and the trace. -/
abbrev Assertion (C : Type) (R : C → Type) (W : Type) := W → Trace C R W → Prop

/-- What a program promises while it runs. -/
structure Contract (C : Type) (R : C → Type) (W : Type) where
  /-- The call may be made now. -/
  allows : C → Assertion C R W
  /-- A loop may start a round now. -/
  loops : Assertion C R W

/-- The assertion survives what happens between steps. -/
def Stable (S : Surroundings C R W) (P : Assertion C R W) : Prop :=
  ∀ w w' tr, P w tr → S.drifts w w' → P w' tr

/-- The configuration is within the contract: its next call is allowed, or it has returned
with the postcondition. -/
def Contract.Complies (K : Contract C R W) (Q : α → Assertion C R W) (x : Config C R W α) :
    Prop :=
  match x.prog with
  | .ret a => Q a x.world x.trace
  | .call c _ => K.allows c x.world x.trace
  | .iter _ _ _ => K.loops x.world x.trace

/-- From `P`, the program `p` keeps to the contract and returns with `Q`. -/
def Obeys (S : Surroundings C R W) (K : Contract C R W) (P : Assertion C R W)
    (p : Prog C R α) (Q : α → Assertion C R W) : Prop :=
  ∀ w tr, P w tr → ∀ x, Steps S ⟨p, w, tr⟩ x → K.Complies Q x

/-! ## Section 2: Rules -/

section Rules

variable {S : Surroundings C R W} {K : Contract C R W} {P P' : Assertion C R W}

/-- The rule of consequence. -/
theorem Obeys.consequence {p : Prog C R α} {Q Q' : α → Assertion C R W}
    (h : Obeys S K P p Q) (hpre : ∀ w tr, P' w tr → P w tr)
    (hpost : ∀ a w tr, Q a w tr → Q' a w tr) : Obeys S K P' p Q' := by
  intro w tr hP x hx
  have hcomp := h w tr (hpre w tr hP) x hx
  obtain ⟨p', w', tr'⟩ := x
  cases p' with
  | ret a => exact hpost a w' tr' hcomp
  | call c k => exact hcomp
  | iter body s k => exact hcomp

theorem Obeys.pre {p : Prog C R α} {Q : α → Assertion C R W} (h : Obeys S K P p Q)
    (hpre : ∀ w tr, P' w tr → P w tr) : Obeys S K P' p Q :=
  h.consequence hpre fun _ _ _ hQ => hQ

theorem Obeys.post {p : Prog C R α} {Q Q' : α → Assertion C R W} (h : Obeys S K P p Q)
    (hpost : ∀ a w tr, Q a w tr → Q' a w tr) : Obeys S K P p Q' :=
  h.consequence (fun _ _ hP => hP) hpost

/-- A returned program can only watch the world drift. -/
theorem steps_ret {a : α} {w : W} {tr : Trace C R W} {x : Config C R W α}
    (hP : P w tr) (hstable : Stable S P) (h : Steps S ⟨.ret a, w, tr⟩ x) :
    x.prog = .ret a ∧ P x.world x.trace := by
  induction h with
  | refl => exact ⟨rfl, hP⟩
  | tail _ hstep ih =>
    obtain ⟨hprog, hworld⟩ := ih
    cases hstep with
    | call _ => cases hprog
    | unroll => cases hprog
    | drift hd => exact ⟨hprog, hstable _ _ _ hworld hd⟩

theorem obeys_ret {a : α} {Q : α → Assertion C R W} (hstable : Stable S P)
    (h : ∀ w tr, P w tr → Q a w tr) : Obeys S K P (.ret a) Q := by
  intro w tr hP x hx
  obtain ⟨hprog, hworld⟩ := steps_ret hP hstable hx
  obtain ⟨p, w', tr'⟩ := x
  simp only at hprog
  subst hprog
  exact h w' tr' hworld

/-- Before a call is answered the world only drifts; after that the continuation runs. -/
theorem steps_call {c : C} {k : R c → Prog C R α} {w : W} {tr : Trace C R W}
    {x : Config C R W α} (hP : P w tr) (hstable : Stable S P)
    (h : Steps S ⟨.call c k, w, tr⟩ x) :
    (x.prog = .call c k ∧ x.trace = tr ∧ P x.world tr) ∨
      ∃ w₁ r w₂, P w₁ tr ∧ S.answers w₁ c r w₂ ∧ Steps S ⟨k r, w₂, .called w₁ c r :: tr⟩ x := by
  induction h with
  | refl => exact .inl ⟨rfl, rfl, hP⟩
  | tail _ hstep ih =>
    rcases ih with ⟨hprog, htrace, hworld⟩ | ⟨w₁, r, w₂, hP₁, hans, hsteps⟩
    · cases hstep with
      | call hans =>
        obtain ⟨rfl, rfl⟩ := Prog.call.inj hprog
        simp only at htrace hworld
        subst htrace
        exact .inr ⟨_, _, _, hworld, hans, .refl⟩
      | unroll => cases hprog
      | drift hd => exact .inl ⟨hprog, htrace, hstable _ _ _ hworld hd⟩
    · exact .inr ⟨w₁, r, w₂, hP₁, hans, hsteps.tail hstep⟩

/-- A call: it has to be allowed, and the continuation obeys from what the answer leaves. -/
theorem obeys_call {c : C} {k : R c → Prog C R α} {Q : α → Assertion C R W}
    {M : R c → Assertion C R W} (hstable : Stable S P)
    (hallow : ∀ w tr, P w tr → K.allows c w tr)
    (hans : ∀ w tr r w', P w tr → S.answers w c r w' → M r w' (.called w c r :: tr))
    (hk : ∀ r, Obeys S K (M r) (k r) Q) : Obeys S K P (.call c k) Q := by
  intro w tr hP x hx
  rcases steps_call hP hstable hx with ⟨hprog, htrace, hworld⟩ | ⟨w₁, r, w₂, hP₁, ha, hsteps⟩
  · obtain ⟨p, w', tr'⟩ := x
    simp only at hprog htrace hworld
    subst hprog htrace
    exact hallow w' tr' hworld
  · exact hk r w₂ _ (hans w₁ tr r w₂ hP₁ ha) x hsteps

/-- A step of `p >>= f` while `p` has not returned is a step of `p`. -/
theorem Step.of_bind {p : Prog C R α} {f : α → Prog C R β} {w : W} {tr : Trace C R W}
    {y : Config C R W β} (h : Step S ⟨p >>= f, w, tr⟩ y) (hp : ∀ a, p ≠ .ret a) :
    ∃ p', Step S ⟨p, w, tr⟩ ⟨p', y.world, y.trace⟩ ∧ y.prog = p' >>= f := by
  cases p with
  | ret a => exact absurd rfl (hp a)
  | call c k =>
    cases h with
    | call hans => exact ⟨_, .call hans, rfl⟩
    | drift hd => exact ⟨_, .drift hd, rfl⟩
  | iter body s k =>
    cases h with
    | unroll =>
      refine ⟨body s >>= Prog.next body k, .unroll, ?_⟩
      rw [bind_assoc, Prog.next_bind]
      rfl
    | drift hd => exact ⟨_, .drift hd, rfl⟩

/-- A run of `p >>= f` is a run of `p`, followed by one of `f` once `p` has returned. -/
theorem steps_bind {p : Prog C R α} {f : α → Prog C R β} {w : W} {tr : Trace C R W}
    {x : Config C R W β} (h : Steps S ⟨p >>= f, w, tr⟩ x) :
    (∃ p', Steps S ⟨p, w, tr⟩ ⟨p', x.world, x.trace⟩ ∧ x.prog = p' >>= f) ∨
      ∃ a w₁ tr₁, Steps S ⟨p, w, tr⟩ ⟨.ret a, w₁, tr₁⟩ ∧ Steps S ⟨f a, w₁, tr₁⟩ x := by
  induction h with
  | refl => exact .inl ⟨p, .refl, rfl⟩
  | @tail y z _ hstep ih =>
    rcases ih with ⟨p', hsteps, hprog⟩ | ⟨a, w₁, tr₁, hp, hf⟩
    · obtain ⟨q, w', tr'⟩ := y
      simp only at hprog hsteps
      subst hprog
      by_cases hret : ∃ a, p' = .ret a
      · obtain ⟨a, rfl⟩ := hret
        exact .inr ⟨a, w', tr', hsteps, .single hstep⟩
      · obtain ⟨p'', hstep', hprog'⟩ := hstep.of_bind fun a ha => hret ⟨a, ha⟩
        exact .inl ⟨p'', hsteps.tail hstep', hprog'⟩
    · exact .inr ⟨a, w₁, tr₁, hp, hf.tail hstep⟩

/-- A call in a run that returns was answered. -/
theorem steps_call_ret {c : C} {k : R c → Prog C R α} {a : α} {w w' : W} {tr tr' : Trace C R W}
    {I : W → Prop} (hI : I w) (hdrift : ∀ w w', S.drifts w w' → I w → I w')
    (h : Steps S ⟨.call c k, w, tr⟩ ⟨.ret a, w', tr'⟩) :
    ∃ w₁ r w₂, I w₁ ∧ S.answers w₁ c r w₂ ∧
      Steps S ⟨k r, w₂, .called w₁ c r :: tr⟩ ⟨.ret a, w', tr'⟩ := by
  rcases steps_call (P := fun w _ => I w) hI (fun w w' _ hw hd => hdrift w w' hd hw) h with
      ⟨hprog, -⟩ | hrest
  · cases hprog
  · exact hrest

/-- In a run that returns, the first part returned. -/
theorem steps_bind_ret {p : Prog C R α} {f : α → Prog C R β} {b : β} {w w' : W}
    {tr tr' : Trace C R W} (h : Steps S ⟨p >>= f, w, tr⟩ ⟨.ret b, w', tr'⟩) :
    ∃ a w₁ tr₁, Steps S ⟨p, w, tr⟩ ⟨.ret a, w₁, tr₁⟩ ∧
      Steps S ⟨f a, w₁, tr₁⟩ ⟨.ret b, w', tr'⟩ := by
  rcases steps_bind h with ⟨p', hsteps, hprog⟩ | hrest
  · cases p' with
    | ret a =>
      have hf : f a = .ret b := hprog.symm
      exact ⟨a, w', tr', hsteps, hf ▸ .refl⟩
    | call c k => cases hprog
    | iter body s k => cases hprog
  · exact hrest

/-- Compliance of the first part is compliance of the whole, until the first part returns. -/
theorem Contract.Complies.bind {p : Prog C R α} {f : α → Prog C R β} {w : W}
    {tr : Trace C R W} {M : α → Assertion C R W} {Q : β → Assertion C R W}
    (h : K.Complies M ⟨p, w, tr⟩)
    (hret : ∀ a, M a w tr → K.Complies Q ⟨f a, w, tr⟩) :
    K.Complies Q ⟨p >>= f, w, tr⟩ := by
  cases p with
  | ret a => exact hret a h
  | call c k => exact h
  | iter body s k => exact h

/-- Sequencing. -/
theorem obeys_bind {p : Prog C R α} {f : α → Prog C R β} {M : α → Assertion C R W}
    {Q : β → Assertion C R W} (hp : Obeys S K P p M)
    (hf : ∀ a, Obeys S K (M a) (f a) Q) : Obeys S K P (p >>= f) Q := by
  intro w tr hP x hx
  rcases steps_bind hx with ⟨p', hsteps, hprog⟩ | ⟨a, w₁, tr₁, hsteps, hx'⟩
  · obtain ⟨q, w', tr'⟩ := x
    simp only at hprog hsteps
    subst hprog
    exact (hp w tr hP _ hsteps).bind fun a hM => hf a w' tr' hM _ .refl
  · exact hf a w₁ tr₁ (hp w tr hP _ hsteps) x hx'

/-- A loop at rest, in the middle of a round, or left for good. -/
theorem steps_iter {body : σ → Prog C R (σ ⊕ ρ)} {s : σ} {k : ρ → Prog C R α} {w : W}
    {tr : Trace C R W} {x : Config C R W α} {I : σ → Assertion C R W}
    {M : ρ → Assertion C R W} (hstable : ∀ s, Stable S (I s))
    (hbody : ∀ s, Obeys S K (I s) (body s) fun | .inl s' => I s' | .inr r => M r)
    (hI : I s w tr) (h : Steps S ⟨.iter body s k, w, tr⟩ x) :
    (∃ s', x.prog = .iter body s' k ∧ I s' x.world x.trace) ∨
      (∃ s' w₁ tr₁ p', I s' w₁ tr₁ ∧ Steps S ⟨body s', w₁, tr₁⟩ ⟨p', x.world, x.trace⟩ ∧
        x.prog = p' >>= Prog.next body k) ∨
      ∃ r w₁ tr₁, M r w₁ tr₁ ∧ Steps S ⟨k r, w₁, tr₁⟩ x := by
  induction h with
  | refl => exact .inl ⟨s, rfl, hI⟩
  | @tail y z _ hstep ih =>
    obtain ⟨q, w', tr'⟩ := y
    -- a step of the loop at rest starts a round or lets the world drift
    have hrest : ∀ s', I s' w' tr' → q = .iter body s' k →
        (∃ s', z.prog = .iter body s' k ∧ I s' z.world z.trace) ∨
          ∃ s' w₁ tr₁ p', I s' w₁ tr₁ ∧ Steps S ⟨body s', w₁, tr₁⟩ ⟨p', z.world, z.trace⟩ ∧
            z.prog = p' >>= Prog.next body k := by
      rintro s' hI' rfl
      cases hstep with
      | unroll => exact .inr ⟨s', w', tr', body s', hI', .refl, rfl⟩
      | drift hd => exact .inl ⟨s', rfl, hstable s' _ _ _ hI' hd⟩
    rcases ih with ⟨s', hprog, hI'⟩ | ⟨s', w₁, tr₁, p', hI', hsteps, hprog⟩ |
        ⟨r, w₁, tr₁, hM, hsteps⟩
    · exact (hrest s' hI' hprog).imp_right .inl
    · simp only at hprog hsteps
      subst hprog
      have hcomp := hbody s' w₁ tr₁ hI' _ hsteps
      by_cases hret : ∃ a, p' = .ret a
      · obtain ⟨a | r, rfl⟩ := hret
        · exact (hrest a hcomp rfl).imp_right .inl
        · exact .inr (.inr ⟨r, w', tr', hcomp, .single hstep⟩)
      · obtain ⟨p'', hstep', hprog'⟩ := hstep.of_bind fun a ha => hret ⟨a, ha⟩
        exact .inr (.inl ⟨s', w₁, tr₁, p'', hI', hsteps.tail hstep', hprog'⟩)
    · exact .inr (.inr ⟨r, w₁, tr₁, hM, hsteps.tail hstep⟩)

/-- A loop with the invariant `I`. -/
theorem obeys_iter {body : σ → Prog C R (σ ⊕ ρ)} {s : σ} {k : ρ → Prog C R α}
    {I : σ → Assertion C R W} {M : ρ → Assertion C R W} {Q : α → Assertion C R W}
    (hstable : ∀ s, Stable S (I s)) (hloops : ∀ s w tr, I s w tr → K.loops w tr)
    (hbody : ∀ s, Obeys S K (I s) (body s) fun | .inl s' => I s' | .inr r => M r)
    (hk : ∀ r, Obeys S K (M r) (k r) Q) : Obeys S K (I s) (.iter body s k) Q := by
  intro w tr hI x hx
  obtain ⟨q, w', tr'⟩ := x
  rcases steps_iter hstable hbody hI hx with ⟨s', hprog, hI'⟩ |
      ⟨s', w₁, tr₁, p', hI', hsteps, hprog⟩ | ⟨r, w₁, tr₁, hM, hsteps⟩
  · simp only at hprog hI'
    subst hprog
    exact hloops s' w' tr' hI'
  · simp only at hprog hsteps
    subst hprog
    refine (hbody s' w₁ tr₁ hI' _ hsteps).bind ?_
    rintro (a | r) hM
    · exact hloops a w' tr' hM
    · exact hk r w' tr' hM _ .refl
  · exact hk r w₁ tr₁ hM _ hsteps

/-- Sequencing of programs that may fail: the second part runs where the first went well. -/
theorem obeys_bindExcept {ε : Type} {p : ExceptT ε (Prog C R) α} {f : α → ExceptT ε (Prog C R) β}
    {M : Except ε α → Assertion C R W} {Q : Except ε β → Assertion C R W}
    (hstable : ∀ e, Stable S (M (.error e))) (hp : Obeys S K P p.run M)
    (hf : ∀ a, Obeys S K (M (.ok a)) (f a).run Q)
    (herror : ∀ e w tr, M (.error e) w tr → Q (.error e) w tr) :
    Obeys S K P (p >>= f).run Q := by
  rw [ExceptT.run_bind]
  refine obeys_bind hp fun r => ?_
  cases r with
  | ok a => exact hf a
  | error e => exact obeys_ret (hstable e) (herror e)

/-- The handler runs where the first part failed. -/
theorem obeys_tryCatch {ε : Type} {p : ExceptT ε (Prog C R) α} {f : ε → ExceptT ε (Prog C R) α}
    {M Q : Except ε α → Assertion C R W} (hstable : ∀ a, Stable S (M (.ok a)))
    (hp : Obeys S K P p.run M) (hok : ∀ a w tr, M (.ok a) w tr → Q (.ok a) w tr)
    (hf : ∀ e, Obeys S K (M (.error e)) (f e).run Q) : Obeys S K P (tryCatch p f).run Q := by
  refine obeys_bind hp fun r => ?_
  cases r with
  | ok a => exact obeys_ret (hstable a) (hok a)
  | error e => exact hf e

end Rules

/-- The contract to keep to an assertion. -/
def Contract.always (I : Assertion C R W) : Contract C R W where
  allows _ := I
  loops := I

/-- An assertion that holds all the time may be weakened. -/
theorem Obeys.weaken {S : Surroundings C R W} {I I' P : Assertion C R W} {p : Prog C R α}
    {Q : α → Assertion C R W} (h : Obeys S (.always I) P p Q)
    (hI : ∀ w tr, I w tr → I' w tr) : Obeys S (.always I') P p Q := by
  intro w tr hP x hx
  have hcomp := h w tr hP x hx
  obtain ⟨q, w', tr'⟩ := x
  cases q with
  | ret a => exact hcomp
  | call c k => exact hI w' tr' hcomp
  | iter body s k => exact hI w' tr' hcomp

/-- A program that keeps to an assertion and returns with it satisfies it all the time. -/
theorem Obeys.always {S : Surroundings C R W} {I P : Assertion C R W} {p : Prog C R α}
    {Q : α → Assertion C R W} (h : Obeys S (.always I) P p Q)
    (hret : ∀ a w tr, Q a w tr → I w tr) {w : W} {tr : Trace C R W} (hP : P w tr)
    {x : Config C R W α} (hx : Steps S ⟨p, w, tr⟩ x) : I x.world x.trace := by
  have hcomp := h w tr hP x hx
  obtain ⟨q, w', tr'⟩ := x
  cases q with
  | ret a => exact hret a w' tr' hcomp
  | call c k => exact hcomp
  | iter body s k => exact hcomp

/-! ## Section 3: From one program to all runs of a process -/

section Processes

variable {S : Surroundings C R W} {K : Contract C R W} {P : Assertion C R W}
  {main : Prog C R α} {Q : α → Assertion C R W} {w₀ : W} {x : Config C R W α}

/-- Every configuration of a process is reached by one run of its program, from a start that
satisfies what holds of the first start and survives loss and restart. -/
theorem Reachable.from_start (hx : Reachable S main w₀ x) (hstart : P w₀ [])
    (hagain : ∀ w tr y w', P w tr → Steps S ⟨main, w, tr⟩ y → S.restarts y.world w' →
      P w' (.restarted y.world :: y.trace)) :
    ∃ w tr, P w tr ∧ Steps S ⟨main, w, tr⟩ x := by
  induction hx with
  | start => exact ⟨w₀, [], hstart, .refl⟩
  | step _ h ih =>
    obtain ⟨w, tr, hP, hsteps⟩ := ih
    exact ⟨w, tr, hP, hsteps.tail h⟩
  | restart _ h ih =>
    obtain ⟨w, tr, hP, hsteps⟩ := ih
    exact ⟨_, _, hagain w tr _ _ hP hsteps h, .refl⟩

/-- Every configuration of a process that is started again with other programs is reached by one
run of the program it runs as, from a start that satisfies what holds of every start. -/
theorem Lives.from_start {ι : Type} {main : ι → Prog C R α} {i : ι} (hx : Lives S main w₀ i x)
    (hstart : P w₀ []) (hrestart : ∀ w w' tr, S.restarts w w' → P w' (.restarted w :: tr)) :
    ∃ w tr, P w tr ∧ Steps S ⟨main i, w, tr⟩ x := by
  induction hx with
  | start i => exact ⟨w₀, [], hstart, .refl⟩
  | step _ h ih =>
    obtain ⟨w, tr, hP, hsteps⟩ := ih
    exact ⟨w, tr, hP, hsteps.tail h⟩
  | restart j _ h => exact ⟨_, _, hrestart _ _ _ h, .refl⟩

/-- Every configuration of a process is within the contract of the program it runs as. -/
theorem Lives.complies {ι : Type} {main : ι → Prog C R α} {i : ι} {K : ι → Contract C R W}
    {Q : ι → α → Assertion C R W} (hx : Lives S main w₀ i x)
    (hobeys : ∀ i, Obeys S (K i) P (main i) (Q i)) (hstart : P w₀ [])
    (hrestart : ∀ w w' tr, S.restarts w w' → P w' (.restarted w :: tr)) :
    (K i).Complies (Q i) x := by
  obtain ⟨w, tr, hP, hsteps⟩ := hx.from_start hstart hrestart
  exact hobeys i w tr hP x hsteps

/-- The invariant rule for processes that are started again with other programs: what holds at
the start and is preserved by the calls that the program's contract allows, by drift and by
restarts as whatever program holds wherever the process comes. The programs themselves do not
occur in the premises, and what is already known of the places it comes to may be used. -/
theorem Lives.invariant {ι : Type} {main : ι → Prog C R α} {i : ι} {K : ι → Contract C R W}
    {Q : ι → α → Assertion C R W} {I : ι → Assertion C R W} (hx : Lives S main w₀ i x)
    (hobeys : ∀ i, Obeys S (K i) P (main i) (Q i)) (hstart : P w₀ [])
    (hrestart : ∀ w w' tr, S.restarts w w' → P w' (.restarted w :: tr))
    (hinit : ∀ i, I i w₀ [])
    (hcall : ∀ i p w tr c r w', Lives S main w₀ i ⟨p, w, tr⟩ → I i w tr → (K i).allows c w tr →
      S.answers w c r w' → I i w' (.called w c r :: tr))
    (hdrift : ∀ i p w w' tr, Lives S main w₀ i ⟨p, w, tr⟩ → I i w tr → S.drifts w w' → I i w' tr)
    (hlost : ∀ i j p w w' tr, Lives S main w₀ i ⟨p, w, tr⟩ → I i w tr → S.restarts w w' →
      I j w' (.restarted w :: tr)) : I i x.world x.trace := by
  induction hx with
  | start i => exact hinit i
  | step hx h ih =>
    have hcomp := hx.complies hobeys hstart hrestart
    cases h with
    | call hans => exact hcall _ _ _ _ _ _ _ hx ih hcomp hans
    | unroll => exact ih
    | drift hd => exact hdrift _ _ _ _ _ hx ih hd
  | restart j hx h ih => exact hlost _ j _ _ _ _ hx ih h

/-- Every configuration of a process is within the contract its program obeys. -/
theorem Reachable.complies (hx : Reachable S main w₀ x) (hobeys : Obeys S K P main Q)
    (hstart : P w₀ []) (hrestart : ∀ w w' tr, S.restarts w w' → P w' (.restarted w :: tr)) :
    K.Complies Q x := by
  have hlives : Lives S (fun _ => main) w₀ () x := hx.lives
  exact hlives.complies (K := fun _ => K) (Q := fun _ => Q) (fun _ => hobeys) hstart hrestart

/-- The process comes to the world `w` with the trace `tr`. -/
def Visits (S : Surroundings C R W) (main : Prog C R α) (w₀ : W) : Assertion C R W :=
  fun w tr => ∃ p, Reachable S main w₀ ⟨p, w, tr⟩

theorem Reachable.visits (hx : Reachable S main w₀ x) : Visits S main w₀ x.world x.trace :=
  ⟨x.prog, hx⟩

/-- The invariant rule for processes with one program. -/
theorem Visits.invariant {I : Assertion C R W} {w : W} {tr : Trace C R W}
    (hx : Visits S main w₀ w tr) (hobeys : Obeys S K P main Q) (hstart : P w₀ [])
    (hrestart : ∀ w w' tr, S.restarts w w' → P w' (.restarted w :: tr)) (hinit : I w₀ [])
    (hcall : ∀ w tr c r w', Visits S main w₀ w tr → I w tr → K.allows c w tr →
      S.answers w c r w' → I w' (.called w c r :: tr))
    (hdrift : ∀ w w' tr, Visits S main w₀ w tr → I w tr → S.drifts w w' → I w' tr)
    (hlost : ∀ w w' tr, Visits S main w₀ w tr → I w tr → S.restarts w w' →
      I w' (.restarted w :: tr)) : I w tr := by
  obtain ⟨p, hx⟩ := hx
  have hlives : Lives S (fun _ => main) w₀ () ⟨p, w, tr⟩ := hx.lives
  refine hlives.invariant (K := fun _ => K) (Q := fun _ => Q) (I := fun _ => I)
    (fun _ => hobeys) hstart hrestart (fun _ => hinit) ?_ ?_ ?_
  · intro _ p w tr c r w' hx hI
    exact hcall w tr c r w' ⟨p, hx.reachable⟩ hI
  · intro _ p w w' tr hx
    exact hdrift w w' tr ⟨p, hx.reachable⟩
  · intro _ _ p w w' tr hx
    exact hlost w w' tr ⟨p, hx.reachable⟩

end Processes

end Effects
