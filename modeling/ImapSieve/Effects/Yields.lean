import ImapSieve.Effects.Handler

/-!
# Results of Programs

What a program returns may be known without knowing how its calls are answered. `Yields P p` says
that `p` returns only with `P`. It has the rules of a monitor, and it outlives handlers: a handled
program returns what the program may return (`Monitor.walks_handle_yields`).

In the same way the calls of a program may be followed without knowing their answers, and what
follows them follows an embedded program, too (`Monitor.walks_embed`).
-/

namespace Effects

variable {C C' : Type} {R : C → Type} {R' : C' → Type} {W W' : Type} {α β σ ρ τ : Type}

/-- Any call may be answered in any way. -/
def anything : Surroundings C R Unit where
  answers _ _ _ _ := True
  drifts _ _ := True
  restarts _ _ := True

/-- However its calls are answered, the program returns with `P`. -/
def Yields (P : α → Prop) (p : Prog C R α) : Prop :=
  Obeys anything (Monitor.only fun _ => True) (fun _ _ => True) p fun a _ _ => P a

/-! ## Section 1: Rules -/

section Rules

variable {P : α → Prop} {Q : β → Prop}

theorem yields_ret {a : α} (h : P a) : Yields P (.ret a : Prog C R α) := Monitor.only_ret h

theorem yields_bind {p : Prog C R α} {f : α → Prog C R β} (hp : Yields P p)
    (hf : ∀ a, P a → Yields Q (f a)) : Yields Q (p >>= f) :=
  Monitor.only_bind hp hf

/-- A loop returns what a round breaks with. -/
theorem yields_loop {body : σ → Prog C R (σ ⊕ α)} {s : σ}
    (hbody : ∀ s, Yields (fun x => ∀ a, x = .inr a → P a) (body s)) :
    Yields P (Prog.loop body s) := by
  refine obeys_iter (I := fun _ _ _ => True) (M := fun a _ _ => P a) (fun _ _ _ _ h _ => h)
    (fun _ _ _ _ => trivial) (fun s => (hbody s).post ?_) fun a => obeys_ret (fun _ _ _ h _ => h)
    fun _ _ h => h
  rintro (s' | a) w tr h
  · trivial
  · exact h a rfl

/-- Every program returns something. -/
theorem yields_true (p : Prog C R α) : Yields (fun _ => True) p := by
  intro w tr _ x _
  obtain ⟨p', w', tr'⟩ := x
  cases p' with
  | ret a => trivial
  | call c k => trivial
  | iter body s k => trivial

end Rules

/-! ## Section 2: Going on -/

/-- What was called before a run does not matter to it. -/
theorem Steps.append {S : Surroundings C R W} {x y : Config C R W α} (h : Steps S x y)
    (before : Trace C R W) :
    Steps S ⟨x.prog, x.world, x.trace ++ before⟩ ⟨y.prog, y.world, y.trace ++ before⟩ := by
  induction h with
  | refl => exact .refl
  | tail _ hstep ih =>
    cases hstep with
    | call hans => exact ih.tail (.call hans)
    | unroll => exact ih.tail .unroll
    | drift hd => exact ih.tail (.drift hd)

section Steps

variable {P : α → Prop} {p p' : Prog C R α}

/-- A step of the program adds nothing to what it may return. -/
theorem Yields.of_step (h : Yields P p) {tr : Trace C R Unit}
    (hstep : Step anything ⟨p, (), []⟩ ⟨p', (), tr⟩) : Yields P p' := by
  intro w tr' _ x hx
  obtain ⟨new, -, hsteps⟩ := hx.of_trace
  have hcomp := h () [] trivial _ (.head hstep (hsteps.append tr))
  obtain ⟨q, w', tr''⟩ := x
  cases q with
  | ret a => exact hcomp
  | call c k => trivial
  | iter body s k => trivial

theorem Yields.ret {a : α} (h : Yields P (.ret a : Prog C R α)) : P a :=
  h () [] trivial _ .refl

theorem Yields.call {c : C} {k : R c → Prog C R α} (h : Yields P (.call c k)) (r : R c) :
    Yields P (k r) := by
  have hstep : Step anything ⟨.call c k, (), []⟩ ⟨k r, (), [.called () c r]⟩ := .call trivial
  exact h.of_step hstep

theorem Yields.unroll {body : σ → Prog C R (σ ⊕ ρ)} {s : σ} {k : ρ → Prog C R α}
    (h : Yields P (.iter body s k)) : Yields P (body s >>= Prog.next body k) :=
  h.of_step .unroll

end Steps

/-! ## Section 3: Handled programs -/

/-- `Monitor.walks_handle`, with what the program returns. -/
theorem Monitor.walks_handle_yields {Q : Type} {T : Surroundings C' R' W'}
    {h : Handler C R C' R' τ} {M : Monitor C' R' W' Q} {J : τ → Q → Prop} {P : α → Prop}
    (hloops : ∀ t q, J t q → M.loops q)
    (hcall : ∀ c t q, J t q → M.Walks T q (h c t) fun rt q' => J rt.2 q')
    {p : Prog C R α} (hp : Yields P p) {t : τ} {q : Q} (hJ : J t q) :
    M.Walks T q (p.handle h t) fun at' q' => J at'.2 q' ∧ P at'.1 := by
  have hrule := obeys_handle (K := M.contract) (h := h)
    (A := fun (p : Prog C R α) t (_ : W') tr => J t (M.state tr) ∧ Yields P p)
    (fun _ _ => Monitor.stable_of_trace (S := T)) (fun _ t _ _ hA => hloops t _ hA.1)
    (fun _ _ _ _ _ _ hA => ⟨hA.1, hA.2.unroll⟩) ?_ p .ret t
  · rw [show (p >>= Prog.ret) = p from Prog.bind_ret p] at hrule
    have hpost : M.Walks T q (p.handle h t) fun at' q' => J at'.2 q' ∧ Yields P (.ret at'.1) :=
      hrule.pre fun _ _ hq => ⟨hq ▸ hJ, hp⟩
    exact hpost.post fun _ _ hA => ⟨hA.1, hA.2.ret⟩
  · intro c k t w tr hA
    have hpost : M.Walks T (M.state tr) (h c t) fun rt q' => J rt.2 q' ∧ Yields P (k rt.1) :=
      (hcall c t _ hA.1).post fun rt _ hJ' => ⟨hJ', hA.2.call rt.1⟩
    exact hpost w tr rfl

section Embed

variable {inj : C → C'} {back : (c : C) → R' (inj c) → R c}

/-- An embedded program makes only calls of its own. -/
theorem only_embed {T : Surroundings C' R' W'} {calls : C' → Prop} (hinj : ∀ c, calls (inj c))
    (p : Prog C R α) :
    Obeys T (Monitor.only calls) (fun _ _ => True) (p.embed inj back) fun _ _ _ => True := by
  refine Monitor.only_bind (P := fun _ => True) (obeys_handle (A := fun _ _ _ _ => True)
    (fun _ _ _ _ _ h _ => h) (fun _ _ _ _ _ => trivial) (fun _ _ _ _ _ _ _ => trivial)
    (fun c _ _ => ?_) p .ret ()) fun _ _ => Monitor.only_ret trivial
  exact Monitor.only_call (P := fun _ => True) (hinj c) fun _ _ _ _ => Monitor.only_ret trivial

/-- A program that a monitor walks through from its start, whatever is answered, is walked through
where its calls are embedded. -/
theorem Monitor.walks_embed {Q : Type} {T : Surroundings C' R' W'} {M : Monitor C' R' W' Q}
    {N : Monitor C R Unit Q} {P : α → Q → Prop}
    (hallow : ∀ q c, N.allows q c → M.allows q (inj c)) (hloops : ∀ q, M.loops q)
    (hnext : ∀ q w c r, M.next q w (inj c) r = N.next q () c (back c r)) {p : Prog C R α}
    (hp : N.Walks anything N.start p P) : M.Walks T N.start (p.embed inj back) P := by
  -- the program by itself is in the same state
  let A (p : Prog C R α) (tr : Trace C' R' W') : Prop := ∃ tr₀, N.state tr₀ = M.state tr ∧
    ∀ x, Steps anything ⟨p, (), tr₀⟩ x → N.contract.Complies (fun a _ tr => P a (N.state tr)) x
  have hstart : ∀ tr, M.state tr = N.start → A p tr := fun tr htr =>
    ⟨[], htr.symm, fun x hx => hp () [] rfl x hx⟩
  have hrule := obeys_handle (K := M.contract)
    (h := fun c u => .call (inj c) fun r => .ret (back c r, u))
    (A := fun (p : Prog C R α) (_ : Unit) _ tr => A p tr)
    (fun _ _ => Monitor.stable_of_trace (S := T)) ?_ ?_ ?_ p .ret ()
  · rw [show (p >>= Prog.ret) = p from Prog.bind_ret p] at hrule
    refine obeys_bind (hrule.pre fun _ tr => hstart tr) fun at' => ?_
    refine obeys_ret (Monitor.stable_of_trace (S := T)) ?_
    rintro w tr ⟨tr₀, hstate, hcomp⟩
    rw [← hstate]
    exact hcomp _ .refl
  · intro _ _ _ _ _
    exact hloops _
  · rintro σ ρ body s k - w tr ⟨tr₀, hstate, hcomp⟩
    exact ⟨tr₀, hstate, fun x hx => hcomp x (.head .unroll hx)⟩
  · intro c k u
    refine obeys_call (M := fun r _ tr => A (k (back c r)) tr)
      (Monitor.stable_of_trace (S := T)) ?_ ?_ fun r =>
        obeys_ret (Monitor.stable_of_trace (S := T)) fun _ _ h => h
    · rintro w tr ⟨tr₀, hstate, hcomp⟩
      have hallowed : N.allows (N.state tr₀) c := hcomp _ .refl
      exact hallow _ c (hstate ▸ hallowed)
    · rintro w tr r w' ⟨tr₀, hstate, hcomp⟩ -
      refine ⟨.called () c (back c r) :: tr₀, ?_, fun x hx => hcomp x (.head ?_ hx)⟩
      · rw [Monitor.state, Monitor.state, hnext, hstate]
      · exact .call trivial

end Embed

end Effects
