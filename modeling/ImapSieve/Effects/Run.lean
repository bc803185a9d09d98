import ImapSieve.Effects.Prog

/-!
# Runs of Effectful Programs

Small-step semantics of programs in changing surroundings.

A configuration holds the rest of the program, the world and the trace of the calls
answered so far. The surroundings say which replies a call may get and what it does to
the world (`answers`), what else may happen between two calls (`drifts`), and what the
world is after the process was lost and started again (`restarts`).

- `Step`: one step of a program; `Steps` many.
- `Reachable`: the configurations of a process that may be lost and restarted at any
  point, whether it is still running or has returned.
- `Lives`: those of a process that is started again with another program.
- `Surroundings.under`: the runs whose every step meets a condition.
- `play`: runs of a program against a deterministic player, to compute with.
-/

namespace Effects

variable {C : Type} {R : C → Type} {W : Type} {α β γ σ ρ : Type}

/-! ## Section 1: Surroundings, traces and configurations -/

/-- What a program runs against. -/
structure Surroundings (C : Type) (R : C → Type) (W : Type) where
  /-- `answers w c r w'`: in the world `w` the call `c` may get the reply `r`, after which
  the world is `w'`. -/
  answers : W → (c : C) → R c → W → Prop
  /-- What may happen to the world while the program is not looking. -/
  drifts : W → W → Prop
  /-- The world of a new process, given the world at the loss of the old one. -/
  restarts : W → W → Prop

/-- One entry of a trace. The world is the one in which the entry was made. -/
inductive Entry (C : Type) (R : C → Type) (W : Type) where
  | called (w : W) (c : C) (r : R c)
  | restarted (w : W)

/-- The calls answered so far, newest first. -/
abbrev Trace (C : Type) (R : C → Type) (W : Type) := List (Entry C R W)

def Entry.isCall : Entry C R W → Bool
  | .called _ _ _ => true
  | .restarted _ => false

/-- The calls answered since the process was last started. -/
def sinceStart (tr : Trace C R W) : Trace C R W := tr.takeWhile Entry.isCall

/-- A program in the middle of a run. -/
structure Config (C : Type) (R : C → Type) (W : Type) (α : Type) where
  prog : Prog C R α
  world : W
  trace : Trace C R W

/-! ## Section 2: Steps -/

/-- One step of a program in the surroundings `S`. -/
inductive Step (S : Surroundings C R W) : Config C R W α → Config C R W α → Prop where
  /-- A call is answered. -/
  | call {c : C} {k : R c → Prog C R α} {w w' : W} {tr : Trace C R W} {r : R c}
      (h : S.answers w c r w') :
      Step S ⟨.call c k, w, tr⟩ ⟨k r, w', .called w c r :: tr⟩
  /-- A loop starts its next round. -/
  | unroll {σ ρ : Type} {body : σ → Prog C R (σ ⊕ ρ)} {s : σ} {k : ρ → Prog C R α} {w : W}
      {tr : Trace C R W} :
      Step S ⟨.iter body s k, w, tr⟩ ⟨body s >>= Prog.next body k, w, tr⟩
  /-- The world changes by itself. -/
  | drift {p : Prog C R α} {w w' : W} {tr : Trace C R W} (h : S.drifts w w') :
      Step S ⟨p, w, tr⟩ ⟨p, w', tr⟩

/-- Any number of steps. -/
abbrev Steps (S : Surroundings C R W) : Config C R W α → Config C R W α → Prop :=
  Relation.ReflTransGen (Step S)

/-- A step only adds to the trace. -/
theorem Step.trace_suffix {S : Surroundings C R W} {x y : Config C R W α} (h : Step S x y) :
    x.trace <:+ y.trace := by
  cases h with
  | call _ => exact List.suffix_cons _ _
  | unroll => exact List.suffix_rfl
  | drift _ => exact List.suffix_rfl

theorem Steps.trace_suffix {S : Surroundings C R W} {x y : Config C R W α} (h : Steps S x y) :
    x.trace <:+ y.trace := by
  induction h with
  | refl => exact List.suffix_rfl
  | tail _ hstep ih => exact ih.trans hstep.trace_suffix

/-- A step of the first part of a program is a step of the whole. -/
theorem Step.bind {S : Surroundings C R W} {p p' : Prog C R α} {w w' : W}
    {tr tr' : Trace C R W} (f : α → Prog C R β) (h : Step S ⟨p, w, tr⟩ ⟨p', w', tr'⟩) :
    Step S ⟨p >>= f, w, tr⟩ ⟨p' >>= f, w', tr'⟩ := by
  generalize hx : (⟨p, w, tr⟩ : Config C R W α) = x at h
  generalize hy : (⟨p', w', tr'⟩ : Config C R W α) = y at h
  cases h with
  | call h =>
    cases hx; cases hy
    exact .call h
  | @unroll σ ρ body s k w tr =>
    cases hx; cases hy
    rw [bind_assoc, Prog.next_bind]
    exact .unroll
  | drift h =>
    cases hx; cases hy
    exact .drift h

theorem Steps.bind {S : Surroundings C R W} {x y : Config C R W α} (f : α → Prog C R β)
    (h : Steps S x y) :
    Steps S ⟨x.prog >>= f, x.world, x.trace⟩ ⟨y.prog >>= f, y.world, y.trace⟩ := by
  induction h with
  | refl => exact .refl
  | tail _ hstep ih => exact ih.tail (hstep.bind f)

/-- What a program does has nothing to do with the trace it starts from. -/
theorem Steps.of_trace {S : Surroundings C R W} {p : Prog C R α} {w : W} {tr : Trace C R W}
    {x : Config C R W α} (h : Steps S ⟨p, w, tr⟩ x) :
    ∃ new, x.trace = new ++ tr ∧ Steps S ⟨p, w, []⟩ ⟨x.prog, x.world, new⟩ := by
  induction h with
  | refl => exact ⟨[], rfl, .refl⟩
  | @tail y z _ hstep ih =>
    obtain ⟨new, htrace, hsteps⟩ := ih
    cases hstep with
    | @call c k w₁ w₂ tr₁ r hans =>
      exact ⟨.called w₁ c r :: new, congrArg _ htrace, hsteps.tail (.call hans)⟩
    | unroll => exact ⟨new, htrace, hsteps.tail .unroll⟩
    | drift hd => exact ⟨new, htrace, hsteps.tail (.drift hd)⟩

/-- A program without loops. -/
inductive LoopFree : Prog C R α → Prop where
  | ret (a : α) : LoopFree (.ret a)
  | call {c : C} {k : R c → Prog C R α} (h : ∀ r, LoopFree (k r)) : LoopFree (.call c k)

theorem LoopFree.bind {p : Prog C R α} {f : α → Prog C R β} (hp : LoopFree p)
    (hf : ∀ a, LoopFree (f a)) : LoopFree (p >>= f) := by
  induction hp with
  | ret a => exact hf a
  | call _ ih => exact .call ih

theorem LoopFree.step {S : Surroundings C R W} {x y : Config C R W α} (hx : LoopFree x.prog)
    (h : Step S x y) : LoopFree y.prog := by
  cases h with
  | call _ =>
    cases hx with
    | call hk => exact hk _
  | unroll => cases hx
  | drift _ => exact hx

theorem LoopFree.steps {S : Surroundings C R W} {x y : Config C R W α} (hx : LoopFree x.prog)
    (h : Steps S x y) : LoopFree y.prog := by
  induction h with
  | refl => exact hx
  | tail _ hstep ih => exact ih.step hstep

/-- Where every call is answered, it returns. -/
theorem LoopFree.returns {S : Surroundings C R W} {p : Prog C R α} (hp : LoopFree p)
    (hans : ∀ w c, ∃ r w', S.answers w c r w') (w : W) (tr : Trace C R W) :
    ∃ a w' tr', Steps S ⟨p, w, tr⟩ ⟨.ret a, w', tr'⟩ := by
  induction hp generalizing w tr with
  | ret a => exact ⟨a, w, tr, .refl⟩
  | @call c k _ ih =>
    obtain ⟨r, w₁, hr⟩ := hans w c
    obtain ⟨a, w', tr', hsteps⟩ := ih r w₁ (.called w c r :: tr)
    exact ⟨a, w', tr', .head (.call hr) hsteps⟩

/-! ## Section 3: Processes that are lost and restarted -/

/-- The configurations a process running `main` from the world `w₀` can be in, when it may
be lost and started again at any point. -/
inductive Reachable (S : Surroundings C R W) (main : Prog C R α) (w₀ : W) :
    Config C R W α → Prop where
  | start : Reachable S main w₀ ⟨main, w₀, []⟩
  | step {x y : Config C R W α} (hx : Reachable S main w₀ x) (h : Step S x y) :
      Reachable S main w₀ y
  | restart {x : Config C R W α} {w' : W} (hx : Reachable S main w₀ x)
      (h : S.restarts x.world w') :
      Reachable S main w₀ ⟨main, w', .restarted x.world :: x.trace⟩

theorem Reachable.steps {S : Surroundings C R W} {main : Prog C R α} {w₀ : W}
    {x y : Config C R W α} (hx : Reachable S main w₀ x) (h : Steps S x y) :
    Reachable S main w₀ y := by
  induction h with
  | refl => exact hx
  | tail _ hstep ih => exact ih.step hstep

/-- The configurations of a process that is started as one of the programs `main i`, may be
lost at any point, and is started again as any of them. The index says as which it runs. -/
inductive Lives {ι : Type} (S : Surroundings C R W) (main : ι → Prog C R α) (w₀ : W) :
    ι → Config C R W α → Prop where
  | start (i : ι) : Lives S main w₀ i ⟨main i, w₀, []⟩
  | step {i : ι} {x y : Config C R W α} (hx : Lives S main w₀ i x) (h : Step S x y) :
      Lives S main w₀ i y
  | restart {i : ι} {x : Config C R W α} {w' : W} (j : ι) (hx : Lives S main w₀ i x)
      (h : S.restarts x.world w') :
      Lives S main w₀ j ⟨main j, w', .restarted x.world :: x.trace⟩

theorem Lives.steps {ι : Type} {S : Surroundings C R W} {main : ι → Prog C R α} {w₀ : W} {i : ι}
    {x y : Config C R W α} (hx : Lives S main w₀ i x) (h : Steps S x y) :
    Lives S main w₀ i y := by
  induction h with
  | refl => exact hx
  | tail _ hstep ih => exact ih.step hstep

/-- A process may always be started as the same program. -/
theorem Reachable.lives {ι : Type} {S : Surroundings C R W} {main : ι → Prog C R α} {w₀ : W}
    {i : ι} {x : Config C R W α} (hx : Reachable S (main i) w₀ x) : Lives S main w₀ i x := by
  induction hx with
  | start => exact .start i
  | step _ h ih => exact ih.step h
  | restart _ h ih => exact ih.restart i h

/-- A process with one program to be started as. -/
theorem Lives.reachable {ι : Type} {S : Surroundings C R W} {main : Prog C R α} {w₀ : W} {i : ι}
    {x : Config C R W α} (hx : Lives S (fun _ => main) w₀ i x) : Reachable S main w₀ x := by
  induction hx with
  | start i => exact .start
  | step _ h ih => exact ih.step h
  | restart j _ h ih => exact ih.restart h

/-- One step of a process, or its loss and restart. -/
inductive Moves (S : Surroundings C R W) (main : Prog C R α) :
    Config C R W α → Config C R W α → Prop where
  | step {x y : Config C R W α} (h : Step S x y) : Moves S main x y
  | restart {x : Config C R W α} {w' : W} (h : S.restarts x.world w') :
      Moves S main x ⟨main, w', .restarted x.world :: x.trace⟩

/-- What a process becomes in the long run. -/
abbrev Continues (S : Surroundings C R W) (main : Prog C R α) :
    Config C R W α → Config C R W α → Prop :=
  Relation.ReflTransGen (Moves S main)

theorem Reachable.moves {S : Surroundings C R W} {main : Prog C R α} {w₀ : W}
    {x y : Config C R W α} (hx : Reachable S main w₀ x) (h : Moves S main x y) :
    Reachable S main w₀ y := by
  cases h with
  | step h => exact hx.step h
  | restart h => exact hx.restart h

theorem Reachable.continues {S : Surroundings C R W} {main : Prog C R α} {w₀ : W}
    {x y : Config C R W α} (hx : Reachable S main w₀ x) (h : Continues S main x y) :
    Reachable S main w₀ y := by
  induction h with
  | refl => exact hx
  | tail _ hmove ih => exact ih.moves hmove

/-- The property holds of every call in the trace, given what was answered before it. -/
def Along (P : W → (c : C) → R c → Trace C R W → Prop) (tr : Trace C R W) : Prop :=
  ∀ w c r before, .called w c r :: before <:+ tr → P w c r before

section Along

variable {P : W → (c : C) → R c → Trace C R W → Prop} {w : W} {c : C} {r : R c}
  {tr : Trace C R W}

theorem along_nil : Along P [] := by
  intro w c r before h
  cases List.suffix_nil.mp h

theorem along_called (hP : P w c r tr) (h : Along P tr) : Along P (.called w c r :: tr) := by
  intro w' c' r' before hsuffix
  rcases List.suffix_cons_iff.mp hsuffix with heq | hold
  · cases heq
    exact hP
  · exact h w' c' r' before hold

theorem along_restarted (h : Along P tr) : Along P (.restarted w :: tr) := by
  intro w' c' r' before hsuffix
  rcases List.suffix_cons_iff.mp hsuffix with heq | hold
  · cases heq
  · exact h w' c' r' before hold

theorem Along.of_mem (h : Along P tr) (hmem : .called w c r ∈ tr) : ∃ before, P w c r before := by
  obtain ⟨after, before, rfl⟩ := List.append_of_mem hmem
  exact ⟨before, h w c r before (List.suffix_append _ _)⟩

end Along

/-! ## Section 4: Conditions on runs -/

/-- A condition on every step of a run. -/
structure Regime (C : Type) (R : C → Type) (W : Type) where
  /-- On a call, the world it is answered in, the reply, and the world it leaves. -/
  call : W → (c : C) → R c → W → Prop := fun _ _ _ _ => True
  /-- On what happens between calls. -/
  drift : W → W → Prop := fun _ _ => True
  /-- On the loss of the process. -/
  restart : W → Prop := fun _ => True

/-- The surroundings `S` as far as they keep to the regime. -/
def Surroundings.under (S : Surroundings C R W) (reg : Regime C R W) :
    Surroundings C R W where
  answers w c r w' := S.answers w c r w' ∧ reg.call w c r w'
  drifts w w' := S.drifts w w' ∧ reg.drift w w'
  restarts w w' := S.restarts w w' ∧ reg.restart w

/-- Whatever may happen in the surroundings `S` may happen in `S'`. -/
structure Surroundings.Within (S S' : Surroundings C R W) : Prop where
  answers : ∀ {w c r w'}, S.answers w c r w' → S'.answers w c r w'
  drifts : ∀ {w w'}, S.drifts w w' → S'.drifts w w'
  restarts : ∀ {w w'}, S.restarts w w' → S'.restarts w w'

theorem within_under (S : Surroundings C R W) (reg : Regime C R W) : (S.under reg).Within S where
  answers h := h.1
  drifts h := h.1
  restarts h := h.1

theorem Step.within {S S' : Surroundings C R W} (hS : S.Within S') {x y : Config C R W α}
    (h : Step S x y) : Step S' x y := by
  cases h with
  | call h => exact .call (hS.answers h)
  | unroll => exact .unroll
  | drift h => exact .drift (hS.drifts h)

/-- A step under a regime is a step. -/
theorem Step.of_under {S : Surroundings C R W} {reg : Regime C R W} {x y : Config C R W α}
    (h : Step (S.under reg) x y) : Step S x y :=
  h.within (within_under S reg)

theorem Steps.of_under {S : Surroundings C R W} {reg : Regime C R W} {x y : Config C R W α}
    (h : Steps (S.under reg) x y) : Steps S x y :=
  Relation.ReflTransGen.mono (fun _ _ hstep => Step.of_under hstep) _ _ h

/-- What the regime demands of a call and its reply holds of all calls answered. -/
theorem Steps.called_of_under {S : Surroundings C R W} {reg : Regime C R W}
    {P : (c : C) → R c → Prop} (hP : ∀ w c r w', reg.call w c r w' → P c r)
    {x y : Config C R W α} (h : Steps (S.under reg) x y)
    (hx : ∀ w c r, .called w c r ∈ x.trace → P c r) :
    ∀ w c r, .called w c r ∈ y.trace → P c r := by
  induction h with
  | refl => exact hx
  | tail _ hstep ih =>
    cases hstep with
    | call h =>
      intro w c r hmem
      rcases List.mem_cons.mp hmem with heq | hold
      · cases heq
        exact hP _ _ _ _ h.2
      · exact ih w c r hold
    | unroll => exact ih
    | drift _ => exact ih

theorem Lives.within {ι : Type} {S S' : Surroundings C R W} (hS : S.Within S')
    {main : ι → Prog C R α} {w₀ : W} {i : ι} {x : Config C R W α} (h : Lives S main w₀ i x) :
    Lives S' main w₀ i x := by
  induction h with
  | start i => exact .start i
  | step _ h ih => exact ih.step (h.within hS)
  | restart j _ h ih => exact ih.restart j (hS.restarts h)

theorem Lives.of_under {ι : Type} {S : Surroundings C R W} {reg : Regime C R W}
    {main : ι → Prog C R α} {w₀ : W} {i : ι} {x : Config C R W α}
    (h : Lives (S.under reg) main w₀ i x) : Lives S main w₀ i x :=
  h.within (within_under S reg)

/-! ## Section 5: Computable runs -/

/-- One step of a program against the player `h`, which answers every call. -/
def advance (h : W → (c : C) → R c × W) : Config C R W α → Config C R W α
  | ⟨.ret a, w, tr⟩ => ⟨.ret a, w, tr⟩
  | ⟨.call c k, w, tr⟩ => ⟨k (h w c).1, (h w c).2, .called w c (h w c).1 :: tr⟩
  | ⟨.iter body s k, w, tr⟩ => ⟨body s >>= Prog.next body k, w, tr⟩

/-- `n` steps against the player `h`. -/
def play (h : W → (c : C) → R c × W) : Nat → Config C R W α → Config C R W α
  | 0, x => x
  | n + 1, x => play h n (advance h x)

/-- The condition of the regime on the next step against the player. -/
def Regime.admits (reg : Regime C R W) (h : W → (c : C) → R c × W) : Config C R W α → Prop
  | ⟨.call c _, w, _⟩ => reg.call w c (h w c).1 (h w c).2
  | _ => True

instance (reg : Regime C R W) (h : W → (c : C) → R c × W)
    [∀ w c r w', Decidable (reg.call w c r w')] : DecidablePred (reg.admits (α := α) h)
  | ⟨.call c _, w, _⟩ => inferInstanceAs (Decidable (reg.call w c (h w c).1 (h w c).2))
  | ⟨.ret _, _, _⟩ => isTrue trivial
  | ⟨.iter _ _ _, _, _⟩ => isTrue trivial

/-- A player whose every answer is one of the surroundings' plays steps of them. -/
theorem steps_play {S : Surroundings C R W} {h : W → (c : C) → R c × W}
    (hans : ∀ w c, S.answers w c (h w c).1 (h w c).2) (reg : Regime C R W) (n : Nat)
    (x : Config C R W α) (hreg : ∀ i < n, reg.admits h (play h i x)) :
    Steps (S.under reg) x (play h n x) := by
  induction n generalizing x with
  | zero => exact .refl
  | succ n ih =>
    have htail : Steps (S.under reg) (advance h x) (play h n (advance h x)) :=
      ih _ fun i hi => hreg (i + 1) (by omega)
    have hhead := hreg 0 (by omega)
    obtain ⟨p, w, tr⟩ := x
    cases p with
    | ret a => exact htail
    | call c k => exact .head (.call ⟨hans w c, hhead⟩) htail
    | iter body s k => exact .head .unroll htail

/-- A player that keeps to the regime in every world. -/
theorem admits_of_regular {h : W → (c : C) → R c × W} {reg : Regime C R W}
    (hreg : ∀ w c, reg.call w c (h w c).1 (h w c).2) (x : Config C R W α) : reg.admits h x := by
  obtain ⟨p, w, tr⟩ := x
  cases p with
  | ret a => trivial
  | call c k => exact hreg w c
  | iter body s k => trivial

theorem steps_play_free {S : Surroundings C R W} {h : W → (c : C) → R c × W}
    (hans : ∀ w c, S.answers w c (h w c).1 (h w c).2) (n : Nat) (x : Config C R W α) :
    Steps S x (play h n x) :=
  Steps.of_under (steps_play hans {} n x fun _ _ => admits_of_regular (fun _ _ => trivial) _)

/-- A run against a player, up to the return. -/
theorem steps_play_ret {S : Surroundings C R W} {h : W → (c : C) → R c × W}
    (hans : ∀ w c, S.answers w c (h w c).1 (h w c).2) {n : Nat} {x : Config C R W α} {a : α}
    (hret : (play h n x).prog = .ret a) :
    Steps S x ⟨.ret a, (play h n x).world, (play h n x).trace⟩ := by
  rw [← hret]
  exact steps_play_free hans n x

end Effects
