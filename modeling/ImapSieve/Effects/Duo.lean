import ImapSieve.Effects.Run

/-!
# A Process with a Thread beside It

Two programs run interleaved, each in surroundings of its own. What the thread has done to its
world is seen in the world of the process; the process does nothing to that of the thread.

The log holds the calls of both in the order in which they were answered. Either program alone
makes an ordinary run: for the process the thread is part of the drift.
-/

namespace Effects

variable {C C' : Type} {R : C → Type} {R' : C' → Type} {W W' α β : Type}

/-! ## Section 1: Interleaved runs -/

/-- The calls that were answered from `x` to `y`. -/
def Config.since (x y : Config C R W α) : Trace C R W :=
  y.trace.take (y.trace.length - x.trace.length)

/-- The calls of a process and of a thread, newest first. -/
abbrev Log (C : Type) (R : C → Type) (W : Type) (C' : Type) (R' : C' → Type) (W' : Type) :=
  List (Entry C R W ⊕ Entry C' R' W')

structure Duo (C : Type) (R : C → Type) (W α : Type) (C' : Type) (R' : C' → Type)
    (W' β : Type) where
  main : Config C R W α
  side : Config C' R' W' β
  log : Log C R W C' R' W'

/-- One step of either. `see` is what a world of the process becomes when the world of the
thread is the given one. -/
inductive Duo.Step (S : Surroundings C R W) (S' : Surroundings C' R' W') (see : W' → W → W) :
    Duo C R W α C' R' W' β → Duo C R W α C' R' W' β → Prop where
  | main {d : Duo C R W α C' R' W' β} {y : Config C R W α} (h : Effects.Step S d.main y) :
      Duo.Step S S' see d ⟨y, d.side, (d.main.since y).map .inl ++ d.log⟩
  | side {d : Duo C R W α C' R' W' β} {z : Config C' R' W' β} (h : Effects.Step S' d.side z) :
      Duo.Step S S' see d
        ⟨⟨d.main.prog, see z.world d.main.world, d.main.trace⟩, z,
          (d.side.since z).map .inr ++ d.log⟩

/-- What a process and a thread may come to. -/
inductive Duo.Runs (S : Surroundings C R W) (S' : Surroundings C' R' W') (see : W' → W → W)
    (main : Prog C R α) (side : Prog C' R' β) (w : W) (w' : W') :
    Duo C R W α C' R' W' β → Prop where
  | start : Duo.Runs S S' see main side w w' ⟨⟨main, see w' w, []⟩, ⟨side, w', []⟩, []⟩
  | step {d d' : Duo C R W α C' R' W' β} (hd : Duo.Runs S S' see main side w w' d)
      (h : Duo.Step S S' see d d') : Duo.Runs S S' see main side w w' d'

/-! ## Section 2: Each alone -/

section Alone

variable {S T : Surroundings C R W} {S' : Surroundings C' R' W'} {see : W' → W → W}
  {main : Prog C R α} {side : Prog C' R' β} {w₀ : W} {w₀' : W'} {d : Duo C R W α C' R' W' β}

theorem since_call {c : C} {k p : Prog C R α} {w w' : W} {tr : Trace C R W} {r : R c} :
    Config.since ⟨p, w, tr⟩ ⟨k, w', .called w c r :: tr⟩ = [.called w c r] := by
  simp [Config.since]

theorem since_same {p p' : Prog C R α} {w w' : W} {tr : Trace C R W} :
    Config.since ⟨p, w, tr⟩ ⟨p', w', tr⟩ = [] := by
  simp [Config.since]

/-- The process makes a run of its own, with the thread as drift. -/
theorem Duo.Runs.reachable_main (hd : Duo.Runs S S' see main side w₀ w₀' d)
    (hown : ∀ {x y : Config C R W α}, Effects.Step S x y → Effects.Step T x y)
    (hsee : ∀ w w', T.drifts w (see w' w)) : Reachable T main (see w₀' w₀) d.main := by
  induction hd with
  | start => exact .start
  | step _ h ih =>
    cases h with
    | main h => exact ih.step (hown h)
    | side h => exact ih.step (.drift (hsee _ _))

/-- The thread makes a run of its own. -/
theorem Duo.Runs.reachable_side (hd : Duo.Runs S S' see main side w₀ w₀' d) :
    Reachable S' side w₀' d.side := by
  induction hd with
  | start => exact .start
  | step _ h ih =>
    cases h with
    | main h => exact ih
    | side h => exact ih.step h

end Alone

/-! ## Section 3: The invariant rule -/

/-- What holds at the start and is preserved by every call of either and by every drift holds
in every run. -/
theorem Duo.Runs.invariant {S : Surroundings C R W} {S' : Surroundings C' R' W'}
    {see : W' → W → W} {main : Prog C R α} {side : Prog C' R' β} {w₀ : W} {w₀' : W'}
    {d : Duo C R W α C' R' W' β}
    {I : W → Trace C R W → W' → Trace C' R' W' → Log C R W C' R' W' → Prop}
    (hd : Duo.Runs S S' see main side w₀ w₀' d) (hinit : I (see w₀' w₀) [] w₀' [] [])
    (hmain : ∀ d c k r w, Duo.Runs S S' see main side w₀ w₀' d → d.main.prog = .call c k →
      S.answers d.main.world c r w →
      I d.main.world d.main.trace d.side.world d.side.trace d.log →
      I w (.called d.main.world c r :: d.main.trace) d.side.world d.side.trace
        (.inl (.called d.main.world c r) :: d.log))
    (hdrift : ∀ w w₁ tr w' tr' log, S.drifts w w₁ → I w tr w' tr' log → I w₁ tr w' tr' log)
    (hside : ∀ w tr w' tr' log c r w₁', S'.answers w' c r w₁' → I w tr w' tr' log →
      I (see w₁' w) tr w₁' (.called w' c r :: tr') (.inr (.called w' c r) :: log))
    (hquiet : ∀ w tr w' tr' log w₁', w₁' = w' ∨ S'.drifts w' w₁' → I w tr w' tr' log →
      I (see w₁' w) tr w₁' tr' log) :
    I d.main.world d.main.trace d.side.world d.side.trace d.log := by
  induction hd with
  -- by induction on the interleaving: one step of either
  | start => exact hinit
  | @step d d' hd h ih =>
    obtain ⟨⟨p, w, tr⟩, ⟨p', w', tr'⟩, log⟩ := d
    cases h with
    | main h =>
      cases h with
      | call hans =>
        rw [since_call]
        exact hmain _ _ _ _ _ hd rfl hans ih
      | unroll =>
        rw [since_same]
        exact ih
      | drift h =>
        rw [since_same]
        exact hdrift _ _ _ _ _ _ h ih
    | side h =>
      cases h with
      | call hans =>
        rw [since_call]
        exact hside _ _ _ _ _ _ _ _ hans ih
      | unroll =>
        rw [since_same]
        exact hquiet _ _ _ _ _ _ (.inl rfl) ih
      | drift h =>
        rw [since_same]
        exact hquiet _ _ _ _ _ _ (.inr h) ih

/-! ## Section 4: Computable runs -/

/-- `n` steps of the process against the player `h`, or all up to its return. -/
def Duo.playMain (h : W → (c : C) → R c × W) :
    Nat → Duo C R W α C' R' W' β → Duo C R W α C' R' W' β
  | 0, d => d
  | n + 1, d =>
      match d.main.prog with
      | .ret _ => d
      | _ => playMain h n
          ⟨advance h d.main, d.side, (d.main.since (advance h d.main)).map .inl ++ d.log⟩

/-- `n` steps of the thread against the player `h`, or all up to its return. -/
def Duo.playSide (see : W' → W → W) (h : W' → (c : C') → R' c × W') :
    Nat → Duo C R W α C' R' W' β → Duo C R W α C' R' W' β
  | 0, d => d
  | n + 1, d =>
      match d.side.prog with
      | .ret _ => d
      | _ => playSide see h n
          ⟨⟨d.main.prog, see (advance h d.side).world d.main.world, d.main.trace⟩,
            advance h d.side, (d.side.since (advance h d.side)).map .inr ++ d.log⟩

section Play

variable {S : Surroundings C R W} {S' : Surroundings C' R' W'} {see : W' → W → W}
  {main : Prog C R α} {side : Prog C' R' β} {w₀ : W} {w₀' : W'} {d : Duo C R W α C' R' W' β}

theorem Duo.Runs.playMain {h : W → (c : C) → R c × W}
    (hans : ∀ w c, S.answers w c (h w c).1 (h w c).2) (n : Nat)
    (hd : Duo.Runs S S' see main side w₀ w₀' d) :
    Duo.Runs S S' see main side w₀ w₀' (d.playMain h n) := by
  induction n generalizing d with
  | zero => exact hd
  | succ n ih =>
    obtain ⟨⟨p, w, tr⟩, y, log⟩ := d
    cases p with
    | ret a => exact hd
    | call c k => exact ih (hd.step (.main (.call (hans w c))))
    | iter body s k => exact ih (hd.step (.main .unroll))

theorem Duo.Runs.playSide {h : W' → (c : C') → R' c × W'}
    (hans : ∀ w c, S'.answers w c (h w c).1 (h w c).2) (n : Nat)
    (hd : Duo.Runs S S' see main side w₀ w₀' d) :
    Duo.Runs S S' see main side w₀ w₀' (d.playSide see h n) := by
  induction n generalizing d with
  | zero => exact hd
  | succ n ih =>
    obtain ⟨x, ⟨p, w, tr⟩, log⟩ := d
    cases p with
    | ret a => exact hd
    | call c k => exact ih (hd.step (.side (.call (hans w c))))
    | iter body s k => exact ih (hd.step (.side .unroll))

end Play

end Effects
