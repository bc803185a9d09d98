import Mathlib.Logic.Relation

/-!
# Effectful Programs with Loops

A program asks its surroundings for things (`call`) and goes on with the reply.
Everything the surroundings do to the state of the world happens between a call and
its reply, so a program says nothing about the world: it is a tree of calls.

Unbounded loops are a constructor of their own (`iter`), so that a program that never
stops is still an inductive object and its finite runs can be reasoned about by
induction.

- `C` is the type of calls and `R c` the type of the replies to the call `c`.
- `Prog.bind` makes programs a lawful monad, so that they are written with `do`.
-/

namespace Effects

/-- A program over the calls `C` with replies `R`, returning a value of the index type. -/
inductive Prog (C : Type) (R : C → Type) : Type → Type 1 where
  /-- The program has returned `a`. -/
  | ret {α : Type} (a : α) : Prog C R α
  /-- The program waits for the reply to `c`. -/
  | call {α : Type} (c : C) (k : R c → Prog C R α) : Prog C R α
  /-- The program runs `body` again and again, from `s`, until it breaks with a value. -/
  | iter {α σ ρ : Type} (body : σ → Prog C R (σ ⊕ ρ)) (s : σ) (k : ρ → Prog C R α) :
      Prog C R α

namespace Prog

variable {C : Type} {R : C → Type} {α β γ σ ρ : Type}

/-! ## Section 1: Sequencing -/

/-- Run `p`, then `f` on what it returned. -/
def bind : Prog C R α → (α → Prog C R β) → Prog C R β
  | .ret a, f => f a
  | .call c k, f => .call c fun r => (k r).bind f
  | .iter body s k, f => .iter body s fun r => (k r).bind f

instance : Monad (Prog C R) where
  pure := .ret
  bind := .bind

theorem bind_ret (p : Prog C R α) : p.bind .ret = p := by
  induction p with
  | ret a => rfl
  | call c k ih => simp only [bind, ih]
  | iter body s k _ ih => simp only [bind, ih]

theorem bind_assoc (p : Prog C R α) (f : α → Prog C R β) (g : β → Prog C R γ) :
    (p.bind f).bind g = p.bind fun a => (f a).bind g := by
  induction p with
  | ret a => rfl
  | call c k ih => simp only [bind, ih]
  | iter body s k _ ih => simp only [bind, ih]

instance : LawfulMonad (Prog C R) :=
  LawfulMonad.mk' (Prog C R) bind_ret (fun _ _ => rfl) bind_assoc

@[simp] theorem pure_eq_ret (a : α) : (pure a : Prog C R α) = .ret a := rfl

@[simp] theorem ret_bind (a : α) (f : α → Prog C R β) : (Prog.ret a >>= f) = f a := rfl

@[simp] theorem call_bind (c : C) (k : R c → Prog C R α) (f : α → Prog C R β) :
    (Prog.call c k >>= f) = .call c fun r => k r >>= f := rfl

@[simp] theorem iter_bind (body : σ → Prog C R (σ ⊕ ρ)) (s : σ) (k : ρ → Prog C R α)
    (f : α → Prog C R β) :
    (Prog.iter body s k >>= f) = .iter body s fun r => k r >>= f := rfl

@[simp] theorem ret_map (a : α) (f : α → β) : f <$> (Prog.ret a : Prog C R α) = .ret (f a) := rfl

/-! ## Section 2: Calls and loops as programs -/

/-- Make the call `c` and return its reply. -/
def perform (c : C) : Prog C R (R c) := .call c .ret

@[simp] theorem perform_bind (c : C) (f : R c → Prog C R α) :
    (perform c >>= f) = .call c f := rfl

/-- Repeat `body`: `.inl s` goes round again from `s`, `.inr r` breaks with `r`. -/
def loop (body : σ → Prog C R (σ ⊕ ρ)) (s : σ) : Prog C R ρ := .iter body s .ret

/-- What follows one round of a loop. -/
def next (body : σ → Prog C R (σ ⊕ ρ)) (k : ρ → Prog C R α) : σ ⊕ ρ → Prog C R α
  | .inl s => .iter body s k
  | .inr r => k r

@[simp] theorem next_inl (body : σ → Prog C R (σ ⊕ ρ)) (k : ρ → Prog C R α) (s : σ) :
    next body k (.inl s) = .iter body s k := rfl

@[simp] theorem next_inr (body : σ → Prog C R (σ ⊕ ρ)) (k : ρ → Prog C R α) (r : ρ) :
    next body k (.inr r) = k r := rfl

theorem next_bind (body : σ → Prog C R (σ ⊕ ρ)) (k : ρ → Prog C R α) (f : α → Prog C R β) :
    (fun x => next body k x >>= f) = next body fun r => k r >>= f := by
  funext x
  cases x <;> rfl

end Prog

end Effects
