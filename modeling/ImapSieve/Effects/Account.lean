import ImapSieve.Effects.Run

/-!
# Accounts of Runs

Amortised counting over runs: some entries of a trace cost, some pay, and what was paid too early
is kept in a potential of the world and the trace. As long as no step overdraws, a run costs no
more than it was paid for (`Solvent.total_le`).
-/

namespace Effects

variable {C : Type} {R : C → Type} {W : Type} {cost pay : Entry C R W → Nat} {kept : W →
  Trace C R W → Nat} {budget : Nat} {w w' : W} {tr : Trace C R W} {e : Entry C R W}

/-- The sum over the entries of a trace. -/
def total (f : Entry C R W → Nat) : Trace C R W → Nat
  | [] => 0
  | e :: tr => f e + total f tr

@[simp] theorem total_nil (f : Entry C R W → Nat) : total f [] = 0 := rfl

@[simp] theorem total_cons (f : Entry C R W → Nat) (e : Entry C R W) (tr : Trace C R W) :
    total f (e :: tr) = f e + total f tr := rfl

/-- What the run has cost, with what is kept, is covered by the budget and by what was paid. -/
def Solvent (cost pay : Entry C R W → Nat) (kept : W → Trace C R W → Nat) (budget : Nat) (w : W)
    (tr : Trace C R W) : Prop :=
  total cost tr + kept w tr ≤ budget + total pay tr

theorem solvent_nil (h : kept w [] ≤ budget) : Solvent cost pay kept budget w [] := by
  simpa [Solvent] using h

/-- An entry that does not overdraw. -/
theorem Solvent.cons (h : Solvent cost pay kept budget w tr)
    (hstep : cost e + kept w' (e :: tr) ≤ kept w tr + pay e) :
    Solvent cost pay kept budget w' (e :: tr) := by
  simp only [Solvent, total_cons] at h ⊢
  omega

/-- Time passes, and nothing is lost of what is kept. -/
theorem Solvent.mono (h : Solvent cost pay kept budget w tr) (hkept : kept w' tr ≤ kept w tr) :
    Solvent cost pay kept budget w' tr := by
  simp only [Solvent] at h ⊢
  omega

theorem Solvent.total_le (h : Solvent cost pay kept budget w tr) :
    total cost tr ≤ budget + total pay tr :=
  Nat.le_trans (Nat.le_add_right _ _) h

end Effects
