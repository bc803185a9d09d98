import ImapSieve.Effects.Yields
import ImapSieve.System.World

/-!
# The Calls of the Parts of the Process

`Makes calls p` says that the program `p` makes only calls of one kind. What is done before the
supervisor runs makes few.
-/

namespace ImapSieve

open Effects

variable {A E : Type} {S : Surroundings (SystemCall E) (SystemReply E) (SystemWorld E)}
  {calls : SystemCall E → Prop} {α β : Type}

/-- The program makes only calls of the kind. -/
def Makes (S : Surroundings (SystemCall E) (SystemReply E) (SystemWorld E))
    (calls : SystemCall E → Prop) (p : SystemProgram E α) : Prop :=
  Obeys S (Monitor.only calls) (fun _ _ => True) p fun _ _ _ => True

/-! ## Section 1: Rules -/

theorem makes_ret (a : α) : Makes S calls (.ret a) := Monitor.only_ret trivial

theorem makes_call {c : SystemCall E} {k : SystemReply E c → SystemProgram E α} (hc : calls c)
    (hk : ∀ r, Makes S calls (k r)) : Makes S calls (.call c k) :=
  Monitor.only_call hc fun _ r _ _ => hk r

theorem makes_bind {p : SystemProgram E α} {f : α → SystemProgram E β} (hp : Makes S calls p)
    (hf : ∀ a, Makes S calls (f a)) : Makes S calls (p >>= f) :=
  Monitor.only_bind hp fun a _ => hf a

theorem makes_bindExcept {ε : Type} {p : ExceptT ε (SystemProgram E) α}
    {f : α → ExceptT ε (SystemProgram E) β} (hp : Makes S calls p.run)
    (hf : ∀ a, Makes S calls (f a).run) : Makes S calls (p >>= f).run := by
  rw [ExceptT.run_bind]
  refine makes_bind hp ?_
  rintro (e | a)
  · exact makes_ret _
  · exact hf a

theorem makes_lift {ε : Type} {p : SystemProgram E α} (hp : Makes S calls p) :
    Makes S calls (ExceptT.lift p : ExceptT ε (SystemProgram E) α).run :=
  makes_bind hp fun _ => makes_ret _

theorem makes_onFile (h : ∀ c, calls (.file c)) (p : FileProgram α) : Makes S calls (onFile p) :=
  only_embed h p

theorem makes_onNet (h : ∀ c, calls (.net c)) (p : NetProgram α) : Makes S calls (onNet p) :=
  only_embed h p

/-! ## Section 2: Preparations -/

theorem makes_loadScript (crates : Crates A E) (hread : calls .readScript)
    (hinstall : ∀ script, calls (.install script)) : Makes S calls crates.loadScript.run := by
  refine makes_bindExcept (makes_lift (makes_call hread fun _ => makes_ret _)) ?_
  intro text
  cases (⟨crates.compile, ""⟩ : ScriptLoader).load text with
  | error e => exact makes_ret _
  | ok script => exact makes_lift (makes_call (hinstall script) fun _ => makes_ret _)

theorem makes_spawnWatcher (watch : Bool) (hspawn : calls .spawnWatcher) :
    Makes S calls (spawnWatcher watch).run := by
  cases watch with
  | false => exact makes_ret _
  | true =>
    refine makes_bindExcept (makes_lift (makes_call hspawn fun _ => makes_ret _)) ?_
    rintro (e | ⟨⟩)
    · exact makes_ret _
    · exact makes_ret _

theorem makes_openStore (crates : Crates A E) (path : String)
    (hfile : ∀ c, calls (.file c)) : Makes S calls (crates.openStore path).run := by
  refine makes_bindExcept (makes_lift (makes_onFile hfile _)) ?_
  rintro (e | store)
  · exact makes_ret _
  · exact makes_ret _

theorem makes_resolveSecret (literal command : Option String)
    (houtput : ∀ command, calls (.output command)) :
    Makes S calls
      (resolveSecret (fun command => systemCall (.output command)) literal command) := by
  unfold resolveSecret
  split
  · exact makes_ret _
  · split
    · exact makes_call (houtput _) fun _ => makes_ret _
    · exact makes_ret _

theorem makes_makeSmtp (crates : Crates A E) (smtp : SmtpConfig)
    (houtput : ∀ command, calls (.output command)) :
    Makes S calls (crates.makeSmtp smtp).run := by
  refine makes_bindExcept (makes_lift (makes_resolveSecret _ _ houtput)) ?_
  rintro (e | password)
  · exact makes_ret _
  · cases hrelay : crates.relay smtp password with
    | error e =>
      simp only [hrelay]
      exact makes_ret _
    | ok u =>
      simp only [hrelay]
      exact makes_ret _

end ImapSieve
