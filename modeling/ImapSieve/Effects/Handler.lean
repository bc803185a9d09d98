import ImapSieve.Effects.Monitor

/-!
# Handlers

A handler answers each call of a program by a program over other calls, and keeps a state of its
own between them. `Prog.handle` plugs it in below a program.

- `obeys_handle` proves a handled program from its handler, one call at a time.
- `obeys_handle_matched` is the forward simulation: if the handler of each call behaves like one
  of the answers the surroundings give to it, then wherever the handled program comes, the program
  itself comes to a matching place.
- `Lives.recovers` carries such a match over losses and restarts.
-/

namespace Effects

variable {C C' : Type} {R : C → Type} {R' : C' → Type} {W W' : Type} {α β σ ρ τ : Type}

/-! ## Section 1: Handled programs -/

/-- Programs over the calls `C'` that answer the calls `C`, with a state of their own. -/
abbrev Handler (C : Type) (R : C → Type) (C' : Type) (R' : C' → Type) (τ : Type) :=
  (c : C) → τ → Prog C' R' (R c × τ)

/-- Whether a loop goes on is for the program to say, not for the state of the handler. -/
def distribute : (σ ⊕ ρ) × τ → (σ × τ) ⊕ (ρ × τ)
  | (.inl s, t) => .inl (s, t)
  | (.inr r, t) => .inr (r, t)

/-- The program with its calls answered by the handler. -/
def Prog.handle (h : Handler C R C' R' τ) : {α : Type} → Prog C R α → τ → Prog C' R' (α × τ)
  | _, .ret a, t => .ret (a, t)
  | _, .call c k, t => (h c t).bind fun (r, t') => (k r).handle h t'
  | _, .iter body s k, t =>
      .iter (fun (s, t) => ((body s).handle h t).bind fun x => .ret (distribute x)) (s, t)
        fun (r, t) => (k r).handle h t

/-- The program with each of its calls made as one of the calls `C'`. -/
def Prog.embed (inj : C → C') (back : (c : C) → R' (inj c) → R c) (p : Prog C R α) :
    Prog C' R' α :=
  (p.handle (fun c u => .call (inj c) fun r => .ret (back c r, u)) ()).bind fun (a, _) => .ret a

theorem handle_bind (h : Handler C R C' R' τ) (p : Prog C R α) (f : α → Prog C R β) (t : τ) :
    (p >>= f).handle h t = p.handle h t >>= fun x => (f x.1).handle h x.2 := by
  induction p generalizing t with
  | ret a => rfl
  | call c k ih =>
    simp only [Prog.call_bind, Prog.handle]
    rw [show (Prog.bind (h c t) fun x => (k x.1).handle h x.2) =
      h c t >>= fun x => (k x.1).handle h x.2 from rfl, bind_assoc]
    exact congrArg (h c t >>= ·) (funext fun x => ih x.1 f x.2)
  | iter body s k _ ih =>
    simp only [Prog.iter_bind, Prog.handle]
    exact congrArg (Prog.iter _ (s, t)) (funext fun x => ih x.1 f x.2)

section Embed

variable {inj : C → C'} {back : (c : C) → R' (inj c) → R c}

@[simp] theorem embed_ret (a : α) : (Prog.ret a : Prog C R α).embed inj back = .ret a := rfl

@[simp] theorem embed_call (c : C) (k : R c → Prog C R α) :
    (Prog.call c k).embed inj back =
      .call (inj c) fun r => (k (back c r)).embed inj back := rfl

theorem embed_bind (p : Prog C R α) (f : α → Prog C R β) :
    (p >>= f).embed inj back = p.embed inj back >>= fun a => (f a).embed inj back := by
  have hassoc := Prog.bind_assoc
    (p.handle (fun c u => .call (inj c) fun r => .ret (back c r, u)) ())
    (fun x => .ret x.1) fun a => (f a).embed inj back
  refine (congrArg (Prog.bind · _) (handle_bind _ p f ())).trans ?_
  exact (Prog.bind_assoc _ _ _).trans hassoc.symm

end Embed

section Rules

variable {S : Surroundings C R W} {S' : Surroundings C' R' W'} {K : Contract C' R' W'}
  {h : Handler C R C' R' τ}

/-- The rule for handled programs. The assertion may follow the program: it knows what is left
of it. -/
theorem obeys_handle {A : Prog C R β → τ → Assertion C' R' W'}
    (hstable : ∀ p t, Stable S' (A p t)) (hloops : ∀ p t w tr, A p t w tr → K.loops w tr)
    (hunroll : ∀ {σ ρ : Type} (body : σ → Prog C R (σ ⊕ ρ)) s k t w tr,
      A (.iter body s k) t w tr → A (body s >>= Prog.next body k) t w tr)
    (hcall : ∀ c k t, Obeys S' K (A (.call c k) t) (h c t) fun rt => A (k rt.1) rt.2)
    (p : Prog C R α) (f : α → Prog C R β) (t : τ) :
    Obeys S' K (A (p >>= f) t) (p.handle h t) fun at' => A (f at'.1) at'.2 := by
  induction p generalizing t with
  | ret a => exact obeys_ret (hstable _ _) fun _ _ hA => hA
  | call c k ih => exact obeys_bind (hcall c _ t) fun rt => ih rt.1 f rt.2
  | @iter α σ ρ body s k ihbody ihk =>
    refine obeys_iter (s := (s, t)) (I := fun (st : σ × τ) => A (.iter body st.1 k >>= f) st.2)
      (M := fun (rt : ρ × τ) => A (k rt.1 >>= f) rt.2) (fun st => hstable _ _)
      (fun st => hloops _ _) (fun st => ?_) fun rt => ihk rt.1 f rt.2
    -- a round of the handled loop is a handled round
    have hround := (ihbody st.1 (Prog.next body fun r => k r >>= f) st.2).pre
      (hunroll body st.1 (fun r => k r >>= f) st.2)
    refine obeys_bind hround ?_
    rintro ⟨s' | r, t'⟩
    · exact obeys_ret (hstable _ _) fun _ _ hA => hA
    · exact obeys_ret (hstable _ _) fun _ _ hA => hA

/-- A monitor walks through a handled program where it walks through the handler of each call,
between states that fit the state of the handler. -/
theorem Monitor.walks_handle {Q : Type} {M : Monitor C' R' W' Q} {J : τ → Q → Prop}
    (hloops : ∀ t q, J t q → M.loops q)
    (hcall : ∀ c t q, J t q → M.Walks S' q (h c t) fun rt q' => J rt.2 q')
    (p : Prog C R α) {t : τ} {q : Q} (hJ : J t q) :
    M.Walks S' q (p.handle h t) fun at' q' => J at'.2 q' := by
  have hrule := obeys_handle (K := M.contract) (h := h)
    (A := fun (_ : Prog C R α) t _ tr => J t (M.state tr)) (fun _ _ => Monitor.stable_of_trace)
    (fun _ t _ _ hA => hloops t _ hA) (fun _ _ _ _ _ _ hA => hA)
    (fun c _ t w tr hA => hcall c t _ hA w tr rfl) p .ret t
  exact hrule.pre fun _ _ hq => hq ▸ hJ

end Rules

/-! ## Section 2: Forward simulation -/

/-- A relation between a world with a trace and another one with another trace. -/
abbrev Relating (C' : Type) (R' : C' → Type) (W' : Type) (C : Type) (R : C → Type) (W : Type) :=
  W' → Trace C' R' W' → W → Trace C R W → Prop

/-- Closed under the steps of a program. -/
def Closed (S : Surroundings C R W) (Reach : Config C R W β → Prop) : Prop :=
  ∀ x y, Reach x → Step S x y → Reach y

/-- The program `p` is in a place related to this one. -/
def Matched (Reach : Config C R W β → Prop) (rel : Relating C' R' W' C R W) (p : Prog C R β) :
    Assertion C' R' W' :=
  fun w' tr' => ∃ w tr, Reach ⟨p, w, tr⟩ ∧ rel w' tr' w tr

/-- Some program is in a place related to this one. -/
def Somewhere (Reach : Config C R W β → Prop) (rel : Relating C' R' W' C R W) :
    Assertion C' R' W' :=
  fun w' tr' => ∃ p, Matched Reach rel p w' tr'

/-- What happens by itself on one side is matched by what happens by itself on the other. -/
def Absorbs (S : Surroundings C R W) (S' : Surroundings C' R' W')
    (rel : Relating C' R' W' C R W) : Prop :=
  ∀ w' w'' tr' w tr, rel w' tr' w tr → S'.drifts w' w'' →
    ∃ v, Relation.ReflTransGen S.drifts w v ∧ rel w'' tr' v tr

section Simulation

variable {S : Surroundings C R W} {S' : Surroundings C' R' W'} {h : Handler C R C' R' τ}
  {Reach : Config C R W β → Prop} {rel rel' lost : Relating C' R' W' C R W}

/-- The world drifts while the program stays where it is. -/
theorem Closed.drifts (hclosed : Closed S Reach) {p : Prog C R β} {w v : W} {tr : Trace C R W}
    (hx : Reach ⟨p, w, tr⟩) (hdrifts : Relation.ReflTransGen S.drifts w v) : Reach ⟨p, v, tr⟩ := by
  induction hdrifts with
  | refl => exact hx
  | tail _ hd ih => exact hclosed _ _ ih (.drift hd)

theorem stable_matched (hclosed : Closed S Reach) (habsorbs : Absorbs S S' rel)
    (p : Prog C R β) : Stable S' (Matched Reach rel p) := by
  rintro w' w'' tr' ⟨w, tr, hx, hrel⟩ hd
  obtain ⟨v, hdrifts, hrel'⟩ := habsorbs _ _ _ _ _ hrel hd
  exact ⟨v, tr, hclosed.drifts hx hdrifts, hrel'⟩

theorem Matched.mono {p : Prog C R β} (hmono : ∀ w' tr' w tr, rel w' tr' w tr →
    rel' w' tr' w tr) {w' : W'} {tr' : Trace C' R' W'} (hm : Matched Reach rel p w' tr') :
    Matched Reach rel' p w' tr' := by
  obtain ⟨w, tr, hx, hrel⟩ := hm
  exact ⟨w, tr, hx, hmono _ _ _ _ hrel⟩

section Relays

variable (rel : τ → Relating C' R' W' C R W) {c : C} {k : R c → Prog C R β} {t t' : τ}

/-- A call that is answered without any call. -/
theorem obeys_reply (hclosed : Closed S Reach) (habsorbs : Absorbs S S' (rel t')) {r : R c}
    (hans : ∀ w' tr' w tr, Reach ⟨.call c k, w, tr⟩ → rel t w' tr' w tr →
      ∃ v, S.answers w c r v ∧ rel t' w' tr' v (.called w c r :: tr)) :
    Obeys S' (.always (Somewhere Reach lost)) (Matched Reach (rel t) (.call c k)) (.ret (r, t'))
      fun rt => Matched Reach (rel rt.2) (k rt.1) := by
  have hret : Obeys S' (.always (Somewhere Reach lost)) (Matched Reach (rel t') (k r))
      (.ret (r, t')) fun rt => Matched Reach (rel rt.2) (k rt.1) :=
    obeys_ret (stable_matched hclosed habsorbs _) fun _ _ h => h
  refine hret.pre ?_
  rintro w' tr' ⟨w, tr, hx, hrel⟩
  obtain ⟨v, hv, hrel'⟩ := hans w' tr' w tr hx hrel
  exact ⟨v, _, hclosed _ _ hx (.call hv), hrel'⟩

/-- A call that is answered by one call, after which something may have happened by itself. -/
theorem obeys_relay_drifts (hclosed : Closed S Reach) (habsorbs : ∀ t, Absorbs S S' (rel t))
    (hlost : ∀ t w' tr' w tr, rel t w' tr' w tr → lost w' tr' w tr) (c' : C') (g : R' c' → R c)
    (hans : ∀ w' tr' r' v' w tr, Reach ⟨.call c k, w, tr⟩ → rel t w' tr' w tr →
      S'.answers w' c' r' v' →
        ∃ v u, S.answers w c (g r') v ∧ Relation.ReflTransGen S.drifts v u ∧
          rel t' v' (.called w' c' r' :: tr') u (.called w c (g r') :: tr)) :
    Obeys S' (.always (Somewhere Reach lost)) (Matched Reach (rel t) (.call c k))
      (.call c' fun r' => .ret (g r', t')) fun rt => Matched Reach (rel rt.2) (k rt.1) := by
  refine obeys_call (M := fun r' => Matched Reach (rel t') (k (g r')))
    (stable_matched hclosed (habsorbs t) _) (fun w' tr' hm => ⟨_, hm.mono (hlost t)⟩) ?_
    fun r' => obeys_ret (stable_matched hclosed (habsorbs t') _) fun _ _ h => h
  rintro w' tr' r' v' ⟨w, tr, hx, hrel⟩ hans'
  obtain ⟨v, u, hv, hdrifts, hrel'⟩ := hans w' tr' r' v' w tr hx hrel hans'
  exact ⟨u, _, hclosed.drifts (hclosed _ _ hx (.call hv)) hdrifts, hrel'⟩

/-- A call that is answered by one call. -/
theorem obeys_relay (hclosed : Closed S Reach) (habsorbs : ∀ t, Absorbs S S' (rel t))
    (hlost : ∀ t w' tr' w tr, rel t w' tr' w tr → lost w' tr' w tr) (c' : C') (g : R' c' → R c)
    (hans : ∀ w' tr' r' v' w tr, Reach ⟨.call c k, w, tr⟩ → rel t w' tr' w tr →
      S'.answers w' c' r' v' →
        ∃ v, S.answers w c (g r') v ∧ rel t' v' (.called w' c' r' :: tr') v
          (.called w c (g r') :: tr)) :
    Obeys S' (.always (Somewhere Reach lost)) (Matched Reach (rel t) (.call c k))
      (.call c' fun r' => .ret (g r', t')) fun rt => Matched Reach (rel rt.2) (k rt.1) := by
  refine obeys_relay_drifts rel hclosed habsorbs hlost c' g fun w' tr' r' v' w tr hx hrel hr => ?_
  obtain ⟨v, hv, hrel'⟩ := hans w' tr' r' v' w tr hx hrel hr
  exact ⟨v, v, hv, .refl, hrel'⟩

end Relays

/-- Forward simulation. Where the handler of each call behaves like an answer to it, the handled
program behaves like the program: it is always somewhere near a place the program may come to,
and when it returns, so may the program. -/
theorem obeys_handle_matched {rel : τ → Relating C' R' W' C R W} (hclosed : Closed S Reach)
    (habsorbs : ∀ t, Absorbs S S' (rel t))
    (hlost : ∀ t w' tr' w tr, rel t w' tr' w tr → lost w' tr' w tr)
    (hcall : ∀ c k t, Obeys S' (.always (Somewhere Reach lost)) (Matched Reach (rel t) (.call c k))
      (h c t) fun rt => Matched Reach (rel rt.2) (k rt.1)) (p : Prog C R β) (t : τ) :
    Obeys S' (.always (Somewhere Reach lost)) (Matched Reach (rel t) p) (p.handle h t) fun at' =>
      Matched Reach (rel at'.2) (.ret at'.1) := by
  have hrule := obeys_handle (K := .always (Somewhere Reach lost)) (h := h)
    (A := fun p t => Matched Reach (rel t) p)
    (fun p t => stable_matched hclosed (habsorbs t) p)
    (fun p t _ _ hm => ⟨p, hm.mono (hlost t)⟩) ?_ hcall p .ret t
  · rw [show (p >>= Prog.ret) = p from Prog.bind_ret p] at hrule
    exact hrule
  · rintro σ ρ body s k t w' tr' ⟨w, tr, hx, hrel⟩
    exact ⟨w, tr, hclosed _ _ hx .unroll, hrel⟩

end Simulation

/-! ## Section 3: Losses and restarts -/

/-- The rule for processes that are lost at any point and started again as any of the programs:
what a program keeps to at all times has to be enough for the next one to start from. -/
theorem Lives.recovers {ι : Type} {S : Surroundings C R W} {main : ι → Prog C R α} {w₀ : W}
    {P I : ι → Assertion C R W} {Q : ι → α → Assertion C R W}
    (hobeys : ∀ i, Obeys S (.always (I i)) (P i) (main i) (Q i))
    (hret : ∀ i a w tr, Q i a w tr → I i w tr) (hstart : ∀ i, P i w₀ [])
    (hrestart : ∀ i j w w' tr, I i w tr → S.restarts w w' → P j w' (.restarted w :: tr))
    {i : ι} {x : Config C R W α} (hx : Lives S main w₀ i x) :
    (Contract.always (I i)).Complies (Q i) x := by
  have hfrom : ∃ w tr, P i w tr ∧ Steps S ⟨main i, w, tr⟩ x := by
    induction hx with
    | start i => exact ⟨w₀, [], hstart i, .refl⟩
    | step _ hstep ih =>
      obtain ⟨w, tr, hP, hsteps⟩ := ih
      exact ⟨w, tr, hP, hsteps.tail hstep⟩
    | @restart i x w' j _ hlost ih =>
      obtain ⟨w, tr, hP, hsteps⟩ := ih
      have hI := (hobeys i).always (hret i) hP hsteps
      exact ⟨w', _, hrestart i j _ _ _ hI hlost, .refl⟩
  obtain ⟨w, tr, hP, hsteps⟩ := hfrom
  exact hobeys i w tr hP x hsteps

end Effects
