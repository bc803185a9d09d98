import Mathlib.Data.List.Basic
import Mathlib.Tactic.IntervalCases

/-!
# Sequence Sets of IMAP

The sets of numbers that the arguments of IMAP commands name messages with: numbers and ranges
with commas between them, where `*` is the highest number in use.

`sequenceSet?_render`: a rendered set is read back. `SeqItem.holds_from`: what `n:*` stands for.
-/

namespace Text

/-! ## Section 1: Numbers -/

/-- `nz-number`: digits that do not start with a zero. -/
def nzNumber? (text : List Char) : Option Nat :=
  if text ≠ [] ∧ text.head? ≠ some '0' ∧ text.all Char.isDigit then
    some (Nat.ofDigitChars 10 text 0)
  else none

/-- `seq-number` -/
inductive SeqNumber where
  | number (n : Nat)
  | star
deriving DecidableEq, Repr

def SeqNumber.render : SeqNumber → List Char
  | .number n => Nat.toDigits 10 n
  | .star => ['*']

def seqNumber? (text : List Char) : Option SeqNumber :=
  if text = ['*'] then some .star else (nzNumber? text).map .number

/-- Zero is no sequence number. -/
def SeqNumber.Valid : SeqNumber → Prop
  | .number n => 0 < n
  | .star => True

theorem head?_toDigits {n : Nat} (h : 0 < n) : (Nat.toDigits 10 n).head? ≠ some '0' := by
  induction n using Nat.strongRecOn with
  | ind n ih =>
    rcases Nat.lt_or_ge n 10 with hlt | hge
    · rw [Nat.toDigits_of_lt_base hlt]
      interval_cases n <;> decide
    · -- the first digit is that of the tenth part
      have htenth := ih (n / 10) (by omega) (by omega)
      rw [Nat.toDigits_of_base_le (by decide) hge]
      rwa [List.head?_append_of_ne_nil _ Nat.toDigits_ne_nil]

theorem nzNumber?_toDigits {n : Nat} (h : 0 < n) : nzNumber? (Nat.toDigits 10 n) = some n := by
  have hdigits : (Nat.toDigits 10 n).all Char.isDigit = true :=
    List.all_eq_true.mpr fun c hc => Nat.isDigit_of_mem_toDigits (by decide) le_rfl hc
  rw [nzNumber?, if_pos ⟨Nat.toDigits_ne_nil, head?_toDigits h, hdigits⟩,
    Nat.ofDigitChars_ten_toDigits]

/-- The separators are not part of numbers. -/
theorem notMem_render {c : Char} (hdigit : c.isDigit = false) (hstar : c ≠ '*') (x : SeqNumber) :
    c ∉ x.render := by
  intro hc
  cases x with
  | number n =>
    have hdigit' := Nat.isDigit_of_mem_toDigits (by decide) le_rfl hc
    rw [hdigit] at hdigit'
    cases hdigit'
  | star => exact hstar (List.mem_singleton.mp hc)

theorem seqNumber?_render {x : SeqNumber} (h : x.Valid) : seqNumber? x.render = some x := by
  cases x with
  | star => rfl
  | number n =>
    have hne : Nat.toDigits 10 n ≠ ['*'] := by
      intro heq
      have hstar : '*' ∈ Nat.toDigits 10 n := heq ▸ List.mem_singleton_self _
      exact absurd (Nat.isDigit_of_mem_toDigits (by decide) le_rfl hstar) (by decide)
    rw [SeqNumber.render, seqNumber?, if_neg hne, nzNumber?_toDigits h, Option.map_some]

/-! ## Section 2: Items -/

/-- `seq-number / seq-range` -/
inductive SeqItem where
  | one (x : SeqNumber)
  | range (x y : SeqNumber)
deriving DecidableEq, Repr

def SeqItem.render : SeqItem → List Char
  | .one x => x.render
  | .range x y => x.render ++ ':' :: y.render

def seqItem? (text : List Char) : Option SeqItem :=
  match text.splitOn ':' with
  | [x] => (seqNumber? x).map .one
  | [x, y] => (seqNumber? x).bind fun x => (seqNumber? y).map fun y => .range x y
  | _ => none

def SeqItem.Valid : SeqItem → Prop
  | .one x => x.Valid
  | .range x y => x.Valid ∧ y.Valid

theorem colon_notMem (x : SeqNumber) : ':' ∉ x.render := notMem_render rfl (by decide) x

theorem seqItem?_render {item : SeqItem} (h : item.Valid) : seqItem? item.render = some item := by
  cases item with
  | one x =>
    have hsplit : x.render.splitOn ':' = [x.render] :=
      List.splitOn_eq_singleton (colon_notMem x)
    rw [SeqItem.render, seqItem?, hsplit]
    simp only [seqNumber?_render h, Option.map_some]
  | range x y =>
    have hsplit : (x.render ++ ':' :: y.render).splitOn ':' = [x.render, y.render] := by
      have hboth : ∀ l ∈ [x.render, y.render], ':' ∉ l := by
        simp [colon_notMem]
      have hjoin := List.splitOn_intercalate ':' hboth (by simp)
      simpa [List.intercalate] using hjoin
    rw [SeqItem.render, seqItem?, hsplit]
    simp only [seqNumber?_render h.1, seqNumber?_render h.2, Option.bind_some, Option.map_some]

/-! ## Section 3: Sets -/

/-- `sequence-set` -/
abbrev SequenceSet := List SeqItem

def SequenceSet.render (set : SequenceSet) : List Char := [','].intercalate (set.map SeqItem.render)

def sequenceSet? (text : List Char) : Option SequenceSet := (text.splitOn ',').mapM seqItem?

theorem comma_notMem (item : SeqItem) : ',' ∉ item.render := by
  cases item with
  | one x => exact notMem_render rfl (by decide) x
  | range x y =>
    intro hc
    rcases List.mem_append.mp hc with hx | hy
    · exact notMem_render rfl (by decide) x hx
    · rcases List.mem_cons.mp hy with heq | hy
      · cases heq
      · exact notMem_render rfl (by decide) y hy

/-- The items of a rendered set are read one by one. -/
theorem sequenceSet?_eq_mapM {set : SequenceSet} (hne : set ≠ []) :
    sequenceSet? set.render = (set.map SeqItem.render).mapM seqItem? := by
  have hsplit : set.render.splitOn ',' = set.map SeqItem.render := by
    refine List.splitOn_intercalate ',' ?_ (by simpa using hne)
    intro text htext
    obtain ⟨item, -, rfl⟩ := List.mem_map.mp htext
    exact comma_notMem item
  rw [sequenceSet?, hsplit]

/-- A set is read back. -/
theorem sequenceSet?_render {set : SequenceSet} (hne : set ≠ []) (h : ∀ item ∈ set, item.Valid) :
    sequenceSet? set.render = some set := by
  have hitems : ∀ items : SequenceSet, (∀ item ∈ items, item.Valid) →
      (items.map SeqItem.render).mapM seqItem? = some items := by
    intro items hitems
    induction items with
    | nil => rfl
    | cons item rest ih =>
      rw [List.map_cons, List.mapM_cons, seqItem?_render (hitems item List.mem_cons_self),
        ih fun item hitem => hitems item (List.mem_cons_of_mem _ hitem)]
      rfl
  rw [sequenceSet?_eq_mapM hne]
  exact hitems set h

/-- A set with an item that is not read is not read. -/
theorem sequenceSet?_eq_none {set : SequenceSet} {item : SeqItem} (hitem : item ∈ set)
    (h : seqItem? item.render = none) : sequenceSet? set.render = none := by
  rw [sequenceSet?_eq_mapM (List.ne_nil_of_mem hitem)]
  induction set with
  | nil => cases hitem
  | cons first rest ih =>
    rw [List.map_cons, List.mapM_cons]
    rcases List.mem_cons.mp hitem with rfl | hrest
    · rw [h]
      rfl
    · rw [ih hrest]
      cases seqItem? first.render <;> rfl

/-! ## Section 4: Meaning -/

/-- The number that is meant, where `highest` is the highest in use. -/
def SeqNumber.value (highest : Nat) : SeqNumber → Nat
  | .number n => n
  | .star => highest

/-- The item contains the number. The ends of a range may stand in any order. -/
def SeqItem.Holds (highest : Nat) : SeqItem → Nat → Prop
  | .one x, n => n = x.value highest
  | .range x y, n =>
      min (x.value highest) (y.value highest) ≤ n ∧ n ≤ max (x.value highest) (y.value highest)

instance (highest : Nat) (item : SeqItem) (n : Nat) : Decidable (item.Holds highest n) :=
  match item with
  | .one _ => inferInstanceAs (Decidable (_ = _))
  | .range _ _ => inferInstanceAs (Decidable (_ ∧ _))

/-- `start:*` holds what is not below `start`, and the highest number in any case. -/
theorem SeqItem.holds_from {highest start n : Nat} (h : n ≤ highest) :
    (SeqItem.range (.number start) .star).Holds highest n ↔ start ≤ n ∨ n = highest := by
  simp only [SeqItem.Holds, SeqNumber.value]
  omega

end Text
