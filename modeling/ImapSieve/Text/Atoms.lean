import Mathlib.Data.List.Basic

/-!
# Flag Lists of IMAP

The flag list of a STORE command as the grammar of IMAP has it: flags between parentheses, with
one space between them. A flag is an atom, with a backslash before it if it is a system flag.

`flagList?_render`: a rendered list is read back. `isFlag_of_flagList?`: whatever is read is a
list of flags, so that nothing else can be read back.
-/

namespace Text

/-! ## Section 1: Flags -/

/-- ATOM-CHAR: a printable ASCII character that is not one of the atom-specials. -/
def isAtomChar (c : Char) : Bool :=
  0x21 ≤ c.toNat && c.toNat ≤ 0x7E && !(['(', ')', '{', '%', '*', '"', '\\', ']'].contains c)

def isAtom (text : List Char) : Bool := !text.isEmpty && text.all isAtomChar

/-- A keyword, or a backslash and an atom. -/
def isFlag : List Char → Bool
  | '\\' :: name => isAtom name
  | text => isAtom text

example : ["\\Seen".toList, "$Junk".toList].all isFlag = true := by decide

example : ["".toList, "a b".toList, "a)".toList, "\\*".toList].any isFlag = false := by decide

theorem isAtomChar_of_isAtom {text : List Char} (h : isAtom text = true) {c : Char}
    (hc : c ∈ text) : isAtomChar c = true := by
  rw [isAtom, Bool.and_eq_true] at h
  exact List.all_eq_true.mp h.2 c hc

/-- The characters of a flag. -/
theorem mem_isFlag {text : List Char} (h : isFlag text = true) {c : Char} (hc : c ∈ text) :
    c = '\\' ∨ isAtomChar c = true := by
  unfold isFlag at h
  split at h
  · rcases List.mem_cons.mp hc with rfl | hc
    · exact .inl rfl
    · exact .inr (isAtomChar_of_isAtom h hc)
  · exact .inr (isAtomChar_of_isAtom h hc)

theorem space_notMem {text : List Char} (h : isFlag text = true) : ' ' ∉ text := by
  intro hc
  rcases mem_isFlag h hc with hspace | hspace
  · cases hspace
  · exact absurd hspace (by decide)

theorem ne_nil_of_isFlag {text : List Char} (h : isFlag text = true) : text ≠ [] := by
  rintro rfl
  exact absurd h (by decide)

/-! ## Section 2: Lists of flags -/

/-- The flags with spaces between them. -/
def spaced (flags : List (List Char)) : List Char := [' '].intercalate flags

/-- The flags of the text between the parentheses. -/
def spacedFlags? (text : List Char) : Option (List (List Char)) :=
  -- splitting the empty text would give one empty flag
  if text = [] then some []
  else if (text.splitOn ' ').all isFlag then some (text.splitOn ' ')
  else none

/-- `"(" [flag *(SP flag)] ")"` -/
def flagList? : List Char → Option (List (List Char))
  | '(' :: rest => if rest.getLast? = some ')' then spacedFlags? rest.dropLast else none
  | _ => none

def renderFlagList (flags : List (List Char)) : List Char := '(' :: spaced flags ++ [')']

theorem isFlag_of_spacedFlags? {text : List Char} {flags : List (List Char)}
    (h : spacedFlags? text = some flags) : ∀ flag ∈ flags, isFlag flag = true := by
  unfold spacedFlags? at h
  split at h
  · cases h
    simp
  · split at h
    · cases h
      rename_i hall
      exact List.all_eq_true.mp hall
    · cases h

/-- Only flags are read. -/
theorem isFlag_of_flagList? {text : List Char} {flags : List (List Char)}
    (h : flagList? text = some flags) : ∀ flag ∈ flags, isFlag flag = true := by
  unfold flagList? at h
  split at h
  · split at h
    · exact isFlag_of_spacedFlags? h
    · cases h
  · cases h

theorem spacedFlags?_spaced {flags : List (List Char)} (h : ∀ flag ∈ flags, isFlag flag = true) :
    spacedFlags? (spaced flags) = some flags := by
  rcases List.eq_nil_or_concat flags with rfl | ⟨front, last, hflags⟩
  · rfl
  · have hne : flags ≠ [] := by simp [hflags]
    have hsplit : (spaced flags).splitOn ' ' = flags :=
      List.splitOn_intercalate ' ' (fun flag hflag => space_notMem (h flag hflag)) hne
    -- some flags do not become the empty text, since no flag is empty
    have htext : spaced flags ≠ [] := by
      intro hnil
      rw [hnil, List.splitOn_nil] at hsplit
      exact ne_nil_of_isFlag (h [] (hsplit ▸ List.mem_singleton_self _)) rfl
    rw [spacedFlags?, if_neg htext, hsplit, if_pos (List.all_eq_true.mpr h)]

/-- A list of flags is read back. -/
theorem flagList?_render {flags : List (List Char)} (h : ∀ flag ∈ flags, isFlag flag = true) :
    flagList? (renderFlagList flags) = some flags := by
  rw [renderFlagList, List.cons_append, flagList?, List.getLast?_concat, if_pos rfl,
    List.dropLast_concat]
  exact spacedFlags?_spaced h

end Text
