import Mathlib.Data.List.DropRight

/-!
# Lines and Pieces of Text

The text functions that line-based formats are read with: splitting into lines that end in LF or
CRLF, trimming of Unicode white space, splitting at the first occurrence of a character, and
ASCII lower case.

- `lines_append_newline`, `lines_ended`: what stands before a line ending is the first line.
- `filterMap_lines_blocks`: text made of blocks with a newline before each is read line by line
  as it is read block by block.
- `mem_lines`: no line holds a newline.
-/

namespace Text

/-! ## Section 1: Lines -/

/-- `str::lines`: a line ends with LF or CRLF, which are not part of it. -/
def lines : List Char → List (List Char)
  | [] => []
  | c :: rest =>
      if c = '\n' then [] :: lines rest
      -- the carriage return of a CRLF
      else if c = '\r' ∧ rest.head? = some '\n' then lines rest
      else
        match lines rest with
        | [] => [[c]]
        | line :: others => (c :: line) :: others

/-- Without a carriage return at the end. -/
def chomp : List Char → List Char
  | [] => []
  | c :: rest => if c = '\r' ∧ rest = [] then [] else c :: chomp rest

@[simp] theorem lines_nil : lines [] = [] := rfl

@[simp] theorem lines_newline (rest : List Char) : lines ('\n' :: rest) = [] :: lines rest := rfl

/-- Up to a newline is a line. -/
theorem lines_append_newline {line : List Char} (h : '\n' ∉ line) (rest : List Char) :
    lines (line ++ '\n' :: rest) = chomp line :: lines rest := by
  induction line with
  | nil => rfl
  | cons c line ih =>
    have hc : c ≠ '\n' := fun heq => h (heq ▸ List.mem_cons_self)
    have hline : '\n' ∉ line := fun hmem => h (List.mem_cons_of_mem c hmem)
    rw [List.cons_append, lines, if_neg hc, chomp, ih hline]
    cases line with
    | nil => by_cases hcr : c = '\r' <;> simp [hcr, chomp]
    | cons d line =>
      -- the carriage return of a CRLF is the last character of the line
      have hd : d ≠ '\n' := fun heq => hline (heq ▸ List.mem_cons_self)
      rw [if_neg (by simp [hd]), if_neg (by simp)]

/-- What is left without a newline is a line. -/
theorem lines_last {line : List Char} (h : '\n' ∉ line) (hne : line ≠ []) :
    lines line = [line] := by
  induction line with
  | nil => exact absurd rfl hne
  | cons c line ih =>
    have hc : c ≠ '\n' := fun heq => h (heq ▸ List.mem_cons_self)
    have hline : '\n' ∉ line := fun hmem => h (List.mem_cons_of_mem c hmem)
    rw [lines, if_neg hc]
    cases line with
    | nil => simp
    | cons d line =>
      have hd : d ≠ '\n' := fun heq => hline (heq ▸ List.mem_cons_self)
      rw [if_neg (by simp [hd]), ih hline (List.cons_ne_nil d line)]

/-- No line holds a newline. -/
theorem mem_lines {text line : List Char} (h : line ∈ lines text) : '\n' ∉ line := by
  induction text generalizing line with
  | nil => cases h
  | cons c rest ih =>
    rw [lines] at h
    split at h
    · rcases List.mem_cons.mp h with rfl | h
      · exact List.not_mem_nil
      · exact ih h
    · rename_i hc
      split at h
      · exact ih h
      · split at h
        · rw [List.mem_singleton.mp h, List.mem_singleton]
          exact fun heq => hc heq.symm
        · rename_i first others hrest
          rcases List.mem_cons.mp h with rfl | h
          · have hfirst : '\n' ∉ first := ih (hrest ▸ List.mem_cons_self)
            rintro hmem
            rcases List.mem_cons.mp hmem with heq | hmem
            · exact hc heq.symm
            · exact hfirst hmem
          · exact ih (hrest ▸ List.mem_cons_of_mem first h)

/-- How a line may end. -/
inductive LineEnding where
  | lf
  | crlf
deriving DecidableEq, Repr

def LineEnding.chars : LineEnding → List Char
  | .lf => ['\n']
  | .crlf => ['\r', '\n']

theorem chomp_of_notMem {line : List Char} (h : '\r' ∉ line) : chomp line = line := by
  induction line with
  | nil => rfl
  | cons c line ih =>
    have hc : c ≠ '\r' := fun heq => h (heq ▸ List.mem_cons_self)
    rw [chomp, if_neg (fun hand => hc hand.1), ih fun hmem => h (List.mem_cons_of_mem c hmem)]

theorem chomp_concat (line : List Char) : chomp (line ++ ['\r']) = line := by
  induction line with
  | nil => rfl
  | cons c line ih => rw [List.cons_append, chomp, if_neg (by simp), ih]

/-- What is chomped off. -/
theorem chomp_eq (line : List Char) : chomp line = line ∨ line = chomp line ++ ['\r'] := by
  rcases List.eq_nil_or_concat line with rfl | ⟨front, c, rfl⟩
  · exact .inl rfl
  · rw [List.concat_eq_append]
    by_cases hc : c = '\r'
    · rw [hc, chomp_concat]
      exact .inr rfl
    · left
      induction front with
      | nil => simp [chomp, hc]
      | cons d front ih => rw [List.cons_append, chomp, if_neg (by simp), ih]

/-- A line before its ending is the first line. -/
theorem lines_ended {line : List Char} (hcr : '\r' ∉ line) (hlf : '\n' ∉ line)
    (ending : LineEnding) (rest : List Char) :
    lines (line ++ (ending.chars ++ rest)) = line :: lines rest := by
  cases ending with
  | lf =>
    change lines (line ++ '\n' :: rest) = _
    rw [lines_append_newline hlf, chomp_of_notMem hcr]
  | crlf =>
    have hlf' : '\n' ∉ line ++ ['\r'] := by simpa using hlf
    change lines (line ++ '\r' :: '\n' :: rest) = _
    rw [List.append_cons, lines_append_newline hlf', chomp_concat]

section Blocks

variable {β : Type} {f : List Char → Option β}

theorem filterMap_chomp (hcr : ∀ line, f (line ++ ['\r']) = f line) (line : List Char) :
    f (chomp line) = f line := by
  rcases chomp_eq line with heq | heq
  · rw [heq]
  · rw [← hcr (chomp line), ← heq]

/-- What is read off a first block and the blocks after it, line by line. -/
theorem filterMap_lines_from (hnil : f [] = none) (hcr : ∀ line, f (line ++ ['\r']) = f line)
    {first : List Char} {blocks : List (List Char)} (hfirst : '\n' ∉ first)
    (h : ∀ block ∈ blocks, '\n' ∉ block) :
    (lines (first ++ blocks.flatMap fun block => '\n' :: block)).filterMap f =
      (first :: blocks).filterMap f := by
  induction blocks generalizing first with
  | nil =>
    rw [List.flatMap_nil, List.append_nil]
    cases first with
    | nil => rw [lines_nil, List.filterMap_cons_none hnil]
    | cons c rest => rw [lines_last hfirst (List.cons_ne_nil c rest)]
  | cons block blocks ih =>
    have hblock := h block List.mem_cons_self
    have hblocks : ∀ b ∈ blocks, '\n' ∉ b := fun b hb => h b (List.mem_cons_of_mem block hb)
    rw [List.flatMap_cons, List.cons_append, lines_append_newline hfirst, List.filterMap_cons,
      ih hblock hblocks, filterMap_chomp hcr, ← List.filterMap_cons]

/-- What is read off text made of blocks with a newline before each, line by line, is what is
read off the blocks, where carriage returns at the end do not matter. -/
theorem filterMap_lines_blocks (hnil : f [] = none) (hcr : ∀ line, f (line ++ ['\r']) = f line)
    {blocks : List (List Char)} (h : ∀ block ∈ blocks, '\n' ∉ block) :
    (lines (blocks.flatMap fun block => '\n' :: block)).filterMap f = blocks.filterMap f := by
  have hfrom := filterMap_lines_from hnil hcr List.not_mem_nil h
  rwa [List.nil_append, List.filterMap_cons_none hnil] at hfrom

end Blocks

/-! ## Section 2: White space -/

/-- `char::is_whitespace`: the Unicode property `White_Space`. -/
def isWhitespace (c : Char) : Bool :=
  let n := c.toNat
  (0x09 ≤ n && n ≤ 0x0D) || n == 0x20 || n == 0x85 || n == 0xA0 || n == 0x1680 ||
    (0x2000 ≤ n && n ≤ 0x200A) || n == 0x2028 || n == 0x2029 || n == 0x202F || n == 0x205F ||
    n == 0x3000

/-- `str::trim_start` -/
def trimStart (text : List Char) : List Char := text.dropWhile isWhitespace

/-- `str::trim` -/
def trim (text : List Char) : List Char := trimStart (text.rdropWhile isWhitespace)

/-- White space at the end is trimmed off. -/
theorem trim_concat {c : Char} (hc : isWhitespace c = true) (text : List Char) :
    trim (text ++ [c]) = trim text := by
  rw [trim, List.rdropWhile_concat_pos _ _ _ hc, trim]

/-- Text that neither starts nor ends with white space is left as it is. -/
theorem trim_eq_self {text : List Char} (hfirst : ∀ c ∈ text.head?, isWhitespace c = false)
    (hlast : ∀ c ∈ text.getLast?, isWhitespace c = false) : trim text = text := by
  have hend : text.rdropWhile isWhitespace = text := by
    rw [List.rdropWhile_eq_self_iff]
    intro hne
    rw [hlast _ (List.getLast?_eq_some_getLast hne)]
    exact Bool.false_ne_true
  rw [trim, hend, trimStart]
  cases text with
  | nil => rfl
  | cons c rest => rw [List.dropWhile_cons, hfirst c rfl, if_neg Bool.false_ne_true]

theorem trim_of_forall {text : List Char} (h : ∀ c ∈ text, isWhitespace c = false) :
    trim text = text :=
  trim_eq_self (fun c hc => h c (List.mem_of_mem_head? hc))
    fun c hc => h c (List.mem_of_mem_getLast? hc)

theorem mem_of_mem_trim {text : List Char} {c : Char} (h : c ∈ trim text) : c ∈ text :=
  (List.rdropWhile_prefix isWhitespace text).subset
    ((List.dropWhile_suffix isWhitespace).mem h)

/-- What is no white space stays. -/
theorem mem_trim {text : List Char} {c : Char} (hmem : c ∈ text) (hc : isWhitespace c = false) :
    c ∈ trim text := by
  have hneg : ¬ isWhitespace c = true := by rw [hc]; exact Bool.false_ne_true
  rw [← List.rdropWhile_append_rtakeWhile (p := isWhitespace) (l := text)] at hmem
  rcases List.mem_append.mp hmem with hfront | hend
  · rw [← List.takeWhile_append_dropWhile (p := isWhitespace)
      (l := text.rdropWhile isWhitespace)] at hfront
    rcases List.mem_append.mp hfront with hstart | hmiddle
    · exact absurd (List.mem_takeWhile_imp hstart) hneg
    · exact hmiddle
  · exact absurd (List.mem_rtakeWhile_imp hend) hneg

/-- Trimmed text does not start with white space. -/
theorem head?_trim {text : List Char} {c : Char} (h : c ∈ (trim text).head?) :
    isWhitespace c = false := by
  have hfirst := List.head?_dropWhile_not isWhitespace (text.rdropWhile isWhitespace)
  change c ∈ ((text.rdropWhile isWhitespace).dropWhile isWhitespace).head? at h
  rw [h] at hfirst
  exact hfirst

/-- Trimmed text does not end with white space. -/
theorem getLast?_trim {text : List Char} {c : Char} (h : c ∈ (trim text).getLast?) :
    isWhitespace c = false := by
  obtain ⟨hne, rfl⟩ := List.mem_getLast?_eq_getLast h
  have hsuffix := (List.dropWhile_suffix isWhitespace).getLast hne
  have hnot := List.rdropWhile_last_not isWhitespace text
    (List.IsSuffix.ne_nil (List.dropWhile_suffix isWhitespace) hne)
  rw [← hsuffix] at hnot
  exact Bool.eq_false_iff.mpr hnot

theorem trim_trim (text : List Char) : trim (trim text) = trim text :=
  trim_eq_self (fun _ hc => head?_trim hc) fun _ hc => getLast?_trim hc

/-- The text has something other than white space in it. -/
def Visible (text : List Char) : Prop := ∃ c ∈ text, isWhitespace c = false

theorem Visible.append_left {text : List Char} (h : Visible text) (front : List Char) :
    Visible (front ++ text) := by
  obtain ⟨c, hc, hvisible⟩ := h
  exact ⟨c, List.mem_append_right front hc, hvisible⟩

theorem Visible.append_right {text : List Char} (h : Visible text) (back : List Char) :
    Visible (text ++ back) := by
  obtain ⟨c, hc, hvisible⟩ := h
  exact ⟨c, List.mem_append_left back hc, hvisible⟩

theorem dropWhile_append_of_visible {front : List Char} (h : Visible front) (rest : List Char) :
    (front ++ rest).dropWhile isWhitespace = front.dropWhile isWhitespace ++ rest ∧
      front.dropWhile isWhitespace ≠ [] := by
  have hne : front.dropWhile isWhitespace ≠ [] := by
    intro hnil
    obtain ⟨c, hc, hvisible⟩ := h
    rw [List.dropWhile_eq_nil_iff.mp hnil c hc] at hvisible
    cases hvisible
  refine ⟨?_, hne⟩
  rw [List.dropWhile_append, if_neg (by simpa only [List.isEmpty_iff] using hne)]

/-- What has something other than white space on both sides is not trimmed off, and neither is
all that surrounds it. -/
theorem trim_between {before after : List Char} (hbefore : Visible before) (hafter : Visible after)
    (middle : List Char) : ∃ before' after', before' ≠ [] ∧ after' ≠ [] ∧
      trim (before ++ middle ++ after) = before' ++ middle ++ after' := by
  have hreverse : Visible after.reverse := by
    obtain ⟨c, hc, hvisible⟩ := hafter
    exact ⟨c, List.mem_reverse.mpr hc, hvisible⟩
  obtain ⟨hend, hafter'⟩ := dropWhile_append_of_visible hreverse (before ++ middle).reverse
  obtain ⟨hstart, hbefore'⟩ := dropWhile_append_of_visible hbefore
    (middle ++ (after.reverse.dropWhile isWhitespace).reverse)
  refine ⟨before.dropWhile isWhitespace, (after.reverse.dropWhile isWhitespace).reverse, hbefore',
    by simpa using hafter', ?_⟩
  have hright : (before ++ middle ++ after).rdropWhile isWhitespace =
      before ++ (middle ++ (after.reverse.dropWhile isWhitespace).reverse) := by
    rw [List.rdropWhile, List.reverse_append, hend, List.reverse_append, List.reverse_reverse,
      List.append_assoc]
  rw [trim, hright, trimStart, hstart, List.append_assoc]

/-! ## Section 3: Pieces -/

/-- `str::split_once` -/
def splitOnce (sep : Char) : List Char → Option (List Char × List Char)
  | [] => none
  | c :: rest =>
      if c = sep then some ([], rest)
      else (splitOnce sep rest).map fun parts => (c :: parts.1, parts.2)

/-- The first occurrence is where the text is split. -/
theorem splitOnce_append {sep : Char} {front : List Char} (h : sep ∉ front) (rest : List Char) :
    splitOnce sep (front ++ sep :: rest) = some (front, rest) := by
  induction front with
  | nil => rw [List.nil_append, splitOnce, if_pos rfl]
  | cons c front ih =>
    have hc : c ≠ sep := fun heq => h (heq ▸ List.mem_cons_self)
    rw [List.cons_append, splitOnce, if_neg hc, ih fun hmem => h (List.mem_cons_of_mem c hmem)]
    rfl

/-- The separator is between the two parts. -/
theorem eq_of_splitOnce {sep : Char} {text : List Char} {parts : List Char × List Char}
    (h : splitOnce sep text = some parts) : text = parts.1 ++ sep :: parts.2 := by
  induction text generalizing parts with
  | nil => cases h
  | cons c rest ih =>
    rw [splitOnce] at h
    split at h
    · rename_i hc
      cases h
      rw [hc, List.nil_append]
    · obtain ⟨parts', hrest, rfl⟩ := Option.map_eq_some_iff.mp h
      rw [ih hrest]
      rfl

/-- Another character at the end goes with the second part. -/
theorem splitOnce_concat {sep c : Char} (hc : c ≠ sep) (text : List Char) :
    splitOnce sep (text ++ [c]) =
      (splitOnce sep text).map fun parts => (parts.1, parts.2 ++ [c]) := by
  induction text with
  | nil => simp [splitOnce, hc]
  | cons d text ih =>
    rw [List.cons_append, splitOnce, splitOnce]
    split
    · rfl
    · rw [ih, Option.map_map, Option.map_map]
      rfl

/-- `str::to_ascii_lowercase` -/
def toAsciiLowercase (text : List Char) : List Char := text.map Char.toLower

end Text
