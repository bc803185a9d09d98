import ImapSieve.Types
import ImapSieve.Text.Utf8
import ImapSieve.Text.Lines
import ImapSieve.Text.Entries

/-!
# Header Parsing

`parse_headers` reads the header section of a raw message in two passes over text: one that
unfolds continuation lines into one string, and one that splits this string into lines again.

`headerFields` says what the header fields of a raw message are without the string in between,
and `parseHeaders_eq_collect` that `parse_headers` gathers exactly these.
-/

namespace ImapSieve

open Text

/-! ## Section 1: `parse_headers` -/

/-- A continuation line starts with a space or a tab. -/
def isContinuationLine (line : List Char) : Bool :=
  line.head? == some ' ' || line.head? == some '\t'

/-- First pass: unfold continuation lines. The arguments are the text unfolded so far and
whether there was a header line to continue. -/
def unfoldLines : List Char → Bool → List (List Char) → List Char
  | unfolded, _, [] => unfolded
  | unfolded, prevWasHeader, line :: rest =>
      if line = [] then unfolded
      else if isContinuationLine line then
        if prevWasHeader then unfoldLines (unfolded ++ ' ' :: trimStart line) prevWasHeader rest
        else unfoldLines unfolded prevWasHeader rest
      else unfoldLines (unfolded ++ '\n' :: line) true rest

/-- Second pass: extract name: value pairs. -/
def extractHeaders : List (String × String) → List (List Char) → List (String × String)
  | headers, [] => headers
  | headers, line :: rest =>
      if line = [] then extractHeaders headers rest
      else
        match splitOnce ':' line with
        | some (name, value) =>
            let key := String.ofList (toAsciiLowercase (trim name))
            let value := String.ofList (trim value)
            extractHeaders (upsert key (· ++ ", " ++ value) value headers) rest
        | none => extractHeaders headers rest

/-- `parse_headers` -/
def parseHeaders (raw : List UInt8) : List (String × String) :=
  extractHeaders [] (lines (unfoldLines [] false (lines (fromUtf8Lossy raw))))

/-- `MessageContext::header` -/
def MessageContext.header (ctx : MessageContext) (name : String) : Option String :=
  ctx.headers.lookup (String.ofList (toAsciiLowercase name.toList))

/-! ## Section 2: Header fields -/

/-- Header lines put together with their continuation lines: what continues the line before, and
the unfolded lines after it. -/
def gatherLines : List (List Char) → List Char × List (List Char)
  | [] => ([], [])
  | line :: rest =>
      if isContinuationLine line then
        (' ' :: trimStart line ++ (gatherLines rest).1, (gatherLines rest).2)
      else ([], (line ++ (gatherLines rest).1) :: (gatherLines rest).2)

/-- The lines of the header section, up to the empty line. -/
def headerLines (raw : List UInt8) : List (List Char) :=
  (lines (fromUtf8Lossy raw)).takeWhile fun line => line ≠ []

/-- The field that an unfolded line holds: its name in lower case and its value. -/
def fieldOf (line : List Char) : Option (String × String) :=
  (splitOnce ':' line).map fun parts =>
    (String.ofList (toAsciiLowercase (trim parts.1)), String.ofList (trim parts.2))

/-- The header fields of a raw message, in order. -/
def headerFields (raw : List UInt8) : List (String × String) :=
  (gatherLines (headerLines raw)).2.filterMap fieldOf

/-- Two values of one name in one. -/
def joinValues (v v' : String) : String := v ++ ", " ++ v'

/-! ## Section 3: The two passes read the fields -/

theorem unfoldLines_true (unfolded : List Char) (ls : List (List Char)) :
    unfoldLines unfolded true ls =
      unfolded ++ (gatherLines (ls.takeWhile fun line => line ≠ [])).1 ++
        (gatherLines (ls.takeWhile fun line => line ≠ [])).2.flatMap
          fun block => '\n' :: block := by
  induction ls generalizing unfolded with
  | nil => simp [unfoldLines, gatherLines]
  | cons line rest ih =>
    rw [unfoldLines]
    by_cases hempty : line = []
    · simp [hempty, gatherLines]
    · rw [if_neg hempty, List.takeWhile_cons_of_pos (by simpa using hempty), gatherLines]
      cases isContinuationLine line <;> simp [ih]

/-- The first pass writes each unfolded line after a newline. What comes before the first header
line is dropped. -/
theorem unfoldLines_eq (ls : List (List Char)) :
    unfoldLines [] false ls =
      (gatherLines (ls.takeWhile fun line => line ≠ [])).2.flatMap fun block => '\n' :: block := by
  induction ls with
  | nil => rfl
  | cons line rest ih =>
    rw [unfoldLines]
    by_cases hempty : line = []
    · simp [hempty, gatherLines]
    · rw [if_neg hempty, List.takeWhile_cons_of_pos (by simpa using hempty), gatherLines]
      cases isContinuationLine line <;> simp [ih, unfoldLines_true]

/-- The second pass gathers the fields of its lines. -/
theorem extractHeaders_eq (headers : List (String × String)) (ls : List (List Char)) :
    extractHeaders headers ls = collect joinValues headers (ls.filterMap fieldOf) := by
  induction ls generalizing headers with
  | nil => rfl
  | cons line rest ih =>
    rw [extractHeaders]
    by_cases hempty : line = []
    · subst hempty
      rw [if_pos rfl, ih, List.filterMap_cons_none rfl]
    · rw [if_neg hempty]
      cases hsplit : splitOnce ':' line with
      | none =>
        have hfield : fieldOf line = none := by rw [fieldOf, hsplit, Option.map_none]
        rw [List.filterMap_cons_none hfield, ← ih]
      | some parts =>
        have hfield : fieldOf line = some (String.ofList (toAsciiLowercase (trim parts.1)),
            String.ofList (trim parts.2)) := by rw [fieldOf, hsplit, Option.map_some]
        rw [List.filterMap_cons_some hfield]
        exact ih _

/-- A carriage return at the end of a line is no part of its field. -/
theorem fieldOf_concat (line : List Char) : fieldOf (line ++ ['\r']) = fieldOf line := by
  have htrim : ∀ value : List Char, trim (value ++ ['\r']) = trim value :=
    fun value => trim_concat (by decide) value
  rw [fieldOf, splitOnce_concat (by decide), Option.map_map, fieldOf]
  simp only [Function.comp_def, htrim]

/-- Unfolding adds no newline. -/
theorem gatherLines_newline {ls : List (List Char)} (h : ∀ line ∈ ls, '\n' ∉ line) :
    '\n' ∉ (gatherLines ls).1 ∧ ∀ block ∈ (gatherLines ls).2, '\n' ∉ block := by
  induction ls with
  | nil => simp [gatherLines]
  | cons line rest ih =>
    obtain ⟨hcont, hblocks⟩ := ih fun l hl => h l (List.mem_cons_of_mem line hl)
    have hline := h line List.mem_cons_self
    rw [gatherLines]
    cases isContinuationLine line with
    | true =>
      have hstart : '\n' ∉ trimStart line := fun hmem =>
        hline ((List.dropWhile_suffix isWhitespace).mem hmem)
      refine ⟨?_, hblocks⟩
      simp [hstart, hcont]
    | false =>
      refine ⟨List.not_mem_nil, ?_⟩
      intro block hblock
      rcases List.mem_cons.mp hblock with rfl | hblock
      · simp [hline, hcont]
      · exact hblocks block hblock

/-- `parse_headers` gathers the header fields. -/
theorem parseHeaders_eq_collect (raw : List UInt8) :
    parseHeaders raw = collect joinValues [] (headerFields raw) := by
  have hlines : ∀ line ∈ headerLines raw, '\n' ∉ line := fun line hline =>
    mem_lines (List.takeWhile_subset _ hline)
  rw [parseHeaders, unfoldLines_eq, extractHeaders_eq, ← headerLines,
    filterMap_lines_blocks (by rfl) fieldOf_concat (gatherLines_newline hlines).2]
  rfl

end ImapSieve
