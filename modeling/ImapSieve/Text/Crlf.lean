import Mathlib.Data.List.Basic

/-!
# Lines that End in CRLF

Bytes on the wire are split into lines at CRLF pairs. A carriage return or a line feed alone ends
no line and stays within one.

`crlfLines_render`: lines without a carriage return are read back from the bytes with CRLF
between them.
-/

namespace Text

/-- What stands between the CRLF pairs. -/
def crlfLines : List UInt8 → List (List UInt8)
  | [] => [[]]
  | 13 :: 10 :: rest => [] :: crlfLines rest
  | b :: rest =>
      -- a CR or an LF alone is a byte of its line
      match crlfLines rest with
      | line :: others => (b :: line) :: others
      | [] => [[b]]

/-- The lines with CRLF between them. -/
def renderCrlf (lines : List (List UInt8)) : List UInt8 := [13, 10].intercalate lines

example : crlfLines [65, 13, 66, 13, 10, 10, 67] = [[65, 13, 66], [10, 67]] := by decide

theorem crlfLines_cons {b : UInt8} (hb : b ≠ 13) {rest line : List UInt8}
    {others : List (List UInt8)} (h : crlfLines rest = line :: others) :
    crlfLines (b :: rest) = (b :: line) :: others := by
  rw [crlfLines]
  · rw [h]
  · rintro rest' rfl -
    exact hb rfl

/-- Bytes that are no CR are added to the first line. -/
theorem crlfLines_prepend {front : List UInt8} (h : 13 ∉ front) {rest line : List UInt8}
    {others : List (List UInt8)} (hrest : crlfLines rest = line :: others) :
    crlfLines (front ++ rest) = (front ++ line) :: others := by
  induction front with
  | nil => exact hrest
  | cons b front ih =>
    have hb : b ≠ 13 := fun heq => h (heq ▸ List.mem_cons_self)
    exact crlfLines_cons hb (ih fun hmem => h (List.mem_cons_of_mem b hmem))

/-- A line before a CRLF is the first line. -/
theorem crlfLines_append {line : List UInt8} (h : 13 ∉ line) (rest : List UInt8) :
    crlfLines (line ++ 13 :: 10 :: rest) = line :: crlfLines rest := by
  have hend : crlfLines (13 :: 10 :: rest) = [] :: crlfLines rest := by rw [crlfLines]
  rw [crlfLines_prepend h hend, List.append_nil]

theorem crlfLines_of_notMem {line : List UInt8} (h : 13 ∉ line) : crlfLines line = [line] := by
  have hlast := crlfLines_prepend h (rfl : crlfLines [] = [[]])
  rwa [List.append_nil] at hlast

/-- Lines are read back. -/
theorem crlfLines_render {lines : List (List UInt8)} (hne : lines ≠ [])
    (h : ∀ line ∈ lines, 13 ∉ line) : crlfLines (renderCrlf lines) = lines := by
  induction lines with
  | nil => exact absurd rfl hne
  | cons line rest ih =>
    have hline := h line List.mem_cons_self
    cases rest with
    | nil =>
      rw [renderCrlf, List.intercalate_singleton]
      exact crlfLines_of_notMem hline
    | cons next rest =>
      have hrest := ih (List.cons_ne_nil next rest) fun l hl => h l (List.mem_cons_of_mem line hl)
      rw [renderCrlf, List.intercalate_cons_cons, List.append_assoc]
      exact (crlfLines_append hline _).trans (congrArg (line :: ·) hrest)

end Text
