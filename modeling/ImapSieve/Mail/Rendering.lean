import ImapSieve.Headers

/-!
# Rendered Headers

A header field as it is written: a name, a first piece of text, and any number of continuation
lines. `parse_headers` inverts the rendering of any list of fields, whatever the lines end with
and whatever bytes follow the header section.
-/

namespace ImapSieve

open Text

/-! ## Section 1: Fields and their rendering -/

/-- Text without line breaks. -/
structure Piece where
  text : List Char
  cr_notMem : '\r' ∉ text
  lf_notMem : '\n' ∉ text

/-- Printable ASCII without colon or space. -/
def isNameChar (c : Char) : Bool := '!' ≤ c && c ≤ '~' && c != ':'

structure FieldName where
  text : List Char
  ne_nil : text ≠ []
  isNameChar_of_mem : ∀ c ∈ text, isNameChar c = true

/-- What a continuation line starts with. -/
inductive Blank where
  | space
  | tab
deriving DecidableEq, Repr

def Blank.char : Blank → Char
  | .space => ' '
  | .tab => '\t'

structure Continuation where
  blank : Blank
  piece : Piece
  ending : LineEnding

/-- A header field as it is written. -/
structure Field where
  name : FieldName
  first : Piece
  ending : LineEnding
  continuations : List Continuation

def Continuation.line (c : Continuation) : List Char := c.blank.char :: c.piece.text

/-- The first line of a field. -/
def Field.firstLine (f : Field) : List Char := f.name.text ++ ':' :: f.first.text

def Field.render (f : Field) : List Char :=
  f.firstLine ++ (f.ending.chars ++ f.continuations.flatMap fun c => c.line ++ c.ending.chars)

/-- A raw message: the fields, an empty line, and the body. -/
def renderMessage (fields : List Field) (ending : LineEnding) (body : List UInt8) : List UInt8 :=
  encode (fields.flatMap Field.render ++ ending.chars) ++ body

/-- The ASCII-lowercased name. -/
def Field.key (f : Field) : String := String.ofList (toAsciiLowercase f.name.text)

/-- The unfolded value: each continuation is its piece after a single space. -/
def Field.unfolded (f : Field) : List Char :=
  f.first.text ++ f.continuations.flatMap fun c => ' ' :: trimStart c.piece.text

/-- The trimmed unfolded value. -/
def Field.value (f : Field) : String := String.ofList (trim f.unfolded)

/-- The values of the fields with the key, in order of appearance and joined. -/
def expected (fields : List Field) (key : String) : Option String :=
  let values := (fields.filter fun f => f.key = key).map Field.value
  if values = [] then none else some (", ".intercalate values)

/-! ## Section 2: The lines of rendered fields -/

theorem FieldName.not_whitespace (name : FieldName) :
    ∀ c ∈ name.text, isWhitespace c = false := by
  intro c hc
  have hname := name.isNameChar_of_mem c hc
  simp only [isNameChar, Bool.and_eq_true, decide_eq_true_eq] at hname
  have hlow : 0x21 ≤ c.toNat := hname.1.1
  have hhigh : c.toNat ≤ 0x7E := hname.1.2
  simp only [isWhitespace, Bool.or_eq_false_iff, Bool.and_eq_false_iff, decide_eq_false_iff_not,
    beq_eq_false_iff_ne]
  omega

theorem FieldName.notMem_of_whitespace (name : FieldName) {c : Char}
    (hc : isWhitespace c = true) : c ∉ name.text := fun hmem => by
  rw [name.not_whitespace c hmem] at hc
  cases hc

theorem FieldName.colon_notMem (name : FieldName) : ':' ∉ name.text := fun hmem =>
  absurd (name.isNameChar_of_mem ':' hmem) (by decide)

theorem Blank.isWhitespace_char (b : Blank) : isWhitespace b.char = true := by
  cases b <;> decide

theorem Continuation.isContinuationLine_line (c : Continuation) :
    isContinuationLine c.line = true := by
  obtain ⟨blank, piece, ending⟩ := c
  cases blank <;> rfl

theorem Continuation.trimStart_line (c : Continuation) :
    trimStart c.line = trimStart c.piece.text := by
  rw [trimStart, Continuation.line, List.dropWhile_cons, if_pos c.blank.isWhitespace_char,
    trimStart]

theorem Field.firstLine_ne_nil (f : Field) : f.firstLine ≠ [] := by
  simp [Field.firstLine]

theorem Field.isContinuationLine_firstLine (f : Field) :
    isContinuationLine f.firstLine = false := by
  have hspace := f.name.notMem_of_whitespace (c := ' ') (by decide)
  have htab := f.name.notMem_of_whitespace (c := '\t') (by decide)
  rw [Field.firstLine]
  cases hname : f.name.text with
  | nil => exact absurd hname f.name.ne_nil
  | cons c rest =>
    rw [hname] at hspace htab
    have hc : c ≠ ' ' := fun heq => hspace (heq ▸ List.mem_cons_self)
    have hc' : c ≠ '\t' := fun heq => htab (heq ▸ List.mem_cons_self)
    simp [isContinuationLine, hc, hc']

/-- The lines of a field. -/
def Field.lines (f : Field) : List (List Char) :=
  f.firstLine :: f.continuations.map Continuation.line

theorem lines_continuations (cs : List Continuation) (rest : List Char) :
    Text.lines ((cs.flatMap fun c => c.line ++ c.ending.chars) ++ rest) =
      cs.map Continuation.line ++ Text.lines rest := by
  induction cs with
  | nil => rfl
  | cons c cs ih =>
    have hcr : '\r' ∉ c.line := by
      cases hblank : c.blank <;> simp [Continuation.line, hblank, Blank.char, c.piece.cr_notMem]
    have hlf : '\n' ∉ c.line := by
      cases hblank : c.blank <;> simp [Continuation.line, hblank, Blank.char, c.piece.lf_notMem]
    rw [List.flatMap_cons, List.append_assoc, List.append_assoc, lines_ended hcr hlf, ih]
    rfl

/-- The lines of a rendered field, however they end. -/
theorem Field.lines_render (f : Field) (rest : List Char) :
    Text.lines (f.render ++ rest) = f.lines ++ Text.lines rest := by
  have hname_cr := f.name.notMem_of_whitespace (c := '\r') (by decide)
  have hname_lf := f.name.notMem_of_whitespace (c := '\n') (by decide)
  have hcr : '\r' ∉ f.firstLine := by simp [Field.firstLine, hname_cr, f.first.cr_notMem]
  have hlf : '\n' ∉ f.firstLine := by simp [Field.firstLine, hname_lf, f.first.lf_notMem]
  rw [Field.render, List.append_assoc, List.append_assoc, lines_ended hcr hlf,
    lines_continuations]
  rfl

theorem lines_fields (fields : List Field) (rest : List Char) :
    Text.lines (fields.flatMap Field.render ++ rest) =
      fields.flatMap Field.lines ++ Text.lines rest := by
  induction fields with
  | nil => rfl
  | cons f fields ih =>
    rw [List.flatMap_cons, List.append_assoc, f.lines_render, ih, List.flatMap_cons,
      List.append_assoc]

/-- The header section of a rendered message is its fields. -/
theorem headerLines_render (fields : List Field) (ending : LineEnding) (body : List UInt8) :
    headerLines (renderMessage fields ending body) = fields.flatMap Field.lines := by
  have hempty : Text.lines (ending.chars ++ fromUtf8Lossy body) =
      [] :: Text.lines (fromUtf8Lossy body) :=
    lines_ended List.not_mem_nil List.not_mem_nil ending _
  rw [headerLines, renderMessage, fromUtf8Lossy_encode_append, List.append_assoc, lines_fields,
    hempty, List.takeWhile_append_of_pos]
  · rw [List.takeWhile_cons_of_neg (by simp), List.append_nil]
  · intro line hline
    obtain ⟨f, -, hline⟩ := List.mem_flatMap.mp hline
    rcases List.mem_cons.mp hline with rfl | hline
    · simp [f.firstLine_ne_nil]
    · obtain ⟨c, -, rfl⟩ := List.mem_map.mp hline
      simp [Continuation.line]

/-! ## Section 3: The fields of rendered fields -/

theorem gatherLines_continuations (cs : List Continuation) (rest : List (List Char)) :
    gatherLines (cs.map Continuation.line ++ rest) =
      ((cs.flatMap fun c => ' ' :: trimStart c.piece.text) ++ (gatherLines rest).1,
        (gatherLines rest).2) := by
  induction cs with
  | nil => rfl
  | cons c cs ih =>
    rw [List.map_cons, List.cons_append, gatherLines, if_pos c.isContinuationLine_line, ih,
      c.trimStart_line, List.flatMap_cons, List.append_assoc]

theorem gatherLines_fields (fields : List Field) :
    gatherLines (fields.flatMap Field.lines) =
      ([], fields.map fun f => f.name.text ++ ':' :: f.unfolded) := by
  induction fields with
  | nil => rfl
  | cons f fields ih =>
    have hfirst : ¬ isContinuationLine f.firstLine = true := by
      rw [f.isContinuationLine_firstLine]
      exact Bool.false_ne_true
    rw [List.flatMap_cons, Field.lines, List.cons_append, gatherLines, if_neg hfirst,
      gatherLines_continuations, ih, List.append_nil]
    simp [Field.firstLine, Field.unfolded]

theorem Field.fieldOf_unfolded (f : Field) :
    fieldOf (f.name.text ++ ':' :: f.unfolded) = some (f.key, f.value) := by
  rw [fieldOf, splitOnce_append f.name.colon_notMem, Option.map_some,
    trim_of_forall f.name.not_whitespace]
  rfl

/-- The header fields of a rendered message, whatever its body is. -/
theorem headerFields_render (fields : List Field) (ending : LineEnding) (body : List UInt8) :
    headerFields (renderMessage fields ending body) = fields.map fun f => (f.key, f.value) := by
  rw [headerFields, headerLines_render, gatherLines_fields, List.filterMap_map]
  simp only [Function.comp_def, Field.fieldOf_unfolded, List.filterMap_eq_map']

/-! ## Section 4: The round trip -/

/-- Values joined one by one are joined with a comma between them. -/
theorem foldl_joinValues (v : String) (rest : List String) :
    rest.foldl joinValues v = ", ".intercalate (v :: rest) := by
  induction rest generalizing v with
  | nil => exact String.intercalate_singleton.symm
  | cons v' rest ih =>
    rw [List.foldl_cons, ih, joinValues, String.intercalate_cons_append,
      String.intercalate_cons_cons]

theorem joined_joinValues (values : List String) :
    joined joinValues values = if values = [] then none else some (", ".intercalate values) := by
  cases values with
  | nil => rfl
  | cons v rest => rw [joined, if_neg (List.cons_ne_nil v rest), foldl_joinValues]

theorem valuesOf_fields (fields : List Field) (key : String) :
    valuesOf key (fields.map fun f => (f.key, f.value)) =
      (fields.filter fun f => f.key = key).map Field.value := by
  rw [valuesOf, List.filter_map, List.map_map]
  rfl

theorem lookup_render (fields : List Field) (ending : LineEnding) (body : List UInt8)
    (key : String) :
    (parseHeaders (renderMessage fields ending body)).lookup key = expected fields key := by
  rw [parseHeaders_eq_collect, headerFields_render, lookup_collect, joined_joinValues,
    valuesOf_fields, expected]

/-- `parse_headers` inverts the rendering of header fields: its keys are the lowercased names,
once each, and what a key has is the values of its fields. The body does not matter, and a field
is found under any ASCII casing of its name. -/
theorem parseHeaders_render (fields : List Field) (ending : LineEnding) (body : List UInt8) :
    ((parseHeaders (renderMessage fields ending body)).map Prod.fst).Nodup ∧
    (∀ key, key ∈ (parseHeaders (renderMessage fields ending body)).map Prod.fst ↔
      ∃ f ∈ fields, f.key = key) ∧
    (∀ key, (parseHeaders (renderMessage fields ending body)).lookup key =
      expected fields key) ∧
    (∀ body', parseHeaders (renderMessage fields ending body') =
      parseHeaders (renderMessage fields ending body)) ∧
    ∀ ctx : MessageContext, ctx.headers = parseHeaders (renderMessage fields ending body) →
      ∀ f ∈ fields, ∀ name : String,
        toAsciiLowercase name.toList = toAsciiLowercase f.name.text →
        ctx.header name = expected fields f.key ∧ ctx.header name ≠ none := by
  refine ⟨?_, ?_, lookup_render fields ending body, ?_, ?_⟩
  · rw [parseHeaders_eq_collect]
    exact nodup_collect List.nodup_nil
  · intro key
    rw [parseHeaders_eq_collect, headerFields_render, mem_keys_collect, List.map_map]
    simp
  · intro body'
    rw [parseHeaders_eq_collect, parseHeaders_eq_collect, headerFields_render,
      headerFields_render]
  · intro ctx hctx f hf name hname
    have hlookup : ctx.header name = expected fields f.key := by
      rw [MessageContext.header, hctx, hname]
      exact lookup_render fields ending body f.key
    refine ⟨hlookup, ?_⟩
    have hmem : f.value ∈ (fields.filter fun g => g.key = f.key).map Field.value :=
      List.mem_map_of_mem (List.mem_filter.mpr ⟨hf, by simp⟩)
    rw [hlookup, expected, if_neg (List.ne_nil_of_mem hmem)]
    exact Option.some_ne_none _

/-- A `Received` field with a folded value in front of one in capitals. -/
def receivedFields : List Field :=
  [{ name := ⟨"Received".toList, by decide, List.all_eq_true.mp (by decide)⟩
     first := ⟨" by mx1".toList, by decide, by decide⟩
     ending := .crlf
     continuations := [⟨.tab, ⟨" with TLS ".toList, by decide, by decide⟩, .lf⟩] },
   { name := ⟨"RECEIVED".toList, by decide, List.all_eq_true.mp (by decide)⟩
     first := ⟨"from mx2".toList, by decide, by decide⟩
     ending := .lf
     continuations := [] }]

theorem parseHeaders_render_received :
    (parseHeaders (renderMessage receivedFields .crlf [0xFF])).lookup "received" =
      some "by mx1 with TLS, from mx2" := by
  have hrender := parseHeaders_render receivedFields .crlf [0xFF]
  exact (hrender.2.2.1 "received").trans (by decide)

end ImapSieve
