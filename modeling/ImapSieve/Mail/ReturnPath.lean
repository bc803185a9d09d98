import ImapSieve.Fetch

/-!
# The Return-Path as Sender

`fetch_uid_range` takes the sender of a message from its Return-Path header and strips the angle
brackets. It strips them off the joined value of all Return-Path fields, so the result is a bare
address exactly when there is one such field.
-/

namespace ImapSieve

open Text

/-! ## Section 1: Return-Path fields -/

/-- The values of the Return-Path fields of a raw message, in order. -/
def returnPaths (raw : List UInt8) : List String := valuesOf "return-path" (headerFields raw)

def FetchItem.returnPaths (item : FetchItem) : List String :=
  ImapSieve.returnPaths (item.body.getD [])

/-- An address as it stands between the brackets. -/
structure BareAddress (addr : String) : Prop where
  ne_empty : addr ≠ ""
  lt_notMem : '<' ∉ addr.toList
  gt_notMem : '>' ∉ addr.toList
  comma_notMem : ',' ∉ addr.toList
  no_whitespace : addr.toList.any isWhitespace = false

theorem lookup_returnPath (raw : List UInt8) :
    (parseHeaders raw).lookup "return-path" = joined joinValues (returnPaths raw) := by
  rw [parseHeaders_eq_collect, lookup_collect, returnPaths]

/-- The sender that the ENVELOPE gives. -/
def FetchItem.fallback (item : FetchItem) : Option String :=
  item.fromAddresses.head?.map addrToString

theorem envelopeFrom_eq (item : FetchItem) :
    item.toContext.envelopeFrom =
      (((joined joinValues item.returnPaths).map fun s =>
        String.ofList (stripBrackets s.toList)).filter fun s => s ≠ "").or item.fallback := by
  have hfallback : (item.envelope.bind fun env => env.«from».bind fun addrs =>
      addrs.head?.map addrToString) = item.fallback := by
    rw [FetchItem.fallback, FetchItem.fromAddresses]
    cases item.envelope with
    | none => rfl
    | some env => cases hfrom : env.«from» <;> simp [hfrom]
  rw [← hfallback, FetchItem.returnPaths, ← lookup_returnPath]
  rfl

/-- Without a Return-Path that says anything, the sender is taken from the ENVELOPE. -/
theorem envelopeFrom_of_empty {item : FetchItem}
    (h : ∀ s, joined joinValues item.returnPaths = some s → stripBrackets s.toList = []) :
    item.toContext.envelopeFrom = item.fallback := by
  rw [envelopeFrom_eq]
  cases hjoined : joined joinValues item.returnPaths with
  | none => rfl
  | some s =>
    rw [Option.map_some, h s hjoined]
    rfl

/-- A Return-Path that says something is the sender. -/
theorem envelopeFrom_of_ne {item : FetchItem} {s : String}
    (hjoined : joined joinValues item.returnPaths = some s) (hne : stripBrackets s.toList ≠ []) :
    item.toContext.envelopeFrom = some (String.ofList (stripBrackets s.toList)) := by
  have hkeep : String.ofList (stripBrackets s.toList) ≠ "" := by
    intro heq
    apply hne
    simpa using congrArg String.toList heq
  rw [envelopeFrom_eq, hjoined, Option.map_some, Option.filter_some_pos (by simpa using hkeep),
    Option.some_or]

/-! ## Section 2: Stripping the brackets -/

/-- What is neither white space nor a bracket stays. -/
theorem mem_stripBrackets {s : List Char} {c : Char} (hmem : c ∈ s)
    (hspace : isWhitespace c = false) (hlt : c ≠ '<') (hgt : c ≠ '>') : c ∈ stripBrackets s := by
  have htrim := mem_trim hmem hspace
  unfold stripBrackets
  split
  · rename_i rest heq
    rw [heq] at htrim
    split
    · rename_i hlast
      obtain ⟨front, rfl⟩ := List.getLast?_eq_some_iff.mp hlast
      rw [List.dropLast_concat]
      simpa [hlt, hgt] using htrim
    · rwa [heq]
  · exact htrim

theorem stripBrackets_bracketed {addr : List Char} :
    stripBrackets ('<' :: addr ++ ['>']) = addr := by
  have htrim : trim ('<' :: addr ++ ['>']) = '<' :: addr ++ ['>'] := by
    refine trim_eq_self (fun c hc => ?_) fun c hc => ?_
    · cases hc
      decide
    · rw [List.getLast?_concat] at hc
      cases hc
      decide
  unfold stripBrackets
  rw [htrim]
  change (if (addr ++ ['>']).getLast? = some '>' then (addr ++ ['>']).dropLast else _) = addr
  rw [List.getLast?_concat, if_pos rfl, List.dropLast_concat]

/-- Several values in one have a comma between them. -/
theorem comma_mem_joined (v v' : String) (rest : List String) :
    ',' ∈ ((v' :: rest).foldl joinValues v).toList := by
  have hstep : ∀ (values : List String) (s : String), ',' ∈ s.toList →
      ',' ∈ (values.foldl joinValues s).toList := by
    intro values
    induction values with
    | nil => exact fun s hs => hs
    | cons value values ih =>
      intro s hs
      apply ih
      simp [joinValues, hs]
  refine hstep rest (joinValues v v') ?_
  simp [joinValues]

/-- Several Return-Path fields give a sender with a comma in it. -/
theorem envelopeFrom_of_several {item : FetchItem} (h : 1 < item.returnPaths.length) :
    ∃ s, joined joinValues item.returnPaths = some s ∧
      item.toContext.envelopeFrom = some (String.ofList (stripBrackets s.toList)) ∧
      ',' ∈ stripBrackets s.toList := by
  match hpaths : item.returnPaths, h with
  | v :: v' :: rest, _ =>
    have hcomma := mem_stripBrackets (comma_mem_joined v v' rest) (by decide) (by decide)
      (by decide)
    have hjoined : joined joinValues item.returnPaths =
        some ((v' :: rest).foldl joinValues v) := by rw [hpaths]; rfl
    refine ⟨_, hpaths ▸ hjoined, ?_, hcomma⟩
    exact envelopeFrom_of_ne hjoined (List.ne_nil_of_mem hcomma)

/-- A single bracketed Return-Path gives what is between the brackets. -/
theorem envelopeFrom_of_bracketed {item : FetchItem} {addr : String} (hne : addr ≠ "")
    (h : item.returnPaths = ["<" ++ addr ++ ">"]) :
    item.toContext.envelopeFrom = some addr := by
  have hstrip : stripBrackets ("<" ++ addr ++ ">").toList = addr.toList := by
    have hlist : ("<" ++ addr ++ ">").toList = '<' :: addr.toList ++ ['>'] := by simp
    rw [hlist, stripBrackets_bracketed]
  have hjoined : joined joinValues item.returnPaths = some ("<" ++ addr ++ ">") := by
    rw [h]
    rfl
  have hkept : stripBrackets ("<" ++ addr ++ ">").toList ≠ [] := by
    rw [hstrip]
    simpa using hne
  rw [envelopeFrom_of_ne hjoined hkept, hstrip, String.ofList_toList]

/-! ## Section 3: The sender is bare -/

/-- Where all Return-Path fields hold a bracketed address, the sender is one of these addresses,
bare, exactly when there is one such field. -/
theorem envelopeFrom_bare_iff (item : FetchItem) (hsome : item.returnPaths ≠ [])
    (hform : ∀ v ∈ item.returnPaths, ∃ addr, BareAddress addr ∧ v = "<" ++ addr ++ ">") :
    (∃ addr, BareAddress addr ∧ "<" ++ addr ++ ">" ∈ item.returnPaths ∧
      item.toContext.envelopeFrom = some addr) ↔ item.returnPaths.length = 1 := by
  constructor
  · rintro ⟨addr, hbare, -, hfrom⟩
    by_contra hlength
    have hseveral : 1 < item.returnPaths.length := by
      have hpos := List.length_pos_iff.mpr hsome
      omega
    -- the sender has the comma of the joined value
    obtain ⟨s, -, hsender, hcomma⟩ := envelopeFrom_of_several hseveral
    rw [hsender] at hfrom
    cases hfrom
    exact hbare.comma_notMem (by simpa using hcomma)
  · intro hlength
    obtain ⟨v, hv⟩ := List.length_eq_one_iff.mp hlength
    obtain ⟨addr, hbare, rfl⟩ := hform v (by simp [hv])
    exact ⟨addr, hbare, by simp [hv], envelopeFrom_of_bracketed hbare.ne_empty hv⟩

/-- A message with a folded Return-Path in capitals below another header. -/
def deliveredOnce : FetchItem where
  uid := some 7
  body := some (encode "Received: by y\r\nRETURN-PATH:\r\n\t<a@x>\n\nHi".toList)
  size := some 50
  flags := []
  envelope := none

theorem bareAddress_a : BareAddress "a@x" :=
  ⟨by decide, by decide, by decide, by decide, by decide⟩

theorem envelopeFrom_bare_iff_folded :
    ∃ addr, BareAddress addr ∧ "<" ++ addr ++ ">" ∈ deliveredOnce.returnPaths ∧
      deliveredOnce.toContext.envelopeFrom = some addr := by
  have hpaths : deliveredOnce.returnPaths = ["<a@x>"] := by decide
  have hform : ∀ v ∈ deliveredOnce.returnPaths,
      ∃ addr, BareAddress addr ∧ v = "<" ++ addr ++ ">" := by
    intro v hv
    rw [hpaths, List.mem_singleton] at hv
    exact ⟨"a@x", bareAddress_a, hv.trans (by decide)⟩
  exact (envelopeFrom_bare_iff deliveredOnce (by simp [hpaths]) hform).mpr (by simp [hpaths])

/-- The same message delivered twice: each delivery has put its Return-Path on top. -/
def deliveredTwice : FetchItem where
  uid := some 7
  body := some (encode "Return-Path: <b@y>\r\nReturn-Path: <a@x>\r\n\r\nHi".toList)
  size := some 50
  flags := []
  envelope := none

/-- The sender of a message with several bracketed Return-Paths need not be bare. -/
theorem not_bare :
    ¬ ∀ item : FetchItem, item.returnPaths ≠ [] →
      (∀ v ∈ item.returnPaths, ∃ addr, BareAddress addr ∧ v = "<" ++ addr ++ ">") →
      ∃ addr, BareAddress addr ∧ "<" ++ addr ++ ">" ∈ item.returnPaths ∧
        item.toContext.envelopeFrom = some addr := by
  intro hall
  have hpaths : deliveredTwice.returnPaths = ["<b@y>", "<a@x>"] := by decide
  have hsender : deliveredTwice.toContext.envelopeFrom = some "b@y>, <a@x" := by
    rw [envelopeFrom_eq, hpaths]
    decide
  have hbare : BareAddress "b@y" := ⟨by decide, by decide, by decide, by decide, by decide⟩
  have hform : ∀ v ∈ deliveredTwice.returnPaths,
      ∃ addr, BareAddress addr ∧ v = "<" ++ addr ++ ">" := by
    intro v hv
    rw [hpaths, List.mem_cons, List.mem_singleton] at hv
    rcases hv with rfl | rfl
    · exact ⟨"b@y", hbare, by decide⟩
    · exact ⟨"a@x", bareAddress_a, by decide⟩
  obtain ⟨addr, haddr, -, hfrom⟩ := hall deliveredTwice (by simp [hpaths]) hform
  rw [hsender] at hfrom
  have heq : "b@y>, <a@x" = addr := Option.some.inj hfrom
  rw [← heq] at haddr
  exact haddr.comma_notMem (by decide)

end ImapSieve
