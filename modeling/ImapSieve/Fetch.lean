import ImapSieve.Headers
import ImapSieve.World

/-!
# Fetching Messages

What `AsyncImapClient::fetch_uid_range` asks for, and what it makes of the items of the response.
Of the items only what the client reads is kept.
-/

namespace ImapSieve

open Text

/-! ## Section 1: Items of a response -/

/-- `async_imap::types::Flag` -/
inductive Flag where
  | seen
  | answered
  | flagged
  | deleted
  | draft
  | recent
  | mayCreate
  | custom (name : String)
deriving DecidableEq, Repr

/-- Convert a flag to its string representation. -/
def flagToString : Flag → String
  | .seen => "\\Seen"
  | .answered => "\\Answered"
  | .flagged => "\\Flagged"
  | .deleted => "\\Deleted"
  | .draft => "\\Draft"
  | .recent => "\\Recent"
  | .mayCreate => "\\*"
  | .custom name => name

/-- `imap_proto::types::Address`, whose name and route are not read. -/
structure Address where
  mailbox : Option (List UInt8)
  host : Option (List UInt8)
deriving DecidableEq, Repr

/-- `imap_proto::types::Envelope`, of which the `From` and `To` addresses are read. -/
structure Envelope where
  «from» : Option (List Address)
  to' : Option (List Address)
deriving DecidableEq, Repr

/-- `async_imap::types::Fetch` -/
structure FetchItem where
  uid : Option Nat
  body : Option (List UInt8)
  size : Option Nat
  flags : List Flag
  envelope : Option Envelope
deriving DecidableEq, Repr

/-! ## Section 2: Senders and recipients -/

/-- Convert an IMAP `Address` to a `mailbox@host` string. -/
def addrToString (addr : Address) : String :=
  let mailbox := (addr.mailbox.map fun m => String.ofList (fromUtf8Lossy m)).getD ""
  let host := (addr.host.map fun h => String.ofList (fromUtf8Lossy h)).getD ""
  if host = "" then mailbox else mailbox ++ "@" ++ host

/-- `strip_prefix('<')` and `strip_suffix('>')`, both or neither, after `trim`. -/
def stripBrackets (s : List Char) : List Char :=
  match trim s with
  | '<' :: rest => if rest.getLast? = some '>' then rest.dropLast else trim s
  | _ => trim s

/-- The addresses of the ENVELOPE `From`. -/
def FetchItem.fromAddresses (item : FetchItem) : List Address :=
  (item.envelope.bind Envelope.«from»).getD []

/-- The envelope sender: the Return-Path if it is there and not empty, else the first address of
the ENVELOPE `From`. -/
def FetchItem.envelopeFrom (item : FetchItem) (headers : List (String × String)) :
    Option String :=
  let returnPath := (headers.lookup "return-path").map fun s =>
    String.ofList (stripBrackets s.toList)
  (returnPath.filter fun s => s ≠ "").or
    (item.envelope.bind fun env => env.«from».bind fun addrs => addrs.head?.map addrToString)

/-- The addresses of the ENVELOPE `To`. -/
def FetchItem.envelopeTo (item : FetchItem) : List String :=
  (item.envelope.bind fun env => env.to'.map fun addrs => addrs.map addrToString).getD []

/-- The message that an item is turned into. -/
def FetchItem.toContext (item : FetchItem) : MessageContext :=
  let headers := parseHeaders (item.body.getD [])
  { uid := item.uid.getD 0
    mailbox := ""
    headers := headers
    envelopeFrom := item.envelopeFrom headers
    envelopeTo := item.envelopeTo
    raw := item.body
    flags := item.flags.map flagToString
    size := item.size.getD 0 }

/-! ## Section 3: `fetch_uid_range` -/

/-- The messages of a stream of items. An error in the stream is an error of the whole. -/
def collectItems : List (Except String FetchItem) → Except CoreError (List MessageContext)
  | [] => .ok []
  | .error e :: _ => .error (.imap e)
  | .ok item :: rest => do
      let messages ← collectItems rest
      return item.toContext :: messages

/-- What is fetched of every message. -/
def fetchSpec : Option Nat → String
  | some modseq =>
      "(UID FLAGS RFC822.SIZE ENVELOPE BODY.PEEK[]) (CHANGEDSINCE " ++ toString modseq ++ ")"
  | none => "(UID FLAGS RFC822.SIZE ENVELOPE BODY.PEEK[])"

/-- The messages of a response to UID FETCH. -/
def fetchResult : Except String (List (Except String FetchItem)) →
    Except CoreError (List MessageContext)
  | .error e => .error (.imap e)
  | .ok items => collectItems items

theorem collectItems_ok (items : List FetchItem) :
    collectItems (items.map .ok) = .ok (items.map FetchItem.toContext) := by
  induction items with
  | nil => rfl
  | cons item rest ih =>
    rw [List.map_cons, collectItems, ih]
    rfl

theorem collectItems_isImap {items : List (Except String FetchItem)} {e : CoreError}
    (h : collectItems items = .error e) : e.IsImap := by
  induction items with
  | nil => cases h
  | cons item rest ih =>
    cases item with
    | error message =>
      cases h
      exact ⟨message, rfl⟩
    | ok item =>
      rcases except_bind_error h with hrest | ⟨messages, hmessages⟩
      · exact ih hrest
      · cases hmessages

/-- All errors are errors of the IMAP client. -/
theorem fetchResult_isImap {r : Except String (List (Except String FetchItem))} {e : CoreError}
    (h : fetchResult r = .error e) : e.IsImap := by
  cases r with
  | error message =>
    cases h
    exact ⟨message, rfl⟩
  | ok items => exact collectItems_isImap h

theorem collectItems_of_error {items : List (Except String FetchItem)} {e : String}
    (h : .error e ∈ items) : ∃ e', collectItems items = .error e' := by
  induction items with
  | nil => cases h
  | cons item rest ih =>
    cases item with
    | error message => exact ⟨_, rfl⟩
    | ok item =>
      rcases List.mem_cons.mp h with heq | hrest
      · cases heq
      · obtain ⟨e', he'⟩ := ih hrest
        refine ⟨e', ?_⟩
        rw [collectItems, he']
        rfl

end ImapSieve
