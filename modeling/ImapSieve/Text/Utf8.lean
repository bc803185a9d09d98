import Mathlib.Data.List.Basic

/-!
# Lossy UTF-8

Text is a list of characters and its encoding a list of bytes. `fromUtf8Lossy` decodes any
bytes: an ill-formed sequence becomes one U+FFFD, and how much of it that character stands for
is the longest beginning of a well-formed sequence found there (at least one byte).

`fromUtf8Lossy_encode_append`: encoded text is decoded to itself, whatever bytes follow.
-/

namespace Text

/-! ## Section 1: Encoding -/

/-- The UTF-8 bytes of a text. -/
def encode (text : List Char) : List UInt8 := text.flatMap String.utf8EncodeChar

@[simp] theorem encode_nil : encode [] = [] := rfl

@[simp] theorem encode_cons (c : Char) (text : List Char) :
    encode (c :: text) = String.utf8EncodeChar c ++ encode text := rfl

@[simp] theorem encode_append (text rest : List Char) :
    encode (text ++ rest) = encode text ++ encode rest :=
  List.flatMap_append

theorem encode_intercalate (sep : List Char) (pieces : List (List Char)) :
    encode (sep.intercalate pieces) = (encode sep).intercalate (pieces.map encode) := by
  induction pieces with
  | nil => rfl
  | cons piece rest ih =>
    cases rest with
    | nil => simp
    | cons other rest =>
      rw [List.intercalate_cons_cons, encode_append, encode_append, ih]
      simp only [List.map_cons, List.intercalate_cons_cons]

/-- `str::as_bytes` -/
theorem data_toUTF8 (s : String) : s.toUTF8.data.toList = encode s.toList := by
  rw [String.toUTF8_eq_toByteArray, ← String.utf8Encode_toList, List.utf8Encode,
    List.toList_data_toByteArray, encode]

/-- An ASCII byte is the encoding of an ASCII character. -/
theorem eq_of_mem_utf8EncodeChar {c : Char} {b : UInt8} (hb : b.toNat < 128)
    (h : b ∈ String.utf8EncodeChar c) : c.toNat = b.toNat := by
  have hval : c.val.toNat = c.toNat := rfl
  rw [String.utf8EncodeChar, hval] at h
  -- only the encoding in one byte has a byte without the top bit
  split at h
  · rw [List.mem_singleton.mp h, UInt8.toNat_ofNat']
    omega
  · exfalso
    split at h
    · simp only [List.mem_cons, List.not_mem_nil, or_false] at h
      rcases h with rfl | rfl <;> rw [UInt8.toNat_ofNat'] at hb <;> omega
    · split at h
      · simp only [List.mem_cons, List.not_mem_nil, or_false] at h
        rcases h with rfl | rfl | rfl <;> rw [UInt8.toNat_ofNat'] at hb <;> omega
      · simp only [List.mem_cons, List.not_mem_nil, or_false] at h
        rcases h with rfl | rfl | rfl | rfl <;> rw [UInt8.toNat_ofNat'] at hb <;> omega

/-- Encoded text contains the byte of an ASCII character only where it contains the character. -/
theorem mem_encode_iff {c : Char} (hc : c.toNat < 128) {text : List Char} :
    UInt8.ofNat c.toNat ∈ encode text ↔ c ∈ text := by
  have hb : (UInt8.ofNat c.toNat).toNat = c.toNat := by
    rw [UInt8.toNat_ofNat']
    omega
  constructor
  · intro h
    obtain ⟨d, hd, hmem⟩ := List.mem_flatMap.mp h
    have heq := eq_of_mem_utf8EncodeChar (by omega) hmem
    rw [hb] at heq
    rwa [← Char.toNat_inj.mp heq]
  · intro h
    refine List.mem_flatMap.mpr ⟨c, h, ?_⟩
    have hval : c.val.toNat = c.toNat := rfl
    rw [String.utf8EncodeChar, hval, if_pos (by omega)]
    exact List.mem_singleton_self _

/-! ## Section 2: Decoding -/

/-- The character whose encoding the bytes start with. -/
def charAt? (bytes : List UInt8) : Option Char := (bytes.take 4).toByteArray.utf8DecodeChar? 0

def isContinuation (b : UInt8) : Bool := 0x80 ≤ b && b ≤ 0xBF

/-- The second bytes that may follow a first byte of a sequence of three or four bytes. -/
def isSecond (first b : UInt8) : Bool :=
  if first = 0xE0 then 0xA0 ≤ b && b ≤ 0xBF
  else if first = 0xED then 0x80 ≤ b && b ≤ 0x9F
  else if first = 0xF0 then 0x90 ≤ b && b ≤ 0xBF
  else if first = 0xF4 then 0x80 ≤ b && b ≤ 0x8F
  else 0xE0 ≤ first && first ≤ 0xF4 && isContinuation b

/-- How many of the bytes after the first belong to the ill-formed sequence at the start. -/
def illFormedTail : List UInt8 → Nat
  | first :: second :: rest =>
      if isSecond first second then
        match rest with
        | third :: _ => if 0xF0 ≤ first && isContinuation third then 2 else 1
        | [] => 1
      else 0
  | _ => 0

/-- Decode, with the number of bytes yet to be passed over. -/
def decodeFrom : Nat → List UInt8 → List Char
  | _, [] => []
  | skip + 1, _ :: rest => decodeFrom skip rest
  | 0, b :: rest =>
      match charAt? (b :: rest) with
      | some c => c :: decodeFrom (c.utf8Size - 1) rest
      | none => '\uFFFD' :: decodeFrom (illFormedTail (b :: rest)) rest

/-- `String::from_utf8_lossy` -/
def fromUtf8Lossy (bytes : List UInt8) : List Char := decodeFrom 0 bytes

@[simp] theorem fromUtf8Lossy_nil : fromUtf8Lossy [] = [] := rfl

-- a sequence cut off at the end, and one cut off by a letter
example : fromUtf8Lossy [0x61, 0xE2, 0x82] = ['a', '\uFFFD'] := by decide

example : fromUtf8Lossy [0xF0, 0x9F, 0x61, 0xFF] = ['\uFFFD', 'a', '\uFFFD'] := by decide

/-! ## Section 3: Well-formed text -/

theorem charAt?_encode (c : Char) (rest : List UInt8) :
    charAt? (String.utf8EncodeChar c ++ rest) = some c := by
  have hle : (String.utf8EncodeChar c).length ≤ 4 := by
    rw [String.length_utf8EncodeChar]
    exact c.utf8Size_le_four
  unfold charAt?
  rw [List.take_append, List.take_of_length_le hle, List.toByteArray_append]
  exact ByteArray.utf8DecodeChar?_utf8EncodeChar_append

theorem decodeFrom_append (passed rest : List UInt8) :
    decodeFrom passed.length (passed ++ rest) = fromUtf8Lossy rest := by
  induction passed with
  | nil => rfl
  | cons b passed ih => exact ih

/-- The encoding of a character is decoded to it. -/
theorem fromUtf8Lossy_char (c : Char) (rest : List UInt8) :
    fromUtf8Lossy (String.utf8EncodeChar c ++ rest) = c :: fromUtf8Lossy rest := by
  have hchar := charAt?_encode c rest
  have hlength := String.length_utf8EncodeChar c
  cases hbytes : String.utf8EncodeChar c with
  | nil => exact absurd hbytes String.utf8EncodeChar_ne_nil
  | cons b tail =>
    rw [hbytes, List.cons_append] at hchar
    rw [hbytes, List.length_cons] at hlength
    have htail : c.utf8Size - 1 = tail.length := by omega
    rw [List.cons_append, fromUtf8Lossy, decodeFrom, hchar]
    simp only [htail, decodeFrom_append]

/-- Encoded text is decoded to itself, whatever follows. -/
theorem fromUtf8Lossy_encode_append (text : List Char) (rest : List UInt8) :
    fromUtf8Lossy (encode text ++ rest) = text ++ fromUtf8Lossy rest := by
  induction text with
  | nil => rfl
  | cons c text ih => rw [encode_cons, List.append_assoc, fromUtf8Lossy_char, ih, List.cons_append]

end Text
