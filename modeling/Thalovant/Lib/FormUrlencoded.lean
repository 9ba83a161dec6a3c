import Mathlib.Data.List.TakeWhile
import Thalovant.Lib.Json.Text

/-!
# `application/x-www-form-urlencoded`

How a query carries pairs of texts: `&` between the pairs, `=` after a name, `+` for a space, and a
percent sign with two hexadecimal digits for every byte of UTF-8 that is not kept as it is. Bytes that
are not UTF-8 are read as U+FFFD.

## What is shown

* `lossyChars_utf8`: text is read back from its UTF-8 bytes
* `decode_encode`: a text is read back from its percent-encoding
* `parse_append`: appending a pair to a query appends it to the pairs that are read from it
-/

namespace FormUrlencoded

/-! ## UTF-8 with replacement -/

/-- `b` may follow the first byte `a` of a character of three or four bytes. -/
def secondByte (a b : UInt8) : Bool :=
  if a = 0xE0 then 0xA0 ≤ b && b ≤ 0xBF
  else if a = 0xED then 0x80 ≤ b && b ≤ 0x9F
  else if a = 0xF0 then 0x90 ≤ b && b ≤ 0xBF
  else if a = 0xF4 then 0x80 ≤ b && b ≤ 0x8F
  else 0x80 ≤ b && b ≤ 0xBF

/-- How many of the bytes that do not start with a character are replaced together: as many as could
have begun one, and at least one. -/
def badPrefix : List UInt8 → Nat
  | a :: b :: c :: _ =>
    if 0xE0 ≤ a && a ≤ 0xEF && secondByte a b then 2
    else if 0xF0 ≤ a && a ≤ 0xF4 && secondByte a b then
      if 0x80 ≤ c && c ≤ 0xBF then 3 else 2
    else 1
  | [a, b] => if 0xE0 ≤ a && a ≤ 0xF4 && secondByte a b then 2 else 1
  | _ => 1

/-- The characters of bytes, the first so many of which are read already. -/
def lossyFrom : Nat → List UInt8 → List Char
  | _, [] => []
  | n + 1, _ :: bytes => lossyFrom n bytes
  | 0, byte :: bytes =>
    match (byte :: bytes).toByteArray.utf8DecodeChar? 0 with
    | some c => c :: lossyFrom (c.utf8Size - 1) bytes
    | none => Char.ofNat 0xFFFD :: lossyFrom (badPrefix (byte :: bytes) - 1) bytes

/-- The text of bytes, with U+FFFD for what is not UTF-8. -/
def lossyChars (bytes : List UInt8) : List Char := lossyFrom 0 bytes

theorem lossyFrom_append (before after : List UInt8) :
    lossyFrom before.length (before ++ after) = lossyFrom 0 after := by
  induction before with
  | nil => rfl
  | cons _ before ih => exact ih

/-- The bytes of a character are read as it. -/
theorem lossyChars_char (c : Char) (bytes : List UInt8) :
    lossyChars (String.utf8EncodeChar c ++ bytes) = c :: lossyChars bytes := by
  have hread : (String.utf8EncodeChar c ++ bytes).toByteArray.utf8DecodeChar? 0 = some c := by
    rw [List.toByteArray_append]
    exact ByteArray.utf8DecodeChar?_utf8EncodeChar_append
  have hlength := String.length_utf8EncodeChar c
  unfold lossyChars
  cases hbytes : String.utf8EncodeChar c with
  | nil => exact absurd hbytes String.utf8EncodeChar_ne_nil
  | cons byte others =>
    rw [hbytes] at hread hlength
    rw [List.cons_append] at hread ⊢
    have hothers : c.utf8Size - 1 = others.length := by
      rw [← hlength, List.length_cons]
      omega
    simp only [lossyFrom, hread, hothers, lossyFrom_append]

/-- **Text is read back from its UTF-8 bytes.** -/
theorem lossyChars_utf8 (cs : List Char) : lossyChars (cs.flatMap String.utf8EncodeChar) = cs := by
  induction cs with
  | nil => rfl
  | cons c cs ih => rw [List.flatMap_cons, lossyChars_char, ih]

/-! ## Percent-encoding -/

/-- A byte that stands for itself. -/
def isKept (byte : UInt8) : Bool :=
  (0x30 ≤ byte && byte ≤ 0x39) || (0x41 ≤ byte && byte ≤ 0x5A) || (0x61 ≤ byte && byte ≤ 0x7A)
    || byte = 0x2A || byte = 0x2D || byte = 0x2E || byte = 0x5F

/-- A hexadecimal digit, in upper case. -/
def upperHexDigit (d : Nat) : Char :=
  if d < 10 then Char.ofNat (0x30 + d) else Char.ofNat (0x41 + d - 10)

def encodeByte (byte : UInt8) : List Char :=
  if isKept byte then [Char.ofNat byte.toNat]
  else if byte = 0x20 then ['+']
  else ['%', upperHexDigit (byte.toNat / 16), upperHexDigit (byte.toNat % 16)]

/-- The percent-encoding of a text. -/
def encode (cs : List Char) : List Char :=
  (cs.flatMap String.utf8EncodeChar).flatMap encodeByte

/-- The bytes that a percent-encoded text stands for. -/
def decodeBytes : List Char → List UInt8
  | '%' :: a :: b :: cs =>
    match Json.hexValue a, Json.hexValue b with
    | some hi, some lo => UInt8.ofNat (16 * hi + lo) :: decodeBytes cs
    | _, _ => 0x25 :: decodeBytes (a :: b :: cs)
  | '+' :: cs => 0x20 :: decodeBytes cs
  | c :: cs => String.utf8EncodeChar c ++ decodeBytes cs
  | [] => []

/-- The text that a percent-encoded text stands for. -/
def decode (cs : List Char) : List Char := lossyChars (decodeBytes cs)

theorem hexValue_upperHexDigit {d : Nat} (h : d < 16) : Json.hexValue (upperHexDigit d) = some d := by
  have hall : ∀ e ∈ List.range 16, Json.hexValue (upperHexDigit e) = some e := by decide
  exact hall d (List.mem_range.mpr h)

/-- What a kept byte looks like. -/
theorem kept_char {byte : UInt8} (h : isKept byte = true) :
    Char.ofNat byte.toNat ∉ ['%', '+', '&', '='] ∧
      String.utf8EncodeChar (Char.ofNat byte.toNat) = [byte] := by
  have hall : ∀ n ∈ List.range 256, isKept (UInt8.ofNat n) = true →
      Char.ofNat n ∉ ['%', '+', '&', '='] ∧
        String.utf8EncodeChar (Char.ofNat n) = [UInt8.ofNat n] := by
    decide +kernel
  have hbyte := hall byte.toNat (List.mem_range.mpr byte.toNat_lt)
  rw [UInt8.ofNat_toNat] at hbyte
  exact hbyte h

theorem decodeBytes_plain {c : Char} (hpercent : c ≠ '%') (hplus : c ≠ '+') (cs : List Char) :
    decodeBytes (c :: cs) = String.utf8EncodeChar c ++ decodeBytes cs := by
  rw [decodeBytes]
  · exact fun _ _ _ h _ => hpercent h
  · exact hplus

/-- One byte is read back. -/
theorem decodeBytes_encodeByte (byte : UInt8) (cs : List Char) :
    decodeBytes (encodeByte byte ++ cs) = byte :: decodeBytes cs := by
  unfold encodeByte
  split
  · next hkept =>
    obtain ⟨hplain, hbytes⟩ := kept_char hkept
    simp only [List.mem_cons, not_or] at hplain
    rw [List.singleton_append, decodeBytes_plain hplain.1 hplain.2.1, hbytes]
    rfl
  · split
    · next hspace => rw [hspace, List.singleton_append, decodeBytes]
    · have hbyte := byte.toNat_lt
      simp only [List.cons_append, List.nil_append]
      rw [decodeBytes, hexValue_upperHexDigit (by omega), hexValue_upperHexDigit (by omega)]
      simp only
      rw [show 16 * (byte.toNat / 16) + byte.toNat % 16 = byte.toNat by omega, UInt8.ofNat_toNat]

/-- **A text is read back from its percent-encoding.** -/
theorem decode_encode (cs : List Char) : decode (encode cs) = cs := by
  have hbytes : ∀ bytes : List UInt8, decodeBytes (bytes.flatMap encodeByte) = bytes := by
    intro bytes
    induction bytes with
    | nil => rfl
    | cons byte bytes ih => rw [List.flatMap_cons, decodeBytes_encodeByte, ih]
  unfold decode encode
  rw [hbytes, lossyChars_utf8]

/-- No separator occurs in a percent-encoding. -/
theorem separator_notMem_encode (cs : List Char) : '&' ∉ encode cs ∧ '=' ∉ encode cs := by
  have hdigit : ∀ d ∈ List.range 16, upperHexDigit d ≠ '&' ∧ upperHexDigit d ≠ '=' := by decide
  have hbyte : ∀ byte : UInt8, '&' ∉ encodeByte byte ∧ '=' ∉ encodeByte byte := by
    intro byte
    have hlt := byte.toNat_lt
    obtain ⟨hhiAmp, hhiEq⟩ := hdigit (byte.toNat / 16) (List.mem_range.mpr (by omega))
    obtain ⟨hloAmp, hloEq⟩ := hdigit (byte.toNat % 16) (List.mem_range.mpr (by omega))
    unfold encodeByte
    split
    · next hkept =>
      obtain ⟨hplain, -⟩ := kept_char hkept
      simp only [List.mem_cons, not_or] at hplain
      exact ⟨fun h => hplain.2.2.1 (List.mem_singleton.mp h).symm,
        fun h => hplain.2.2.2.1 (List.mem_singleton.mp h).symm⟩
    · split
      · exact ⟨by decide, by decide⟩
      · simp [hhiAmp.symm, hhiEq.symm, hloAmp.symm, hloEq.symm]
  constructor
  · intro h
    obtain ⟨byte, -, hmem⟩ := List.mem_flatMap.mp h
    exact (hbyte byte).1 hmem
  · intro h
    obtain ⟨byte, -, hmem⟩ := List.mem_flatMap.mp h
    exact (hbyte byte).2 hmem

/-! ## Pairs -/

/-- A name and a value with `=` between them. -/
def parsePair (piece : List Char) : String × String :=
  (String.ofList (decode (piece.takeWhile (· ≠ '='))),
    String.ofList (decode ((piece.dropWhile (· ≠ '=')).drop 1)))

/-- The pairs of a query. -/
def parse (query : List Char) : List (String × String) :=
  ((query.splitOn '&').filter fun piece => !piece.isEmpty).map parsePair

def printPair (pair : String × String) : List Char :=
  encode pair.1.toList ++ '=' :: encode pair.2.toList

/-- A query with one more pair. -/
def append (query : List Char) (pair : String × String) : List Char :=
  if query.isEmpty then printPair pair else query ++ '&' :: printPair pair

theorem parsePair_printPair (pair : String × String) : parsePair (printPair pair) = pair := by
  obtain ⟨-, hname⟩ := separator_notMem_encode pair.1.toList
  have hall : ∀ c ∈ encode pair.1.toList, decide (c ≠ '=') = true := by
    intro c hc
    exact decide_eq_true fun h => hname (h ▸ hc)
  unfold parsePair printPair
  rw [List.takeWhile_append_of_pos hall, List.dropWhile_append_of_pos hall]
  simp [decode_encode]

theorem splitOn_printPair (pair : String × String) :
    (printPair pair).splitOn '&' = [printPair pair] := by
  have hname := (separator_notMem_encode pair.1.toList).1
  have hvalue := (separator_notMem_encode pair.2.toList).1
  rw [List.splitOn_eq_splitOnP]
  refine List.splitOnP_eq_singleton fun c hc => ?_
  have hne : c ≠ '&' := by
    rintro rfl
    simp [printPair, hname, hvalue] at hc
  simpa using hne

theorem parse_printPair (pair : String × String) : parse (printPair pair) = [pair] := by
  have hne : printPair pair ≠ [] := by simp [printPair]
  simp [parse, splitOn_printPair, hne, parsePair_printPair]

/-- **Appending a pair to a query appends it to the pairs that are read from it.** -/
theorem parse_append (query : List Char) (pair : String × String) :
    parse (append query pair) = parse query ++ [pair] := by
  unfold append
  split
  · next hempty =>
    rw [List.isEmpty_iff.mp hempty, parse_printPair]
    rfl
  · rw [← parse_printPair pair]
    unfold parse
    rw [List.splitOn_eq_splitOnP, List.splitOnP_append_cons _ _ (by simp), List.filter_append,
      List.map_append, ← List.splitOn_eq_splitOnP, ← List.splitOn_eq_splitOnP]

end FormUrlencoded
