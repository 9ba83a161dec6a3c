import Mathlib.Algebra.Ring.Int.Defs
import Thalovant.Basic
import Thalovant.Lib.Json.Text
import Thalovant.Lib.Trim

/-!
# Text helpers of the standard library and of `hex`
-/

namespace Thalovant

/-! ## Hexadecimal text -/

/-- `hex::encode`. -/
def hexEncode (bytes : Bytes) : String :=
  String.ofList (bytes.flatMap fun byte =>
    [Json.hexDigit (byte.toNat / 16), Json.hexDigit (byte.toNat % 16)])

/-- The bytes of pairs of hexadecimal digits. -/
def hexPairs : List Char → Option Bytes
  | [] => some []
  | [_] => none
  | hi :: lo :: rest =>
    match Json.hexValue hi, Json.hexValue lo, hexPairs rest with
    | some hi, some lo, some bytes => some (UInt8.ofNat (16 * hi + lo) :: bytes)
    | _, _, _ => none

/-- `hex::decode`. -/
def hexDecode (text : String) : Option Bytes := hexPairs text.toList

/-- `u8::is_ascii_hexdigit`, of a character. -/
def isAsciiHexdigit (c : Char) : Bool := (Json.hexValue c).isSome

/-! ## White space -/

/-- `char::is_whitespace`: the Unicode property `White_Space`. -/
def isWhitespace (c : Char) : Bool :=
  (0x09 ≤ c.toNat && c.toNat ≤ 0x0D) || c.toNat = 0x20 || c.toNat = 0x85 || c.toNat = 0xA0
    || c.toNat = 0x1680 || (0x2000 ≤ c.toNat && c.toNat ≤ 0x200A) || c.toNat = 0x2028
    || c.toNat = 0x2029 || c.toNat = 0x202F || c.toNat = 0x205F || c.toNat = 0x3000

/-- `str::trim`. -/
def trim (text : String) : String :=
  String.ofList (((text.toList.dropWhile isWhitespace).reverse.dropWhile isWhitespace).reverse)

theorem toList_trim (text : String) : (trim text).toList = Trim.both isWhitespace text.toList := by
  rw [trim, String.toList_ofList]
  rfl

@[simp] theorem trim_trim (text : String) : trim (trim text) = trim text := by
  apply String.toList_injective
  rw [toList_trim, toList_trim, Trim.both_both]

/-- `text.trim().is_empty()`. -/
def isBlank (text : String) : Bool := text.toList.all isWhitespace

/-- `text.split_whitespace()`, collected. -/
def splitWhitespace (text : String) : List String :=
  ((text.toList.splitOnP isWhitespace).filter fun word => !word.isEmpty).map String.ofList

/-- `parts.join(" ")`. -/
def joinWords (parts : List String) : String := " ".intercalate parts

/-- The words of a text, joined, have single spaces between them and no other white space. -/
theorem collapsed_joinWords (text : String) :
    Trim.Collapsed isWhitespace ' ' (joinWords (splitWhitespace text)).toList := by
  rw [joinWords, String.toList_intercalate, splitWhitespace, List.map_map]
  have hid : String.toList ∘ String.ofList = id := funext fun _ => String.toList_ofList
  rw [hid, List.map_id]
  refine Trim.collapsed_intercalate fun word hword => ?_
  obtain ⟨hmem, hne⟩ := List.mem_filter.mp hword
  exact ⟨by simpa using hne, Trim.not_of_mem_splitOnP hmem⟩

/-! ## Cutting text -/

/-- `str::trim_start_matches`, of a character. -/
def trimStartChar (c : Char) (text : String) : String := String.ofList (text.toList.dropWhile (· = c))

/-- `str::trim_end_matches`, of a character. -/
def trimEndChar (c : Char) (text : String) : String := String.ofList (text.toList.rdropWhile (· = c))

/-- `str::trim_matches`, of a character. -/
def trimChar (c : Char) (text : String) : String := trimStartChar c (trimEndChar c text)

/-- A byte that `urlencoding::encode` keeps. -/
def isUnreserved (byte : UInt8) : Bool :=
  (Char.ofNat byte.toNat).isAlphanum && byte < 0x80 || byte = 0x2D || byte = 0x2E || byte = 0x5F
    || byte = 0x7E

/-- `urlencoding::encode`. -/
def urlencode (text : String) : String :=
  String.ofList ((utf8 text).flatMap fun byte =>
    if isUnreserved byte then [Char.ofNat byte.toNat]
    else ['%', (Json.hexDigit (byte.toNat / 16)).toUpper, (Json.hexDigit (byte.toNat % 16)).toUpper])

/-- What comes before and after the first occurrence of a separator. -/
def splitOnce (sep : List Char) : List Char → Option (List Char × List Char)
  | [] => if sep = [] then some ([], []) else none
  | c :: text =>
    if sep.isPrefixOf (c :: text) then some ([], (c :: text).drop sep.length)
    else (splitOnce sep text).map fun (before, after) => (c :: before, after)

/-! ## Decimal integers -/

/-- `text.parse::<i64>()`. -/
def parseI64 (text : String) : Option Int :=
  let (negative, digits) := match text.toList with
    | '-' :: digits => (true, digits)
    | '+' :: digits => (false, digits)
    | digits => (false, digits)
  if digits.isEmpty || !digits.all Char.isDigit then none
  else
    let magnitude := digits.foldl (fun (n : Nat) c => 10 * n + (c.toNat - 48)) 0
    let value : Int := if negative then -magnitude else magnitude
    if -2 ^ 63 ≤ value ∧ value < 2 ^ 63 then some value else none

/-! ## ASCII case -/

/-- `str::eq_ignore_ascii_case`. -/
def eqIgnoreAsciiCase (a b : String) : Bool := a.toList.map Char.toLower = b.toList.map Char.toLower

theorem eqIgnoreAsciiCase_refl (a : String) : eqIgnoreAsciiCase a a = true := by
  simp [eqIgnoreAsciiCase]

end Thalovant
