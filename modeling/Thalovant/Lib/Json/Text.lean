import Thalovant.Lib.Json.Value

/-!
# JSON text

Compact printing and a reader of the whole grammar: white space, every escape of a string (the pairs
of surrogates included) and objects that give a key twice, of which the last value stays.

How a number looks is a parameter (`NumberFormat`); all the reader uses of it is the alphabet of
number tokens, which no other token starts with.

## What is shown

* `readValue_print`: reading what was printed gives the value with its keys sorted, and leaves what
  follows it alone. Only a number needs to know what follows: everything else ends by itself.
* `parse_print`: the same for a whole text
* `print_sortKeys_inj`: two texts printed from sorted values are equal only for the same value

## Termination

`readValue` and its companions take fuel. The length of the text is enough (`parse`).
-/

namespace Json

variable {N : Type}

/-! ## Characters -/

/-- A hexadecimal digit, in lower case. -/
def hexDigit (d : Nat) : Char := if d < 10 then Char.ofNat (0x30 + d) else Char.ofNat (0x61 + d - 10)

/-- The value of a hexadecimal digit of either case. -/
def hexValue (c : Char) : Option Nat :=
  let n := c.toNat
  if 0x30 ≤ n && n ≤ 0x39 then some (n - 0x30)
  else if 0x61 ≤ n && n ≤ 0x66 then some (n - 0x61 + 10)
  else if 0x41 ≤ n && n ≤ 0x46 then some (n - 0x41 + 10)
  else none

theorem hexValue_hexDigit {d : Nat} (h : d < 16) : hexValue (hexDigit d) = some d := by
  have hall : ∀ e ∈ List.range 16, hexValue (hexDigit e) = some e := by decide
  exact hall d (List.mem_range.mpr h)

def isSpace (c : Char) : Bool := c = ' ' || c = '\t' || c = '\n' || c = '\r'

def skipSpace (cs : List Char) : List Char := cs.dropWhile isSpace

theorem skipSpace_cons {c : Char} (h : isSpace c = false) (cs : List Char) :
    skipSpace (c :: cs) = c :: cs := by
  simp [skipSpace, h]

/-- The characters that occur in a number. -/
def isNumberChar (c : Char) : Bool :=
  c.isDigit || c = '+' || c = '-' || c = '.' || c = 'e' || c = 'E'

/-! ## Printing -/

/-- How numbers are written and read. -/
structure NumberFormat (N : Type) where
  render : N → List Char
  read : List Char → Option N

/-- A number is written as a token, and reading the token gives it back. -/
structure NumberFormat.Lawful (fmt : NumberFormat N) : Prop where
  render_ne_nil : ∀ n, fmt.render n ≠ []
  render_chars : ∀ n, ∀ c ∈ fmt.render n, isNumberChar c = true
  read_render : ∀ n, fmt.read (fmt.render n) = some n

/-- Four hexadecimal digits. -/
def hex4 (n : Nat) : List Char :=
  [hexDigit (n / 4096 % 16), hexDigit (n / 256 % 16), hexDigit (n / 16 % 16), hexDigit (n % 16)]

/-- A character inside a string: the quote, the backslash and the control characters are escaped. -/
def escapeChar (c : Char) : List Char :=
  if c = '"' then ['\\', '"']
  else if c = '\\' then ['\\', '\\']
  else if c = Char.ofNat 0x08 then ['\\', 'b']
  else if c = Char.ofNat 0x0C then ['\\', 'f']
  else if c = '\n' then ['\\', 'n']
  else if c = '\r' then ['\\', 'r']
  else if c = '\t' then ['\\', 't']
  else if c.toNat < 0x20 then '\\' :: 'u' :: hex4 c.toNat
  else [c]

def printString (s : String) : List Char := '"' :: (s.toList.flatMap escapeChar ++ ['"'])

/-- Texts with a comma between any two. -/
def joinComma : List (List Char) → List Char
  | [] => []
  | [t] => t
  | t :: u :: ts => t ++ ',' :: joinComma (u :: ts)

mutual

/-- The compact text of a value, the entries of an object in the order they stand in. -/
def print (fmt : NumberFormat N) : Value N → List Char
  | .null => "null".toList
  | .bool true => "true".toList
  | .bool false => "false".toList
  | .number n => fmt.render n
  | .string s => printString s
  | .array items => '[' :: (joinComma (printItems fmt items) ++ [']'])
  | .object entries => '{' :: (joinComma (printEntries fmt entries) ++ ['}'])

def printItems (fmt : NumberFormat N) : List (Value N) → List (List Char)
  | [] => []
  | v :: items => print fmt v :: printItems fmt items

def printEntries (fmt : NumberFormat N) : Entries N → List (List Char)
  | [] => []
  | (k, v) :: entries => (printString k ++ ':' :: print fmt v) :: printEntries fmt entries

end

/-- The text of one entry of an object. -/
def printEntry (fmt : NumberFormat N) (e : String × Value N) : List Char :=
  printString e.1 ++ ':' :: print fmt e.2

theorem printItems_eq_map (fmt : NumberFormat N) : ∀ items : List (Value N),
    printItems fmt items = items.map (print fmt)
  | [] => rfl
  | v :: items => by rw [printItems, List.map_cons, printItems_eq_map fmt items]

theorem printEntries_eq_map (fmt : NumberFormat N) : ∀ entries : Entries N,
    printEntries fmt entries = entries.map (printEntry fmt)
  | [] => rfl
  | (k, v) :: entries => by rw [printEntries, List.map_cons, printEntries_eq_map fmt entries]; rfl

theorem print_array (fmt : NumberFormat N) (items : List (Value N)) :
    print fmt (.array items) = '[' :: (joinComma (items.map (print fmt)) ++ [']']) := by
  rw [print, printItems_eq_map]

theorem print_object (fmt : NumberFormat N) (entries : Entries N) :
    print fmt (.object entries) = '{' :: (joinComma (entries.map (printEntry fmt)) ++ ['}']) := by
  rw [print, printEntries_eq_map]

/-! ## Reading strings -/

def readHex4 : List Char → Option (Nat × List Char)
  | a :: b :: c :: d :: rest =>
    match hexValue a, hexValue b, hexValue c, hexValue d with
    | some a, some b, some c, some d => some (a * 4096 + b * 256 + c * 16 + d, rest)
    | _, _, _, _ => none
  | _ => none

/-- What follows `\u`: a code unit, or the first of a pair of surrogates with the second. -/
def readUnicode (cs : List Char) : Option (Char × List Char) :=
  match readHex4 cs with
  | none => none
  | some (hi, rest) =>
    if 0xD800 ≤ hi && hi < 0xDC00 then
      match rest with
      | '\\' :: 'u' :: rest =>
        match readHex4 rest with
        | none => none
        | some (lo, rest) =>
          if 0xDC00 ≤ lo && lo < 0xE000 then
            some (Char.ofNat (0x10000 + (hi - 0xD800) * 0x400 + (lo - 0xDC00)), rest)
          else none
      | _ => none
    else if 0xDC00 ≤ hi && hi < 0xE000 then none
    else some (Char.ofNat hi, rest)

/-- What follows a backslash. -/
def readEscape : List Char → Option (Char × List Char)
  | [] => none
  | c :: rest =>
    if c = '"' then some ('"', rest)
    else if c = '\\' then some ('\\', rest)
    else if c = '/' then some ('/', rest)
    else if c = 'b' then some (Char.ofNat 0x08, rest)
    else if c = 'f' then some (Char.ofNat 0x0C, rest)
    else if c = 'n' then some ('\n', rest)
    else if c = 'r' then some ('\r', rest)
    else if c = 't' then some ('\t', rest)
    else if c = 'u' then readUnicode rest
    else none

/-- The characters of a string up to its closing quote. -/
def readChars : Nat → List Char → Option (List Char × List Char)
  | 0, _ => none
  | _ + 1, [] => none
  | n + 1, c :: rest =>
    if c = '"' then some ([], rest)
    else if c = '\\' then
      match readEscape rest with
      | none => none
      | some (d, rest) => (readChars n rest).map fun r => (d :: r.1, r.2)
    else if c.toNat < 0x20 then none
    else (readChars n rest).map fun r => (c :: r.1, r.2)

/-- A string whose opening quote has been read. -/
def readString (cs : List Char) : Option (String × List Char) :=
  (readChars (cs.length + 1) cs).map fun r => (String.ofList r.1, r.2)

theorem readHex4_hex4 {n : Nat} (h : n < 65536) (rest : List Char) :
    readHex4 (hex4 n ++ rest) = some (n, rest) := by
  have h3 : n / 4096 % 16 < 16 := Nat.mod_lt _ (by omega)
  have h2 : n / 256 % 16 < 16 := Nat.mod_lt _ (by omega)
  have h1 : n / 16 % 16 < 16 := Nat.mod_lt _ (by omega)
  have h0 : n % 16 < 16 := Nat.mod_lt _ (by omega)
  have hsum : n / 4096 % 16 * 4096 + n / 256 % 16 * 256 + n / 16 % 16 * 16 + n % 16 = n := by omega
  simp only [hex4, List.cons_append, List.nil_append, readHex4, hexValue_hexDigit h3,
    hexValue_hexDigit h2, hexValue_hexDigit h1, hexValue_hexDigit h0, hsum]

theorem readEscape_unicode {c : Char} (h : c.toNat < 0x20) (rest : List Char) :
    readEscape ('u' :: hex4 c.toNat ++ rest) = some (c, rest) := by
  have hlo : ¬ (0xD800 ≤ c.toNat) := by omega
  have hhi : ¬ (0xDC00 ≤ c.toNat) := by omega
  have hread : readUnicode (hex4 c.toNat ++ rest) = some (c, rest) := by
    rw [readUnicode, readHex4_hex4 (by omega)]
    simp [hlo, hhi]
  rw [List.cons_append, readEscape]
  simp only [Char.reduceEq, if_false, if_true, hread]

/-- One printed character is read back, whatever comes after it. -/
theorem readChars_escapeChar (n : Nat) (c : Char) (rest : List Char) :
    readChars (n + 1) (escapeChar c ++ rest)
      = (readChars n rest).map fun r => (c :: r.1, r.2) := by
  unfold escapeChar
  split
  · next h => subst h; rfl
  split
  · next h => subst h; rfl
  split
  · next h => subst h; rfl
  split
  · next h => subst h; rfl
  split
  · next h => subst h; rfl
  split
  · next h => subst h; rfl
  split
  · next h => subst h; rfl
  split
  · next h =>
    rw [List.cons_append, readChars]
    simp only [Char.reduceEq, if_false, if_true]
    rw [readEscape_unicode h]
  · next hquote hback _ _ _ _ _ hctl =>
    rw [List.singleton_append, readChars, if_neg hquote, if_neg hback, if_neg hctl]

theorem readChars_escape (rest : List Char) : ∀ (cs : List Char) (n : Nat), cs.length < n →
    readChars n (cs.flatMap escapeChar ++ '"' :: rest) = some (cs, rest)
  | [], n + 1, _ => by simp [readChars]
  | c :: cs, n + 1, h => by
    rw [List.flatMap_cons, List.append_assoc, readChars_escapeChar,
      readChars_escape rest cs n (by simpa using h)]
    rfl

theorem length_flatMap_escapeChar (cs : List Char) : cs.length ≤ (cs.flatMap escapeChar).length := by
  have hpos : ∀ c, 1 ≤ (escapeChar c).length := by
    intro c
    unfold escapeChar
    repeat' split
    all_goals simp
  induction cs with
  | nil => simp
  | cons c cs ih =>
    have := hpos c
    simp only [List.flatMap_cons, List.length_append, List.length_cons]
    omega

/-- **A printed string is read back**, and what follows it is left. -/
theorem readString_printString (s : String) (rest : List Char) :
    readString (s.toList.flatMap escapeChar ++ '"' :: rest) = some (s, rest) := by
  have hlen := length_flatMap_escapeChar s.toList
  rw [readString, readChars_escape rest s.toList _ (by rw [List.length_append]; omega)]
  simp

/-! ## Reading values -/

/-- Drop a fixed text. -/
def expect : List Char → List Char → Option (List Char)
  | [], cs => some cs
  | _ :: _, [] => none
  | p :: ps, c :: cs => if p = c then expect ps cs else none

def readNumber (fmt : NumberFormat N) (cs : List Char) : Option (Value N × List Char) :=
  (fmt.read (cs.takeWhile isNumberChar)).map fun n => (.number n, cs.dropWhile isNumberChar)

mutual

def readValue (fmt : NumberFormat N) : Nat → List Char → Option (Value N × List Char)
  | 0, _ => none
  | n + 1, cs =>
    match skipSpace cs with
    | [] => none
    | c :: rest =>
      if c = '"' then (readString rest).map fun r => (.string r.1, r.2)
      else if c = '[' then
        match skipSpace rest with
        | ']' :: rest => some (.array [], rest)
        | rest => (readItems fmt n rest).map fun r => (.array r.1, r.2)
      else if c = '{' then
        match skipSpace rest with
        | '}' :: rest => some (.object [], rest)
        | rest => (readEntries fmt n rest).map fun r => (.object (SortedMap.ofList r.1), r.2)
      else if c = 'n' then (expect "ull".toList rest).map fun r => (.null, r)
      else if c = 't' then (expect "rue".toList rest).map fun r => (.bool true, r)
      else if c = 'f' then (expect "alse".toList rest).map fun r => (.bool false, r)
      else readNumber fmt (c :: rest)

/-- One item or more, up to the closing bracket. -/
def readItems (fmt : NumberFormat N) : Nat → List Char → Option (List (Value N) × List Char)
  | 0, _ => none
  | n + 1, cs =>
    match readValue fmt n cs with
    | none => none
    | some (v, rest) =>
      match skipSpace rest with
      | ',' :: rest => (readItems fmt n rest).map fun r => (v :: r.1, r.2)
      | ']' :: rest => some ([v], rest)
      | _ => none

/-- One entry or more, up to the closing brace. -/
def readEntries (fmt : NumberFormat N) : Nat → List Char → Option (Entries N × List Char)
  | 0, _ => none
  | n + 1, cs =>
    match skipSpace cs with
    | '"' :: rest =>
      match readString rest with
      | none => none
      | some (k, rest) =>
        match skipSpace rest with
        | ':' :: rest =>
          match readValue fmt n rest with
          | none => none
          | some (v, rest) =>
            match skipSpace rest with
            | ',' :: rest => (readEntries fmt n rest).map fun r => ((k, v) :: r.1, r.2)
            | '}' :: rest => some ([(k, v)], rest)
            | _ => none
        | _ => none
    | _ => none

end

/-- A whole text: one value, with nothing but white space after it. -/
def parse (fmt : NumberFormat N) (cs : List Char) : Option (Value N) :=
  match readValue fmt (cs.length + 1) cs with
  | some (v, rest) => if skipSpace rest = [] then some v else none
  | none => none

/-! ## Reading back what was printed -/

/-- What comes next does not continue a number. -/
def NoNumberHead (rest : List Char) : Prop := ∀ c cs, rest = c :: cs → isNumberChar c = false

theorem noNumberHead_cons {c : Char} (h : isNumberChar c = false) (cs : List Char) :
    NoNumberHead (c :: cs) := by
  intro d ds hd
  cases hd
  exact h

theorem expect_append (p rest : List Char) : expect p (p ++ rest) = some rest := by
  induction p with
  | nil => rfl
  | cons c p ih => rw [List.cons_append, expect, if_pos rfl, ih]

/-- A character a value may start with: it ends no array or object and is not skipped. -/
def StartsValue (c : Char) : Prop := isSpace c = false ∧ c ≠ ']' ∧ c ≠ '}'

theorem startsValue_of_isNumberChar {c : Char} (h : isNumberChar c = true) : StartsValue c := by
  refine ⟨?_, ?_, ?_⟩
  · rcases hs : isSpace c with _ | _
    · rfl
    · exfalso
      simp only [isSpace, Bool.or_eq_true, decide_eq_true_eq] at hs
      rcases hs with ((hs | hs) | hs) | hs <;> (subst hs; revert h; decide)
  · rintro rfl
    revert h
    decide
  · rintro rfl
    revert h
    decide

/-- `readItems` reads back printed items, if `readValue` reads back each. -/
theorem readItems_print {fmt : NumberFormat N} {items : List (Value N)} (hne : items ≠ [])
    (ih : ∀ v ∈ items, ∀ n rest, (print fmt v).length < n → NoNumberHead rest →
      readValue fmt n (print fmt v ++ rest) = some (v.sortKeys, rest)) :
    ∀ n rest, (joinComma (items.map (print fmt))).length + 1 < n →
      readItems fmt n (joinComma (items.map (print fmt)) ++ ']' :: rest)
        = some (items.map Value.sortKeys, rest) := by
  induction items with
  | nil => exact absurd rfl hne
  | cons v items ihItems =>
    intro n rest hn
    obtain ⟨m, rfl⟩ : ∃ m, n = m + 1 := ⟨n - 1, by omega⟩
    cases items with
    | nil =>
      simp only [List.map_cons, List.map_nil, joinComma] at hn ⊢
      have hv := ih v List.mem_cons_self m (']' :: rest) (by omega)
        (noNumberHead_cons (by decide) _)
      rw [readItems, hv]
      simp only [skipSpace_cons (show isSpace ']' = false by decide)]
    | cons w items =>
      simp only [List.map_cons, joinComma, List.length_append, List.length_cons] at hn
      have htail := ihItems (by simp) (fun u hu => ih u (List.mem_cons_of_mem _ hu)) m rest
        (by simp only [List.map_cons]; omega)
      simp only [List.map_cons, joinComma, List.append_assoc, List.cons_append] at htail ⊢
      have hv := fun cs => ih v List.mem_cons_self m (',' :: cs) (by omega)
        (noNumberHead_cons (by decide) _)
      rw [readItems, hv]
      simp only [skipSpace_cons (show isSpace ',' = false by decide), htail, Option.map_some]

/-- `readEntries` reads back printed entries, if `readValue` reads back each value. -/
theorem readEntries_print {fmt : NumberFormat N} {entries : Entries N} (hne : entries ≠ [])
    (ih : ∀ e ∈ entries, ∀ n rest, (print fmt e.2).length < n → NoNumberHead rest →
      readValue fmt n (print fmt e.2 ++ rest) = some (e.2.sortKeys, rest)) :
    ∀ n rest, (joinComma (entries.map (printEntry fmt))).length + 1 < n →
      readEntries fmt n (joinComma (entries.map (printEntry fmt)) ++ '}' :: rest)
        = some (entries.map (Prod.map id Value.sortKeys), rest) := by
  -- the entry itself, up to what follows its value
  have hentry : ∀ (e : String × Value N) (rest : List Char),
      printEntry fmt e ++ rest = '"' :: (e.1.toList.flatMap escapeChar
        ++ '"' :: ':' :: (print fmt e.2 ++ rest)) := by
    intro e rest
    simp [printEntry, printString]
  have hlen : ∀ e : String × Value N, (print fmt e.2).length < (printEntry fmt e).length := by
    intro e
    simp only [printEntry, List.length_append, List.length_cons]
    omega
  induction entries with
  | nil => exact absurd rfl hne
  | cons e entries ihEntries =>
    intro n rest hn
    obtain ⟨m, rfl⟩ : ∃ m, n = m + 1 := ⟨n - 1, by omega⟩
    have hle := hlen e
    cases entries with
    | nil =>
      simp only [List.map_cons, List.map_nil, joinComma] at hn ⊢
      have hv := ih e List.mem_cons_self m ('}' :: rest) (by omega)
        (noNumberHead_cons (by decide) _)
      rw [hentry, readEntries]
      simp only [skipSpace_cons (show isSpace '"' = false by decide), readString_printString,
        skipSpace_cons (show isSpace ':' = false by decide), hv,
        skipSpace_cons (show isSpace '}' = false by decide)]
      rfl
    | cons f entries =>
      simp only [List.map_cons, joinComma, List.length_append, List.length_cons] at hn
      have htail := ihEntries (by simp) (fun g hg => ih g (List.mem_cons_of_mem _ hg)) m rest
        (by simp only [List.map_cons]; omega)
      simp only [List.map_cons, joinComma, List.append_assoc, List.cons_append] at htail ⊢
      have hv := fun cs => ih e List.mem_cons_self m (',' :: cs) (by omega)
        (noNumberHead_cons (by decide) _)
      rw [hentry, readEntries]
      simp only [skipSpace_cons (show isSpace '"' = false by decide), readString_printString,
        skipSpace_cons (show isSpace ':' = false by decide), hv,
        skipSpace_cons (show isSpace ',' = false by decide), htail, Option.map_some]
      rfl

section RoundTrip

variable {fmt : NumberFormat N} (hfmt : fmt.Lawful)

include hfmt

theorem print_head (v : Value N) : ∃ c cs, print fmt v = c :: cs ∧ StartsValue c := by
  cases v with
  | null => exact ⟨'n', _, rfl, by decide, by decide, by decide⟩
  | bool b =>
    cases b with
    | true => exact ⟨'t', _, rfl, by decide, by decide, by decide⟩
    | false => exact ⟨'f', _, rfl, by decide, by decide, by decide⟩
  | number n =>
    obtain ⟨c, cs, hcs⟩ := List.exists_cons_of_ne_nil (hfmt.render_ne_nil n)
    refine ⟨c, cs, hcs, startsValue_of_isNumberChar (hfmt.render_chars n c ?_)⟩
    rw [hcs]
    exact List.mem_cons_self
  | string s => exact ⟨'"', _, rfl, by decide, by decide, by decide⟩
  | array items => exact ⟨'[', _, rfl, by decide, by decide, by decide⟩
  | object entries => exact ⟨'{', _, rfl, by decide, by decide, by decide⟩

/-- The number branch: the token ends where its alphabet ends. -/
theorem readNumber_render (n : N) {rest : List Char} (hrest : NoNumberHead rest) :
    readNumber fmt (fmt.render n ++ rest) = some (.number n, rest) := by
  have hchars := hfmt.render_chars n
  have htake : rest.takeWhile isNumberChar = [] ∧ rest.dropWhile isNumberChar = rest := by
    cases rest with
    | nil => exact ⟨rfl, rfl⟩
    | cons c cs =>
      have hc := hrest c cs rfl
      simp [hc]
  rw [readNumber, List.takeWhile_append_of_pos hchars, List.dropWhile_append_of_pos hchars,
    htake.1, htake.2, List.append_nil, hfmt.read_render]
  rfl

/--
**Reading what was printed gives the value with its keys sorted, and leaves the rest.**

The induction is on the value. Only a number has to know that the rest does not continue it.
-/
theorem readValue_print (v : Value N) : ∀ (n : Nat) (rest : List Char),
    (print fmt v).length < n → ((∃ m, v = .number m) → NoNumberHead rest) →
    readValue fmt n (print fmt v ++ rest) = some (v.sortKeys, rest) := by
  induction v with
  | null =>
    intro n rest hn _
    obtain ⟨m, rfl⟩ : ∃ m, n = m + 1 := ⟨n - 1, by omega⟩
    rfl
  | bool b =>
    intro n rest hn _
    obtain ⟨m, rfl⟩ : ∃ m, n = m + 1 := ⟨n - 1, by omega⟩
    cases b <;> rfl
  | number k =>
    intro n rest hn hrest
    obtain ⟨m, rfl⟩ : ∃ m, n = m + 1 := ⟨n - 1, by omega⟩
    have hread := readNumber_render hfmt k (hrest ⟨k, rfl⟩)
    obtain ⟨c, cs, hcs⟩ := List.exists_cons_of_ne_nil (hfmt.render_ne_nil k)
    have hc : isNumberChar c = true := hfmt.render_chars k c (by rw [hcs]; exact List.mem_cons_self)
    -- a number's first character is none of those that begin another kind of value
    have hne : ∀ d, isNumberChar d = false → c ≠ d := by
      rintro d hd rfl
      rw [hc] at hd
      cases hd
    rw [print]
    rw [hcs] at hread ⊢
    rw [List.cons_append] at hread ⊢
    rw [readValue, skipSpace_cons (startsValue_of_isNumberChar hc).1]
    simp only [if_neg (hne '"' (by decide)), if_neg (hne '[' (by decide)),
      if_neg (hne '{' (by decide)), if_neg (hne 'n' (by decide)), if_neg (hne 't' (by decide)),
      if_neg (hne 'f' (by decide)), hread, Value.sortKeys]
  | string s =>
    intro n rest hn _
    obtain ⟨m, rfl⟩ : ∃ m, n = m + 1 := ⟨n - 1, by omega⟩
    have hs : print fmt (.string s) ++ rest
        = '"' :: (s.toList.flatMap escapeChar ++ '"' :: rest) := by
      simp [print, printString]
    rw [hs, readValue, skipSpace_cons (by decide)]
    simp only [if_true, readString_printString, Option.map_some, Value.sortKeys]
  | array items ih =>
    intro n rest hn _
    obtain ⟨m, rfl⟩ : ∃ m, n = m + 1 := ⟨n - 1, by omega⟩
    rw [print_array] at hn ⊢
    rw [List.cons_append, List.append_assoc, List.singleton_append, readValue,
      skipSpace_cons (by decide), Value.sortKeys_array]
    cases items with
    | nil => rfl
    | cons v items =>
      obtain ⟨c, cs, hc, hspace, hbracket, -⟩ := print_head hfmt v
      have hhead : ∃ ds, joinComma ((v :: items).map (print fmt)) ++ ']' :: rest = c :: ds := by
        cases items <;> simp [joinComma, hc]
      have hread := readItems_print (List.cons_ne_nil v items)
        (fun w hw n rest hn hrest => ih w hw n rest hn fun _ => hrest) m rest
        (by simp only [List.length_cons, List.length_append, List.length_nil] at hn; omega)
      obtain ⟨ds, hds⟩ := hhead
      simp only [Char.reduceEq, if_false, if_true]
      rw [hds] at hread ⊢
      rw [skipSpace_cons hspace]
      split
      · next heq => exact absurd (List.cons.inj heq).1 hbracket
      · rw [hread]
        rfl
  | object entries ih =>
    intro n rest hn _
    obtain ⟨m, rfl⟩ : ∃ m, n = m + 1 := ⟨n - 1, by omega⟩
    rw [print_object] at hn ⊢
    rw [List.cons_append, List.append_assoc, List.singleton_append, readValue,
      skipSpace_cons (by decide), Value.sortKeys_object]
    cases entries with
    | nil => rfl
    | cons e entries =>
      have hhead : ∃ ds,
          joinComma ((e :: entries).map (printEntry fmt)) ++ '}' :: rest = '"' :: ds := by
        cases entries <;> simp [joinComma, printEntry, printString]
      have hread := readEntries_print (List.cons_ne_nil e entries)
        (fun f hf n rest hn hrest => ih f hf n rest hn fun _ => hrest) m rest
        (by simp only [List.length_cons, List.length_append, List.length_nil] at hn; omega)
      obtain ⟨ds, hds⟩ := hhead
      simp only [Char.reduceEq, if_false, if_true]
      rw [hds] at hread ⊢
      rw [skipSpace_cons (by decide)]
      split
      · next heq => exact absurd (List.cons.inj heq).1 (by decide)
      · rw [hread]
        rfl

/-- **Parsing what was printed gives the value with its keys sorted.** -/
theorem parse_print (v : Value N) : parse fmt (print fmt v) = some v.sortKeys := by
  have h := readValue_print hfmt v ((print fmt v).length + 1) [] (by omega)
    (fun _ c cs hcs => nomatch hcs)
  rw [List.append_nil] at h
  rw [parse, h]
  rfl

/-- An object's text ends where it ends: what follows two equal texts of objects is equal too. -/
theorem print_object_append_inj {es fs : Entries N} {rest rest' : List Char}
    (h : print fmt (.object es) ++ rest = print fmt (.object fs) ++ rest') :
    (Value.object es).sortKeys = (Value.object fs).sortKeys ∧ rest = rest' := by
  have hes := readValue_print hfmt (.object es)
    (max (print fmt (.object es)).length (print fmt (.object fs)).length + 1) rest (by omega)
    (fun ⟨_, hm⟩ => nomatch hm)
  have hfs := readValue_print hfmt (.object fs)
    (max (print fmt (.object es)).length (print fmt (.object fs)).length + 1) rest' (by omega)
    (fun ⟨_, hm⟩ => nomatch hm)
  rw [h, hfs] at hes
  exact ⟨(Prod.mk.inj (Option.some.inj hes)).1.symm, (Prod.mk.inj (Option.some.inj hes)).2.symm⟩

end RoundTrip

/-! ## Natural numbers as numbers -/

/-- Natural numbers in decimal. -/
def natFormat : NumberFormat Nat where
  render n := Nat.toDigits 10 n
  read cs := if cs = [] then none else some (Nat.ofDigitChars 10 cs 0)

theorem natFormat_lawful : natFormat.Lawful where
  render_ne_nil _ := Nat.toDigits_ne_nil
  render_chars n c hc := by
    have hdigit : c.isDigit = true := Nat.isDigit_of_mem_toDigits (by decide) (by decide) hc
    simp [isNumberChar, hdigit]
  read_render n := by
    simp [natFormat, Nat.toDigits_ne_nil, Nat.ofDigitChars_toDigits]

end Json
