import Thalovant.Lib.Json.Text

/-!
# Values of a type as JSON text

A codec writes the values of a type and reads them off the front of a text, as a deserializer
does that knows what it reads. Every value it reads is one that it reads back once it is written.

An object is read into a state, one entry after the other, and what an entry does to the state
depends on its key: an entry that is not known may be skipped, and one that is there twice may be
refused or take the place of the other. A structure may also stand as the array of its fields.

* `Codec`: what is written is read back, and leaves the rest
* `readMap_writeObject`, `readStruct_writeObject`: reading a written object goes through the steps
  of its entries
* `of_readMap`, `of_readStruct`: what every step keeps holds of what is read
-/

namespace Json

variable {α β σ : Type}

/-- Reads a value off the front of a text, and says what is left. -/
abbrev Reader (α : Type) := List Char → Option (α × List Char)

/-- A writer and a reader of values: what can be read at all is read back once it is written. -/
structure Codec (α : Type) where
  write : α → List Char
  read : Reader α
  Readable : α → Prop
  starts : ∀ a, ∃ c cs, write a = c :: cs ∧ StartsValue c
  readable_of_read : ∀ {cs a rest}, read cs = some (a, rest) → Readable a
  read_write : ∀ {a}, Readable a → ∀ rest, NoNumberHead rest →
    read (write a ++ rest) = some (a, rest)

/-- A whole text: one value, with nothing but white space after it. -/
def readAll (read : Reader α) (cs : List Char) : Option α :=
  match read cs with
  | some (a, rest) => if skipSpace rest = [] then some a else none
  | none => none

theorem Codec.readAll_write (codec : Codec α) {a : α} (h : codec.Readable a) :
    readAll codec.read (codec.write a) = some a := by
  have hread := codec.read_write h [] (fun c cs h => by cases h)
  rw [List.append_nil] at hread
  rw [readAll, hread]
  rfl

theorem Codec.readable_of_readAll (codec : Codec α) {cs : List Char} {a : α}
    (h : readAll codec.read cs = some a) : codec.Readable a := by
  unfold readAll at h
  split at h
  · next hread =>
    split at h
    · cases h
      exact codec.readable_of_read hread
    · cases h
  · cases h

theorem Codec.write_ne_nil (codec : Codec α) (a : α) : codec.write a ≠ [] := by
  obtain ⟨c, cs, h, -⟩ := codec.starts a
  rw [h]
  exact List.cons_ne_nil c cs

/-! ## Strings -/

def readStr : Reader String := fun cs =>
  match skipSpace cs with
  | '"' :: rest => readString rest
  | _ => none

theorem readStr_printString (s : String) (rest : List Char) :
    readStr (printString s ++ rest) = some (s, rest) := by
  have hs : printString s ++ rest = '"' :: (s.toList.flatMap escapeChar ++ '"' :: rest) := by
    simp [printString]
  rw [readStr, hs, skipSpace_cons (by decide)]
  exact readString_printString s rest

def stringCodec : Codec String where
  write := printString
  read := readStr
  Readable _ := True
  starts s := ⟨'"', _, rfl, by decide, by decide, by decide⟩
  readable_of_read _ := trivial
  read_write _ rest _ := readStr_printString _ rest

/-! ## Unsigned integers -/

/-- An integer without a sign, and without a zero before its first digit. -/
def readUnsigned (bound : Nat) (token : List Char) : Option Nat :=
  if token ≠ [] ∧ token.all Char.isDigit ∧ (token.head? = some '0' → token = ['0']) then
    let n := Nat.ofDigitChars 10 token 0
    if n < bound then some n else none
  else none

/-- There is no zero before the first digit. -/
theorem head?_toDigits_ne {n : Nat} (h : 0 < n) : (Nat.toDigits 10 n).head? ≠ some '0' := by
  induction n using Nat.strongRecOn with
  | ind n ih =>
    rcases Nat.lt_or_ge n 10 with hlt | hge
    · rw [Nat.toDigits_of_lt_base hlt]
      have hall : ∀ m ∈ List.range 10, 0 < m → [Nat.digitChar m].head? ≠ some '0' := by decide
      exact hall n (List.mem_range.mpr hlt) h
    · have hdiv : 0 < n / 10 := by omega
      rw [Nat.toDigits_of_base_le (by decide) hge,
        List.head?_append_of_ne_nil _ Nat.toDigits_ne_nil]
      exact ih (n / 10) (by omega) hdiv

theorem isNumberChar_of_mem_toDigits {n : Nat} {c : Char} (h : c ∈ Nat.toDigits 10 n) :
    isNumberChar c = true := natFormat_lawful.render_chars n c h

theorem readUnsigned_toDigits {bound n : Nat} (h : n < bound) :
    readUnsigned bound (Nat.toDigits 10 n) = some n := by
  have hdigits : (Nat.toDigits 10 n).all Char.isDigit = true :=
    List.all_eq_true.mpr fun c hc => Nat.isDigit_of_mem_toDigits (by decide) (by decide) hc
  have hvalue : Nat.ofDigitChars 10 (Nat.toDigits 10 n) 0 = n :=
    Nat.ofDigitChars_toDigits (by decide) (by decide)
  have hzero : (Nat.toDigits 10 n).head? = some '0' → Nat.toDigits 10 n = ['0'] := by
    intro hhead
    rcases Nat.eq_zero_or_pos n with rfl | hpos
    · exact Nat.toDigits_zero 10
    · exact absurd hhead (head?_toDigits_ne hpos)
  rw [readUnsigned, if_pos ⟨Nat.toDigits_ne_nil, hdigits, hzero⟩, hvalue]
  exact if_pos h

def readU32 : Reader UInt32 := fun cs =>
  let cs := skipSpace cs
  (readUnsigned (2 ^ 32) (cs.takeWhile isNumberChar)).map fun n =>
    (UInt32.ofNat n, cs.dropWhile isNumberChar)

def u32Codec : Codec UInt32 where
  write n := Nat.toDigits 10 n.toNat
  read := readU32
  Readable _ := True
  starts n := by
    obtain ⟨c, cs, h⟩ := List.exists_cons_of_ne_nil (Nat.toDigits_ne_nil (b := 10) (n := n.toNat))
    exact ⟨c, cs, h, startsValue_of_isNumberChar
      (isNumberChar_of_mem_toDigits (by rw [h]; exact List.mem_cons_self))⟩
  readable_of_read _ := trivial
  read_write {n} _ rest hrest := by
    obtain ⟨c, cs, h⟩ := List.exists_cons_of_ne_nil (Nat.toDigits_ne_nil (b := 10) (n := n.toNat))
    have hchars : ∀ d ∈ Nat.toDigits 10 n.toNat, isNumberChar d = true :=
      fun d hd => isNumberChar_of_mem_toDigits hd
    have hc : StartsValue c :=
      startsValue_of_isNumberChar (hchars c (by rw [h]; exact List.mem_cons_self))
    have hspace : skipSpace (Nat.toDigits 10 n.toNat ++ rest)
        = Nat.toDigits 10 n.toNat ++ rest := by
      rw [h, List.cons_append, skipSpace_cons hc.1]
    have hend : rest.takeWhile isNumberChar = [] ∧ rest.dropWhile isNumberChar = rest := by
      cases rest with
      | nil => exact ⟨rfl, rfl⟩
      | cons d ds => simp [hrest d ds rfl]
    rw [readU32, hspace, List.takeWhile_append_of_pos hchars, List.dropWhile_append_of_pos hchars,
      hend.1, hend.2, List.append_nil, readUnsigned_toDigits n.toNat_lt, Option.map_some,
      UInt32.ofNat_toNat]

/-! ## Arrays -/

/-- One item or more, up to the closing bracket. -/
def readItemsOf (read : Reader α) : Nat → Reader (List α)
  | 0, _ => none
  | n + 1, cs =>
    match read cs with
    | none => none
    | some (a, rest) =>
      match skipSpace rest with
      | ',' :: rest => (readItemsOf read n rest).map fun r => (a :: r.1, r.2)
      | ']' :: rest => some ([a], rest)
      | _ => none

def readArray (read : Reader α) : Reader (List α) := fun cs =>
  match skipSpace cs with
  | '[' :: rest =>
    match skipSpace rest with
    | ']' :: rest => some ([], rest)
    | rest => readItemsOf read (rest.length + 1) rest
  | _ => none

def writeArray (write : α → List Char) (items : List α) : List Char :=
  '[' :: (joinComma (items.map write) ++ [']'])

theorem readItemsOf_write (codec : Codec α) {items : List α} (hne : items ≠ [])
    (h : ∀ a ∈ items, codec.Readable a) (rest : List Char) : ∀ n, items.length < n + 1 →
      readItemsOf codec.read (n + 1) (joinComma (items.map codec.write) ++ ']' :: rest)
        = some (items, rest) := by
  induction items with
  | nil => exact absurd rfl hne
  | cons a items ih =>
    intro n hn
    have ha := codec.read_write (h a List.mem_cons_self)
    cases items with
    | nil =>
      rw [List.map_cons, List.map_nil, joinComma, readItemsOf,
        ha _ (noNumberHead_cons (by decide) _)]
      simp only [skipSpace_cons (show isSpace ']' = false by decide)]
    | cons b items =>
      obtain ⟨m, rfl⟩ : ∃ m, n = m + 1 := ⟨n - 1, by simp only [List.length_cons] at hn; omega⟩
      have htail := ih (List.cons_ne_nil b items)
        (fun a' hmem => h a' (List.mem_cons_of_mem a hmem)) m
        (by simp only [List.length_cons] at hn ⊢; omega)
      simp only [List.map_cons, joinComma, List.append_assoc, List.cons_append] at htail ⊢
      rw [readItemsOf, ha _ (noNumberHead_cons (by decide) _)]
      simp only [skipSpace_cons (show isSpace ',' = false by decide), htail, Option.map_some]

theorem length_le_joinComma (texts : List (List Char)) (h : ∀ text ∈ texts, text ≠ []) :
    texts.length ≤ (joinComma texts).length := by
  induction texts with
  | nil => exact Nat.zero_le _
  | cons t texts ih =>
    have ht := List.length_pos_iff.mpr (h t List.mem_cons_self)
    have hrest := ih fun text hmem => h text (List.mem_cons_of_mem _ hmem)
    cases texts with
    | nil => simpa [joinComma, Nat.succ_le_iff] using ht
    | cons u us =>
      simp only [joinComma, List.length_append, List.length_cons] at hrest ⊢
      omega

theorem readArray_writeArray (codec : Codec α) {items : List α} (h : ∀ a ∈ items, codec.Readable a)
    (rest : List Char) :
    readArray codec.read (writeArray codec.write items ++ rest) = some (items, rest) := by
  rw [readArray, writeArray, List.cons_append, skipSpace_cons (by decide), List.append_assoc,
    List.singleton_append]
  cases items with
  | nil => rfl
  | cons a items =>
    have hlength := length_le_joinComma ((a :: items).map codec.write) fun text hmem => by
      obtain ⟨b, -, rfl⟩ := List.mem_map.mp hmem
      exact codec.write_ne_nil b
    have hread := readItemsOf_write codec (List.cons_ne_nil a items) h rest
      (joinComma ((a :: items).map codec.write) ++ ']' :: rest).length
      (by rw [List.length_map] at hlength; rw [List.length_append]; omega)
    obtain ⟨c, cs, hc, hstarts⟩ := codec.starts a
    obtain ⟨ds, hds⟩ : ∃ ds,
        joinComma ((a :: items).map codec.write) ++ ']' :: rest = c :: ds := by
      cases items <;> simp [joinComma, hc]
    rw [hds] at hread ⊢
    simp only [skipSpace_cons hstarts.1]
    split
    · next heq => exact absurd (List.cons.inj heq).1 hstarts.2.1
    · exact hread

section

variable {read : Reader α} {P : α → Prop}

theorem of_readItemsOf (hread : ∀ {cs a rest}, read cs = some (a, rest) → P a) (n : Nat) :
    ∀ {cs : List Char} {items : List α} {rest : List Char},
      readItemsOf read n cs = some (items, rest) → ∀ a ∈ items, P a := by
  induction n with
  | zero => intro cs items rest h; cases h
  | succ n ih =>
    intro cs items rest h
    rw [readItemsOf] at h
    split at h
    · cases h
    · next hfirst =>
      split at h
      · obtain ⟨r, htail, heq⟩ := Option.map_eq_some_iff.mp h
        cases heq
        exact List.forall_mem_cons.mpr ⟨hread hfirst, ih htail⟩
      · cases h
        exact List.forall_mem_singleton.mpr (hread hfirst)
      · cases h

theorem of_readArray (hread : ∀ {cs a rest}, read cs = some (a, rest) → P a) {cs : List Char}
    {items : List α} {rest : List Char} (h : readArray read cs = some (items, rest)) :
    ∀ a ∈ items, P a := by
  unfold readArray at h
  split at h
  · split at h
    · cases h
      exact List.forall_mem_nil P
    · exact of_readItemsOf hread _ h
  · cases h

end

def listCodec (codec : Codec α) : Codec (List α) where
  write := writeArray codec.write
  read := readArray codec.read
  Readable items := ∀ a ∈ items, codec.Readable a
  starts items := ⟨'[', _, rfl, by decide, by decide, by decide⟩
  readable_of_read := of_readArray codec.readable_of_read
  read_write h rest _ := readArray_writeArray codec h rest

/-! ## Objects -/

/-- What an entry does to the state, from its key and the text after the colon. -/
abbrev EntryStep (σ : Type) := String → σ → Reader σ

/-- One entry or more, up to the closing brace. -/
def readEntriesInto (step : EntryStep σ) : Nat → σ → Reader σ
  | 0, _, _ => none
  | n + 1, s, cs =>
    match readStr cs with
    | none => none
    | some (k, rest) =>
      match skipSpace rest with
      | ':' :: rest =>
        match step k s rest with
        | none => none
        | some (s, rest) =>
          match skipSpace rest with
          | ',' :: rest => readEntriesInto step n s rest
          | '}' :: rest => some (s, rest)
          | _ => none
      | _ => none

/-- The entries of an object whose opening brace has been read. -/
def readEntriesFrom (step : EntryStep σ) (s : σ) : Reader σ := fun cs =>
  match skipSpace cs with
  | '}' :: rest => some (s, rest)
  | cs => readEntriesInto step (cs.length + 1) s cs

/-- An object, and nothing else. -/
def readMap (step : EntryStep σ) (s : σ) : Reader σ := fun cs =>
  match skipSpace cs with
  | '{' :: rest => readEntriesFrom step s rest
  | _ => none

/-- The fields of a structure that stands as an array, whose opening bracket has been read. -/
def readFields (step : EntryStep σ) : List String → σ → Reader σ
  | [], _, _ => none
  | k :: keys, s, cs =>
    match step k s cs with
    | none => none
    | some (s, rest) =>
      match keys, skipSpace rest with
      | [], ']' :: rest => some (s, rest)
      | _ :: _, ',' :: rest => readFields step keys s rest
      | _, _ => none

/-- What a structure is built from, of an object or of the array of its fields. -/
def readBuilder (step : EntryStep σ) (fields : List String) (s : σ) : Reader σ := fun cs =>
  match skipSpace cs with
  | '{' :: rest => readEntriesFrom step s rest
  | '[' :: rest => readFields step fields s rest
  | _ => none

def readStruct (step : EntryStep σ) (fields : List String) (s : σ) (finish : σ → Option α) :
    Reader α := fun cs =>
  (readBuilder step fields s cs).bind fun r => (finish r.1).map fun a => (a, r.2)

/-- A field that stands in a structure once. -/
def readField (old : Option β) (read : Reader β) (set : β → σ) : Reader σ := fun cs =>
  match old with
  | some _ => none
  | none => (read cs).map fun r => (set r.1, r.2)

/-! ## Reading back a written object -/

/-- The text of an entry of an object. -/
def writeEntry (entry : String × List Char) : List Char := printString entry.1 ++ ':' :: entry.2

def writeObject (entries : List (String × List Char)) : List Char :=
  '{' :: (joinComma (entries.map writeEntry) ++ ['}'])

/-- What the steps of entries come to, each of which reads the text of its entry. -/
inductive Steps (step : EntryStep σ) : σ → List (String × List Char) → σ → Prop
  | nil {s : σ} : Steps step s [] s
  | cons {s s' s'' : σ} {k : String} {text : List Char} {entries : List (String × List Char)} :
      (∀ rest, NoNumberHead rest → step k s (text ++ rest) = some (s', rest)) →
      Steps step s' entries s'' → Steps step s ((k, text) :: entries) s''

variable {step : EntryStep σ}

theorem readEntriesInto_write {entries : List (String × List Char)} {s s' : σ}
    (h : Steps step s entries s') (hne : entries ≠ []) (rest : List Char) :
    ∀ n, entries.length < n + 1 →
      readEntriesInto step (n + 1) s (joinComma (entries.map writeEntry) ++ '}' :: rest)
        = some (s', rest) := by
  induction h with
  | nil => exact absurd rfl hne
  | @cons s s₁ s' k text entries hstep hsteps ih =>
    intro n hn
    cases entries with
    | nil =>
      cases hsteps
      rw [List.map_cons, List.map_nil, joinComma, readEntriesInto, writeEntry, List.append_assoc,
        readStr_printString]
      simp only [List.cons_append, skipSpace_cons (show isSpace ':' = false by decide),
        hstep _ (noNumberHead_cons (show isNumberChar '}' = false by decide) _),
        skipSpace_cons (show isSpace '}' = false by decide)]
    | cons entry entries =>
      obtain ⟨m, rfl⟩ : ∃ m, n = m + 1 := ⟨n - 1, by simp only [List.length_cons] at hn; omega⟩
      have htail := ih (List.cons_ne_nil entry entries) m
        (by simp only [List.length_cons] at hn ⊢; omega)
      simp only [List.map_cons, joinComma, List.append_assoc, List.cons_append] at htail ⊢
      rw [readEntriesInto, writeEntry, List.append_assoc, readStr_printString]
      simp only [List.cons_append, skipSpace_cons (show isSpace ':' = false by decide),
        hstep _ (noNumberHead_cons (show isNumberChar ',' = false by decide) _),
        skipSpace_cons (show isSpace ',' = false by decide), htail]

theorem readEntriesFrom_write {entries : List (String × List Char)} {s s' : σ}
    (h : Steps step s entries s') (rest : List Char) :
    readEntriesFrom step s (joinComma (entries.map writeEntry) ++ '}' :: rest)
      = some (s', rest) := by
  rw [readEntriesFrom]
  cases entries with
  | nil =>
    cases h
    rfl
  | cons entry entries =>
    have hlength := length_le_joinComma ((entry :: entries).map writeEntry) fun text hmem => by
      obtain ⟨e, -, rfl⟩ := List.mem_map.mp hmem
      exact List.cons_ne_nil _ _
    have hread := readEntriesInto_write h (List.cons_ne_nil entry entries) rest
      (joinComma ((entry :: entries).map writeEntry) ++ '}' :: rest).length
      (by rw [List.length_map] at hlength; rw [List.length_append]; omega)
    obtain ⟨ds, hds⟩ : ∃ ds,
        joinComma ((entry :: entries).map writeEntry) ++ '}' :: rest = '"' :: ds := by
      cases entries <;> simp [joinComma, writeEntry, printString]
    rw [hds] at hread ⊢
    rw [skipSpace_cons (by decide)]
    split
    · next heq => exact absurd (List.cons.inj heq).1 (by decide)
    · exact hread

/-- **Reading a written object goes through the steps of its entries.** -/
theorem readMap_writeObject {entries : List (String × List Char)} {s s' : σ}
    (h : Steps step s entries s') (rest : List Char) :
    readMap step s (writeObject entries ++ rest) = some (s', rest) := by
  rw [readMap, writeObject, List.cons_append, skipSpace_cons (by decide), List.append_assoc,
    List.singleton_append]
  exact readEntriesFrom_write h rest

/-- **So does reading a structure.** -/
theorem readStruct_writeObject {entries : List (String × List Char)} {fields : List String}
    {s s' : σ} {finish : σ → Option α} {a : α}
    (h : Steps step s entries s') (hfinish : finish s' = some a)
    (rest : List Char) :
    readStruct step fields s finish (writeObject entries ++ rest) = some (a, rest) := by
  have hbuilder : readBuilder step fields s (writeObject entries ++ rest) = some (s', rest) := by
    rw [readBuilder, writeObject, List.cons_append, skipSpace_cons (by decide), List.append_assoc,
      List.singleton_append]
    exact readEntriesFrom_write h rest
  rw [readStruct, hbuilder, Option.bind_some, hfinish, Option.map_some]

/-- A field that is not there yet is read back. -/
theorem readField_write (codec : Codec β) {b : β} (h : codec.Readable b) {set : β → σ}
    {rest : List Char} (hrest : NoNumberHead rest) :
    readField none codec.read set (codec.write b ++ rest) = some (set b, rest) := by
  rw [readField, codec.read_write h rest hrest, Option.map_some]

/-- The step of such a field. -/
theorem Steps.field (codec : Codec β) {k : String} {b : β} {set : β → σ}
    {entries : List (String × List Char)} {s s' : σ}
    (hstep : step k s = readField none codec.read set) (h : codec.Readable b)
    (hsteps : Steps step (set b) entries s') : Steps step s ((k, codec.write b) :: entries) s' := by
  refine .cons (fun rest hrest => ?_) hsteps
  rw [hstep]
  exact readField_write codec h hrest

theorem starts_writeObject (entries : List (String × List Char)) :
    ∃ c cs, writeObject entries = c :: cs ∧ StartsValue c :=
  ⟨'{', _, rfl, by decide, by decide, by decide⟩

/-! ## What is kept while an object is read -/

section

variable {P : σ → Prop}

theorem of_readEntriesInto
    (hstep : ∀ {k s cs s' rest}, P s → step k s cs = some (s', rest) → P s') (n : Nat) :
    ∀ {s : σ} {cs : List Char} {s' : σ} {rest : List Char}, P s →
      readEntriesInto step n s cs = some (s', rest) → P s' := by
  induction n with
  | zero => intro s cs s' rest _ h; cases h
  | succ n ih =>
    intro s cs s' rest hs h
    rw [readEntriesInto] at h
    split at h
    · cases h
    split at h
    · split at h
      · cases h
      · next hentry =>
        have hnext := hstep hs hentry
        split at h
        · exact ih hnext h
        · cases h
          exact hnext
        · cases h
    · cases h

theorem of_readEntriesFrom
    (hstep : ∀ {k s cs s' rest}, P s → step k s cs = some (s', rest) → P s') {s : σ}
    {cs : List Char} {s' : σ} {rest : List Char} (hs : P s)
    (h : readEntriesFrom step s cs = some (s', rest)) : P s' := by
  unfold readEntriesFrom at h
  split at h
  · cases h
    exact hs
  · exact of_readEntriesInto hstep _ hs h

theorem of_readFields
    (hstep : ∀ {k s cs s' rest}, P s → step k s cs = some (s', rest) → P s') {keys : List String} :
    ∀ {s : σ} {cs : List Char} {s' : σ} {rest : List Char}, P s →
      readFields step keys s cs = some (s', rest) → P s' := by
  induction keys with
  | nil => intro s cs s' rest _ h; cases h
  | cons k keys ih =>
    intro s cs s' rest hs h
    rw [readFields] at h
    split at h
    · cases h
    · next hentry =>
      have hnext := hstep hs hentry
      split at h
      · cases h
        exact hnext
      · exact ih hnext h
      · cases h

/-- **What every entry keeps holds of the whole object.** -/
theorem of_readMap
    (hstep : ∀ {k s cs s' rest}, P s → step k s cs = some (s', rest) → P s') {s : σ}
    {cs : List Char} {s' : σ} {rest : List Char} (hs : P s)
    (h : readMap step s cs = some (s', rest)) : P s' := by
  unfold readMap at h
  split at h
  · exact of_readEntriesFrom hstep hs h
  · cases h

/-- **A structure is built from fields for which what every entry keeps holds.** -/
theorem of_readStruct
    (hstep : ∀ {k s cs s' rest}, P s → step k s cs = some (s', rest) → P s')
    {fields : List String} {s : σ} {finish : σ → Option α} {cs : List Char} {a : α}
    {rest : List Char} (hs : P s) (h : readStruct step fields s finish cs = some (a, rest)) :
    ∃ s', P s' ∧ finish s' = some a := by
  obtain ⟨⟨s', rest'⟩, hbuilder, hfinish⟩ := Option.bind_eq_some_iff.mp h
  obtain ⟨a', ha', heq⟩ := Option.map_eq_some_iff.mp hfinish
  cases heq
  refine ⟨s', ?_, ha'⟩
  unfold readBuilder at hbuilder
  split at hbuilder
  · exact of_readEntriesFrom hstep hs hbuilder
  · exact of_readFields hstep hs hbuilder
  · cases hbuilder

theorem of_readField {old : Option β} {read : Reader β} {set : β → σ} {cs : List Char} {s' : σ}
    {rest : List Char} (h : readField old read set cs = some (s', rest))
    (hread : ∀ {b rest}, read cs = some (b, rest) → P (set b)) : P s' := by
  unfold readField at h
  split at h
  · cases h
  · obtain ⟨r, hr, heq⟩ := Option.map_eq_some_iff.mp h
    cases heq
    exact hread hr

end

end Json
