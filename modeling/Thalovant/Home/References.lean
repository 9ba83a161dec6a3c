import Thalovant.Home.Response

/-!
# Character references

A reference stands for one character, and a text is decoded in one pass. What the pattern of the
references replaces is what a scan replaces that looks behind each ampersand for the next semicolon:
`decodeReferences_eq_scan`.
-/

namespace Thalovant.Home

open Regex

/-! ## The scan -/

/-- The names of the references that have one, and their characters. -/
def referenceNames : List (List Char × Char) :=
  [("amp".toList, '&'), ("lt".toList, '<'), ("gt".toList, '>'), ("quot".toList, '"'),
    ("apos".toList, '\''), ("nbsp".toList, Char.ofNat 0xA0)]

/-- The character of a number: none of zero, of a surrogate, or of what is above U+10FFFF. -/
def numberedCharacter (n : Nat) : Option Char :=
  if n = 0 ∨ (0xD800 ≤ n ∧ n ≤ 0xDFFF) ∨ 0x10FFFF < n then none else some (Char.ofNat n)

def isDecimalDigit (c : Char) : Bool := '0' ≤ c && c ≤ '9'

/-- The character that is written between an ampersand and a semicolon. -/
def knownCharacter (body : List Char) : Option Char :=
  match referenceNames.lookup body with
  | some c => some c
  | none =>
    match body with
    | '#' :: c :: digits =>
      if c = 'x' ∨ c = 'X' then
        if 1 ≤ digits.length ∧ digits.length ≤ 6 ∧ digits.all isAsciiHexdigit then
          numberedCharacter (fromDigits 16 digits)
        else none
      else if digits.length < 7 ∧ (c :: digits).all isDecimalDigit then
        numberedCharacter (fromDigits 10 (c :: digits))
      else none
    | _ => none

/-- What stands before the next semicolon, and what behind it. -/
def terminated (cs : List Char) : Option (List Char × List Char) :=
  match cs.dropWhile (· ≠ ';') with
  | [] => none
  | _ :: after => some (cs.takeWhile (· ≠ ';'), after)

/-- The known reference behind an ampersand: its character, and what is behind it. -/
def knownReference (cs : List Char) : Option (Char × List Char) :=
  (terminated cs).bind fun found => (knownCharacter found.1).map fun c => (c, found.2)

theorem terminated_eq_some_iff {cs body after : List Char} :
    terminated cs = some (body, after) ↔ cs = body ++ ';' :: after ∧ ';' ∉ body := by
  unfold terminated
  constructor
  · intro h
    split at h
    · cases h
    · next c after' hdrop =>
      cases h
      have hc : c = ';' := by
        have hhead := List.head?_dropWhile_not (· ≠ ';') cs
        rw [hdrop] at hhead
        simpa using hhead
      subst hc
      refine ⟨?_, fun hmem => by simpa using List.mem_takeWhile_imp hmem⟩
      rw [← hdrop, List.takeWhile_append_dropWhile]
  · rintro ⟨rfl, hbody⟩
    have hall : ∀ c ∈ body, decide (c ≠ ';') = true := fun c hc =>
      decide_eq_true fun heq => hbody (heq ▸ hc)
    rw [List.dropWhile_append_of_pos hall, List.takeWhile_append_of_pos hall]
    simp

theorem knownReference_length {cs after : List Char} {c : Char}
    (h : knownReference cs = some (c, after)) : after.length < cs.length := by
  obtain ⟨⟨body, after'⟩, hfound, hchar⟩ := Option.bind_eq_some_iff.mp h
  obtain ⟨_, -, heq⟩ := Option.map_eq_some_iff.mp hchar
  cases heq
  obtain ⟨rfl, -⟩ := terminated_eq_some_iff.mp hfound
  simp only [List.length_append, List.length_cons]
  omega

/-- One pass from the left: a known reference is replaced by its character, and everything else is
left as it is written. -/
def scanReferences : List Char → List Char
  | [] => []
  | '&' :: cs =>
    match _hfound : knownReference cs with
    | some (c, after) => c :: scanReferences after
    | none => '&' :: scanReferences cs
  | c :: cs => c :: scanReferences cs
termination_by cs => cs.length
decreasing_by
  · have := knownReference_length _hfound
    simp only [List.length_cons]
    omega
  · exact Nat.lt_succ_self _
  · exact Nat.lt_succ_self _

theorem scanReferences_cons {c : Char} (h : c ≠ '&') (cs : List Char) :
    scanReferences (c :: cs) = c :: scanReferences cs := by
  rw [scanReferences]
  exact h

theorem scanReferences_known {cs after : List Char} {c : Char}
    (h : knownReference cs = some (c, after)) :
    scanReferences ('&' :: cs) = c :: scanReferences after := by
  rw [scanReferences]
  split
  · next heq =>
    cases h.symm.trans heq
    rfl
  · next heq => cases h.symm.trans heq

theorem scanReferences_unknown {cs : List Char} (h : knownReference cs = none) :
    scanReferences ('&' :: cs) = '&' :: scanReferences cs := by
  rw [scanReferences]
  split
  · next heq => cases h.symm.trans heq
  · rfl

/-- Where there is no ampersand nothing is replaced. -/
theorem scanReferences_append {w : List Char} (h : '&' ∉ w) (cs : List Char) :
    scanReferences (w ++ cs) = w ++ scanReferences cs := by
  induction w with
  | nil => rfl
  | cons c w ih =>
    rw [List.mem_cons, not_or] at h
    rw [List.cons_append, scanReferences_cons (Ne.symm h.1), ih h.2, List.cons_append]

/-! ## What the pattern reads -/

/-- What may stand between the ampersand and the semicolon of a reference. -/
def IsReference (body : List Char) : Prop :=
  (∃ digits, body = '#' :: digits ∧ 1 ≤ digits.length ∧ digits.length ≤ 7 ∧
    ∀ c ∈ digits, isDecimalDigit c = true) ∨
  (∃ x digits, body = '#' :: x :: digits ∧ (x = 'x' ∨ x = 'X') ∧ 1 ≤ digits.length ∧
    digits.length ≤ 6 ∧ ∀ c ∈ digits, isAsciiHexdigit c = true) ∨
  body ∈ referenceNames.map Prod.fst

/-- The alternatives of the pattern read what `IsReference` says. -/
theorem reads_reference_iff {cs rest : List Char} :
    Reads next reference cs rest ↔
      ∃ body, cs = '&' :: (body ++ ';' :: rest) ∧ IsReference body := by
  simp only [reference, reads_one_seq_iff, reads_seq_one_iff, reads_oneOf_iff, List.mem_cons,
    List.not_mem_nil, or_false, exists_eq_or_imp, exists_eq_left, reads_between_iff,
    reads_literal_iff, decide_eq_true_eq, Bool.or_eq_true]
  constructor
  · rintro ⟨_, m, rfl, rfl, h⟩
    rcases h with ⟨_, _, rfl, rfl, digits, rfl, hle, hge, hall⟩
      | ⟨_, _, rfl, rfl, x, _, rfl, hx, digits, rfl, hle, hge, hall⟩ | hname
    · exact ⟨'#' :: digits, rfl, .inl ⟨digits, rfl, hle, hge, hall⟩⟩
    · exact ⟨'#' :: x :: digits, rfl, .inr (.inl ⟨x, digits, rfl, hx, hle, hge, hall⟩)⟩
    · have hbody : ∃ body ∈ referenceNames.map Prod.fst, m = body ++ ';' :: rest := by
        simpa [referenceNames] using hname
      obtain ⟨body, hmem, rfl⟩ := hbody
      exact ⟨body, rfl, .inr (.inr hmem)⟩
  · rintro ⟨body, rfl, ⟨digits, rfl, hle, hge, hall⟩ | ⟨x, digits, rfl, hx, hle, hge, hall⟩ | hmem⟩
    · exact ⟨_, _, rfl, rfl, .inl ⟨_, _, rfl, rfl, digits, rfl, hle, hge, hall⟩⟩
    · exact ⟨_, _, rfl, rfl,
        .inr (.inl ⟨_, _, rfl, rfl, x, _, rfl, hx, digits, rfl, hle, hge, hall⟩)⟩
    · refine ⟨_, _, rfl, rfl, .inr (.inr ?_)⟩
      simp only [referenceNames, List.map_cons, List.map_nil, List.mem_cons, List.not_mem_nil,
        or_false] at hmem
      rcases hmem with rfl | rfl | rfl | rfl | rfl | rfl <;> simp

theorem numberedCharacter_eq (n : Nat) : numberedCharacter n = fromU32 n := by
  unfold numberedCharacter fromU32 Nat.isValidChar
  by_cases h : n = 0 ∨ (0xD800 ≤ n ∧ n ≤ 0xDFFF) ∨ 0x10FFFF < n
  · rw [if_pos h, if_neg (by omega)]
  · rw [if_neg h, if_pos (by omega)]

/-- A body has neither an ampersand nor a semicolon. -/
theorem IsReference.plain {body : List Char} (h : IsReference body) : '&' ∉ body ∧ ';' ∉ body := by
  rcases h with ⟨digits, rfl, -, -, hall⟩ | ⟨x, digits, rfl, hx, -, -, hall⟩ | hmem
  · constructor
    · intro hc
      exact absurd (hall '&' (by simpa using hc)) (by decide)
    · intro hc
      exact absurd (hall ';' (by simpa using hc)) (by decide)
  · constructor
    · intro hc
      have hx' : '&' ≠ x := by rcases hx with rfl | rfl <;> decide
      exact absurd (hall '&' (by simpa [hx'] using hc)) (by decide)
    · intro hc
      have hx' : ';' ≠ x := by rcases hx with rfl | rfl <;> decide
      exact absurd (hall ';' (by simpa [hx'] using hc)) (by decide)
  · revert body
    decide

theorem lookup_hash (w : List Char) : referenceNames.lookup ('#' :: w) = none := by
  simp [referenceNames, List.lookup_cons]

/-- What is known is a reference. -/
theorem isReference_of_knownCharacter {body : List Char} {c : Char}
    (h : knownCharacter body = some c) : IsReference body := by
  unfold knownCharacter at h
  split at h
  · next d hlookup =>
    obtain ⟨before, after, hnames, -⟩ := List.lookup_eq_some_iff.mp hlookup
    have hmem : (body, d) ∈ referenceNames := by
      rw [hnames]
      exact List.mem_append_right _ List.mem_cons_self
    exact .inr (.inr (List.mem_map.mpr ⟨(body, d), hmem, rfl⟩))
  split at h
  · next d digits _ =>
    split at h
    · next hx =>
      split at h
      · next hdigits =>
        exact .inr (.inl ⟨d, digits, rfl, hx, hdigits.1, hdigits.2.1,
          List.all_eq_true.mp hdigits.2.2⟩)
      · cases h
    · split at h
      · next hdigits =>
        exact .inl ⟨d :: digits, rfl, Nat.succ_pos _, hdigits.1, List.all_eq_true.mp hdigits.2⟩
      · cases h
  · cases h

/-- A reference is replaced by its character, or left as it is written. -/
theorem decodeReference_eq {body : List Char} (h : IsReference body) :
    decodeReference ('&' :: (body ++ [';']))
      = ((knownCharacter body).map ([·])).getD ('&' :: (body ++ [';'])) := by
  have hdrop : (('&' :: (body ++ [';'])).drop 1).dropLast = body := by simp
  rcases h with ⟨digits, rfl, hle, hge, hall⟩ | ⟨x, digits, rfl, hx, hle, hge, hall⟩ | hmem
  · obtain ⟨d, digits, rfl⟩ := List.exists_cons_of_length_pos hle
    have hd := hall d List.mem_cons_self
    have hx : ¬(d = 'x' ∨ d = 'X') := by
      rintro (rfl | rfl)
      · exact absurd hd (by decide)
      · exact absurd hd (by decide)
    rw [not_or] at hx
    have hknown : knownCharacter ('#' :: d :: digits) = fromU32 (fromDigits 10 (d :: digits)) := by
      rw [knownCharacter, lookup_hash]
      simp only [hx.1, hx.2, or_false, if_false]
      rw [if_pos ⟨hge, List.all_eq_true.mpr hall⟩, numberedCharacter_eq]
    rw [decodeReference, hdrop, hknown]
    split
    · next heq => exact absurd (List.cons.inj (List.cons.inj heq).2).1 hx.1
    · next heq => exact absurd (List.cons.inj (List.cons.inj heq).2).1 hx.2
    · next heq =>
      cases heq
      rfl
    · next hne => exact absurd rfl (hne _)
  · have hknown : knownCharacter ('#' :: x :: digits) = fromU32 (fromDigits 16 digits) := by
      rw [knownCharacter, lookup_hash]
      simp only [hx, if_true]
      rw [if_pos ⟨hle, hge, List.all_eq_true.mpr hall⟩, numberedCharacter_eq]
    rw [decodeReference, hdrop, hknown]
    rcases hx with rfl | rfl <;> rfl
  · simp only [referenceNames, List.map_cons, List.map_nil, List.mem_cons, List.not_mem_nil,
      or_false] at hmem
    rcases hmem with rfl | rfl | rfl | rfl | rfl | rfl <;> decide

/-! ## One pass -/

/-- What the pattern of the references finds. -/
def referenceScanner : Scanner Char := reference.scanner reference_consumes

/-- A reference is found where it stands, up to its semicolon. -/
theorem referenceScanner_find {body rest : List Char} (h : IsReference body) :
    referenceScanner.find ('&' :: (body ++ ';' :: rest)) = some rest := by
  obtain ⟨rest', hfind⟩ : ∃ rest',
      referenceScanner.find ('&' :: (body ++ ';' :: rest)) = some rest' :=
    Option.ne_none_iff_exists'.mp
      (Pattern.find_ne_none.mpr ⟨rest, reads_reference_iff.mpr ⟨body, rfl, h⟩⟩)
  obtain ⟨body', heq, h'⟩ := reads_reference_iff.mp (mem_rests.mp (List.mem_of_head? hfind))
  -- both end at the first semicolon
  have hfirst : terminated (body ++ ';' :: rest) = some (body, rest) :=
    terminated_eq_some_iff.mpr ⟨rfl, h.plain.2⟩
  have hsecond : terminated (body ++ ';' :: rest) = some (body', rest') :=
    terminated_eq_some_iff.mpr ⟨(List.cons.inj heq).2, h'.plain.2⟩
  cases hfirst.symm.trans hsecond
  exact hfind

theorem referenceScanner_found {cs rest : List Char} (h : referenceScanner.find cs = some rest) :
    ∃ body, cs = '&' :: (body ++ ';' :: rest) ∧ IsReference body :=
  reads_reference_iff.mp (mem_rests.mp (List.mem_of_head? h))

/-- **Replacing what the pattern finds is the scan.** -/
theorem replaceAll_eq_scan (cs : List Char) :
    replaceAll referenceScanner decodeReference cs = scanReferences cs := by
  induction cs using referenceScanner.induction with
  | nil => rw [replaceAll_nil, scanReferences]
  | kept c cs h ih =>
    rw [replaceAll_kept h, ih]
    by_cases hc : c = '&'
    · subst hc
      cases hknown : knownReference cs with
      | none => rw [scanReferences_unknown hknown]
      | some found =>
        -- what is known would have been found
        obtain ⟨⟨body, after⟩, hterm, hchar⟩ := Option.bind_eq_some_iff.mp hknown
        obtain ⟨c, hc, -⟩ := Option.map_eq_some_iff.mp hchar
        obtain ⟨rfl, -⟩ := terminated_eq_some_iff.mp hterm
        cases h.symm.trans (referenceScanner_find (isReference_of_knownCharacter hc))
    · rw [scanReferences_cons hc]
  | found cs rest h ih =>
    obtain ⟨body, rfl, hbody⟩ := referenceScanner_found h
    have htaken : ('&' :: (body ++ ';' :: rest)).take
        (('&' :: (body ++ ';' :: rest)).length - rest.length) = '&' :: (body ++ [';']) := by
      have hsplit : '&' :: (body ++ ';' :: rest) = ('&' :: (body ++ [';'])) ++ rest := by simp
      rw [hsplit, List.length_append, Nat.add_sub_cancel, List.take_left]
    have hterm : terminated (body ++ ';' :: rest) = some (body, rest) :=
      terminated_eq_some_iff.mpr ⟨rfl, hbody.plain.2⟩
    rw [replaceAll_found h, htaken, decodeReference_eq hbody, ih]
    cases hknown : knownCharacter body with
    | some c =>
      have hreference : knownReference (body ++ ';' :: rest) = some (c, rest) := by
        rw [knownReference, hterm, Option.bind_some, hknown, Option.map_some]
      rw [scanReferences_known hreference]
      rfl
    | none =>
      have hreference : knownReference (body ++ ';' :: rest) = none := by
        rw [knownReference, hterm, Option.bind_some, hknown, Option.map_none]
      have hplain : '&' ∉ body ++ [';'] := by simp [hbody.plain.1]
      -- a reference that is not known is copied, and nothing in it begins another
      have hcopied : scanReferences (body ++ ';' :: rest) = body ++ [';'] ++ scanReferences rest := by
        rw [List.append_cons, scanReferences_append hplain]
      rw [scanReferences_unknown hreference, hcopied]
      rfl

/-! ## Escaped text -/

/-- One of the five characters of XML as a reference; any other is left. -/
def escapeXmlChar (c : Char) : List Char :=
  if c = '&' then "&amp;".toList
  else if c = '<' then "&lt;".toList
  else if c = '>' then "&gt;".toList
  else if c = '"' then "&quot;".toList
  else if c = '\'' then "&apos;".toList
  else [c]

def escapeXml (text : String) : String := String.ofList (text.toList.flatMap escapeXmlChar)

theorem scanReferences_escapeXmlChar (c : Char) (cs : List Char) :
    scanReferences (escapeXmlChar c ++ cs) = c :: scanReferences cs := by
  have hknown : ∀ (name : List Char) (d : Char), ';' ∉ name → knownCharacter name = some d →
      scanReferences ('&' :: (name ++ ';' :: cs)) = d :: scanReferences cs := by
    intro name d hname hd
    refine scanReferences_known ?_
    rw [knownReference, terminated_eq_some_iff.mpr ⟨rfl, hname⟩, Option.bind_some, hd,
      Option.map_some]
  unfold escapeXmlChar
  split
  · next h => exact h ▸ hknown "amp".toList '&' (by decide) (by decide)
  split
  · next h => exact h ▸ hknown "lt".toList '<' (by decide) (by decide)
  split
  · next h => exact h ▸ hknown "gt".toList '>' (by decide) (by decide)
  split
  · next h => exact h ▸ hknown "quot".toList '"' (by decide) (by decide)
  split
  · next h => exact h ▸ hknown "apos".toList '\'' (by decide) (by decide)
  · next h _ _ _ _ => exact scanReferences_cons h cs

theorem scanReferences_escapeXml (cs : List Char) :
    scanReferences (cs.flatMap escapeXmlChar) = cs := by
  induction cs with
  | nil => rw [List.flatMap_nil, scanReferences]
  | cons c cs ih => rw [List.flatMap_cons, scanReferences_escapeXmlChar, ih]

theorem decodeReferences_eq_scan (text : String) :
    decodeReferences text = String.ofList (scanReferences text.toList) :=
  congrArg String.ofList (replaceAll_eq_scan text.toList)

/-- **Decoding references** undoes escaping, leaves a text without ampersands, and is the scan that
replaces each known reference once and leaves everything else. -/
theorem decodeReferences_law :
    (∀ text, decodeReferences (escapeXml text) = text) ∧
    (∀ text : String, '&' ∉ text.toList → decodeReferences text = text) ∧
    ∀ text, decodeReferences text = String.ofList (scanReferences text.toList) := by
  refine ⟨?_, ?_, decodeReferences_eq_scan⟩
  · intro text
    rw [decodeReferences_eq_scan, escapeXml, String.toList_ofList, scanReferences_escapeXml,
      String.ofList_toList]
  · intro text h
    have hscan := scanReferences_append h []
    rw [List.append_nil, scanReferences, List.append_nil] at hscan
    rw [decodeReferences_eq_scan, hscan, String.ofList_toList]

end Thalovant.Home
