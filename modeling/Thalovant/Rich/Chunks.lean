import Thalovant.Text

/-!
# Display text in chunks

A text for display is cut into chunks of a length that the caller may limit, at the last space that a
chunk has room for. The limit counts bytes: where it falls inside a character, the slice panics.
-/

namespace Thalovant.Rich

/-! ## Slices -/

/-- The number of bytes of characters. -/
def byteLength (text : List Char) : Nat := text.foldr (fun c length => c.utf8Size + length) 0

/-- `text[..n]` and `text[n..]`; none if no character starts or ends there. -/
def splitAtByte (n : Nat) : List Char → Option (List Char × List Char)
  | [] => if n = 0 then some ([], []) else none
  | c :: text =>
    if n = 0 then some ([], c :: text)
    else if c.utf8Size ≤ n then
      (splitAtByte (n - c.utf8Size) text).map fun (before, after) => (c :: before, after)
    else none

/-- `str::rfind`, of a character: the byte it last starts at. -/
def rfind (c : Char) : List Char → Option Nat
  | [] => none
  | d :: text =>
    match rfind c text with
    | some index => some (d.utf8Size + index)
    | none => if d = c then some 0 else none

/-! ## The loop -/

/-- How far the cutting is: it goes on, it is done, or it has panicked. -/
inductive Cutting where
  | going (out : List String) (remaining : String)
  | done (out : List String)
  | panicked
  deriving DecidableEq

/-- The body of the loop, and what comes after it. -/
def cut (maxChars : Nat) (out : List String) (remaining : String) : Cutting :=
  if remaining.utf8ByteSize > maxChars then
    match splitAtByte maxChars remaining.toList with
    | none => .panicked
    | some (window, _) =>
      match splitAtByte ((rfind ' ' window).getD maxChars) remaining.toList with
      | none => .panicked
      | some (chunk, rest) => .going (out ++ [trim (String.ofList chunk)]) (trim (String.ofList rest))
  else if remaining ≠ "" then .done (out ++ [remaining])
  else .done out

/-- One turn of the loop. -/
def Cutting.turn (maxChars : Nat) : Cutting → Cutting
  | .going out remaining => cut maxChars out remaining
  | cutting => cutting

/-- What the loop starts from. -/
def Cutting.start (text : String) : Option Nat → Cutting
  | none => .done [text]
  | some maxChars =>
    if text.utf8ByteSize ≤ maxChars then .done [text] else .going [] (trim text)

/-- The cutting after so many turns. -/
def chunks (text : String) (maxChars : Option Nat) (turns : Nat) : Cutting :=
  match maxChars with
  | none => .start text none
  | some limit => (Cutting.turn limit)^[turns] (.start text (some limit))

/-! ## What slices are -/

@[simp] theorem byteLength_nil : byteLength [] = 0 := rfl

@[simp] theorem byteLength_cons (c : Char) (text : List Char) :
    byteLength (c :: text) = c.utf8Size + byteLength text := rfl

@[simp] theorem byteLength_append (a b : List Char) :
    byteLength (a ++ b) = byteLength a + byteLength b := by
  induction a with
  | nil => simp
  | cons c a ih => rw [List.cons_append, byteLength_cons, ih, byteLength_cons, Nat.add_assoc]

theorem byteLength_eq_zero {text : List Char} : byteLength text = 0 ↔ text = [] := by
  cases text with
  | nil => simp
  | cons c text =>
    have := c.utf8Size_pos
    simp [Nat.ne_of_gt this]

/-- Characters take a byte at least. -/
theorem length_le_byteLength (text : List Char) : text.length ≤ byteLength text := by
  induction text with
  | nil => exact Nat.le_refl 0
  | cons c text ih =>
    have := c.utf8Size_pos
    rw [List.length_cons, byteLength_cons]
    omega

theorem utf8ByteSize_ofList (text : List Char) : (String.ofList text).utf8ByteSize = byteLength text := by
  induction text with
  | nil => rfl
  | cons c text ih =>
    have hsplit : String.ofList (c :: text) = String.singleton c ++ String.ofList text := by
      rw [String.singleton_eq_ofList, ← String.ofList_append]
      rfl
    rw [hsplit, String.utf8ByteSize_append, ih, String.utf8ByteSize_singleton, byteLength_cons]

theorem utf8ByteSize_eq (text : String) : text.utf8ByteSize = byteLength text.toList := by
  rw [← utf8ByteSize_ofList, String.ofList_toList]

/-- A slice ends where a character does. -/
theorem splitAtByte_eq_some_iff {n : Nat} {text before after : List Char} :
    splitAtByte n text = some (before, after) ↔ text = before ++ after ∧ byteLength before = n := by
  induction text generalizing n before with
  | nil =>
    rw [splitAtByte]
    constructor
    · intro h
      split at h
      · next hn =>
        cases h
        exact ⟨rfl, hn.symm⟩
      · cases h
    · rintro ⟨happend, rfl⟩
      obtain ⟨rfl, rfl⟩ := List.append_eq_nil_iff.mp happend.symm
      rfl
  | cons c text ih =>
    have hpos := c.utf8Size_pos
    rw [splitAtByte]
    split
    · next hn =>
      subst hn
      constructor
      · intro h
        cases h
        exact ⟨rfl, rfl⟩
      · rintro ⟨happend, hlength⟩
        rw [byteLength_eq_zero.mp hlength] at happend ⊢
        rw [happend]
        rfl
    · next hn =>
      constructor
      · intro h
        split at h
        · next hle =>
          obtain ⟨⟨before', after'⟩, hsplit, heq⟩ := Option.map_eq_some_iff.mp h
          cases heq
          obtain ⟨rfl, hlength⟩ := ih.mp hsplit
          exact ⟨rfl, by rw [byteLength_cons]; omega⟩
        · cases h
      · rintro ⟨happend, hlength⟩
        cases before with
        | nil => exact absurd hlength.symm hn
        | cons d before =>
          cases happend
          rw [byteLength_cons] at hlength
          rw [if_pos (by omega), ih.mpr ⟨rfl, by omega⟩]
          rfl

theorem rfind_of_not_mem {c : Char} {text : List Char} (h : c ∉ text) : rfind c text = none := by
  induction text with
  | nil => rfl
  | cons d text ih =>
    obtain ⟨hd, htext⟩ := not_or.mp (mt List.mem_cons.mpr h)
    rw [rfind, ih htext]
    exact if_neg (Ne.symm hd)

theorem rfind_of_last {c : Char} {before after : List Char} (h : c ∉ after) :
    rfind c (before ++ c :: after) = some (byteLength before) := by
  induction before with
  | nil =>
    rw [List.nil_append, rfind, rfind_of_not_mem h]
    exact if_pos rfl
  | cons d before ih =>
    rw [List.cons_append, rfind, ih]
    rfl

/-- A character that is there is there a last time. -/
theorem exists_last {c : Char} {text : List Char} (h : c ∈ text) :
    ∃ before after, text = before ++ c :: after ∧ c ∉ after := by
  induction text with
  | nil => cases h
  | cons d text ih =>
    by_cases hmem : c ∈ text
    · obtain ⟨before, after, rfl, hlast⟩ := ih hmem
      exact ⟨d :: before, after, rfl, hlast⟩
    · rcases List.mem_cons.mp h with rfl | h
      · exact ⟨[], text, rfl, hmem⟩
      · exact absurd h hmem

end Thalovant.Rich
