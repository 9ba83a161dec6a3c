import Thalovant.Lib.Rewriting
import Thalovant.Lib.SortedMap
import Thalovant.Text

/-!
# A sentence from the pattern of an intent

`speakable` of `src/request_helpers.rs`: what is optional is left out and one alternative of each
group is chosen, the innermost first and as long as there is one; then the slots are filled, and the
spaces put right. The two loops turn a number of times that is given.

* `rewrite_eq`: both loops end, whatever the brackets of the pattern are
* `speakable_law`: no group is left in the sentence, and what is said outside the slots is in the
  pattern
-/

namespace Thalovant

open Regex

/-! ## The patterns -/

/-- `\[[^\[\]]*\]` -/
def OPTIONAL : Scanner Char := bracketScanner '[' ']'

/-- `\(([^()]*)\)` -/
def GROUP : Scanner Char := bracketScanner '(' ')'

/-- `[a-z_]` -/
def isSlotStart (c : Char) : Bool := ('a' ≤ c && c ≤ 'z') || c = '_'

/-- `[a-z0-9_]` -/
def isSlotRest (c : Char) : Bool := isSlotStart c || ('0' ≤ c && c ≤ '9')

/-- `[a-z_][a-z0-9_]*` between braces. -/
def slotPattern : Pattern Char :=
  .seq (.one (· = '\x7b')) (.seq (.one isSlotStart)
    (.seq (.many (.one isSlotRest)) (.one (· = '\x7d'))))

theorem slotPattern_consumes : slotPattern.consumes = true := rfl

def SLOT : Scanner Char := slotPattern.scanner slotPattern_consumes

/-- `\s{2,}` -/
def spacesPattern : Pattern Char := .seq (.one isWhitespace) (.many1 (.one isWhitespace))

theorem spacesPattern_consumes : spacesPattern.consumes = true := rfl

def SPACES : Scanner Char := spacesPattern.scanner spacesPattern_consumes

/-! ## The rewriting -/

/-- `m[1]`: the match without its first and last character. -/
def captured (whole : List Char) : List Char := (whole.drop 1).dropLast

/-- What stands for a group: its first alternative that says something, and nothing where the group
itself may be left out. -/
def chooseOption (whole : List Char) : List Char :=
  let options := ((captured whole).splitOn '|').map (Trim.both isWhitespace)
  let real := options.filter fun option => !option.isEmpty
  if real.length < options.length ∧ real.length ≤ 1 then [] else real.headD []

/-- The text before the slots are filled, if the loops end after so many turns. -/
def rewrite (turns : Nat) (pattern : List Char) : Option (List Char) :=
  (replaceWhile OPTIONAL (fun _ => []) turns pattern).bind (replaceWhile GROUP chooseOption turns)

/-- What stands for a slot: its value, and without one its name. -/
def fillSlot (slots : List (String × String)) (whole : List Char) : List Char :=
  match SortedMap.get (String.ofList (captured whole)) slots with
  | some value => value.toList
  | none => (captured whole).map fun c => if c = '_' then ' ' else c

/-- The slots filled and the spaces put right. -/
def finish (slots : List (String × String)) (text : List Char) : List Char :=
  Trim.both (fun c => c = ' ' || c = ',')
    (replaceAll SPACES (fun _ => [' ']) (replaceAll SLOT (fillSlot slots) text))

def speakable (turns : Nat) (pattern : String) (slots : List (String × String)) : Option String :=
  (rewrite turns pattern.toList).map fun text => String.ofList (finish slots text)

example :
    speakable 40 "did i (already |)ask (about|for|to|) \x7bthing\x7d" [] =
      some "did i ask about thing" := by decide +kernel

/-! ## The loops -/

theorem captured_cons_append (o c : Char) (w : List Char) : captured (o :: (w ++ [c])) = w := by
  rw [captured, List.drop_one, List.tail_cons, List.dropLast_concat]

theorem chooseOption_sublist (whole : List Char) :
    (chooseOption whole).Sublist (captured whole) := by
  unfold chooseOption
  dsimp only
  split
  · exact List.nil_sublist _
  · cases hreal : (((captured whole).splitOn '|').map (Trim.both isWhitespace)).filter
        fun option => !option.isEmpty with
    | nil => exact List.nil_sublist _
    | cons option real =>
      have hmem := List.mem_of_mem_filter (hreal ▸ List.mem_cons_self)
      obtain ⟨word, hword, rfl⟩ := List.mem_map.mp hmem
      rw [List.splitOn_eq_splitOnP] at hword
      exact (Trim.both_sublist word).trans (Trim.sublist_of_mem_splitOnP hword)

theorem shrinks_optional : Shrinks OPTIONAL fun _ => [] := by
  intro part rest hfind
  obtain ⟨w, rfl, -⟩ := bracketScanner_find hfind
  exact ⟨List.nil_sublist _, (List.cons_ne_nil _ _).symm⟩

theorem shrinks_group : Shrinks GROUP chooseOption := by
  intro part rest hfind
  obtain ⟨w, rfl, -⟩ := bracketScanner_find hfind
  have hsub := chooseOption_sublist ('(' :: (w ++ [')']))
  rw [captured_cons_append] at hsub
  refine ⟨(hsub.trans (List.sublist_append_left w _)).cons _, ?_⟩
  intro heq
  have hlength := hsub.length_le
  rw [heq, List.length_cons, List.length_append] at hlength
  omega

/-- **The loops end.** After as many turns as the pattern is long at most, with some of its characters
left and no group among them. -/
theorem rewrite_eq (pattern : List Char) :
    ∃ text, (∀ turns, pattern.length ≤ turns → rewrite turns pattern = some text) ∧
      text.Sublist pattern ∧ ¬['[', ']'].Sublist text ∧ ¬['(', ')'].Sublist text := by
  obtain ⟨inner, hinner, hsub, hoptional⟩ := exists_replaceWhile shrinks_optional pattern
  obtain ⟨text, htext, hsub', hgroup⟩ := exists_replaceWhile shrinks_group inner
  refine ⟨text, ?_, hsub'.trans hsub, ?_, ?_⟩
  · intro turns hturns
    rw [rewrite, hinner turns hturns, Option.bind_some]
    exact htext turns (hsub.length_le.trans hturns)
  · intro hleft
    exact hoptional ((contains_bracketed_iff (by decide)).mpr (hleft.trans hsub'))
  · exact fun hleft => hgroup ((contains_bracketed_iff (by decide)).mpr hleft)

/-! ## What filling the slots leaves -/

/-- A bracket of a group. -/
def isBracket (c : Char) : Bool := c ∈ ['[', ']', '(', ')']

theorem slotPattern_find {part rest : List Char} (h : SLOT.find (part ++ rest) = some rest) :
    ∃ c w, part = '\x7b' :: (c :: w ++ ['\x7d']) ∧ isSlotStart c = true ∧
      ∀ d ∈ w, isSlotRest d = true := by
  have hreads := mem_rests.mp (List.mem_of_head? h)
  simp only [slotPattern, reads_one_seq_iff, reads_seq_one_iff, reads_many_iff,
    decide_eq_true_eq] at hreads
  obtain ⟨_, _, hpart, rfl, c, _, rfl, hc, _, rfl, w, rfl, hw⟩ := hreads
  refine ⟨c, w, (List.append_left_inj rest).mp ?_, hc, hw⟩
  simpa using hpart

theorem isBracket_eq_false {p : Char → Bool} (hp : ['[', ']', '(', ')'].all (fun b => !p b) = true)
    {c : Char} (h : p c = true) : isBracket c = false := by
  refine decide_eq_false fun hmem => ?_
  have hc := List.all_eq_true.mp hp c hmem
  rw [h] at hc
  exact Bool.false_ne_true hc

theorem isBracket_of_isSlotRest {c : Char} (h : isSlotRest c = true) : isBracket c = false :=
  isBracket_eq_false (by decide) h

theorem isBracket_of_isWhitespace {c : Char} (h : isWhitespace c = true) : isBracket c = false :=
  isBracket_eq_false (by decide) h

theorem isSlotRest_of_isSlotStart {c : Char} (h : isSlotStart c = true) : isSlotRest c = true := by
  rw [isSlotRest, h, Bool.true_or]

/-- A slot has no brackets in it, and gets none. -/
theorem filter_fillSlot {slots : List (String × String)}
    (hslots : ∀ slot ∈ slots, ∀ c ∈ slot.2.toList, isBracket c = false) {part rest : List Char}
    (h : SLOT.find (part ++ rest) = some rest) :
    (fillSlot slots part).filter isBracket = part.filter isBracket := by
  obtain ⟨c, w, rfl, hc, hw⟩ := slotPattern_find h
  have hname : ∀ d ∈ c :: w, isBracket d = false := by
    intro d hd
    rcases List.mem_cons.mp hd with rfl | hd
    · exact isBracket_of_isSlotRest (isSlotRest_of_isSlotStart hc)
    · exact isBracket_of_isSlotRest (hw d hd)
  have hpart : ('\x7b' :: (c :: w ++ ['\x7d'])).filter isBracket = [] := by
    rw [List.filter_eq_nil_iff]
    intro d hd
    rw [List.mem_cons, List.mem_append, List.mem_singleton] at hd
    rcases hd with rfl | hd | rfl
    · decide
    · simpa using hname d hd
    · decide
  rw [hpart, List.filter_eq_nil_iff]
  unfold fillSlot
  rw [captured_cons_append]
  split
  · next value hget =>
    intro d hd
    simpa using hslots _ (SortedMap.mem_of_get_eq_some hget) d hd
  · intro d hd
    obtain ⟨e, he, rfl⟩ := List.mem_map.mp hd
    split
    · decide
    · simpa using hname e he

/-- Spaces have no brackets in them, and one space has none. -/
theorem filter_spaces {part rest : List Char} (h : SPACES.find (part ++ rest) = some rest) :
    [' '].filter isBracket = part.filter isBracket := by
  have hreads := mem_rests.mp (List.mem_of_head? h)
  simp only [spacesPattern, Pattern.many1, reads_one_seq_iff, reads_many_iff] at hreads
  obtain ⟨c, _, hpart, hc, d, _, rfl, hd, w, rfl, hw⟩ := hreads
  have heq : part = c :: d :: w :=
    (List.append_left_inj rest).mp (by simpa using hpart)
  subst heq
  have hnone : ∀ e ∈ c :: d :: w, isBracket e = false := by
    simp only [List.forall_mem_cons]
    exact ⟨isBracket_of_isWhitespace hc, isBracket_of_isWhitespace hd,
      fun e he => isBracket_of_isWhitespace (hw e he)⟩
  have hfilter : (c :: d :: w).filter isBracket = [] :=
    List.filter_eq_nil_iff.mpr fun e he => by simpa using hnone e he
  rw [hfilter]
  rfl

/-- The brackets at the end are some of those before the slots are filled. -/
theorem filter_finish {slots : List (String × String)}
    (hslots : ∀ slot ∈ slots, ∀ c ∈ slot.2.toList, isBracket c = false) (text : List Char) :
    ((finish slots text).filter isBracket).Sublist (text.filter isBracket) := by
  rw [finish, ← filter_replaceAll (fun _ _ => filter_fillSlot hslots) text,
    ← filter_replaceAll (fun _ _ => filter_spaces) (replaceAll SLOT (fillSlot slots) text)]
  exact (Trim.both_sublist _).filter isBracket

/-- Two brackets that come one after the other at the end do so before. -/
theorem pair_of_finish {slots : List (String × String)}
    (hslots : ∀ slot ∈ slots, ∀ c ∈ slot.2.toList, isBracket c = false) {text : List Char}
    {o c : Char} (ho : isBracket o = true) (hc : isBracket c = true)
    (h : [o, c].Sublist (finish slots text)) : [o, c].Sublist text := by
  have hpair : [o, c].filter isBracket = [o, c] := by simp [ho, hc]
  have hfilter := (h.filter isBracket).trans (filter_finish hslots text)
  rw [hpair] at hfilter
  exact hfilter.trans List.filter_sublist

/-- **A sentence.** Whatever brackets the pattern has, the loops end after as many turns as it is long
at most; where the values of the slots have no brackets, no optional part and no alternatives are left
in the sentence; and what is not white space before the slots are filled is in the pattern, in that
order. -/
theorem speakable_law (pattern : String) (slots : List (String × String))
    (hslots : ∀ slot ∈ slots, ∀ c ∈ slot.2.toList, isBracket c = false) :
    ∃ rewritten sentence,
      (∀ turns, pattern.length ≤ turns →
        rewrite turns pattern.toList = some rewritten ∧
          speakable turns pattern slots = some sentence) ∧
      ¬['[', ']'].Sublist sentence.toList ∧ ¬['(', ')'].Sublist sentence.toList ∧
      (rewritten.filter fun c => !isWhitespace c).Sublist
        (pattern.toList.filter fun c => !isWhitespace c) := by
  obtain ⟨rewritten, hrewrite, hsub, hoptional, hgroup⟩ := rewrite_eq pattern.toList
  refine ⟨rewritten, String.ofList (finish slots rewritten), ?_, ?_, ?_, hsub.filter _⟩
  · intro turns hturns
    have hrun := hrewrite turns (String.length_toList ▸ hturns)
    exact ⟨hrun, by rw [speakable, hrun, Option.map_some]⟩
  · rw [String.toList_ofList]
    exact fun h => hoptional (pair_of_finish hslots (by decide) (by decide) h)
  · rw [String.toList_ofList]
    exact fun h => hgroup (pair_of_finish hslots (by decide) (by decide) h)

/-- Groups in groups, a bracket that is never closed, and a slot with a value. -/
theorem speakable_law_lamp :
    ∃ sentence,
      speakable 36 "(turn [right|off] (on|) \x7blight\x7d )[" [("light", "lamp")] = some sentence ∧
        ¬['[', ']'].Sublist sentence.toList ∧ ¬['(', ')'].Sublist sentence.toList := by
  have hlamp : ("lamp".toList.all fun c => !isBracket c) = true := by decide
  have hslots : ∀ slot ∈ [("light", "lamp")], ∀ c ∈ slot.2.toList, isBracket c = false :=
    List.forall_mem_singleton.mpr fun c hc => by simpa using List.all_eq_true.mp hlamp c hc
  obtain ⟨_, sentence, hrun, hoptional, hgroup, -⟩ :=
    speakable_law "(turn [right|off] (on|) \x7blight\x7d )[" [("light", "lamp")] hslots
  exact ⟨sentence, (hrun 36 (by decide)).2, hoptional, hgroup⟩

end Thalovant
