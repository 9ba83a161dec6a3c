import Mathlib.Logic.Function.Iterate
import Thalovant.Rich.Chunks

/-!
# What the chunks of a text are

Where every cut falls between two characters, cutting a text ends, and its chunks are short and have all
the text but its white space. Elsewhere it panics, and with a limit of zero it goes on for ever:
`chunks_iff`.
-/

namespace Thalovant.Rich

/-! ## White space -/

/-- The characters that are not white space. -/
def nonSpace (text : List Char) : List Char := text.filter fun c => !isWhitespace c

@[simp] theorem nonSpace_append (a b : List Char) : nonSpace (a ++ b) = nonSpace a ++ nonSpace b :=
  List.filter_append a b

@[simp] theorem nonSpace_trim (text : String) : nonSpace (trim text).toList = nonSpace text.toList := by
  rw [toList_trim]
  exact Trim.filter_both text.toList

theorem byteLength_trim_le (text : List Char) :
    (trim (String.ofList text)).utf8ByteSize ≤ byteLength text := by
  rw [utf8ByteSize_eq, toList_trim, String.toList_ofList]
  obtain ⟨before, after, heq⟩ := Trim.both_infix (p := isWhitespace) text
  have hlength := congrArg byteLength heq
  rw [byteLength_append, byteLength_append] at hlength
  omega

theorem length_trim_le (text : List Char) : (trim (String.ofList text)).length ≤ text.length := by
  rw [← String.length_toList, toList_trim, String.toList_ofList]
  exact (Trim.both_infix text).length_le

/-- A space before a text is trimmed away. -/
theorem trim_space (text : List Char) : trim (String.ofList (' ' :: text)) = trim (String.ofList text) := by
  rw [← String.toList_inj, toList_trim, toList_trim, String.toList_ofList, String.toList_ofList]
  rfl

/-- A trimmed text starts with no white space. -/
theorem startSettled_of_trim {text : String} (h : trim text = text) :
    Trim.StartSettled isWhitespace text.toList := by
  rw [← h, toList_trim]
  exact Trim.startSettled_both _

/-- What does not start with white space is not trimmed to nothing. -/
theorem trim_ne_empty {text : List Char} (hne : text ≠ []) (h : Trim.StartSettled isWhitespace text) :
    trim (String.ofList text) ≠ "" := by
  intro hempty
  have hnil : Trim.both isWhitespace text = [] := by
    rw [← String.toList_ofList (l := text), ← toList_trim, hempty]
    rfl
  obtain ⟨c, rest, rfl⟩ := List.exists_cons_of_ne_nil hne
  have hspace := Trim.both_eq_nil_iff.mp hnil c List.mem_cons_self
  rw [h c rfl] at hspace
  cases hspace

/-! ## Cutting between characters -/

/-- Every cut of a text falls between two characters: at the last space of so many bytes, or after them
if there is none. -/
inductive Cuttable (limit : Nat) : List Char → Prop
  | fits {text : List Char} (hfits : byteLength text ≤ limit) : Cuttable limit text
  | atSpace {before after tail : List Char}
    (hwindow : byteLength (before ++ ' ' :: after) = limit) (hlast : ' ' ∉ after)
    (hrest : Cuttable limit (trim (String.ofList (after ++ tail))).toList) :
    Cuttable limit (before ++ ' ' :: after ++ tail)
  | atLimit {window tail : List Char} (hpos : 0 < limit) (hwindow : byteLength window = limit)
    (hnone : ' ' ∉ window) (hrest : Cuttable limit (trim (String.ofList tail)).toList) :
    Cuttable limit (window ++ tail)

/-- A turn that finds a space. -/
theorem turn_atSpace {limit : Nat} {remaining : String} {before after tail : List Char}
    (out : List String) (hlong : limit < byteLength remaining.toList)
    (happend : remaining.toList = before ++ ' ' :: after ++ tail)
    (hwindow : byteLength (before ++ ' ' :: after) = limit) (hlast : ' ' ∉ after) :
    Cutting.turn limit (.going out remaining)
      = .going (out ++ [trim (String.ofList before)]) (trim (String.ofList (after ++ tail))) := by
  have hsplit : splitAtByte limit remaining.toList = some (before ++ ' ' :: after, tail) :=
    splitAtByte_eq_some_iff.mpr ⟨happend, hwindow⟩
  have hcut : splitAtByte (byteLength before) remaining.toList
      = some (before, ' ' :: (after ++ tail)) :=
    splitAtByte_eq_some_iff.mpr ⟨by rw [happend]; simp, rfl⟩
  rw [Cutting.turn, cut, if_pos (by rw [utf8ByteSize_eq]; exact hlong), hsplit]
  dsimp only
  rw [rfind_of_last hlast, Option.getD_some, hcut]
  dsimp only
  rw [trim_space]

/-- A turn that finds none. -/
theorem turn_atLimit {limit : Nat} {remaining : String} {window tail : List Char}
    (out : List String) (hlong : limit < byteLength remaining.toList)
    (happend : remaining.toList = window ++ tail) (hwindow : byteLength window = limit)
    (hnone : ' ' ∉ window) :
    Cutting.turn limit (.going out remaining)
      = .going (out ++ [trim (String.ofList window)]) (trim (String.ofList tail)) := by
  have hsplit : splitAtByte limit remaining.toList = some (window, tail) :=
    splitAtByte_eq_some_iff.mpr ⟨happend, hwindow⟩
  rw [Cutting.turn, cut, if_pos (by rw [utf8ByteSize_eq]; exact hlong), hsplit]
  dsimp only
  rw [rfind_of_not_mem hnone, Option.getD_none, hsplit]

/-- One turn: a slice that panics, or a cut. -/
theorem turn_cases {limit : Nat} {remaining : String} (out : List String)
    (hlong : limit < byteLength remaining.toList) :
    Cutting.turn limit (.going out remaining) = .panicked ∨
    (∃ before after tail, remaining.toList = before ++ ' ' :: after ++ tail ∧
      byteLength (before ++ ' ' :: after) = limit ∧ ' ' ∉ after) ∨
    ∃ window tail, remaining.toList = window ++ tail ∧ byteLength window = limit ∧ ' ' ∉ window := by
  cases hsplit : splitAtByte limit remaining.toList with
  | none =>
    left
    rw [Cutting.turn, cut, if_pos (by rw [utf8ByteSize_eq]; exact hlong), hsplit]
  | some slices =>
    obtain ⟨window, tail⟩ := slices
    obtain ⟨happend, hwindow⟩ := splitAtByte_eq_some_iff.mp hsplit
    right
    by_cases hspace : ' ' ∈ window
    · obtain ⟨before, after, rfl, hlast⟩ := exists_last hspace
      exact .inl ⟨before, after, tail, happend, hwindow, hlast⟩
    · exact .inr ⟨window, tail, happend, hwindow, hspace⟩

theorem turn_of_fits {limit : Nat} {remaining : String} (out : List String)
    (hfits : remaining.utf8ByteSize ≤ limit) :
    Cutting.turn limit (.going out remaining)
      = .done (if remaining ≠ "" then out ++ [remaining] else out) := by
  rw [Cutting.turn, cut, if_neg (Nat.not_lt.mpr hfits)]
  split <;> rfl

theorem turn_panicked (limit turns : Nat) :
    (Cutting.turn limit)^[turns] .panicked = .panicked :=
  Function.iterate_fixed rfl turns

/-- Nothing cut off what does not fit leaves it as it was, and still not fitting. -/
theorem not_cuttable_zero {text : List Char} (hne : text ≠ []) : ¬Cuttable 0 text := by
  intro h
  cases h with
  | fits hfits => exact hne (byteLength_eq_zero.mp (Nat.le_zero.mp hfits))
  | atSpace hwindow => simp [Nat.ne_of_gt (Char.utf8Size_pos ' ')] at hwindow
  | atLimit hpos => exact absurd hpos (Nat.lt_irrefl 0)

/-- Cutting that ends never cut inside a character, or nothing off. -/
theorem cuttable_of_done {limit turns : Nat} {out out' : List String} {remaining : String}
    (htrim : trim remaining = remaining)
    (h : (Cutting.turn limit)^[turns] (.going out remaining) = .done out') :
    Cuttable limit remaining.toList := by
  induction turns generalizing out remaining with
  | zero => cases h
  | succ turns ih =>
    rw [Function.iterate_succ_apply] at h
    by_cases hlong : limit < byteLength remaining.toList
    · rcases turn_cases out hlong with hpanic | ⟨before, after, tail, happend, hwindow, hlast⟩
        | ⟨window, tail, happend, hwindow, hnone⟩
      · rw [hpanic, turn_panicked] at h
        cases h
      · rw [turn_atSpace out hlong happend hwindow hlast] at h
        rw [happend]
        exact .atSpace hwindow hlast (ih (trim_trim _) h)
      · rw [turn_atLimit out hlong happend hwindow hnone] at h
        have hrest := ih (trim_trim _) h
        rcases Nat.eq_zero_or_pos limit with rfl | hpos
        · obtain rfl := byteLength_eq_zero.mp hwindow
          rw [List.nil_append] at happend
          rw [← happend, String.ofList_toList, htrim] at hrest
          exact absurd hrest (not_cuttable_zero fun hnil => by
            rw [hnil] at hlong
            exact absurd hlong (Nat.lt_irrefl 0))
        · rw [happend]
          exact .atLimit hpos hwindow hnone hrest
    · exact .fits (by omega)

/-! ## What the chunks have -/

/-- The chunks so far and what remains make up the text. -/
structure Cut (limit : Nat) (text : List Char) (out : List String) (remaining : String) : Prop where
  trimmed : trim remaining = remaining
  short : ∀ chunk ∈ out, chunk.length ≤ limit
  nonempty : "" ∉ out
  kept : out.flatMap (fun chunk => nonSpace chunk.toList) ++ nonSpace remaining.toList = nonSpace text

/-- A cut adds a chunk. -/
theorem Cut.push {limit : Nat} {text : List Char} {out : List String} {remaining : String}
    {chunk rest : List Char} (h : Cut limit text out remaining) (hne : chunk ≠ [])
    (hchunk : byteLength chunk ≤ limit) (hpre : chunk <+: remaining.toList)
    (hrest : nonSpace remaining.toList = nonSpace chunk ++ nonSpace rest) :
    Cut limit text (out ++ [trim (String.ofList chunk)]) (trim (String.ofList rest)) where
  trimmed := trim_trim _
  short := by
    intro other hother
    rcases List.mem_append.mp hother with hother | hother
    · exact h.short other hother
    · rw [List.mem_singleton.mp hother]
      exact ((length_trim_le chunk).trans (length_le_byteLength chunk)).trans hchunk
  nonempty := by
    intro hempty
    rcases List.mem_append.mp hempty with hempty | hempty
    · exact h.nonempty hempty
    · refine trim_ne_empty hne ?_ (List.mem_singleton.mp hempty).symm
      intro c hc
      obtain ⟨tail, htail⟩ := hpre
      refine startSettled_of_trim h.trimmed c ?_
      rw [← htail, List.head?_append, Option.mem_def.mp hc]
      rfl
  kept := by
    rw [← h.kept, hrest, List.flatMap_append, List.flatMap_singleton, nonSpace_trim, nonSpace_trim,
      String.toList_ofList, String.toList_ofList, List.append_assoc]

/-- The chunks of a text are short, none is empty unless the text is, and they have the text but for its
white space. -/
structure Chunked (text : String) (maxChars : Option Nat) (out : List String) : Prop where
  short : ∀ limit ∈ maxChars, ∀ chunk ∈ out, chunk.length ≤ limit
  nonempty : text ≠ "" → "" ∉ out
  kept : out.flatMap (fun chunk => nonSpace chunk.toList) = nonSpace text.toList

/-- From here on the cutting ends well. -/
def EndsWell (text : String) (limit : Nat) (cutting : Cutting) : Prop :=
  ∃ turns out, (Cutting.turn limit)^[turns] cutting = .done out ∧ Chunked text (some limit) out

theorem EndsWell.of_turn {text : String} {limit : Nat} {cutting next : Cutting}
    (hturn : Cutting.turn limit cutting = next) (h : EndsWell text limit next) :
    EndsWell text limit cutting := by
  obtain ⟨turns, out, hdone, hchunked⟩ := h
  exact ⟨turns + 1, out, by rw [Function.iterate_succ_apply, hturn, hdone], hchunked⟩

/-- What fits is the last chunk, unless it is nothing. -/
theorem Cut.endsWell_of_fits {limit : Nat} {text : String} {out : List String} {remaining : String}
    (h : Cut limit text.toList out remaining) (hfits : byteLength remaining.toList ≤ limit) :
    EndsWell text limit (.going out remaining) := by
  have hsize : remaining.utf8ByteSize ≤ limit := by rw [utf8ByteSize_eq]; exact hfits
  refine ⟨1, _, turn_of_fits out hsize, ?_⟩
  split
  · next hne =>
    refine ⟨fun _ hlimit chunk hchunk => ?_, fun _ hempty => ?_, ?_⟩
    · cases hlimit
      rcases List.mem_append.mp hchunk with hchunk | hchunk
      · exact h.short chunk hchunk
      · rw [List.mem_singleton.mp hchunk, ← String.length_toList]
        exact (length_le_byteLength _).trans hfits
    · rcases List.mem_append.mp hempty with hempty | hempty
      · exact h.nonempty hempty
      · exact hne (List.mem_singleton.mp hempty).symm
    · rw [List.flatMap_append, List.flatMap_singleton, h.kept]
  · next hempty =>
    have hkept := h.kept
    rw [not_not.mp hempty] at hkept
    refine ⟨fun _ hlimit => ?_, fun _ => h.nonempty, by simpa [nonSpace] using hkept⟩
    cases hlimit
    exact h.short

/-- A text that can be cut is cut, in the end, into its chunks. -/
theorem Cut.endsWell {limit : Nat} {text : String} {left : List Char} (hcuttable : Cuttable limit left)
    {out : List String} {remaining : String} (hleft : remaining.toList = left)
    (h : Cut limit text.toList out remaining) : EndsWell text limit (.going out remaining) := by
  induction hcuttable generalizing out remaining with
  | fits hfits => exact h.endsWell_of_fits (by rw [hleft]; exact hfits)
  | @atSpace before after tail hwindow hlast hrest ih =>
    by_cases hfits : byteLength remaining.toList ≤ limit
    · exact h.endsWell_of_fits hfits
    have hne : before ≠ [] := by
      rintro rfl
      have hstart := startSettled_of_trim h.trimmed ' '
      rw [hleft] at hstart
      exact absurd (hstart rfl) (by decide)
    refine .of_turn (turn_atSpace out (by omega) hleft hwindow hlast) (ih rfl (h.push hne ?_ ?_ ?_))
    · rw [byteLength_append] at hwindow
      omega
    · exact ⟨' ' :: after ++ tail, by rw [hleft]; simp⟩
    · rw [hleft]
      simp [nonSpace, show isWhitespace ' ' = true by decide]
  | @atLimit window tail hpos hwindow hnone hrest ih =>
    by_cases hfits : byteLength remaining.toList ≤ limit
    · exact h.endsWell_of_fits hfits
    have hne : window ≠ [] := by
      rintro rfl
      rw [byteLength_nil] at hwindow
      omega
    refine .of_turn (turn_atLimit out (by omega) hleft hwindow hnone) (ih rfl (h.push hne ?_ ?_ ?_))
    · omega
    · exact ⟨tail, hleft.symm⟩
    · rw [hleft, nonSpace_append]

/-! ## The law -/

/-- **A text is split into its chunks, and the splitting ends, exactly if every cut falls between two
characters.** -/
theorem chunks_iff (text : String) (maxChars : Option Nat) :
    (∃ turns out, chunks text maxChars turns = .done out ∧ Chunked text maxChars out) ↔
      ∀ limit ∈ maxChars, Cuttable limit (trim text).toList := by
  cases maxChars with
  | none =>
    refine ⟨fun _ => nofun, fun _ => ⟨0, [text], rfl, nofun, fun hne hempty => ?_, ?_⟩⟩
    · exact hne (List.mem_singleton.mp hempty).symm
    · rw [List.flatMap_singleton]
  | some limit =>
    have hwhole : text.utf8ByteSize ≤ limit → Chunked text (some limit) [text] := by
      intro hfits
      refine ⟨fun _ hlimit chunk hchunk => ?_, fun hne hempty => ?_, ?_⟩
      · cases hlimit
        rw [List.mem_singleton.mp hchunk, ← String.length_toList]
        rw [utf8ByteSize_eq] at hfits
        exact (length_le_byteLength _).trans hfits
      · exact hne (List.mem_singleton.mp hempty).symm
      · rw [List.flatMap_singleton]
    simp only [Option.mem_def, Option.some.injEq, forall_eq']
    unfold chunks Cutting.start
    by_cases hfits : text.utf8ByteSize ≤ limit
    · simp only [if_pos hfits]
      refine ⟨fun _ => .fits ?_, fun _ => ⟨0, [text], rfl, hwhole hfits⟩⟩
      -- a text that fits whole may have white space around what does not need a cut
      have htrim := byteLength_trim_le text.toList
      rw [String.ofList_toList, utf8ByteSize_eq] at htrim
      rw [utf8ByteSize_eq] at hfits
      omega
    · simp only [if_neg hfits]
      constructor
      · rintro ⟨turns, out, hdone, -⟩
        exact cuttable_of_done (trim_trim text) hdone
      · intro hcuttable
        refine Cut.endsWell hcuttable rfl ⟨trim_trim text, nofun, List.not_mem_nil, ?_⟩
        rw [List.flatMap_nil, List.nil_append, nonSpace_trim]

/-- A limit of two bytes falls inside the second of two characters, and one of zero cuts nothing off. -/
theorem chunks_fails :
    chunks "aé" (some 2) 1 = .panicked ∧
    (∀ turns out, chunks "aé" (some 2) turns ≠ .done out) ∧
    ∀ turns out, chunks "a" (some 0) turns ≠ .done out := by
  have hpanic : chunks "aé" (some 2) 1 = .panicked := by decide
  refine ⟨hpanic, fun turns out => ?_, fun turns out => ?_⟩
  · cases turns with
    | zero =>
      have hstart : chunks "aé" (some 2) 0 = .going [] "aé" := by decide
      rw [hstart]
      intro h
      cases h
    | succ turns =>
      have hturns : chunks "aé" (some 2) (turns + 1)
          = (Cutting.turn 2)^[turns] (chunks "aé" (some 2) 1) := Function.iterate_succ_apply _ _ _
      rw [hturns, hpanic, turn_panicked]
      intro h
      cases h
  · have hgoing : ∃ out, chunks "a" (some 0) turns = .going out "a" := by
      induction turns with
      | zero => exact ⟨[], by decide⟩
      | succ turns ih =>
        obtain ⟨out, hout⟩ := ih
        have hturn : chunks "a" (some 0) (turns + 1)
            = Cutting.turn 0 (chunks "a" (some 0) turns) := Function.iterate_succ_apply' _ _ _
        rw [hturn, hout]
        exact ⟨out ++ [""], rfl⟩
    obtain ⟨out', hout'⟩ := hgoing
    rw [hout']
    intro h
    cases h

end Thalovant.Rich
