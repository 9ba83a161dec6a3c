import Thalovant.Lib.Scan
import Thalovant.Text

/-!
# Taking markup out of a text

Tags, comments and processing instructions are taken out in one scan. What is left can read as a
construct again, where a `<` that begins none stands before one that is taken out: `stripSsml_clean_iff`.
-/

namespace Thalovant.Rich

open Regex

/-! ## The pattern -/

/-- `MARKUP_SPACE`. -/
def markupSpace (c : Char) : Bool :=
  c = '\t' || c = '\n' || c.toNat = 0x0B || c.toNat = 0x0C || c = '\r' || c = ' '
    || (0x1C ≤ c.toNat && c.toNat ≤ 0x1F) || c.toNat = 0x85 || c.toNat = 0xA0 || c.toNat = 0x1680
    || (0x2000 ≤ c.toNat && c.toNat ≤ 0x200A) || c.toNat = 0x2028 || c.toNat = 0x2029
    || c.toNat = 0x202F || c.toNat = 0x205F || c.toNat = 0x3000

/-- `[A-Za-z]` -/
def asciiLetter (c : Char) : Bool := ('A' ≤ c && c ≤ 'Z') || ('a' ≤ c && c ≤ 'z')

/-- `[A-Za-z0-9._:-]` -/
def nameChar (c : Char) : Bool :=
  asciiLetter c || ('0' ≤ c && c ≤ '9') || c = '.' || c = '_' || c = ':' || c = '-'

/-- `.`, of `(?s)` -/
def anyChar : Pattern Char := .one fun _ => true

/-- `q[^q]*q` -/
def quoted (q : Char) : Pattern Char :=
  .seq (.one (· = q)) (.seq (Pattern.many (.one (· ≠ q))) (.one (· = q)))

/-- `<!--.*?-->` -/
def comment : Pattern Char :=
  .seq (.literal "<!--".toList) (.seq (.star false anyChar) (.literal "-->".toList))

/-- `<\?.*?\?>` -/
def processingInstruction : Pattern Char :=
  .seq (.literal "<?".toList) (.seq (.star false anyChar) (.literal "?>".toList))

/-- `S+(?:[^<>"']|"[^"]*"|'[^']*')*`, with `S` for `MARKUP_SPACE` -/
def attributes : Pattern Char :=
  .seq (Pattern.many1 (.one markupSpace)) (Pattern.many (.alt
    (.one fun c => c ≠ '<' && c ≠ '>' && c ≠ '"' && c ≠ '\'') (.alt (quoted '"') (quoted '\''))))

/-- `</?[A-Za-z][A-Za-z0-9._:-]*(?:attributes)?S*/?>` -/
def tag : Pattern Char :=
  .seq (.one (· = '<')) (.seq (Pattern.opt (.one (· = '/')))
    (.seq (.one asciiLetter) (.seq (Pattern.many (.one nameChar)) (.seq (Pattern.opt attributes)
      (.seq (Pattern.many (.one markupSpace)) (.seq (Pattern.opt (.one (· = '/'))) (.one (· = '>'))))))))

/-- `markup`: one markup construct. -/
def markup : Pattern Char := .alt comment (.alt processingInstruction tag)

theorem markup_consumes : markup.consumes = true := rfl

/-- What the pattern finds. -/
def markupScanner : Scanner Char := markup.scanner markup_consumes

/-- `strip_ssml`. -/
def stripSsml (text : String) : String := String.ofList (removeAll markupScanner text.toList)

example : stripSsml "5 < 6 and 7 > 3, <audio src='a>b.wav'/>Ding<!-- no -->" = "5 < 6 and 7 > 3, Ding" := by
  decide +kernel

/-! ## What is left -/

/-- A complete construct stands in a text. -/
def HasMarkup (text : String) : Prop := Contains markupScanner text.toList

/-- A `<` of a text begins no construct, but it begins one for a reader that goes past the constructs
behind it that are taken out. -/
def HiddenMarkup (text : String) : Prop :=
  ∃ after, Keeps markupScanner text.toList '<' after ∧
    ∃ rest, Reads (nextKept markupScanner) markup ('<' :: after) rest

@[simp] theorem toList_stripSsml (text : String) :
    (stripSsml text).toList = removeAll markupScanner text.toList := String.toList_ofList

/-- A construct begins with `<`. -/
theorem markup_starts {σ : Type} {read : σ → Option (Char × σ)} {s s' : σ}
    (h : Reads read markup s s') : ∃ m, read s = some ('<', m) := by
  obtain ⟨_, ⟨m, ⟨c, hc, hlt⟩, _⟩, _⟩ | ⟨_, ⟨m, ⟨c, hc, hlt⟩, _⟩, _⟩ | ⟨m, ⟨c, hc, hlt⟩, _⟩ := h
  all_goals
    have hc' : c = '<' := of_decide_eq_true hlt
    exact ⟨m, hc' ▸ hc⟩

/-- Markup is left exactly if a construct is hidden. -/
theorem hasMarkup_stripSsml_iff (text : String) :
    HasMarkup (stripSsml text) ↔ HiddenMarkup text := by
  rw [HasMarkup, toList_stripSsml, markupScanner, Pattern.contains_removeAll_iff]
  constructor
  · rintro ⟨c, after, hk, rest, hr⟩
    obtain ⟨m, hm⟩ := markup_starts hr
    rw [nextKept_none hk.2] at hm
    obtain ⟨rfl, -⟩ := Prod.mk.inj (Option.some.inj hm)
    exact ⟨after, hk, rest, hr⟩
  · rintro ⟨after, hk, rest, hr⟩
    exact ⟨'<', after, hk, rest, hr⟩

/-- A text is left unchanged exactly if no construct is in it. -/
theorem stripSsml_eq_self_iff (text : String) : stripSsml text = text ↔ ¬HasMarkup text := by
  rw [← String.toList_inj, toList_stripSsml, removeAll_eq_self_iff, HasMarkup]

/-- **What `strip_ssml` leaves.** Every character outside the constructs is kept, in order; a text
without constructs is unchanged; and what is left has no construct, so that a second time changes
nothing, exactly if none is hidden. -/
theorem stripSsml_clean_iff (text : String) :
    Cleared markupScanner text.toList (stripSsml text).toList ∧
    (¬HasMarkup text → stripSsml text = text) ∧
    (¬HasMarkup (stripSsml text) ↔ ¬HiddenMarkup text) ∧
    (stripSsml (stripSsml text) = stripSsml text ↔ ¬HiddenMarkup text) := by
  refine ⟨?_, (stripSsml_eq_self_iff text).mpr, not_congr (hasMarkup_stripSsml_iff text), ?_⟩
  · rw [toList_stripSsml]
    exact cleared_removeAll markupScanner text.toList
  · rw [stripSsml_eq_self_iff, hasMarkup_stripSsml_iff]

/-- A `<` before a tag is text, and opens one with what was behind that tag. -/
theorem stripSsml_leaves_markup :
    stripSsml "<<b>b>" = "<b>" ∧ stripSsml "<b>" = "" ∧ HasMarkup (stripSsml "<<b>b>") := by
  have hleft : stripSsml "<<b>b>" = "<b>" := by decide +kernel
  have hagain : stripSsml "<b>" = "" := by decide +kernel
  refine ⟨hleft, hagain, ?_⟩
  rw [hleft]
  by_contra h
  rw [← stripSsml_eq_self_iff, hagain] at h
  exact absurd h (by decide)

end Thalovant.Rich
