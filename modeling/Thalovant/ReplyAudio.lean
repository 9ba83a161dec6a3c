import Thalovant.Error
import Thalovant.Event

/-!
# The audio of a reply

An event of audio brings its sound as hexadecimal text, which may be set with white space between
the bytes. What is too long is refused before it is looked at, and a reply takes only so much of it
all together.

* `audioBytesWithLimit_eq_ok_iff`: what is decoded is what the text writes, within the limit
* `checkedAcceptAll_eq`: which additions of a reply's budget can overflow
* `replyAudio_law`: all of it, of any event and of any sequence of events
-/

namespace Thalovant

/-! ## Hexadecimal text with white space -/

/-- `b' ' | b'\t' | b'\n' | b'\r' | 11 | 12` -/
def isHexSpace (b : UInt8) : Bool :=
  b = 0x20 || b = 0x09 || b = 0x0A || b = 0x0D || b = 11 || b = 12

/-- The bytes but for white space, behind those there are; white space may not part two digits of a
byte. -/
def compactHex : Bytes → Bytes → Option Bytes
  | [], compact => some compact
  | b :: encoded, compact =>
    if isHexSpace b then
      if compact.length % 2 ≠ 0 then none else compactHex encoded compact
    else compactHex encoded (compact ++ [b])

/-- The character of an ASCII byte. -/
def asciiChar (b : UInt8) : Char := Char.ofNat b.toNat

/-- `hex::decode`, of bytes. -/
def hexDecodeBytes (bytes : Bytes) : Option Bytes := hexPairs (bytes.map asciiChar)

namespace Event

def AUDIO_REFUSED : String := "missing, invalid or oversized embedded audio"

/-- The encoded audio that is there, unless it is too long. -/
def encodedAudio (e : Event) (maxBytes : Nat) : Option String :=
  if !e.isAudio then none
  else
    match (e.data.getStr "binary_data").filter (· ≠ "") with
    | none => none
    | some encoded => if (encoded.utf8ByteSize + 1) / 2 > maxBytes then none else some encoded

def audioBytesWithLimit (e : Event) (maxBytes : Nat) : Result Bytes :=
  match e.encodedAudio maxBytes with
  | none => .error (.runtime AUDIO_REFUSED)
  | some encoded =>
    match compactHex (utf8 encoded) [] with
    | none => .error (.runtime AUDIO_REFUSED)
    | some compact =>
      match hexDecodeBytes compact with
      | none => .error (.runtime AUDIO_REFUSED)
      | some bytes => .ok bytes

def audioBytes (e : Event) : Result Bytes := e.audioBytesWithLimit MAX_AUDIO_CLIP_BYTES

end Event

/-! ## What a text writes -/

/-- `text` writes `bytes`: two digits for each, of either case, and white space before, between and
after them. -/
inductive HexText : Bytes → Bytes → Prop
  | nil : HexText [] []
  | space {b : UInt8} {text bytes : Bytes} :
      isHexSpace b = true → HexText text bytes → HexText (b :: text) bytes
  | byte {hi lo : UInt8} {h l : Nat} {text bytes : Bytes} :
      Json.hexValue (asciiChar hi) = some h → Json.hexValue (asciiChar lo) = some l →
      HexText text bytes → HexText (hi :: lo :: text) (UInt8.ofNat (16 * h + l) :: bytes)

/-- A byte has two characters at least. -/
theorem HexText.length_le {text bytes : Bytes} (h : HexText text bytes) :
    2 * bytes.length ≤ text.length := by
  induction h with
  | nil => exact Nat.le_refl 0
  | space _ _ ih => rw [List.length_cons]; omega
  | byte _ _ _ ih => simp only [List.length_cons]; omega

/-! ## What is decoded -/

theorem isHexSpace_hexValue {b : UInt8} (h : isHexSpace b = true) :
    Json.hexValue (asciiChar b) = none := by
  simp only [isHexSpace, Bool.or_eq_true, decide_eq_true_eq] at h
  rcases h with ((((rfl | rfl) | rfl) | rfl) | rfl) | rfl <;> decide

/-- Whole bytes that are there already stay in front. -/
theorem compactHex_append {a : Bytes} (ha : a.length % 2 = 0) :
    ∀ text b : Bytes, compactHex text (a ++ b) = (compactHex text b).map (a ++ ·)
  | [], b => rfl
  | c :: text, b => by
    have hlength : (a ++ b).length % 2 = b.length % 2 := by
      rw [List.length_append]
      omega
    rw [compactHex, compactHex, hlength, List.append_assoc, compactHex_append ha text (b ++ [c]),
      compactHex_append ha text b]
    split
    · split
      · rfl
      · rfl
    · rfl

theorem hexDecodeBytes_pair (hi lo : UInt8) (compact bytes : Bytes) :
    hexDecodeBytes (hi :: lo :: compact) = some bytes ↔
      ∃ h l rest, Json.hexValue (asciiChar hi) = some h ∧ Json.hexValue (asciiChar lo) = some l ∧
        hexDecodeBytes compact = some rest ∧ bytes = UInt8.ofNat (16 * h + l) :: rest := by
  rw [hexDecodeBytes, List.map_cons, List.map_cons, hexPairs]
  cases Json.hexValue (asciiChar hi) with
  | none => simp
  | some h =>
    cases Json.hexValue (asciiChar lo) with
    | none => simp
    | some l =>
      cases hrest : hexDecodeBytes compact with
      | none =>
        rw [hexDecodeBytes] at hrest
        simp [hrest]
      | some rest =>
        rw [hexDecodeBytes] at hrest
        simp [hrest, eq_comm]

/-- **Taking out the white space and decoding the rest reads what the text writes.** -/
theorem decode_eq_some_iff : ∀ text bytes : Bytes,
    (compactHex text []).bind hexDecodeBytes = some bytes ↔ HexText text bytes
  | [], bytes => by
    constructor
    · rintro ⟨⟩
      exact .nil
    · rintro ⟨⟩
      rfl
  | [b], bytes => by
    rw [compactHex]
    split
    · -- white space between two bytes is left out
      next hspace =>
      rw [if_neg (by decide), decode_eq_some_iff [] bytes]
      constructor
      · exact .space hspace
      · rintro (_ | ⟨_, htext⟩)
        exact htext
    · next hspace =>
      refine iff_of_false (by intro h; cases h) ?_
      rintro (_ | ⟨hb, _⟩)
      exact hspace hb
  | b :: c :: text, bytes => by
    rw [compactHex]
    split
    · next hspace =>
      rw [if_neg (by decide), decode_eq_some_iff (c :: text) bytes]
      constructor
      · exact .space hspace
      · rintro (_ | ⟨_, htext⟩ | ⟨hhi, _, _⟩)
        · exact htext
        · rw [isHexSpace_hexValue hspace] at hhi
          cases hhi
    · next hb =>
      rw [compactHex]
      split
      · next hspace =>
        rw [if_pos (by simp)]
        refine iff_of_false (by intro h; cases h) ?_
        rintro (_ | ⟨hb', _⟩ | ⟨_, hlo, _⟩)
        · exact hb hb'
        · rw [isHexSpace_hexValue hspace] at hlo
          cases hlo
      · have hpair : compactHex text ([] ++ [b] ++ [c]) = (compactHex text []).map ([b, c] ++ ·) :=
          compactHex_append (show ([b, c] : Bytes).length % 2 = 0 from Nat.mod_self 2) text []
        rw [hpair, Option.bind_map]
        have ih := decode_eq_some_iff text
        constructor
        · intro h
          obtain ⟨compact, hcompact, hdecode⟩ := Option.bind_eq_some_iff.mp h
          obtain ⟨h, l, rest, hh, hl, hrest, rfl⟩ :=
            (hexDecodeBytes_pair b c compact bytes).mp hdecode
          exact .byte hh hl ((ih rest).mp (Option.bind_eq_some_iff.mpr ⟨compact, hcompact, hrest⟩))
        · rintro (_ | ⟨hb', _⟩ | ⟨hh, hl, htext⟩)
          · exact absurd hb' hb
          · obtain ⟨compact, hcompact, hrest⟩ := Option.bind_eq_some_iff.mp ((ih _).mpr htext)
            exact Option.bind_eq_some_iff.mpr ⟨compact, hcompact,
              (hexDecodeBytes_pair b c compact _).mpr ⟨_, _, _, hh, hl, hrest, rfl⟩⟩

namespace Event

/-- The audio of an event that is decoded: some text that is not too long. -/
theorem encodedAudio_eq_some_iff {e : Event} {maxBytes : Nat} {encoded : String} :
    e.encodedAudio maxBytes = some encoded ↔ e.isAudio = true ∧
      e.data.getStr "binary_data" = some encoded ∧ encoded ≠ "" ∧
      encoded.utf8ByteSize ≤ 2 * maxBytes := by
  unfold encodedAudio
  split
  · next haudio =>
    refine iff_of_false (by intro h; cases h) ?_
    rintro ⟨h, -⟩
    simp [h] at haudio
  · next haudio =>
    have haudio' : e.isAudio = true := by simpa using haudio
    rw [and_iff_right haudio']
    cases hdata : e.data.getStr "binary_data" with
    | none => simp
    | some text =>
      by_cases hempty : text = ""
      · subst hempty
        refine iff_of_false (by intro h; cases h) ?_
        rintro ⟨heq, hne, -⟩
        exact hne (Option.some.inj heq).symm
      · rw [Option.filter_some_pos (by simpa using hempty)]
        simp only [Option.some.injEq]
        constructor
        · intro h
          split at h
          · cases h
          · next hsize =>
            cases h
            exact ⟨rfl, hempty, by omega⟩
        · rintro ⟨rfl, -, hsize⟩
          exact if_neg (by omega)

/-- **What is decoded is what the text writes**, if there is one and it is not too long. -/
theorem audioBytesWithLimit_eq_ok_iff {e : Event} {maxBytes : Nat} {bytes : Bytes} :
    e.audioBytesWithLimit maxBytes = .ok bytes ↔
      ∃ encoded, e.encodedAudio maxBytes = some encoded ∧ HexText (utf8 encoded) bytes := by
  unfold audioBytesWithLimit
  cases e.encodedAudio maxBytes with
  | none => simp
  | some encoded =>
    simp only [Option.some.injEq, exists_eq_left', ← decode_eq_some_iff]
    cases compactHex (utf8 encoded) [] with
    | none => simp
    | some compact =>
      simp only [Option.bind_some]
      cases hexDecodeBytes compact <;> simp

theorem audioBytesWithLimit_error {e : Event} {maxBytes : Nat} {err : ThalovantError}
    (h : e.audioBytesWithLimit maxBytes = .error err) : err = .runtime AUDIO_REFUSED := by
  unfold audioBytesWithLimit at h
  split at h
  · cases h
    rfl
  split at h
  · cases h
    rfl
  split at h
  · cases h
    rfl
  · cases h

theorem length_utf8 (text : String) : (utf8 text).length = text.utf8ByteSize := by
  exact Array.length_toList

/-- The bytes of audio that is decoded are within the limit. -/
theorem length_le_of_audioBytesWithLimit {e : Event} {maxBytes : Nat} {bytes : Bytes}
    (h : e.audioBytesWithLimit maxBytes = .ok bytes) : bytes.length ≤ maxBytes := by
  obtain ⟨encoded, hencoded, htext⟩ := audioBytesWithLimit_eq_ok_iff.mp h
  have hsize := (encodedAudio_eq_some_iff.mp hencoded).2.2.2
  have hlength := htext.length_le
  rw [length_utf8] at hlength
  omega

end Event

/-! ## Offering events to a reply -/

namespace ReplyMediaBudget

/-- `a + b` in a machine word of so many bits, unless it overflows. -/
def checkedAdd (bits a b : Nat) : Option Nat := if a + b < 2 ^ bits then some (a + b) else none

/-- One more event that is left out, in machine words. -/
def checkedDrop (bits : Nat) (budget : ReplyMediaBudget) : Option (Bool × ReplyMediaBudget) :=
  (checkedAdd bits budget.dropped 1).map fun dropped => (false, { budget with dropped })

/-- `accept` in machine words: nothing where an addition overflows. -/
def checkedAccept (bits : Nat) (budget : ReplyMediaBudget) (e : Event) :
    Option (Bool × ReplyMediaBudget) :=
  if !e.isAudio then some (true, budget)
  else
    match e.data.getStr "binary_data" with
    | none => budget.checkedDrop bits
    | some encoded =>
      if encoded.utf8ByteSize > MAX_AUDIO_CLIP_BYTES * 2 then budget.checkedDrop bits
      else
        match checkedAdd bits budget.chars encoded.utf8ByteSize with
        | none => none
        | some chars =>
          if chars > MAX_REPLY_MEDIA_BYTES * 2 then budget.checkedDrop bits
          else some (true, { budget with chars })

/-- Events offered one after the other: which are taken, and the budget after them. -/
def acceptAll (budget : ReplyMediaBudget) : List Event → List (Event × Bool) × ReplyMediaBudget
  | [] => ([], budget)
  | e :: events =>
    let (taken, budget) := budget.accept e
    let (verdicts, budget) := budget.acceptAll events
    ((e, taken) :: verdicts, budget)

/-- The same in machine words. -/
def checkedAcceptAll (bits : Nat) (budget : ReplyMediaBudget) :
    List Event → Option (List (Event × Bool) × ReplyMediaBudget)
  | [] => some ([], budget)
  | e :: events =>
    match budget.checkedAccept bits e with
    | none => none
    | some (taken, budget) =>
      (budget.checkedAcceptAll bits events).map fun run => ((e, taken) :: run.1, run.2)

/-- A verdict that takes audio. -/
def takesAudio (verdict : Event × Bool) : Bool := verdict.1.isAudio && verdict.2

/-- The characters that an event encodes audio in. -/
def encodedChars (e : Event) : Nat := ((e.data.getStr "binary_data").map String.utf8ByteSize).getD 0

/-- The characters of the audio that is taken. -/
def takenChars : List (Event × Bool) → Nat
  | [] => 0
  | verdict :: verdicts =>
    (if takesAudio verdict then encodedChars verdict.1 else 0) + takenChars verdicts

theorem acceptAll_cons (budget : ReplyMediaBudget) (e : Event) (events : List Event) :
    budget.acceptAll (e :: events)
      = ((e, (budget.accept e).1) :: ((budget.accept e).2.acceptAll events).1,
        ((budget.accept e).2.acceptAll events).2) := rfl

/-- What one event does to the counters. -/
theorem accept_counters (budget : ReplyMediaBudget) (e : Event) :
    (budget.accept e).2.chars
      = budget.chars + (if takesAudio (e, (budget.accept e).1) then encodedChars e else 0) ∧
    (budget.accept e).2.dropped
      = budget.dropped + (if e.isAudio && !(budget.accept e).1 then 1 else 0) ∧
    (budget.chars ≤ MAX_REPLY_MEDIA_BYTES * 2 →
      (budget.accept e).2.chars ≤ MAX_REPLY_MEDIA_BYTES * 2) := by
  unfold accept takesAudio encodedChars
  cases haudio : e.isAudio with
  | false => simp
  | true =>
    cases e.data.getStr "binary_data" with
    | none => simp
    | some encoded =>
      cases hfits : budget.fits encoded with
      | false => simp [hfits]
      | true =>
        simp only [fits, Bool.not_eq_true', Bool.or_eq_false_iff, decide_eq_false_iff_not,
          Nat.not_lt] at hfits
        simp [fits, hfits]

/-- What a run of events does to them. -/
theorem acceptAll_counters (events : List Event) : ∀ budget : ReplyMediaBudget,
    (budget.acceptAll events).1.map Prod.fst = events ∧
    (budget.acceptAll events).2.chars = budget.chars + takenChars (budget.acceptAll events).1 ∧
    (budget.acceptAll events).2.dropped + (budget.acceptAll events).1.countP takesAudio
      = budget.dropped + events.countP Event.isAudio ∧
    (budget.chars ≤ MAX_REPLY_MEDIA_BYTES * 2 →
      (budget.acceptAll events).2.chars ≤ MAX_REPLY_MEDIA_BYTES * 2) := by
  induction events with
  | nil => exact fun budget => ⟨rfl, rfl, rfl, id⟩
  | cons e events ih =>
    intro budget
    obtain ⟨hchars, hdropped, hcap⟩ := budget.accept_counters e
    obtain ⟨hevents, htaken, hcount, hrest⟩ := ih (budget.accept e).2
    rw [acceptAll_cons]
    refine ⟨congrArg (e :: ·) hevents, ?_, ?_, fun h => hrest (hcap h)⟩
    · rw [takenChars, htaken, hchars, Nat.add_assoc]
    · rw [List.countP_cons, List.countP_cons, ← Nat.add_assoc, hcount, hdropped, takesAudio]
      cases e.isAudio <;> cases (budget.accept e).1 <;> simp <;> omega

theorem dropped_le_acceptAll (events : List Event) : ∀ budget : ReplyMediaBudget,
    budget.dropped ≤ (budget.acceptAll events).2.dropped := by
  induction events with
  | nil => exact fun budget => Nat.le_refl _
  | cons e events ih =>
    intro budget
    have hdropped := (budget.accept_counters e).2.1
    exact Nat.le_trans (by omega) (ih (budget.accept e).2)

/-- Only the count of what is left out can overflow. -/
theorem checkedAccept_eq {bits : Nat} (hbits : 32 ≤ bits) {budget : ReplyMediaBudget}
    (hchars : budget.chars ≤ MAX_REPLY_MEDIA_BYTES * 2) (hdropped : budget.dropped < 2 ^ bits)
    (e : Event) : budget.checkedAccept bits e
      = if (budget.accept e).2.dropped < 2 ^ bits then some (budget.accept e) else none := by
  have hword : 2 ^ 32 ≤ 2 ^ bits := Nat.pow_le_pow_right (by omega) hbits
  have hdrop : budget.checkedDrop bits = if budget.dropped + 1 < 2 ^ bits then
      some (false, { budget with dropped := budget.dropped + 1 }) else none := by
    unfold checkedDrop checkedAdd
    split <;> rfl
  unfold checkedAccept accept
  cases haudio : e.isAudio with
  | false =>
    simp only [Bool.not_false, if_true]
    exact (if_pos hdropped).symm
  | true =>
    simp only [Bool.not_true, Bool.false_eq_true, if_false]
    cases e.data.getStr "binary_data" with
    | none => exact hdrop
    | some encoded =>
      by_cases hclip : encoded.utf8ByteSize > MAX_AUDIO_CLIP_BYTES * 2
      · have hfits : budget.fits encoded = false := by simp [fits, hclip]
        simp only [hclip, hfits, Bool.false_eq_true, if_true, if_false]
        exact hdrop
      · -- both bounds together leave the sum within any word of 32 bits
        have hsum : budget.chars + encoded.utf8ByteSize < 2 ^ bits := by
          unfold MAX_REPLY_MEDIA_BYTES at hchars
          unfold MAX_AUDIO_CLIP_BYTES at hclip
          omega
        simp only [hclip, checkedAdd, hsum, if_true, if_false]
        by_cases hreply : budget.chars + encoded.utf8ByteSize > MAX_REPLY_MEDIA_BYTES * 2
        · have hfits : budget.fits encoded = false := by simp [fits, hreply]
          simp only [hreply, hfits, Bool.false_eq_true, if_true, if_false]
          exact hdrop
        · have hfits : budget.fits encoded = true := by
            simpa [fits] using ⟨Nat.not_lt.mp hclip, Nat.not_lt.mp hreply⟩
          simp only [hreply, hfits, if_true, if_false]
          exact (if_pos hdropped).symm

/-- **A run in machine words is the run in numbers**, until the count of what is left out
overflows. -/
theorem checkedAcceptAll_eq {bits : Nat} (hbits : 32 ≤ bits) (events : List Event) :
    ∀ budget : ReplyMediaBudget, budget.chars ≤ MAX_REPLY_MEDIA_BYTES * 2 →
      budget.dropped < 2 ^ bits → budget.checkedAcceptAll bits events
        = if (budget.acceptAll events).2.dropped < 2 ^ bits then some (budget.acceptAll events)
          else none := by
  induction events with
  | nil => exact fun budget _ hdropped => (if_pos hdropped).symm
  | cons e events ih =>
    intro budget hchars hdropped
    have hcap := (budget.accept_counters e).2.2 hchars
    have hle := dropped_le_acceptAll events (budget.accept e).2
    rw [checkedAcceptAll, checkedAccept_eq hbits hchars hdropped, acceptAll_cons]
    by_cases hnext : (budget.accept e).2.dropped < 2 ^ bits
    · rw [if_pos hnext]
      simp only [ih _ hcap hnext]
      split <;> rfl
    · rw [if_neg hnext]
      exact (if_neg (fun h => hnext (Nat.lt_of_le_of_lt hle h))).symm

end ReplyMediaBudget

open ReplyMediaBudget in
/-- **The audio of a reply.** What is decoded is exactly what the text writes, within the limit, and
a text that is too long is refused before it is decoded. Of any events a reply takes audio up to its
bound; what is no audio is taken and costs nothing, what is left out costs nothing either, and it is
counted as far as a machine word goes. -/
theorem replyAudio_law :
    (∀ (e : Event) maxBytes bytes, e.audioBytesWithLimit maxBytes = .ok bytes ↔
      e.isAudio = true ∧ ∃ encoded, e.data.getStr "binary_data" = some encoded ∧ encoded ≠ "" ∧
        encoded.utf8ByteSize ≤ 2 * maxBytes ∧ HexText (utf8 encoded) bytes) ∧
    (∀ (e : Event) maxBytes,
      (∃ bytes, e.audioBytesWithLimit maxBytes = .ok bytes ∧ bytes.length ≤ maxBytes) ∨
      e.audioBytesWithLimit maxBytes = .error (.runtime Event.AUDIO_REFUSED)) ∧
    (∀ (e : Event) maxBytes encoded, e.data.getStr "binary_data" = some encoded →
      2 * maxBytes < encoded.utf8ByteSize → e.encodedAudio maxBytes = none) ∧
    (∀ (budget : ReplyMediaBudget) (e : Event), e.isAudio = false →
      budget.accept e = (true, budget)) ∧
    (∀ (budget : ReplyMediaBudget) (e : Event), (budget.accept e).1 = false →
      (budget.accept e).2.chars = budget.chars) ∧
    ∀ events : List Event, let run := ReplyMediaBudget.acceptAll {} events
      run.1.map Prod.fst = events ∧
      run.2.chars = takenChars run.1 ∧ takenChars run.1 ≤ 2 * MAX_REPLY_MEDIA_BYTES ∧
      run.2.dropped + run.1.countP takesAudio = events.countP Event.isAudio ∧
      ∀ bits, 32 ≤ bits → ReplyMediaBudget.checkedAcceptAll bits {} events
        = if run.2.dropped < 2 ^ bits then some run else none := by
  refine ⟨?_, ?_, ?_, fun budget e h => budget.accept_of_not_isAudio h,
    fun budget e h => chars_of_not_accepted h, ?_⟩
  · intro e maxBytes bytes
    rw [Event.audioBytesWithLimit_eq_ok_iff]
    constructor
    · rintro ⟨encoded, hencoded, htext⟩
      obtain ⟨haudio, hdata, hne, hsize⟩ := Event.encodedAudio_eq_some_iff.mp hencoded
      exact ⟨haudio, encoded, hdata, hne, hsize, htext⟩
    · rintro ⟨haudio, encoded, hdata, hne, hsize, htext⟩
      exact ⟨encoded, Event.encodedAudio_eq_some_iff.mpr ⟨haudio, hdata, hne, hsize⟩, htext⟩
  · intro e maxBytes
    cases h : e.audioBytesWithLimit maxBytes with
    | ok bytes => exact .inl ⟨bytes, rfl, Event.length_le_of_audioBytesWithLimit h⟩
    | error err => exact .inr (congrArg _ (Event.audioBytesWithLimit_error h))
  · -- the size of the text is looked at before it is decoded
    intro e maxBytes encoded hdata hsize
    rw [← Option.not_isSome_iff_eq_none, Option.isSome_iff_exists]
    rintro ⟨text, htext⟩
    obtain ⟨-, hdata', -, hsize'⟩ := Event.encodedAudio_eq_some_iff.mp htext
    obtain rfl : encoded = text := Option.some.inj (hdata.symm.trans hdata')
    omega
  · intro events
    obtain ⟨hevents, hchars, hcount, hcap⟩ := acceptAll_counters events {}
    have hchars' := hchars.trans (Nat.zero_add _)
    have hcap' := hcap (Nat.zero_le _)
    simp only [Nat.zero_add] at hcount
    refine ⟨hevents, hchars', by omega, hcount, fun bits hbits => ?_⟩
    exact checkedAcceptAll_eq hbits events {} (Nat.zero_le _) (Nat.two_pow_pos bits)

/-- A clip of two bytes, set with white space. -/
def spacedClip : Event where
  name := EVENT_AUDIO_QUEUE
  data := [("binary_data", .string "4F\n4b ")]

theorem replyAudio_law_spacedClip : spacedClip.audioBytesWithLimit 3 = .ok [0x4F, 0x4B] :=
  (replyAudio_law.1 spacedClip 3 [0x4F, 0x4B]).mpr ⟨by decide, "4F\n4b ", by decide +kernel,
    by decide, by decide +kernel,
    HexText.byte (h := 4) (l := 15) (by decide) (by decide) <| .space (by decide) <|
    HexText.byte (h := 4) (l := 11) (by decide) (by decide) <| .space (by decide) .nil⟩

/-- A clip without its audio. -/
def lostClip : Event where
  name := EVENT_AUDIO_QUEUE

theorem dropped_lostClip (n : Nat) : ∀ budget : ReplyMediaBudget,
    (budget.acceptAll (List.replicate n lostClip)).2.dropped = budget.dropped + n := by
  induction n with
  | zero => exact fun budget => rfl
  | succ n ih =>
    intro budget
    rw [List.replicate_succ, ReplyMediaBudget.acceptAll_cons, ih]
    show budget.dropped + 1 + n = _
    omega

/-- Whatever the word, there are events enough to overflow the count of those left out. -/
theorem checkedAcceptAll_overflows :
    ReplyMediaBudget.checkedAcceptAll 64 {} (List.replicate (2 ^ 64) lostClip) = none := by
  have hdropped := dropped_lostClip (2 ^ 64) {}
  rw [ReplyMediaBudget.checkedAcceptAll_eq (by omega) _ _ (Nat.zero_le _) (Nat.two_pow_pos 64),
    hdropped]
  exact if_neg (by omega)

end Thalovant
