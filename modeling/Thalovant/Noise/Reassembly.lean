import Mathlib.Data.List.Induction
import Thalovant.Noise.Session

/-!
# What the reassembly accepts

The plaintext frames that `decrypt_frame` takes without an error are the prefixes of

    (SINGLE | FIRST MORE* LAST)*

with every message within the reassembly budget. `Word` is one message on the wire and `Chunks` one
that has begun; neither mentions the state machine.

## How it is shown

* `Word.outputs_frames`: the machine takes the frames of a word, from an empty buffer to an empty
  buffer, and answers the last with the message.
* `reassemble_sound`: a run without an error has read whole words and the chunks of one that has
  begun, which are what the buffer holds.
* A frame that leaves the language is one the machine refuses: were it taken, the run would be sound;
  were it in the language, the word it belongs to would be taken whole.
-/

namespace Thalovant.Noise

variable {cipher : TransportCipher}

/-! ## The grammar -/

def singleMarker (isJson : Bool) : UInt8 := if isJson then FRAME_JSON else FRAME_BINARY

def firstMarker (isJson : Bool) : UInt8 := if isJson then FRAME_FIRST_JSON else FRAME_FIRST_BINARY

/-- The chunks of a message that has begun: `FIRST MORE*`. -/
structure Chunks where
  isJson : Bool
  first : Bytes
  more : List Bytes

namespace Chunks

def frames (c : Chunks) : List Bytes :=
  (firstMarker c.isJson :: c.first) :: c.more.map (FRAME_MORE :: ·)

def bytes (c : Chunks) : Bytes := c.first ++ c.more.flatten

/-- What the session holds of them. -/
def held (c : Chunks) : Reassembly := { buffer := c.bytes, isJson := c.isJson }

/-- The chunks with a `MORE` frame after them. -/
def snoc (c : Chunks) (body : Bytes) : Chunks := { c with more := c.more ++ [body] }

theorem frames_snoc (c : Chunks) (body : Bytes) :
    (c.snoc body).frames = c.frames ++ [FRAME_MORE :: body] := by
  simp [frames, snoc]

theorem bytes_snoc (c : Chunks) (body : Bytes) : (c.snoc body).bytes = c.bytes ++ body := by
  simp [bytes, snoc]

@[simp] theorem isJson_snoc (c : Chunks) (body : Bytes) : (c.snoc body).isJson = c.isJson := rfl

/-- Any state of the buffer is that of some chunks. -/
theorem exists_held : ∀ open_ : Option Reassembly, ∃ part : Option Chunks, open_ = part.map held
  | none => ⟨none, rfl⟩
  | some r => ⟨some ⟨r.isJson, r.buffer, []⟩, by simp [held, bytes]⟩

end Chunks

/-- A message on the wire: `SINGLE | FIRST MORE* LAST`. -/
inductive Word where
  | single (isJson : Bool) (body : Bytes)
  | chunked (chunks : Chunks) (last : Bytes)

namespace Word

def frames : Word → List Bytes
  | single isJson body => [singleMarker isJson :: body]
  | chunked chunks last => chunks.frames ++ [FRAME_LAST :: last]

/-- The concatenation of the frame bodies. -/
def payload : Word → Bytes
  | single _ body => body
  | chunked chunks last => chunks.bytes ++ last

def isJson : Word → Bool
  | single isJson _ => isJson
  | chunked chunks _ => chunks.isJson

def Fits (w : Word) : Prop := w.payload.length ≤ NOISE_MAX_REASSEMBLY

end Word

/-- The frames of a message that may have begun. -/
def partFrames : Option Chunks → List Bytes
  | none => []
  | some c => c.frames

/-- The bytes of a message that may have begun. -/
def partBytes : Option Chunks → Bytes
  | none => []
  | some c => c.bytes

/-- The frames are a prefix of whole messages, each within the budget. -/
def Readable (frames : List Bytes) : Prop :=
  ∃ words : List Word, (∀ w ∈ words, w.Fits) ∧ frames <+: words.flatMap Word.frames

/-- Whole messages and the beginning of one more. -/
theorem readable_of_words {words : List Word} {part : Option Chunks}
    (hfits : ∀ w ∈ words, w.Fits) (hpart : (partBytes part).length ≤ NOISE_MAX_REASSEMBLY) :
    Readable (words.flatMap Word.frames ++ partFrames part) := by
  cases part with
  | none => exact ⟨words, hfits, by simp [partFrames]⟩
  | some c =>
    -- an empty last chunk completes the message
    have hlast : (Word.chunked c []).Fits := by
      simpa [Word.Fits, Word.payload, partBytes] using hpart
    refine ⟨words ++ [.chunked c []], ?_, ?_⟩
    · intro w hw
      rcases List.mem_append.mp hw with hw | hw
      · exact hfits w hw
      · exact List.mem_singleton.mp hw ▸ hlast
    · rw [List.flatMap_append, List.flatMap_singleton, Word.frames, partFrames]
      exact List.prefix_append_right_inj _ |>.mpr (List.prefix_append _ _)

/-! ## `reassemble`, marker by marker -/

theorem guardReassemblyCap_ok (current : Reassembly)
    (h : current.buffer.length ≤ NOISE_MAX_REASSEMBLY) :
    guardReassemblyCap current = (.ok (), some current) := by
  rw [guardReassemblyCap, if_pos h]

theorem guardReassemblyCap_error (current : Reassembly)
    (h : NOISE_MAX_REASSEMBLY < current.buffer.length) :
    guardReassemblyCap current = (.error (capExceeded current.buffer.length), none) := by
  rw [guardReassemblyCap, if_neg (Nat.not_le.mpr h)]

theorem reassemble_single (isJson : Bool) (body : Bytes) :
    reassemble none (singleMarker isJson :: body) = (.ok (.message body isJson), none) := by
  cases isJson <;> rfl

theorem reassemble_first (isJson : Bool) (body : Bytes)
    (h : body.length ≤ NOISE_MAX_REASSEMBLY) :
    reassemble none (firstMarker isJson :: body)
      = (.ok .partial_, some { buffer := body, isJson := isJson }) := by
  have hguard : ∀ flag, guardReassemblyCap { buffer := body, isJson := flag }
      = (.ok (), some { buffer := body, isJson := flag }) := fun _ => guardReassemblyCap_ok _ h
  cases isJson <;> simp [reassemble, hguard, firstMarker, FRAME_JSON, FRAME_BINARY,
    FRAME_FIRST_JSON, FRAME_FIRST_BINARY]

theorem reassemble_more (current : Reassembly) (body : Bytes)
    (h : (current.buffer ++ body).length ≤ NOISE_MAX_REASSEMBLY) :
    reassemble (some current) (FRAME_MORE :: body)
      = (.ok .partial_, some { current with buffer := current.buffer ++ body }) := by
  have hguard := guardReassemblyCap_ok { current with buffer := current.buffer ++ body } h
  simp [reassemble, hguard, FRAME_JSON, FRAME_BINARY, FRAME_FIRST_JSON, FRAME_FIRST_BINARY,
    FRAME_MORE]

theorem reassemble_last (current : Reassembly) (body : Bytes)
    (h : (current.buffer ++ body).length ≤ NOISE_MAX_REASSEMBLY) :
    reassemble (some current) (FRAME_LAST :: body)
      = (.ok (.message (current.buffer ++ body) current.isJson), none) := by
  have hguard := guardReassemblyCap_ok { current with buffer := current.buffer ++ body } h
  simp [reassemble, hguard, FRAME_JSON, FRAME_BINARY, FRAME_FIRST_JSON, FRAME_FIRST_BINARY,
    FRAME_MORE, FRAME_LAST]

/-! ## One frame

Every frame is either accepted or leaves the grammar.
-/

/-- The word that a frame completes, if it does, and what has begun after it. -/
inductive Accepts : Option Chunks → Bytes → Option Word → Option Chunks → Prop where
  | single (isJson : Bool) (body : Bytes) :
      Accepts none (singleMarker isJson :: body) (some (.single isJson body)) none
  | first (isJson : Bool) (body : Bytes) (h : body.length ≤ NOISE_MAX_REASSEMBLY) :
      Accepts none (firstMarker isJson :: body) none (some ⟨isJson, body, []⟩)
  | more (c : Chunks) (body : Bytes) (h : (c.bytes ++ body).length ≤ NOISE_MAX_REASSEMBLY) :
      Accepts (some c) (FRAME_MORE :: body) none (some (c.snoc body))
  | last (c : Chunks) (body : Bytes) (h : (c.bytes ++ body).length ≤ NOISE_MAX_REASSEMBLY) :
      Accepts (some c) (FRAME_LAST :: body) (some (.chunked c body)) none

/-- The frame does not go on with what has begun. -/
inductive Leaves : Option Chunks → Bytes → Prop where
  | empty (part : Option Chunks) : Leaves part []
  | unknown (part : Option Chunks) (marker : UInt8) (body : Bytes)
      (h : marker ∉ [FRAME_JSON, FRAME_BINARY, FRAME_FIRST_JSON, FRAME_FIRST_BINARY, FRAME_MORE,
        FRAME_LAST]) : Leaves part (marker :: body)
  | notOpen (marker : UInt8) (body : Bytes) (h : marker ∈ [FRAME_MORE, FRAME_LAST]) :
      Leaves none (marker :: body)
  | stillOpen (c : Chunks) (marker : UInt8) (body : Bytes)
      (h : marker ∈ [FRAME_JSON, FRAME_BINARY, FRAME_FIRST_JSON, FRAME_FIRST_BINARY]) :
      Leaves (some c) (marker :: body)
  | overCap (part : Option Chunks) (marker : UInt8) (body : Bytes)
      (h : marker ∈ [FRAME_FIRST_JSON, FRAME_FIRST_BINARY, FRAME_MORE, FRAME_LAST])
      (hcap : NOISE_MAX_REASSEMBLY < (partBytes part ++ body).length) :
      Leaves part (marker :: body)

/-- What a call answers with. -/
def answer : Option Word → NoiseFrame
  | none => .partial_
  | some w => .message w.payload w.isJson

/-- The call failed. -/
def Failed (r : Result NoiseFrame) : Prop := ∃ err, r = .error err

theorem not_failed_ok (frame : NoiseFrame) : ¬ Failed (.ok frame) := by
  rintro ⟨err, h⟩
  cases h

theorem accepts_or_leaves (part : Option Chunks) (plaintext : Bytes) :
    (∃ out part', Accepts part plaintext out part') ∨ Leaves part plaintext := by
  rcases plaintext with _ | ⟨marker, body⟩
  · exact .inr (.empty part)
  · by_cases hknown : marker ∈ [FRAME_JSON, FRAME_BINARY, FRAME_FIRST_JSON, FRAME_FIRST_BINARY,
        FRAME_MORE, FRAME_LAST]
    · simp only [List.mem_cons, List.not_mem_nil, or_false] at hknown
      rcases part with _ | c
      · by_cases hcap : body.length ≤ NOISE_MAX_REASSEMBLY
        · rcases hknown with rfl | rfl | rfl | rfl | rfl | rfl
          · exact .inl ⟨_, _, .single true body⟩
          · exact .inl ⟨_, _, .single false body⟩
          · exact .inl ⟨_, _, .first true body hcap⟩
          · exact .inl ⟨_, _, .first false body hcap⟩
          · exact .inr (.notOpen _ _ (by simp))
          · exact .inr (.notOpen _ _ (by simp))
        · rcases hknown with rfl | rfl | hknown
          · exact .inl ⟨_, _, .single true body⟩
          · exact .inl ⟨_, _, .single false body⟩
          · exact .inr (.overCap none _ _ (by simpa using hknown) (Nat.not_le.mp hcap))
      · by_cases hcap : (c.bytes ++ body).length ≤ NOISE_MAX_REASSEMBLY
        · rcases hknown with h | h | h | h | rfl | rfl
          · exact .inr (.stillOpen _ _ _ (by simp [h]))
          · exact .inr (.stillOpen _ _ _ (by simp [h]))
          · exact .inr (.stillOpen _ _ _ (by simp [h]))
          · exact .inr (.stillOpen _ _ _ (by simp [h]))
          · exact .inl ⟨_, _, .more c body hcap⟩
          · exact .inl ⟨_, _, .last c body hcap⟩
        · rcases hknown with h | h | hknown
          · exact .inr (.stillOpen _ _ _ (by simp [h]))
          · exact .inr (.stillOpen _ _ _ (by simp [h]))
          · exact .inr (.overCap (some c) _ _ (by simpa using hknown) (Nat.not_le.mp hcap))
    · exact .inr (.unknown part marker body hknown)

theorem reassemble_accepts {part part' : Option Chunks} {plaintext : Bytes} {out : Option Word}
    (h : Accepts part plaintext out part') :
    reassemble (part.map Chunks.held) plaintext = (.ok (answer out), part'.map Chunks.held) := by
  cases h with
  | single isJson body => exact reassemble_single isJson body
  | first isJson body h =>
    rw [Option.map_none, reassemble_first isJson body h]
    simp [answer, Chunks.held, Chunks.bytes]
  | more c body h =>
    rw [Option.map_some, reassemble_more c.held body h]
    simp [answer, Chunks.held, Chunks.bytes_snoc]
  | last c body h => exact reassemble_last c.held body h

theorem reassemble_overCap {part : Option Chunks} {marker : UInt8} {body : Bytes}
    (h : marker ∈ [FRAME_FIRST_JSON, FRAME_FIRST_BINARY, FRAME_MORE, FRAME_LAST])
    (hcap : NOISE_MAX_REASSEMBLY < (partBytes part ++ body).length) :
    Failed (reassemble (part.map Chunks.held) (marker :: body)).1
    ∧ (reassemble (part.map Chunks.held) (marker :: body)).2 = none := by
  simp only [List.mem_cons, List.not_mem_nil, or_false] at h
  rcases part with _ | c
  · -- nothing has begun: the frame alone is too long, or it is out of place
    have hguard : ∀ flag, guardReassemblyCap { buffer := body, isJson := flag }
        = (.error (capExceeded body.length), none) := fun _ => guardReassemblyCap_error _ hcap
    rcases h with rfl | rfl | rfl | rfl
    · simp [reassemble, hguard, Failed, FRAME_JSON, FRAME_BINARY, FRAME_FIRST_JSON]
    · simp [reassemble, hguard, Failed, FRAME_JSON, FRAME_BINARY, FRAME_FIRST_JSON,
        FRAME_FIRST_BINARY]
    · exact ⟨⟨_, rfl⟩, rfl⟩
    · exact ⟨⟨_, rfl⟩, rfl⟩
  · have hguard := guardReassemblyCap_error { c.held with buffer := c.held.buffer ++ body } hcap
    rcases h with rfl | rfl | rfl | rfl
    · exact ⟨⟨_, rfl⟩, rfl⟩
    · exact ⟨⟨_, rfl⟩, rfl⟩
    · simp [reassemble, hguard, Failed, FRAME_JSON, FRAME_BINARY, FRAME_FIRST_JSON,
        FRAME_FIRST_BINARY, FRAME_MORE]
    · simp [reassemble, hguard, Failed, FRAME_JSON, FRAME_BINARY, FRAME_FIRST_JSON,
        FRAME_FIRST_BINARY, FRAME_MORE, FRAME_LAST]

theorem reassemble_leaves {part : Option Chunks} {plaintext : Bytes} (h : Leaves part plaintext) :
    Failed (reassemble (part.map Chunks.held) plaintext).1
    ∧ ((reassemble (part.map Chunks.held) plaintext).2 = none
      ∨ (reassemble (part.map Chunks.held) plaintext).2 = part.map Chunks.held) := by
  cases h with
  | empty part => exact ⟨⟨_, rfl⟩, .inr rfl⟩
  | unknown part marker body h =>
    simp only [List.mem_cons, List.not_mem_nil, or_false, not_or] at h
    obtain ⟨h0, h1, h2, h3, h4, h5⟩ := h
    simp [reassemble, h0, h1, h2, h3, h4, h5, Failed]
  | notOpen marker body h =>
    simp only [List.mem_cons, List.not_mem_nil, or_false] at h
    rcases h with rfl | rfl <;> exact ⟨⟨_, rfl⟩, .inl rfl⟩
  | stillOpen c marker body h =>
    simp only [List.mem_cons, List.not_mem_nil, or_false] at h
    rcases h with rfl | rfl | rfl | rfl <;> exact ⟨⟨_, rfl⟩, .inl rfl⟩
  | overCap part marker body h hcap =>
    exact ⟨(reassemble_overCap h hcap).1, .inl (reassemble_overCap h hcap).2⟩

/-- **A call fails exactly when its frame does not go on with what has begun.** -/
theorem failed_reassemble_iff (part : Option Chunks) (plaintext : Bytes) :
    Failed (reassemble (part.map Chunks.held) plaintext).1 ↔ Leaves part plaintext := by
  refine ⟨fun hfailed => ?_, fun h => (reassemble_leaves h).1⟩
  rcases accepts_or_leaves part plaintext with ⟨out, part', h⟩ | h
  · rw [reassemble_accepts h] at hfailed
    exact absurd hfailed (not_failed_ok _)
  · exact h

/-! ## Runs -/

/-- The messages among the answers. -/
def delivered (answers : List (Result NoiseFrame)) : List (Bytes × Bool) :=
  answers.filterMap fun
    | .ok (.message payload isJson) => some (payload, isJson)
    | _ => none

def Word.message (w : Word) : Bytes × Bool := (w.payload, w.isJson)

theorem delivered_append (answers answers' : List (Result NoiseFrame)) :
    delivered (answers ++ answers') = delivered answers ++ delivered answers' :=
  List.filterMap_append

theorem Chunks.outputs_frames : ∀ (c : Chunks), c.bytes.length ≤ NOISE_MAX_REASSEMBLY →
    Machine.outputs reassemble none c.frames = List.replicate c.frames.length (.ok .partial_)
    ∧ Machine.final reassemble none c.frames = some c.held := by
  rintro ⟨isJson, first, more⟩
  induction more using List.reverseRecOn with
  | nil =>
    intro h
    have hstep := reassemble_accepts (.first isJson first (by simpa [bytes] using h))
    rw [Option.map_none] at hstep
    simp only [frames, List.map_nil, Machine.outputs_cons, Machine.final_cons, hstep]
    exact ⟨rfl, rfl⟩
  | append_singleton more body ih =>
    intro h
    have hsnoc : (⟨isJson, first, more ++ [body]⟩ : Chunks) = (⟨isJson, first, more⟩ : Chunks).snoc body := rfl
    rw [hsnoc] at h ⊢
    rw [bytes_snoc] at h
    have hstep := reassemble_accepts (.more ⟨isJson, first, more⟩ body h)
    obtain ⟨hout, hfinal⟩ := ih (by rw [List.length_append] at h; omega)
    rw [Option.map_some] at hstep
    rw [frames_snoc, Machine.outputs_concat, Machine.final_concat, hout, hfinal, hstep,
      List.length_append, List.length_singleton, List.replicate_succ']
    exact ⟨rfl, rfl⟩

/-- **The frames of a message**, from an empty buffer to an empty buffer. -/
theorem Word.outputs_frames (w : Word) (hfits : w.Fits) :
    Machine.outputs reassemble none w.frames
      = List.replicate (w.frames.length - 1) (.ok .partial_) ++ [.ok (.message w.payload w.isJson)]
    ∧ Machine.final reassemble none w.frames = none := by
  cases w with
  | single isJson body =>
    simp only [frames, Machine.outputs_cons, Machine.final_cons, reassemble_single]
    exact ⟨rfl, rfl⟩
  | chunked c last =>
    have hstep := reassemble_accepts (.last c last hfits)
    obtain ⟨hout, hfinal⟩ := c.outputs_frames
      (by rw [Fits, payload, List.length_append] at hfits; omega)
    rw [Option.map_some] at hstep
    rw [frames, Machine.outputs_concat, Machine.final_concat, hout, hfinal, hstep,
      List.length_append, List.length_singleton, Nat.add_sub_cancel]
    exact ⟨rfl, rfl⟩

theorem outputs_words : ∀ (words : List Word), (∀ w ∈ words, w.Fits) →
    (∀ r ∈ Machine.outputs reassemble none (words.flatMap Word.frames), ¬ Failed r)
    ∧ delivered (Machine.outputs reassemble none (words.flatMap Word.frames))
        = words.map Word.message
    ∧ Machine.final reassemble none (words.flatMap Word.frames) = none
  | [], _ => ⟨by simp, rfl, rfl⟩
  | w :: words, hfits => by
    obtain ⟨hout, hfinal⟩ := w.outputs_frames (hfits w List.mem_cons_self)
    obtain ⟨hrest, hmessages, hend⟩ :=
      outputs_words words fun w' hw' => hfits w' (List.mem_cons_of_mem _ hw')
    have hfirst : delivered (List.replicate (w.frames.length - 1) (.ok .partial_)
        ++ [.ok (.message w.payload w.isJson)]) = [w.message] := by
      rw [delivered_append, delivered, List.filterMap_replicate_of_none rfl]
      rfl
    rw [List.flatMap_cons, Machine.outputs_append, Machine.final_append, hout, hfinal]
    refine ⟨?_, ?_, hend⟩
    · intro r hr
      rcases List.mem_append.mp hr with hr | hr
      · rcases List.mem_append.mp hr with hr | hr
        · exact List.eq_of_mem_replicate hr ▸ not_failed_ok _
        · exact List.mem_singleton.mp hr ▸ not_failed_ok _
      · exact hrest r hr
    · rw [delivered_append, hfirst, hmessages]
      rfl

/-- The frames of whole messages, and of one that has begun. -/
theorem outputs_words_part {words : List Word} {part : Option Chunks}
    (hfits : ∀ w ∈ words, w.Fits) (hpart : (partBytes part).length ≤ NOISE_MAX_REASSEMBLY) :
    (∀ r ∈ Machine.outputs reassemble none (words.flatMap Word.frames ++ partFrames part), ¬ Failed r)
    ∧ delivered (Machine.outputs reassemble none (words.flatMap Word.frames ++ partFrames part))
        = words.map Word.message
    ∧ Machine.final reassemble none (words.flatMap Word.frames ++ partFrames part)
        = part.map Chunks.held := by
  obtain ⟨hok, hmessages, hend⟩ := outputs_words words hfits
  rw [Machine.outputs_append, Machine.final_append, hend, delivered_append, hmessages]
  cases part with
  | none => simpa [partFrames, delivered] using hok
  | some c =>
    obtain ⟨hout, hfinal⟩ := c.outputs_frames hpart
    rw [partFrames, hout, hfinal]
    refine ⟨?_, ?_, rfl⟩
    · intro r hr
      rcases List.mem_append.mp hr with hr | hr
      · exact hok r hr
      · exact List.eq_of_mem_replicate hr ▸ not_failed_ok _
    · rw [delivered, List.filterMap_replicate_of_none rfl, List.append_nil]

theorem not_failed_of_readable {plaintexts : List Bytes} (h : Readable plaintexts) :
    ∀ r ∈ Machine.outputs reassemble none plaintexts, ¬ Failed r := by
  obtain ⟨words, hfits, rest, hwords⟩ := h
  intro r hr
  refine (outputs_words words hfits).1 r ?_
  rw [← hwords, Machine.outputs_append]
  exact List.mem_append_left _ hr

theorem accepts_frames {part part' : Option Chunks} {plaintext : Bytes} {out : Option Word}
    (h : Accepts part plaintext out part') :
    partFrames part ++ [plaintext] = out.toList.flatMap Word.frames ++ partFrames part' := by
  cases h with
  | single isJson body => rfl
  | first isJson body h => rfl
  | more c body h => exact (c.frames_snoc body).symm
  | last c body h => simp [partFrames, Word.frames]

theorem accepts_fits {part part' : Option Chunks} {plaintext : Bytes} {out : Option Word}
    (hsize : plaintext.length ≤ NOISE_MAX_MESSAGE) (h : Accepts part plaintext out part') :
    (∀ w ∈ out.toList, w.Fits) ∧ (partBytes part').length ≤ NOISE_MAX_REASSEMBLY := by
  have hmax : NOISE_MAX_MESSAGE ≤ NOISE_MAX_REASSEMBLY := by decide
  cases h with
  | single isJson body =>
    rw [List.length_cons] at hsize
    have hbody : body.length ≤ NOISE_MAX_REASSEMBLY := by omega
    simpa [Word.Fits, Word.payload, partBytes] using hbody
  | first isJson body h => simpa [partBytes, Chunks.bytes] using h
  | more c body h => simpa [partBytes, Chunks.bytes_snoc] using h
  | last c body h => simpa [Word.Fits, Word.payload, partBytes] using h

/-- **A run without an error has read whole words and the chunks of one that has begun.** -/
theorem reassemble_sound {plaintexts : List Bytes}
    (hsize : ∀ plaintext ∈ plaintexts, plaintext.length ≤ NOISE_MAX_MESSAGE)
    (hok : ∀ r ∈ Machine.outputs reassemble none plaintexts, ¬ Failed r) :
    ∃ (words : List Word) (part : Option Chunks), (∀ w ∈ words, w.Fits)
      ∧ (partBytes part).length ≤ NOISE_MAX_REASSEMBLY
      ∧ plaintexts = words.flatMap Word.frames ++ partFrames part := by
  induction plaintexts using List.reverseRecOn with
  | nil => exact ⟨[], none, by simp, by simp [partBytes], rfl⟩
  | append_singleton plaintexts plaintext ih =>
    rw [Machine.outputs_concat] at hok
    obtain ⟨words, part, hfits, hpart, hread⟩ := ih
      (fun p hp => hsize p (List.mem_append_left _ hp))
      (fun r hr => hok r (List.mem_append_left _ hr))
    have hlast := hok _ (List.mem_append_right _ List.mem_cons_self)
    rw [hread, (outputs_words_part hfits hpart).2.2, failed_reassemble_iff] at hlast
    obtain ⟨out, part', hacc⟩ := (accepts_or_leaves part plaintext).resolve_right hlast
    obtain ⟨hout, hpart'⟩ :=
      accepts_fits (hsize plaintext (List.mem_append_right _ List.mem_cons_self)) hacc
    refine ⟨words ++ out.toList, part', ?_, hpart', ?_⟩
    · intro w hw
      rcases List.mem_append.mp hw with hw | hw
      · exact hfits w hw
      · exact hout w hw
    · rw [hread, List.append_assoc, accepts_frames hacc, List.flatMap_append, List.append_assoc]

/-- **A frame leaves the language exactly when it does not go on with what has begun.** -/
theorem leaves_iff_not_readable {words : List Word} {part : Option Chunks} {plaintext : Bytes}
    (hfits : ∀ w ∈ words, w.Fits) (hpart : (partBytes part).length ≤ NOISE_MAX_REASSEMBLY)
    (hsize : plaintext.length ≤ NOISE_MAX_MESSAGE) :
    Leaves part plaintext
      ↔ ¬ Readable (words.flatMap Word.frames ++ partFrames part ++ [plaintext]) := by
  constructor
  · intro hleaves hreadable
    have hok := not_failed_of_readable hreadable
    rw [Machine.outputs_concat, (outputs_words_part hfits hpart).2.2] at hok
    exact hok _ (List.mem_append_right _ List.mem_cons_self) (reassemble_leaves hleaves).1
  · intro hnot
    refine (accepts_or_leaves part plaintext).resolve_left ?_
    rintro ⟨out, part', hacc⟩
    obtain ⟨hout, hpart'⟩ := accepts_fits hsize hacc
    refine hnot ?_
    rw [List.append_assoc, accepts_frames hacc, ← List.append_assoc, ← List.flatMap_append]
    refine readable_of_words (fun w hw => ?_) hpart'
    rcases List.mem_append.mp hw with hw | hw
    · exact hfits w hw
    · exact hout w hw

/-! ## The cap, whatever has failed -/

/-- The bytes held for reassembly. -/
def heldBytes (open_ : Option Reassembly) : Bytes := (open_.map Reassembly.buffer).getD []

theorem heldBytes_held (part : Option Chunks) :
    heldBytes (part.map Chunks.held) = partBytes part := by
  cases part <;> rfl

theorem heldBytes_reassemble {open_ : Option Reassembly} (plaintext : Bytes)
    (h : (heldBytes open_).length ≤ NOISE_MAX_REASSEMBLY) :
    (heldBytes (reassemble open_ plaintext).2).length ≤ NOISE_MAX_REASSEMBLY := by
  obtain ⟨part, rfl⟩ := Chunks.exists_held open_
  rcases accepts_or_leaves part plaintext with ⟨out, part', hacc⟩ | hleaves
  · rw [reassemble_accepts hacc, heldBytes_held]
    cases hacc with
    | single isJson body => simp [partBytes]
    | first isJson body hcap => simpa [partBytes, Chunks.bytes] using hcap
    | more c body hcap => simpa [partBytes, Chunks.bytes_snoc] using hcap
    | last c body hcap => simp [partBytes]
  · rcases (reassemble_leaves hleaves).2 with hnone | hsame
    · rw [hnone]
      simp [heldBytes]
    · rw [hsame]
      exact h

/-! ## Through the cipher -/

/-- `snow` reads messages of at most 65535 bytes, so that their plaintexts are no longer. -/
def ReadsNoiseMessages (cipher : TransportCipher) : Prop :=
  ∀ s data plaintext s', cipher.readMessage s data = (.ok plaintext, s') →
    plaintext.length ≤ NOISE_MAX_MESSAGE

theorem decryptFrame_of_ok {session : NoiseSession cipher} {frame plaintext : Bytes}
    {transport : cipher.State}
    (h : cipher.readMessage session.transport frame = (.ok plaintext, transport)) :
    decryptFrame session frame
      = ((reassemble session.reassembly plaintext).1,
        { session with
          transport := transport
          reassembly := (reassemble session.reassembly plaintext).2 }) := by
  rw [decryptFrame, h]

/-- The answers to frames are those of the reassembly to their plaintexts. -/
theorem outputs_decryptFrame : ∀ (data plaintexts : List Bytes) (session : NoiseSession cipher),
    Machine.outputs cipher.readMessage session.transport data = plaintexts.map .ok →
    Machine.outputs decryptFrame session data
      = Machine.outputs reassemble session.reassembly plaintexts
    ∧ (Machine.final decryptFrame session data).reassembly
        = Machine.final reassemble session.reassembly plaintexts
    ∧ (Machine.final decryptFrame session data).transport
        = Machine.final cipher.readMessage session.transport data
  | [], [], _, _ => ⟨rfl, rfl, rfl⟩
  | frame :: data, plaintext :: plaintexts, session, h => by
    rw [Machine.outputs_cons, List.map_cons, List.cons.injEq] at h
    obtain ⟨hfirst, hrest⟩ := h
    have hread : cipher.readMessage session.transport frame
        = (.ok plaintext, (cipher.readMessage session.transport frame).2) :=
      Prod.ext hfirst rfl
    have hstep := decryptFrame_of_ok hread
    obtain ⟨hout, hopen, htransport⟩ := outputs_decryptFrame data plaintexts
      (decryptFrame session frame).2 (by rw [hstep]; exact hrest)
    rw [Machine.outputs_cons, Machine.final_cons, Machine.outputs_cons, Machine.final_cons,
      Machine.final_cons, hout, hopen, htransport, hstep]
    exact ⟨rfl, rfl, rfl⟩

theorem plaintext_length_le (hreads : ReadsNoiseMessages cipher) :
    ∀ (data plaintexts : List Bytes) (s : cipher.State),
    Machine.outputs cipher.readMessage s data = plaintexts.map .ok →
    ∀ plaintext ∈ plaintexts, plaintext.length ≤ NOISE_MAX_MESSAGE
  | [], [], _, _, _, hp => nomatch hp
  | frame :: data, plaintext :: plaintexts, s, h, p, hp => by
    rw [Machine.outputs_cons, List.map_cons, List.cons.injEq] at h
    rcases List.mem_cons.mp hp with rfl | hp
    · exact hreads s frame p _ (Prod.ext h.1 rfl)
    · exact plaintext_length_le hreads data plaintexts _ h.2 p hp

theorem heldBytes_decryptFrame (session : NoiseSession cipher) (frame : Bytes)
    (h : (heldBytes session.reassembly).length ≤ NOISE_MAX_REASSEMBLY) :
    (heldBytes (decryptFrame session frame).2.reassembly).length ≤ NOISE_MAX_REASSEMBLY := by
  rcases hread : cipher.readMessage session.transport frame with ⟨err | plaintext, transport⟩
  · rw [decryptFrame, hread]
    exact h
  · rw [decryptFrame_of_ok hread]
    exact heldBytes_reassemble plaintext h

/--
**Reassembly accepts exactly its grammar and keeps its cap.**

For frames that decrypt to `plaintexts`, into a session that holds nothing:

* As long as no call has failed, the plaintexts are whole words and the frames of one that has begun,
  and the messages returned are those of the words.
* Plaintexts of that form fail no call and return those messages. The next call then fails exactly
  when its frame leaves the language, which is for one of the reasons in `Leaves`.

For any frames at all, failed calls included:

* What is held is within the budget.
* A frame that takes the message over the budget fails, and nothing is held after it.
-/
theorem reassembly_accepts_grammar (hreads : ReadsNoiseMessages cipher)
    (session : NoiseSession cipher) (hclosed : session.reassembly = none) :
    (∀ data plaintexts,
      Machine.outputs cipher.readMessage session.transport data = plaintexts.map .ok →
      ((∀ r ∈ Machine.outputs decryptFrame session data, ¬ Failed r) →
        ∃ (words : List Word) (part : Option Chunks), (∀ w ∈ words, w.Fits)
          ∧ (partBytes part).length ≤ NOISE_MAX_REASSEMBLY
          ∧ plaintexts = words.flatMap Word.frames ++ partFrames part
          ∧ delivered (Machine.outputs decryptFrame session data) = words.map Word.message)
      ∧ (∀ (words : List Word) (part : Option Chunks), (∀ w ∈ words, w.Fits) →
        (partBytes part).length ≤ NOISE_MAX_REASSEMBLY →
        plaintexts = words.flatMap Word.frames ++ partFrames part →
        (∀ r ∈ Machine.outputs decryptFrame session data, ¬ Failed r)
        ∧ delivered (Machine.outputs decryptFrame session data) = words.map Word.message
        ∧ ∀ frame plaintext transport,
          cipher.readMessage (Machine.final decryptFrame session data).transport frame
            = (.ok plaintext, transport) →
          (Failed (decryptFrame (Machine.final decryptFrame session data) frame).1
            ↔ ¬ Readable (plaintexts ++ [plaintext]))
          ∧ (Failed (decryptFrame (Machine.final decryptFrame session data) frame).1
            ↔ Leaves part plaintext)))
    ∧ ∀ data,
      (heldBytes (Machine.final decryptFrame session data).reassembly).length
        ≤ NOISE_MAX_REASSEMBLY
      ∧ ∀ frame marker body transport,
        cipher.readMessage (Machine.final decryptFrame session data).transport frame
          = (.ok (marker :: body), transport) →
        marker ∈ [FRAME_FIRST_JSON, FRAME_FIRST_BINARY, FRAME_MORE, FRAME_LAST] →
        NOISE_MAX_REASSEMBLY
          < (heldBytes (Machine.final decryptFrame session data).reassembly ++ body).length →
        Failed (decryptFrame (Machine.final decryptFrame session data) frame).1
        ∧ (decryptFrame (Machine.final decryptFrame session data) frame).2.reassembly = none := by
  refine ⟨fun data plaintexts hdec => ?_, fun data => ⟨?_, ?_⟩⟩
  · obtain ⟨hout, hopen, -⟩ := outputs_decryptFrame data plaintexts session hdec
    -- a frame bounds its plaintext, which is what leaves room for the budget
    have hsize := plaintext_length_le hreads data plaintexts session.transport hdec
    rw [hclosed] at hout hopen
    refine ⟨fun hok => ?_, fun words part hfits hpart hread => ⟨?_, ?_, ?_⟩⟩
    · rw [hout] at hok
      obtain ⟨words, part, hfits, hpart, hread⟩ := reassemble_sound hsize hok
      refine ⟨words, part, hfits, hpart, hread, ?_⟩
      rw [hout, hread]
      exact (outputs_words_part hfits hpart).2.1
    · rw [hout, hread]
      exact (outputs_words_part hfits hpart).1
    · rw [hout, hread]
      exact (outputs_words_part hfits hpart).2.1
    · intro frame plaintext transport hframe
      -- the next frame fails exactly where it leaves what is held without a reading
      have hleaves : Failed (decryptFrame (Machine.final decryptFrame session data) frame).1
          ↔ Leaves part plaintext := by
        rw [decryptFrame_of_ok hframe, hopen, hread, (outputs_words_part hfits hpart).2.2]
        exact failed_reassemble_iff part plaintext
      refine ⟨?_, hleaves⟩
      rw [hleaves, hread]
      exact leaves_iff_not_readable hfits hpart (hreads _ _ _ _ hframe)
  · refine Machine.final_invariant
      (P := fun s : NoiseSession cipher => (heldBytes s.reassembly).length ≤ NOISE_MAX_REASSEMBLY)
      heldBytes_decryptFrame data ?_
    rw [hclosed]
    simp [heldBytes]
  · intro frame marker body transport hframe hmarker hcap
    obtain ⟨part, hpart⟩ :=
      Chunks.exists_held (Machine.final decryptFrame session data).reassembly
    rw [hpart, heldBytes_held] at hcap
    rw [decryptFrame_of_ok hframe, hpart]
    exact reassemble_overCap hmarker hcap

theorem readsNoiseMessages_countingCipher : ReadsNoiseMessages countingCipher := by
  rintro ⟨m, s⟩ data plaintext s' hread
  simp only [countingCipher] at hread
  split at hread
  · next h =>
    cases hread
    exact (List.length_take_le' _ _).trans h.1
  · cases hread

/-- A message in two chunks, after which a middle chunk fails. -/
theorem reassembly_accepts_grammar_two_chunks :
    let data := [FRAME_FIRST_JSON :: 7 :: countingTag 0, FRAME_LAST :: 8 :: countingTag 1]
    delivered (Machine.outputs decryptFrame (countingSession 0 0) data) = [([7, 8], true)]
    ∧ Failed (decryptFrame (Machine.final decryptFrame (countingSession 0 0) data)
        (FRAME_MORE :: countingTag 2)).1 := by
  have h := ((reassembly_accepts_grammar readsNoiseMessages_countingCipher (countingSession 0 0) rfl).1
    [FRAME_FIRST_JSON :: 7 :: countingTag 0, FRAME_LAST :: 8 :: countingTag 1]
    [[FRAME_FIRST_JSON, 7], [FRAME_LAST, 8]] rfl).2
    [.chunked ⟨true, [7], []⟩ [8]] none
    (by simp [Word.Fits, Word.payload, Chunks.bytes, NOISE_MAX_REASSEMBLY])
    (by simp [partBytes]) rfl
  exact ⟨h.2.1, (h.2.2 (FRAME_MORE :: countingTag 2) [FRAME_MORE] (0, 3) rfl).2.mpr
    (.notOpen FRAME_MORE [] (by simp))⟩

end Thalovant.Noise
