import Mathlib.Data.String.Basic

/-!
# Bytes and text

What the modules share: byte strings, and the UTF-8 bytes of a text.
-/

namespace Thalovant

abbrev Bytes := List UInt8

/-- The UTF-8 bytes of a text (`into_bytes`, `as_bytes`). -/
def utf8 (s : String) : Bytes := s.toByteArray.data.toList

theorem utf8_append (s t : String) : utf8 (s ++ t) = utf8 s ++ utf8 t := by
  simp [utf8, String.toByteArray_append]

/-- Different texts have different bytes. -/
theorem utf8_inj {s t : String} : utf8 s = utf8 t ↔ s = t := by
  constructor
  · intro h
    exact String.toByteArray_inj.mp (ByteArray.ext (Array.toList_inj.mp h))
  · exact fun h => h ▸ rfl

/-- The text that bytes are, if they are UTF-8. -/
def fromUtf8 (bytes : Bytes) : Option String := String.fromUTF8? ⟨bytes.toArray⟩

@[simp] theorem fromUtf8_utf8 (text : String) : fromUtf8 (utf8 text) = some text := by
  have hbytes : (⟨(utf8 text).toArray⟩ : ByteArray) = text.toByteArray := by simp [utf8]
  unfold fromUtf8
  rw [hbytes]
  unfold String.fromUTF8?
  rw [dif_pos text.isValidUTF8]
  rfl

theorem utf8_of_fromUtf8 {bytes : Bytes} {text : String} (h : fromUtf8 bytes = some text) :
    utf8 text = bytes := by
  unfold fromUtf8 String.fromUTF8? at h
  split at h
  · cases h
    simp [utf8, String.fromUTF8]
  · cases h

end Thalovant
