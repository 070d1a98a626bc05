/-!
# Texts as bytes

Files and messages hold texts in UTF-8.
-/

namespace GeoRules.Text

/-- The bytes of a string. -/
def utf8 (s : String) : List UInt8 := s.toUTF8.data.toList

/-- The string that the bytes encode, if they are valid. -/
def ofUtf8? (bytes : List UInt8) : Option String := String.fromUTF8? ⟨bytes.toArray⟩

@[simp] theorem ofUtf8?_utf8 (s : String) : ofUtf8? (utf8 s) = some s := by
  have h : (⟨(utf8 s).toArray⟩ : ByteArray) = s.toByteArray := by simp [utf8, String.toUTF8]
  simp only [ofUtf8?, h, String.fromUTF8?, s.isValidUTF8, ↓reduceDIte]
  rfl

theorem ofUtf8?_eq_some_iff {bytes : List UInt8} {s : String} :
    ofUtf8? bytes = some s ↔ bytes = utf8 s := by
  refine ⟨fun h => ?_, fun h => h ▸ ofUtf8?_utf8 s⟩
  simp only [ofUtf8?, String.fromUTF8?] at h
  split at h
  · obtain rfl := Option.some.inj h
    simp [utf8, String.toUTF8, String.fromUTF8]
  · exact absurd h (by simp)

end GeoRules.Text
