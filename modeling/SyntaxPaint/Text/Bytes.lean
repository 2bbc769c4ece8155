/-!
Text as bytes. A text has one UTF-8 form, and `decode?` accepts exactly those forms.
-/

namespace SyntaxPaint.Text

abbrev Bytes := List UInt8

namespace Bytes

def ofString (s : String) : Bytes :=
  s.toByteArray.data.toList

@[simp] theorem length_ofString (s : String) : (ofString s).length = s.utf8ByteSize := by
  rw [ofString, Array.length_toList]
  rfl

def decode? (b : Bytes) : Option String :=
  String.fromUTF8? ⟨b.toArray⟩

@[simp] theorem decode?_ofString (s : String) : decode? (ofString s) = some s := by
  simp [decode?, ofString, String.fromUTF8?, s.isValidUTF8, String.fromUTF8]

theorem eq_ofString_of_decode? {b : Bytes} {s : String} (h : decode? b = some s) :
    b = ofString s := by
  unfold decode? String.fromUTF8? at h
  split at h
  · cases h
    simp [ofString, String.fromUTF8]
  · contradiction

end Bytes

end SyntaxPaint.Text
