/-!
# Bytes

Files, requests and responses are bytes. A text stands in them as UTF-8, and
bytes that are not valid UTF-8 are no text.
-/

namespace ProtoSchema

abbrev Bytes := List UInt8

namespace Bytes

def ofText (s : String) : Bytes := s.toUTF8.data.toList

def text? (bytes : Bytes) : Option String := String.fromUTF8? ⟨bytes.toArray⟩

theorem text?_ofText (s : String) : (ofText s).text? = some s := by
  simp only [ofText, text?, Array.toArray_toList]
  exact dif_pos s.isValidUTF8

end Bytes
end ProtoSchema
