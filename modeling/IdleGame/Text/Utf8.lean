/-!
# UTF-8

Texts as bytes.
-/

namespace IdleGame.Text

/-- The bytes of a text. -/
def encodeUtf8 (text : List Char) : List UInt8 := (String.ofList text).toUTF8.toList

/-- The text that bytes encode, if they encode one. -/
def decodeUtf8? (bytes : List UInt8) : Option (List Char) :=
  (String.fromUTF8? ⟨bytes.toArray⟩).map String.toList

@[simp] theorem decodeUtf8?_nil : decodeUtf8? [] = some [] := by
  decide +kernel

end IdleGame.Text
