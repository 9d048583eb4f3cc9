/-!
# Encoding

Texts travel as bytes in the encoding UTF-8.  `encode` writes the bytes of a text, and
`decode?` reads a text from bytes that encode one.
-/

namespace IntScript.Text

/-- The bytes that encode a text. -/
def encode (text : List Char) : List UInt8 :=
  text.flatMap String.utf8EncodeChar

/-- The number of bytes that encode a text. -/
def byteLength (text : List Char) : Nat :=
  (encode text).length

theorem byteLength_cons (c : Char) (text : List Char) :
  byteLength (c :: text) = c.utf8Size + byteLength text
  := by
  rw [byteLength, encode, List.flatMap_cons, List.length_append, String.length_utf8EncodeChar]
  rfl

theorem byteLength_append (front back : List Char) :
  byteLength (front ++ back) = byteLength front + byteLength back
  := by
  rw [byteLength, encode, List.flatMap_append, List.length_append]
  rfl

/-- The text that a list of bytes encodes, if it encodes one. -/
def decode? (bytes : List UInt8) : Option (List Char) :=
  (String.fromUTF8? bytes.toByteArray).map String.toList

/-- Reading undoes writing. -/
theorem decode?_encode (text : List Char) :
  decode? (encode text) = some text
  := by
  have valid : (List.utf8Encode text).IsValidUTF8 := ByteArray.isValidUTF8_utf8Encode
  unfold decode? encode
  simp only [String.fromUTF8?]
  rw [dif_pos (by exact valid)]
  simp only [Option.map_some, Option.some.injEq]
  apply String.ofList_injective
  rw [String.ofList_toList]
  rfl

end IntScript.Text
