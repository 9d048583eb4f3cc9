import IntScript.Proofs.Segments
import IntScript.Text.Encoding

/-!
# Encoded lines

The bytes of a text are read as that text and as no other, and other bytes are not read at all.
Main statement: the lines of an encoded text are the encodings of its lines, since no newline
hides in the bytes of another character.
-/

namespace IntScript.Text

/-- The valid bytes are those that encode a text. -/
theorem isValidUTF8_iff {bytes : List UInt8} :
  bytes.toByteArray.IsValidUTF8 ↔ ∃ text, bytes = encode text
  := by
  constructor
  · rintro ⟨text, encoded⟩
    exact ⟨text, List.toByteArray_inj.mp encoded⟩
  · rintro ⟨text, rfl⟩
    exact .intro text rfl

/-- Only bytes that encode a text are read. -/
theorem exists_encode_of_decode? {bytes : List UInt8} {text : List Char}
    (decoded : decode? bytes = some text) :
  ∃ text', bytes = encode text'
  := by
  unfold decode? String.fromUTF8? at decoded
  split at decoded
  case isFalse => cases decoded
  case isTrue valid => exact isValidUTF8_iff.mp valid

/-- A list of bytes is read as the text that it encodes. -/
theorem decode?_eq_some_iff {bytes : List UInt8} {text : List Char} :
  decode? bytes = some text ↔ bytes = encode text
  := by
  constructor
  · intro decoded
    obtain ⟨text', rfl⟩ := exists_encode_of_decode? decoded
    rw [decode?_encode] at decoded
    cases decoded
    rfl
  · rintro rfl
    apply decode?_encode

/-- The encoding of a character that is no newline has no newline in it. -/
theorem ne_newline_of_mem_utf8EncodeChar {c : Char} (other : c ≠ '\n') :
  ∀ byte ∈ String.utf8EncodeChar c, byte ≠ 0x0A
  := by
  have code : c.val.toNat ≠ 10 := fun same => other (Char.ext (UInt32.toNat_inj.mp same))
  have bound : c.val.toNat < 4294967296 := c.val.toNat_lt
  have ofNat {n : Nat} (h : n % 256 ≠ 10) : UInt8.ofNat n ≠ 0x0A := by
    intro same
    apply h
    simpa using congrArg UInt8.toNat same
  -- A character has one to four bytes, and all but the only one of an ASCII character are large.
  unfold String.utf8EncodeChar
  dsimp only
  repeat' split
  all_goals
    simp only [List.forall_mem_cons, List.not_mem_nil, false_implies, implies_true, and_true]
    and_intros
    all_goals
      apply ofNat
      omega

/-- The lines of an encoded text are the encodings of its lines. -/
theorem segments_encode (text : List Char) :
  segments (· == 0x0A) (encode text) = (segments (· == '\n') text).map encode
  := by
  apply segments_flatMap
  · intro c other
    simp only [beq_eq_false_iff_ne] at other ⊢
    exact ⟨String.utf8EncodeChar_ne_nil, ne_newline_of_mem_utf8EncodeChar other⟩
  · intro c newline
    rw [beq_iff_eq] at newline
    subst newline
    exact ⟨0x0A, by decide, by decide⟩

end IntScript.Text
