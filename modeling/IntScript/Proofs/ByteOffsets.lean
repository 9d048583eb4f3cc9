import IntScript.Token.Scan
import Mathlib.Data.List.SplitBy

/-!
# Bytes and characters

Lexemes are found at bytes of the encoded line, and columns count characters.  While the tokens of
a line are made, a cursor stands where the last one starts; it comes to the next one by passing
the characters of that token and the blanks behind it.  Main statement: the tokens of a line are
those of its lexemes, each in the column that follows from how many characters the lexemes before
it have (`scanLine_eq`).
-/

namespace IntScript.Token

/-! ### Columns of lexemes -/

/-- The lexemes of a line paired with the columns at which they start. -/
def placed (lexemes : List (List Char)) : List (List Char × Nat) :=
  placedFrom List.length 1 lexemes

/-- The token that a lexeme becomes in a column of the line with the given number. -/
def ofPlaced? (number : Nat) : List Char × Nat → Option Token
  | (lexeme, column) =>
    (Kind.ofLexeme? lexeme).map fun kind => ⟨kind, String.ofList lexeme, number, column⟩

theorem placedFrom_cons (size : List Char → Nat) (start : Nat) (lexeme : List Char)
    (lexemes : List (List Char)) :
  placedFrom size start (lexeme :: lexemes)
    = (lexeme, start) :: placedFrom size (start + size lexeme) lexemes
  := by
  rw [placedFrom, List.scanl_cons, List.zip_cons_cons, placedFrom]

/-! ### Cursors -/

/-- A cursor passes the text between it and the given byte, and counts its characters. -/
theorem Cursor.reading_append (bytes characters : Nat) (text ahead : List Char) :
  reading (bytes + Text.byteLength text) bytes characters (text ++ ahead)
    = ⟨bytes + Text.byteLength text, characters + text.length, ahead⟩
  := by
  induction text generalizing bytes characters with
  | nil =>
    cases ahead with
    | nil => rfl
    | cons => exact if_neg (Nat.lt_irrefl bytes)
  | cons c text ih =>
    have further : bytes < bytes + Text.byteLength (c :: text) := by
      have := c.utf8Size_pos
      rw [Text.byteLength_cons]
      omega
    rw [List.cons_append, reading, if_pos further, Text.byteLength_cons, ← Nat.add_assoc, ih,
      List.length_cons, Nat.add_assoc characters, Nat.add_comm 1]

/-- A span that starts behind some characters becomes a token in the column that these characters
lead to, and the cursor stands in front of its lexeme. -/
theorem scanSpan_eq
    (number : Nat) (tokens : List Token) (bytes characters : Nat) (between ahead : List Char)
    (kind : Kind) (lexeme : List Char) :
  scanSpan number (tokens, ⟨bytes, characters, between ++ ahead⟩)
      ⟨kind, lexeme, bytes + Text.byteLength between⟩
    = (⟨kind, String.ofList lexeme, number, characters + between.length + 1⟩ :: tokens,
      ⟨bytes + Text.byteLength between, characters + between.length, ahead⟩)
  := by
  rw [scanSpan, Cursor.moveTo, Cursor.reading_append]

/-! ### Lines -/

/-- The tokens of lexemes are made by a cursor with some characters between it and the first
lexeme, which are those of the last token and the blanks behind it.  In the end all characters
are either behind the cursor or ahead of it. -/
theorem foldl_scanSpan
    (number : Nat) (tokens : List Token) (bytes characters : Nat) (between : List Char)
    (lexemes : List (List Char)) :
  ∃ cursor : Cursor,
    ((placedFrom Text.byteLength (bytes + Text.byteLength between) lexemes).filterMap
        ByteSpan.ofLexeme?).foldl (scanSpan number)
        (tokens, ⟨bytes, characters, between ++ lexemes.flatten⟩)
      = (((placedFrom List.length (characters + between.length + 1) lexemes).filterMap
          (ofPlaced? number)).reverse ++ tokens, cursor)
    ∧ cursor.characters + cursor.ahead.length
      = characters + between.length + lexemes.flatten.length
  := by
  induction lexemes generalizing tokens bytes characters between with
  | nil => exact ⟨_, rfl, by simp⟩
  | cons lexeme lexemes ih =>
    simp only [placedFrom_cons, List.flatten_cons, List.filterMap_cons, ByteSpan.ofLexeme?,
      ofPlaced?]
    cases becomes : Kind.ofLexeme? lexeme with
    | none =>
      -- A blank lexeme comes to lie between the cursor and the next lexeme.
      have start : bytes + Text.byteLength between + Text.byteLength lexeme
          = bytes + Text.byteLength (between ++ lexeme) := by
        rw [Text.byteLength_append, Nat.add_assoc]
      have column : characters + between.length + 1 + lexeme.length
          = characters + (between ++ lexeme).length + 1 := by
        rw [List.length_append]
        omega
      obtain ⟨cursor, made, counted⟩ := ih tokens bytes characters (between ++ lexeme)
      rw [start, column, ← List.append_assoc]
      refine ⟨cursor, made, ?_⟩
      rw [counted, List.length_append, List.length_append]
      omega
    | some kind =>
      -- The cursor comes to the lexeme of the token, which lies between it and the next lexeme.
      have column : characters + between.length + 1 + lexeme.length
          = characters + between.length + lexeme.length + 1 := by
        omega
      obtain ⟨cursor, made, counted⟩ :=
        ih (⟨kind, String.ofList lexeme, number, characters + between.length + 1⟩ :: tokens)
          (bytes + Text.byteLength between) (characters + between.length) lexeme
      simp only [Option.map_some, List.foldl_cons, scanSpan_eq, List.reverse_cons,
        List.append_assoc, column]
      refine ⟨cursor, made, ?_⟩
      rw [counted, List.length_append]
      omega

/-- The tokens of a line are its lexemes that are not blank, in the columns of their first
characters, and the end of the line one column behind the last character. -/
theorem scanLine_eq (number : Nat) (text : List Char) :
  scanLine number text
    = (placed (lexemes text)).filterMap (ofPlaced? number)
      ++ [⟨.endOfLine, "", number, text.length + 1⟩]
  := by
  have flat : (lexemes text).flatten = text := List.flatten_splitBy _ _
  obtain ⟨cursor, made, counted⟩ := foldl_scanSpan number [] 0 0 [] (lexemes text)
  rw [flat, List.append_nil] at made
  change (byteSpans text).foldl (scanSpan number) ([], ⟨0, 0, text⟩) = _ at made
  have all : cursor.characters + cursor.ahead.length = text.length := by simpa [flat] using counted
  rw [scanLine, made]
  simp only [all, List.reverse_cons, List.reverse_reverse]
  rfl

end IntScript.Token
