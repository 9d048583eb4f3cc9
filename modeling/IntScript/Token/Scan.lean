import IntScript.Text.Blank
import IntScript.Text.Encoding
import IntScript.Token

/-!
# Scanning

`Token.scan` turns source lines into tokens.  A line is cut into lexemes: the maximal runs
of small letters, of capital letters, of digits and of blanks, and every other character by
itself.  Each lexeme that is not blank becomes a token at the column of its first
character, and the end of the line becomes a token one column behind the last character.

Lexemes are found at bytes of the encoded line, and columns count characters.  A `Cursor`
therefore reads the line along with its lexemes, and counts the characters that it passes.
-/

namespace IntScript.Token

/-- The classes of characters that matter for cutting a line into lexemes. -/
inductive CharClass where
  | small
  | capital
  | digit
  | blank
  /-- A character that is a lexeme by itself. -/
  | solitary
deriving DecidableEq, Repr

/-- The class of a character. -/
def CharClass.of (c : Char) : CharClass :=
  if c.isLower then .small
  else if c.isUpper then .capital
  else if c.isDigit then .digit
  else if Text.isBlank c then .blank
  else .solitary

/-- Two neighbours belong to the same lexeme when they have the same class and are not
lexemes by themselves. -/
def sameLexeme (a b : Char) : Bool :=
  CharClass.of a == CharClass.of b && CharClass.of a != .solitary

/-- The lexemes of a line, blank ones included. -/
def lexemes (line : List Char) : List (List Char) :=
  line.splitBy sameLexeme

/-- The kind of a token that consists of one character and is neither a name nor a number. -/
def Kind.ofSymbol : Char → Kind
  | '=' => .equals
  | '+' => .operator .add
  | '-' => .operator .subtract
  | '*' => .operator .multiply
  | '/' => .operator .divide
  | '%' => .operator .modulo
  | '[' => .opening .square
  | ']' => .closing .square
  | '(' => .opening .round
  | ')' => .closing .round
  | _ => .undefined

/-- The kind of a run of small letters. -/
def Kind.ofWord (word : List Char) : Kind :=
  if word = ['p', 'r', 'i', 'n', 't'] then .print
  else if word = ['r', 'e', 'a', 'd'] then .read
  else .variable

/-- The kind of the token that a lexeme becomes, or `none` for a blank lexeme. -/
def Kind.ofLexeme? : List Char → Option Kind
  | [] => none
  | c :: rest =>
    match CharClass.of c with
    | .small => some (ofWord (c :: rest))
    | .capital => some .function
    | .digit => some .number
    | .blank => none
    | .solitary => some (ofSymbol c)

/-- Lexemes paired with the places at which they start, if the first one starts at the given
place and each takes as many places as its size. -/
def placedFrom (size : List Char → Nat) (start : Nat) (lexemes : List (List Char)) :
    List (List Char × Nat) :=
  lexemes.zip (lexemes.scanl (fun place lexeme => place + size lexeme) start)

/-- A lexeme that becomes a token, with the kind of this token and the byte of the line at
which the lexeme starts. -/
structure ByteSpan where
  kind : Kind
  lexeme : List Char
  start : Nat

/-- The span of a lexeme that starts at the given byte, or `none` for a blank lexeme. -/
def ByteSpan.ofLexeme? : List Char × Nat → Option ByteSpan
  | (lexeme, start) => (Kind.ofLexeme? lexeme).map fun kind => ⟨kind, lexeme, start⟩

/-- The spans of a line. -/
def byteSpans (line : List Char) : List ByteSpan :=
  (placedFrom Text.byteLength 0 (lexemes line)).filterMap ByteSpan.ofLexeme?

/-- A place in a line: how many bytes and how many characters lie behind it, and the text
ahead of it. -/
structure Cursor where
  bytes : Nat
  characters : Nat
  ahead : List Char

/-- The cursor that comes to the given byte when it reads a text. -/
def Cursor.reading (start bytes characters : Nat) : List Char → Cursor
  | [] => ⟨bytes, characters, []⟩
  | c :: ahead =>
    if bytes < start then reading start (bytes + c.utf8Size) (characters + 1) ahead
    else ⟨bytes, characters, c :: ahead⟩

/-- Moves a cursor forward to the given byte. -/
def Cursor.moveTo (start : Nat) (cursor : Cursor) : Cursor :=
  reading start cursor.bytes cursor.characters cursor.ahead

/-- Adds the token of a span to the tokens before it, of which the last one comes first, and
moves the cursor to its start. -/
def scanSpan (line : Nat) : List Token × Cursor → ByteSpan → List Token × Cursor
  | (tokens, cursor), span =>
    let cursor := cursor.moveTo span.start
    (⟨span.kind, String.ofList span.lexeme, line, cursor.characters + 1⟩ :: tokens, cursor)

/-- The tokens of a line, closed by the token for its end. -/
def scanLine (line : Nat) (text : List Char) : List Token :=
  let (tokens, cursor) := (byteSpans text).foldl (scanSpan line) ([], ⟨0, 0, text⟩)
  (⟨.endOfLine, "", line, cursor.characters + cursor.ahead.length + 1⟩ :: tokens).reverse

/-- The tokens of a source text given as its lines, which are counted from one. -/
def scan (lines : List String) : List Token :=
  (lines.zipIdx 1).flatMap fun (text, line) => scanLine line text.toList

end IntScript.Token
