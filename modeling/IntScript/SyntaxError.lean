import IntScript.Token

/-!
# Syntax errors

Why a list of tokens is no program.  Every error knows the line it was found on, and those
that blame a single token know its column.
-/

namespace IntScript

/-- The causes for which a program is rejected before it runs. -/
inductive SyntaxError where
  /-- A character that the language does not know. -/
  | unexpectedSymbol (symbol : String) (line column : Nat)
  /-- A token that cannot stand behind the one before it. -/
  | unexpectedToken (token : String) (line column : Nat)
  /-- A line that ends where something has to follow. -/
  | unexpectedEndOfLine (line : Nat)
  /-- A statement that starts with a variable and is no assignment. -/
  | expectedEquals (name : String) (line : Nat)
  /-- A statement that starts with a function and is no definition. -/
  | invalidDefinition (line : Nat)
  /-- A `read` that names anything but one variable. -/
  | invalidRead (line : Nat)
  /-- A bracket without its partner. -/
  | mismatchedBracket (line : Nat)
  /-- An expression whose operators and operands do not add up to one value. -/
  | invalidExpression (line : Nat)
  /-- A definition that calls the function it defines. -/
  | recursiveDefinition (name : String) (line column : Nat)
deriving DecidableEq, Repr

namespace SyntaxError

/-- The line an error was found on. -/
def line : SyntaxError → Nat
  | unexpectedSymbol _ line _ => line
  | unexpectedToken _ line _ => line
  | unexpectedEndOfLine line => line
  | expectedEquals _ line => line
  | invalidDefinition line => line
  | invalidRead line => line
  | mismatchedBracket line => line
  | invalidExpression line => line
  | recursiveDefinition _ line _ => line

/-- The column of the token that an error blames, if it blames one. -/
def column? : SyntaxError → Option Nat
  | unexpectedSymbol _ _ column => some column
  | unexpectedToken _ _ column => some column
  | recursiveDefinition _ _ column => some column
  | _ => none

/-- The text of an error behind its place. -/
def reason : SyntaxError → String
  | unexpectedSymbol symbol _ _ => s!"Unexpected symbol '{symbol}'."
  | unexpectedToken token _ _ => s!"Unexpected token '{token}'."
  | unexpectedEndOfLine _ => "Unexpected end of line."
  | expectedEquals name _ => s!"Expected '=' after variable '{name}'."
  | invalidDefinition _ => "Invalid function definition syntax. Example: F[x] = x * x"
  | invalidRead _ => "read accepts exactly one variable."
  | mismatchedBracket _ => "Mismatched bracket or parenthesis."
  | invalidExpression _ => "Invalid syntax."
  | recursiveDefinition name _ _ => s!"Recursion is not supported, '{name}' calls itself."

/-- The place of an error: its line, and its column if it has one. -/
def place (error : SyntaxError) : String :=
  match error.column? with
  | some column => s!"line {error.line}, column {column}"
  | none => s!"line {error.line}"

/-- The text of an error. -/
def message (error : SyntaxError) : String :=
  s!"Error on {error.place}: {error.reason}"

/-- The error for a token that stands where it must not. -/
def unexpected (token : Token) : SyntaxError :=
  match token.kind with
  | .endOfLine => unexpectedEndOfLine token.line
  | .undefined => unexpectedSymbol token.text token.line token.column
  | _ => unexpectedToken token.text token.line token.column

end SyntaxError

end IntScript
