import IntScript.SyntaxError

/-!
# Adjacency

Every token restricts the kind of the token behind it.  `Kind.mayPrecede` is the table of
these restrictions, and `checkAdjacency` finds the first token of a list that breaks one.
-/

namespace IntScript.Token

namespace Kind

/-- The kinds that can stand behind an operand; nothing multiplies without an operator. -/
def mayFollowOperand : Kind → Bool
  | .variable | .function | .number | .opening _ | .print | .read => false
  | _ => true

/-- The kinds that can stand first in a line. -/
def startsStatement : Kind → Bool
  | .variable | .function | .print | .read | .endOfLine => true
  | _ => false

/-- Whether a token of this kind must not be the last one. -/
def needsNext : Kind → Bool
  | .function | .equals | .operator _ | .opening _ | .print | .read => true
  | _ => false

/-- Whether a token of the first kind may have one of the second kind behind it.  An
equality sign behind a variable belongs to an assignment, so the variable starts its line. -/
def mayPrecede (startsLine : Bool) : Kind → Kind → Bool
  | .undefined, _ => false
  | .function, next => next == .opening .square
  | .variable, next => next.mayFollowOperand && (next != .equals || startsLine)
  | .number, next | .closing .round, next => next.mayFollowOperand && next != .equals
  | .closing .square, next => next.mayFollowOperand
  | .equals, next | .operator _, next | .opening _, next | .print, next => next.startsValue
  | .read, next => next == .variable
  | .endOfLine, next => next.startsStatement

end Kind

/-- Checks a token against the one behind it. -/
def checkNext (startsLine : Bool) (token : Token) (next? : Option Token) :
    Except SyntaxError Unit :=
  if token.kind = .undefined then
    .error (.unexpected token)
  else
    match next? with
    | none => if token.kind.needsNext then .error (.unexpectedEndOfLine token.line) else .ok ()
    | some next =>
      if token.kind.mayPrecede startsLine next.kind then .ok () else .error (.unexpected next)

/-- Checks every token of a list against the one behind it, where `startsLine` says whether
the first token of the list starts a line. -/
def checkAdjacencyFrom (startsLine : Bool) : List Token → Except SyntaxError Unit
  | [] => .ok ()
  | token :: rest =>
    match checkNext startsLine token rest.head? with
    | .error error => .error error
    | .ok () => checkAdjacencyFrom (token.kind == .endOfLine) rest

/-- Checks that every token of a program may be followed by the one behind it, and reports
the first that may not. -/
def checkAdjacency (tokens : List Token) : Except SyntaxError Unit :=
  checkAdjacencyFrom true tokens

end IntScript.Token
