import IntScript.Operator

/-!
# Tokens

A token is a lexeme of the source with its kind and its place.  `Token.Kind` lists the
kinds.  A token of kind `endOfLine` has no text and closes the tokens of its line.
-/

namespace IntScript

/-- The two shapes of brackets: round ones group, square ones hold arguments. -/
inductive Bracket where
  | round
  | square
deriving DecidableEq, Repr

namespace Token

/-- The kinds of tokens. -/
inductive Kind where
  /-- A character that the language does not know. -/
  | undefined
  | function
  | variable
  | number
  | equals
  | operator (op : Operator)
  | opening (bracket : Bracket)
  | closing (bracket : Bracket)
  | print
  | read
  | endOfLine
deriving DecidableEq, Repr

namespace Kind

/-- The kinds of tokens that can begin an operand. -/
def startsValue : Kind → Bool
  | .variable | .function | .number | .opening .round => true
  | _ => false

/-- The kinds of tokens that stand for binary operators. -/
def isOperator : Kind → Bool
  | .operator _ => true
  | _ => false

/-- How loosely a token of this kind binds: a function before the operators, and what is no
operator after them. -/
def precedence : Kind → Nat
  | .function => 0
  | .operator op => op.precedence
  | _ => 3

end Kind

end Token

/-- A lexeme with its kind and the line and column at which it starts, both counted
from one. -/
structure Token where
  kind : Token.Kind
  text : String
  line : Nat
  column : Nat
deriving DecidableEq, Repr

end IntScript
