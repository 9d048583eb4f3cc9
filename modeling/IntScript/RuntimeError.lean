import IntScript.Node

/-!
# Runtime errors

Why a running program stops early.  Every error knows the line of the node that was at
work.
-/

namespace IntScript

/-- What can go wrong with the streams a program reads from and writes to. -/
inductive StreamError where
  /-- A line of the input does not encode a text. -/
  | invalidText
  /-- The output takes no more bytes. -/
  | sinkFull
  /-- The output cannot be flushed. -/
  | flushFailed
deriving DecidableEq, Repr

/-- The text of what went wrong with a stream. -/
def StreamError.message : StreamError → String
  | invalidText => "stream did not contain valid UTF-8"
  | sinkFull => "sink full"
  | flushFailed => "flush failed"

/-- The causes for which a running program stops. -/
inductive RuntimeError where
  | undefinedVariable (name : String) (line : Nat)
  | undefinedFunction (name : String) (line : Nat)
  | duplicateFunction (name : String) (line : Nat)
  /-- A literal or a word of the input that denotes no value. -/
  | invalidNumber (text : String) (line : Nat)
  | divisionByZero (line : Nat)
  | overflow (line : Nat)
  /-- A `read` of a variable behind the last word of the input. -/
  | endOfInput (name : String) (line : Nat)
  /-- A call of a function while its body is being evaluated. -/
  | recursiveCall (name : String) (line : Nat)
  /-- A node that lacks children or the values of its operands. -/
  | malformedTree (line : Nat)
  | stream (cause : StreamError) (line : Nat)
deriving DecidableEq, Repr

namespace RuntimeError

/-- The line an error was met on. -/
def line : RuntimeError → Nat
  | undefinedVariable _ line => line
  | undefinedFunction _ line => line
  | duplicateFunction _ line => line
  | invalidNumber _ line => line
  | divisionByZero line => line
  | overflow line => line
  | endOfInput _ line => line
  | recursiveCall _ line => line
  | malformedTree line => line
  | stream _ line => line

/-- The text of an error behind its line. -/
def reason : RuntimeError → String
  | undefinedVariable name _ => s!"Use of undefined variable '{name}'."
  | undefinedFunction name _ => s!"Function '{name}' is not defined."
  | duplicateFunction name _ => s!"Function '{name}' is already defined."
  | invalidNumber text _ => s!"Invalid number '{text}'."
  | divisionByZero _ => "Division by zero."
  | overflow _ => "Integer overflow while trying to compute result."
  | endOfInput name _ => s!"Unexpected end of input while reading '{name}'."
  | recursiveCall name _ => s!"Recursion is not supported, '{name}' is already running."
  | malformedTree _ => "Malformed program tree."
  | stream cause _ => s!"I/O failure: {cause.message}"

/-- The text of an error. -/
def message (error : RuntimeError) : String :=
  s!"Error on line {error.line}: {error.reason}"

end RuntimeError

/-- An arithmetic error met on a line. -/
def ArithmeticError.on (line : Nat) : ArithmeticError → RuntimeError
  | divisionByZero => .divisionByZero line
  | overflow => .overflow line

/-- The result of an operator on a line. -/
def Operator.applyOn (line : Nat) (op : Operator) (left right : Value) :
    Except RuntimeError Value :=
  (op.apply left right).mapError (ArithmeticError.on line)

/-- What a node of some kind makes of two operands; only operations make anything. -/
def Node.Kind.combine (kind : Node.Kind) (line : Nat) (left right : Value) :
    Except RuntimeError Value :=
  match kind with
  | .operation op => op.applyOn line left right
  | _ => .error (.malformedTree line)

end IntScript
