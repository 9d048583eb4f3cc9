import IntScript.Value

/-!
# Operators

The five binary operators of the language.  `Operator.exact` is what an operator does to
integers, with the quotient truncated toward zero and the remainder that goes with it, and
`Operator.apply` is what it does to values.
-/

namespace IntScript

/-- A binary operator. -/
inductive Operator where
  | add
  | subtract
  | multiply
  | divide
  | modulo
deriving DecidableEq, Repr

/-- Why an operator has no result. -/
inductive ArithmeticError where
  | divisionByZero
  | overflow
deriving DecidableEq, Repr

namespace Operator

/-- How loosely an operator binds: quotients and products before sums. -/
def precedence : Operator → Nat
  | .multiply | .divide | .modulo => 1
  | .add | .subtract => 2

/-- The operators that have no result when the right operand is zero. -/
def divides : Operator → Bool
  | .divide | .modulo => true
  | _ => false

/-- The exact result of an operator on integers. -/
def exact : Operator → Int → Int → Int
  | .add, m, n => m + n
  | .subtract, m, n => m - n
  | .multiply, m, n => m * n
  | .divide, m, n => m.tdiv n
  | .modulo, m, n => m.tmod n

/-- The exact integer that has to be a value for an operator to succeed: the result, and
for a remainder the quotient it belongs to. -/
def critical : Operator → Int → Int → Int
  | .modulo => exact .divide
  | op => exact op

/-- The result of an operator on values. -/
def apply (op : Operator) (left right : Value) : Except ArithmeticError Value :=
  if op.divides && right.toInt == 0 then
    .error .divisionByZero
  else
    match Value.ofInt? (op.critical left.toInt right.toInt),
      Value.ofInt? (op.exact left.toInt right.toInt) with
    | some _, some result => .ok result
    | _, _ => .error .overflow

end Operator

end IntScript
