import IntScript.Value

/-!
# Decimal numbers

Values are written and read in decimal.  A literal is a row of digits, and a signed number
is a row of digits behind at most one sign.  `Decimal.literal?` and `Decimal.signed?` read
them, with any number of leading zeros, as long as the number is the integer of a value.
`Decimal.ofValue` writes a value with the fewest digits, and a sign if it is negative.
-/

namespace IntScript.Decimal

/-- The number that a row of digits denotes, given the number that the digits before it
denote. -/
def numeral (before : Nat) (digits : List Char) : Nat :=
  digits.foldl (fun n c => 10 * n + (c.toNat - '0'.toNat)) before

/-- The number that a text denotes when it is a row of one or more digits. -/
def natural? (text : List Char) : Option Nat :=
  if text ≠ [] ∧ text.all Char.isDigit then some (numeral 0 text) else none

/-- The value of a literal, which has no sign. -/
def literal? (text : String) : Option Value := do
  let n ← natural? text.toList
  Value.ofInt? n

/-- The value of a number with an optional sign. -/
def signed? (text : String) : Option Value :=
  match text.toList with
  | '-' :: digits => do
    let n ← natural? digits
    Value.ofInt? (-n)
  | '+' :: digits => do
    let n ← natural? digits
    Value.ofInt? n
  | digits => do
    let n ← natural? digits
    Value.ofInt? n

/-- The decimal text of an integer. -/
def ofInt (n : Int) : List Char :=
  if n < 0 then '-' :: Nat.toDigits 10 n.natAbs else Nat.toDigits 10 n.natAbs

/-- The decimal text of a value. -/
def ofValue (v : Value) : List Char :=
  ofInt v.toInt

end IntScript.Decimal
