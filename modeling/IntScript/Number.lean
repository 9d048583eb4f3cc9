import IntScript.Decimal
import IntScript.RuntimeError
import IntScript.Text.Encoding

/-!
# Numbers in programs

How a program meets numbers: `Number.ofLiteral` is the value of a literal in its source,
`Number.ofWord` the value of a word in its input, and `Number.printed` the bytes it prints
for a value.
-/

namespace IntScript.Number

/-- The value of a literal on a line. -/
def ofLiteral (text : String) (line : Nat) : Except RuntimeError Value :=
  match Decimal.literal? text with
  | some value => .ok value
  | none => .error (.invalidNumber text line)

/-- The value of a word of the input that is read on a line. -/
def ofWord (word : String) (line : Nat) : Except RuntimeError Value :=
  match Decimal.signed? word with
  | some value => .ok value
  | none => .error (.invalidNumber word line)

/-- What a value looks like when it is printed: its decimal text and a newline. -/
def printed (value : Value) : List UInt8 :=
  Text.encode (Decimal.ofValue value ++ ['\n'])

end IntScript.Number
