import IntScript.RuntimeError
import IntScript.Text.Blank
import IntScript.Text.Encoding

/-!
# Input

The input of a program is read word by word.  It is taken a line at a time, and a line only
when no word of the line before is left.  A line that does not encode a text is taken whole
and lost.
-/

namespace IntScript

/-- An input that is being read word by word. -/
structure Input where
  /-- The lines that have not been taken, with their newlines. -/
  lines : List (List UInt8)
  /-- The words that are left of the last line taken. -/
  pending : List String
  /-- How many bytes the lines taken so far had. -/
  consumed : Nat
deriving Repr

namespace Input

/-- An input of which nothing has been read. -/
def ofBytes (bytes : List UInt8) : Input :=
  ⟨segments (· == 0x0A) bytes, [], 0⟩

/-- The words of a line, if it encodes a text. -/
def wordsOfLine? (line : List UInt8) : Option (List String) :=
  (Text.decode? line).map fun text => (Text.words text).map String.ofList

/-- Takes lines up to the first that has a word or encodes no text. -/
def takeLines (consumed : Nat) :
    List (List UInt8) → EStateM.Result StreamError Input (Option String)
  | [] => .ok none ⟨[], [], consumed⟩
  | line :: lines =>
    match wordsOfLine? line with
    | none => .error .invalidText ⟨lines, [], consumed + line.length⟩
    | some [] => takeLines (consumed + line.length) lines
    | some (word :: pending) => .ok (some word) ⟨lines, pending, consumed + line.length⟩

/-- Reads the next word, or `none` when there is no more. -/
def nextWord (input : Input) : EStateM.Result StreamError Input (Option String) :=
  match input.pending with
  | word :: pending => .ok (some word) { input with pending := pending }
  | [] => takeLines input.consumed input.lines

end Input

end IntScript
