import IntScript.Text.Encoding
import IntScript.Text.Line

/-!
# Source files

A source file is a list of bytes that a path leads to, or a reason why it leads to none.
Its lines are cut at the newlines and decoded one by one.
-/

namespace IntScript

/-- Why a path leads to no source text. -/
inductive FileError where
  | notFound
  | notADirectory
  | isADirectory
  /-- A line of the file does not encode a text. -/
  | invalidText
deriving DecidableEq, Repr

/-- The text of a reason why a path leads to no source text. -/
def FileError.message : FileError → String
  | notFound => "No such file or directory (os error 2)"
  | notADirectory => "Not a directory (os error 20)"
  | isADirectory => "Is a directory (os error 21)"
  | invalidText => "stream did not contain valid UTF-8"

namespace SourceFile

/-- The text of a line of bytes, without its terminator. -/
def line? (bytes : List UInt8) : Option String :=
  (Text.decode? bytes).map fun text => String.ofList (Text.withoutTerminator text)

/-- The lines of a source file, if each of them encodes a text. -/
def lines? (content : List UInt8) : Option (List String) :=
  (segments (· == 0x0A) content).mapM line?

/-- The lines of the source file that a path leads to, given what it leads to. -/
def lines (opened : Except FileError (List UInt8)) : Except FileError (List String) :=
  match opened with
  | .error cause => .error cause
  | .ok content =>
    match lines? content with
    | some lines => .ok lines
    | none => .error .invalidText

end SourceFile

end IntScript
