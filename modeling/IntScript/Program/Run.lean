import IntScript.Program
import IntScript.Program.Execution
import IntScript.SourceFile
import IntScript.Token.Scan

/-!
# Running programs

A program is run from its lines, from its text or from a source file.  `Failure` is
whatever can go wrong on the way, and `Failure.message` is what the user is told of it.
-/

namespace IntScript

/-- Why a run did not end well. -/
inductive Failure where
  /-- The source file could not be read. -/
  | unreadable (path : String) (cause : FileError)
  /-- The source is no program. -/
  | rejected (error : SyntaxError)
  /-- The program stopped early. -/
  | stopped (error : RuntimeError)
deriving DecidableEq, Repr

/-- The text of a failure. -/
def Failure.message : Failure → String
  | unreadable path cause => s!"Couldn't open '{path}' for reading: {cause.message}"
  | rejected error => error.message
  | stopped error => error.message

namespace Program

/-- Runs the program on the given lines. -/
def runLines (lines : List String) (sink : Sink) (input : Input) : Outcome Failure Unit :=
  match ofTokens (Token.scan lines) with
  | .error error => ⟨.error (.rejected error), sink, input⟩
  | .ok root =>
    match execute root sink input with
    | ⟨.ok _, sink, input⟩ => ⟨.ok (), sink, input⟩
    | ⟨.error error, sink, input⟩ => ⟨.error (.stopped error), sink, input⟩

/-- Runs the program that a text holds. -/
def runText (text : String) (sink : Sink) (input : Input) : Outcome Failure Unit :=
  runLines ((Text.lines text.toList).map String.ofList) sink input

/-- Runs the program in a source file, given what the path to it leads to. -/
def runFile (path : String) (opened : Except FileError (List UInt8)) (sink : Sink)
    (input : Input) : Outcome Failure Unit :=
  match SourceFile.lines opened with
  | .error cause => ⟨.error (.unreadable path cause), sink, input⟩
  | .ok lines => runLines lines sink input

end Program

end IntScript
