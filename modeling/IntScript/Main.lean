import IntScript.CommandLine

/-!
# The command

Reads the arguments and the source file, and answers as `CommandLine.respond` says.  The
standard input is not touched before the program has read all that was taken from it.  Then
what the program has printed is shown, and more is taken: a line from a terminal, and
everything from other inputs.
-/

namespace IntScript.CommandLine

/-- What a path leads to. -/
def openPath (path : String) : IO (Except FileError (List UInt8)) := do
  try
    let content ← IO.FS.readBinFile path
    return .ok content.toList
  catch
    | .inappropriateType _ 21 _ => return .error .isADirectory
    | .inappropriateType _ _ _ => return .error .notADirectory
    | _ => return .error .notFound

/-- Takes bytes from an input up to its end, or up to the end of a line. -/
partial def takeBytes (input : IO.FS.Stream) (untilLine : Bool) (taken : ByteArray) :
    IO ByteArray := do
  let bytes ← input.read (if untilLine then 1 else 4096)
  let taken := taken ++ bytes
  if bytes.isEmpty || (untilLine && bytes.toList == [0x0A]) then
    return taken
  takeBytes input untilLine taken

/-- Whether a run stopped because it had read all of its input. -/
def wantsInput (outcome : Outcome Failure Unit) : Bool :=
  match outcome.result with
  | .error (.stopped (.endOfInput _ _)) => true
  | _ => false

/-- Runs a program again with more input as long as it wants some.  The output of the runs
before, which showed `shown` bytes, is where the output of the next one begins. -/
partial def converse (program : Input → Outcome Failure Unit) (shown : Nat)
    (taken : ByteArray) : IO Unit := do
  let input ← IO.getStdin
  let output ← IO.getStdout
  let outcome := program (.ofBytes taken.toList)
  let more ← if wantsInput outcome then do
      output.write ⟨outcome.sink.accepted.extract shown outcome.sink.accepted.size⟩
      output.flush
      takeBytes input (← input.isTty) .empty
    else
      pure .empty
  if more.isEmpty then
    let shown := if wantsInput outcome then outcome.sink.accepted.size else shown
    output.write ⟨((Response.ofOutcome outcome).output.drop shown).toArray⟩
  else
    converse program outcome.sink.accepted.size (taken ++ more)

end IntScript.CommandLine

open IntScript IntScript.CommandLine in
/-- Runs the command. -/
def main (arguments : List String) : IO UInt32 := do
  match parse arguments with
  | some (.evaluate text) =>
    converse (Program.runText text .unlimited) 0 .empty
    return 0
  | some (.load path) => do
    let opened ← openPath path
    converse (Program.runFile path opened .unlimited) 0 .empty
    return 0
  | request =>
    let response := respond (fun _ => .error .notFound) [] request
    (← IO.getStdout).write ⟨response.output.toArray⟩
    return response.status.toUInt32
