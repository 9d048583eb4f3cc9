import IntScript.Program.Run

/-!
# The command line

The command takes the path of a source file, or the text of a program behind the option
`-e` or `--eval`, which comes before the file.  `CommandLine.parse` reads the arguments from
left to right, and the first that asks for help or for the version, or that is wrong,
decides.  `CommandLine.respond` is the answer of the command.
-/

namespace IntScript.CommandLine

/-- What a command line asks for. -/
inductive Request where
  | help
  | version
  | evaluate (text : String)
  | load (path : String)
deriving DecidableEq, Repr

/-- An argument, by the way it is written. -/
inductive Argument where
  | help
  | version
  /-- The option for the text of a program, which may be attached to it. -/
  | eval (attached? : Option String)
  /-- Two hyphens, behind which every argument is a path. -/
  | separator
  | path (path : String)
  | unknown
deriving DecidableEq, Repr

namespace Argument

/-- Reads an option behind one hyphen; options behind the first one do not count. -/
def ofShort : List Char → Argument
  | 'h' :: _ => .help
  | 'V' :: _ => .version
  | ['e'] => .eval none
  | 'e' :: '=' :: text => .eval (some (String.ofList text))
  | 'e' :: text => .eval (some (String.ofList text))
  | _ => .unknown

/-- Reads an option behind two hyphens, with what stands behind an equality sign. -/
def ofLong (option : List Char) : Argument :=
  match String.ofList (option.takeWhile (· != '=')), option.dropWhile (· != '=') with
  | "help", [] => .help
  | "version", [] => .version
  | "eval", [] => .eval none
  | "eval", _ :: text => .eval (some (String.ofList text))
  | _, _ => .unknown

/-- Reads an argument.  A single hyphen is a path. -/
def ofString (argument : String) : Argument :=
  match argument.toList with
  | ['-', '-'] => .separator
  | '-' :: '-' :: option => ofLong option
  | ['-'] => .path argument
  | '-' :: option => ofShort option
  | _ => .path argument

end Argument

/-- What the arguments so far have given. -/
structure Given where
  text? : Option String
  path? : Option String
deriving DecidableEq, Repr

namespace Given

/-- Nothing. -/
def nothing : Given :=
  ⟨none, none⟩

/-- The path of the program that runs when nothing is given. -/
def defaultPath : String :=
  "program.txt"

/-- What the arguments ask for when there are no more of them. -/
def request (given : Given) : Request :=
  match given.text? with
  | some text => .evaluate text
  | none => .load (given.path?.getD defaultPath)

/-- Gives the text of a program, which can be done once. -/
def addText? (given : Given) (text : String) : Option Given :=
  if given.text?.isSome then none else some { given with text? := some text }

/-- Gives a path, which can be done once and must not be empty. -/
def addPath? (given : Given) (path : String) : Option Given :=
  if given.path?.isSome || path.isEmpty then none else some { given with path? := some path }

end Given

/-- Reads arguments one after another.  A wrong command line asks for nothing. -/
def parseFrom (given : Given) : List String → Option Request
  | [] => some given.request
  | argument :: rest =>
    match Argument.ofString argument with
    | .help => some .help
    | .version => some .version
    | .eval (some text) =>
      match given.addText? text with
      | some given => parseFrom given rest
      | none => none
    | .eval none =>
      match rest with
      | [] => none
      | argument :: rest =>
        match Argument.ofString argument with
        | .path text =>
          match given.addText? text with
          | some given => parseFrom given rest
          | none => none
        | _ => none
    | .separator => (rest.foldlM Given.addPath? given).map Given.request
    | .path path =>
      match given.addPath? path with
      | some given => parseFrom given rest
      | none => none
    | .unknown => none

/-- What a command line asks for, or `none` if it is wrong. -/
def parse (arguments : List String) : Option Request :=
  parseFrom .nothing arguments

/-- What the command answers with: bytes for the standard output, and an exit status. -/
structure Response where
  output : List UInt8
  status : UInt8

namespace Response

/-- The answer that consists of a text. -/
def ofString (text : String) : Response :=
  ⟨Text.encode text.toList, 0⟩

/-- The answer to a wrong command line. -/
def refusal : Response :=
  ⟨[], 2⟩

/-- The answer to a run: the output of the program, and behind it the text of the failure if
there was one.  Failures of programs do not show in the exit status. -/
def ofOutcome (outcome : Outcome Failure Unit) : Response :=
  match outcome.result with
  | .ok () => ⟨outcome.sink.accepted.toList, 0⟩
  | .error failure =>
    ⟨outcome.sink.accepted.toList ++ Text.encode (failure.message.toList ++ ['\n']), 0⟩

end Response

/-- The text that describes the command. -/
def usage : String :=
  String.join <| List.map (· ++ "\n")
    ["An interpreter for a tiny line-oriented integer scripting language.",
      "",
      "Usage: numscript [OPTIONS] [PATH]",
      "",
      "Arguments:",
      "  [PATH]  The program file to run [default: program.txt]",
      "",
      "Options:",
      "  -e, --eval <SOURCE>  Runs this program text instead of reading a file",
      "  -h, --help           Print help",
      "  -V, --version        Print version"]

/-- The text that names the command and its version. -/
def versionLine : String :=
  "numscript 0.1.0\n"

/-- Answers a request, given what paths lead to and the standard input. -/
def respond (openFile : String → Except FileError (List UInt8)) (input : List UInt8) :
    Option Request → Response
  | none => .refusal
  | some .help => .ofString usage
  | some .version => .ofString versionLine
  | some (.evaluate text) => .ofOutcome (Program.runText text .unlimited (.ofBytes input))
  | some (.load path) =>
    .ofOutcome (Program.runFile path (openFile path) .unlimited (.ofBytes input))

end IntScript.CommandLine
