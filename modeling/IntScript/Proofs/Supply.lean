import IntScript.CommandLine
import IntScript.Proofs.Arity
import IntScript.Proofs.LineEnds
import IntScript.Proofs.Steps

/-!
# Ways to supply a program

A program can be supplied as its lines, as a text, as a file that holds the bytes of this text, and
on the command line.  Main statement: however it is supplied, it does the same, and so does the
text with carriage returns in front of its newlines; and the command shows what the program has
printed and why it has failed.
-/

namespace IntScript

namespace Program

/-- What runs is the tree that the tokens of the lines make up. -/
theorem runLines_congr {lines lines' : List String}
    (same : ofTokens (Token.scan lines) = ofTokens (Token.scan lines')) (sink : Sink)
    (input : Input) :
  runLines lines sink input = runLines lines' sink input
  := by
  rw [runLines, runLines, same]

/-- The file that holds the bytes of a text runs like the text. -/
theorem runFile_encode (path text : String) (sink : Sink) (input : Input) :
  runFile path (.ok (Text.encode text.toList)) sink input = runText text sink input
  := by
  rw [runFile, SourceFile.lines, SourceFile.lines?_encode, runText]

/-- A text with carriage returns in front of its newlines runs like the text. -/
theorem runText_withReturns (text : String) (sink : Sink) (input : Input) :
  runText (String.ofList (Text.withReturns text.toList)) sink input = runText text sink input
  := by
  obtain ⟨lines, hasLines, same⟩ := (Text.hasLines_lines text.toList).withReturns
  obtain rfl := hasLines.eq_lines
  rw [runText, runText, String.toList_ofList]
  apply runLines_congr (Token.ofTokens_scan_congr same)

end Program

namespace CommandLine

/-- The answer shows a run: all that the program has printed and, if it has failed, the text of
the failure on a line behind it. -/
structure Response.Shows (response : Response) (outcome : Outcome Failure Unit) : Prop where
  status : response.status = 0
  finished : outcome.result = .ok () → response.output = outcome.sink.accepted.toList
  failed : ∀ failure, outcome.result = .error failure →
    response.output
      = outcome.sink.accepted.toList ++ Text.encode (failure.message.toList ++ ['\n'])

/-- The answer to a run shows this run. -/
theorem Response.shows_ofOutcome (outcome : Outcome Failure Unit) :
  (Response.ofOutcome outcome).Shows outcome
  := by
  obtain ⟨result, sink, input⟩ := outcome
  cases result with
  | ok => exact ⟨rfl, fun _ => rfl, nofun⟩
  | error failure =>
    refine ⟨rfl, nofun, ?_⟩
    rintro _ ⟨⟩
    rfl

/-- The arguments supply the text of a program: it stands among them, or they name a file that
holds it. -/
inductive Supplies (openFile : String → Except FileError (List UInt8)) (arguments : List String)
    (text : String) : Prop where
  | text (given : parse arguments = some (.evaluate text)) : Supplies openFile arguments text
  | file {path : String} (given : parse arguments = some (.load path))
      (holds : openFile path = .ok (Text.encode text.toList)) : Supplies openFile arguments text

/-- Every text can stand behind the option for it. -/
theorem parse_eval (text : String) :
  parse ["--eval=" ++ text] = some (.evaluate text)
  := by
  have spelled : ("--eval=" ++ text).toList
      = '-' :: '-' :: 'e' :: 'v' :: 'a' :: 'l' :: '=' :: text.toList := String.toList_append
  have attached : Argument.ofString ("--eval=" ++ text) = .eval (some text) := by
    rw [Argument.ofString, spelled]
    simp [Argument.ofLong]
  rw [parse, parseFrom, attached]
  rfl

/-- The command shows the run of the program that its arguments supply. -/
theorem shows_of_supplies
    {openFile : String → Except FileError (List UInt8)} {arguments : List String} {text : String}
    (supplies : Supplies openFile arguments text) (input : List UInt8) :
  (respond openFile input (parse arguments)).Shows
    (Program.runText text .unlimited (.ofBytes input))
  := by
  cases supplies with
  | text given =>
    rw [given, respond]
    apply Response.shows_ofOutcome
  | file given holds =>
    rw [given, respond, holds, Program.runFile_encode]
    apply Response.shows_ofOutcome

end CommandLine

/-- A program does the same whether it is supplied as its lines, as a text, as a file or with
carriage returns in front of its newlines.  The command shows what the program does that its
arguments supply, and every text can be supplied so. -/
theorem Program.supplied_alike (text : String) :
  ∃ lines : List String,
    (∀ lines' : List String,
      Text.HasLines (lines'.map String.toList) text.toList ↔ lines' = lines)
    ∧ (∀ (sink : Sink) (input : Input),
      runText text sink input = runLines lines sink input
        ∧ (∀ path : String, runFile path (.ok (Text.encode text.toList)) sink input
          = runLines lines sink input)
        ∧ runText (String.ofList (Text.withReturns text.toList)) sink input
          = runLines lines sink input)
    ∧ (∀ openFile arguments input, CommandLine.Supplies openFile arguments text →
      (CommandLine.respond openFile input (CommandLine.parse arguments)).Shows
        (runLines lines .unlimited (.ofBytes input)))
    ∧ CommandLine.parse ["--eval=" ++ text] = some (.evaluate text)
  := by
  refine ⟨(Text.lines text.toList).map String.ofList, Text.hasLines_map_iff text.toList, ?_, ?_,
    CommandLine.parse_eval text⟩
  · intro sink input
    refine ⟨rfl, ?_, ?_⟩
    · intro path
      apply runFile_encode
    · apply runText_withReturns
  · intro openFile arguments input supplies
    apply CommandLine.shows_of_supplies supplies

/-- Without arguments the command runs the file of the default path.  Here the first line ends with
a carriage return of its own, and the second one is no statement; or the first line prints a
number, and the second one divides by zero. -/
theorem Program.supplied_alike_defaultPath :
  (CommandLine.Supplies (fun _ => .ok (Text.encode "a\r\r\n=".toList)) [] "a\r\r\n="
      ∧ (CommandLine.respond (fun _ => .ok (Text.encode "a\r\r\n=".toList)) []
          (CommandLine.parse [])).output
        = Text.encode ("Error on line 2, column 1: Unexpected token '='.".toList ++ ['\n']))
    ∧ CommandLine.Supplies (fun _ => .ok (Text.encode "print 6\r\nprint 7 / 0".toList)) []
      "print 6\r\nprint 7 / 0"
    ∧ (CommandLine.respond (fun _ => .ok (Text.encode "print 6\r\nprint 7 / 0".toList)) []
        (CommandLine.parse [])).output
      = Text.encode ("6\nError on line 2: Division by zero.".toList ++ ['\n'])
  := by
  have given : CommandLine.parse [] = some (.load CommandLine.Given.defaultPath) := rfl
  have supplies (text : String) :
      CommandLine.Supplies (fun _ => .ok (Text.encode text.toList)) [] text := .file given rfl
  refine ⟨⟨supplies _, ?_⟩, supplies _, ?_⟩
  · obtain ⟨lines, -, alike, shows, -⟩ := supplied_alike "a\r\r\n="
    have run := (alike .unlimited (.ofBytes [])).1
    have failed := (shows _ [] [] (supplies _)).failed (.rejected (.unexpectedToken "=" 2 1))
    rw [← run] at failed
    exact failed rfl
  · obtain ⟨lines, -, alike, shows, -⟩ := supplied_alike "print 6\r\nprint 7 / 0"
    have run := (alike .unlimited (.ofBytes [])).1
    let root : Node := ofStatements [
      Statement.print 1 (.leaf .number "6" 1),
      Statement.print 2
        ⟨.operation .divide, "", 2, [.leaf .number "7" 2, .leaf .number "0" 2]⟩]
    have accepted : ofTokens (Token.scan ["print 6", "print 7 / 0"]) = .ok root := rfl
    have executed := execute_of_resultWithin 20 .unlimited (.ofBytes [])
      (isProgram_of_ofTokens accepted).isWellFormed rfl
    have failed := (shows _ [] [] (supplies _)).failed (.stopped (.divisionByZero 2))
    have ran : runLines lines .unlimited (.ofBytes [])
        = runLines ["print 6", "print 7 / 0"] .unlimited (.ofBytes []) := run.symm
    rw [ran, runLines, accepted] at failed
    simp only [executed] at failed
    exact failed rfl

end IntScript
