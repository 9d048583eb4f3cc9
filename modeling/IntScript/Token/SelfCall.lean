import IntScript.Segment
import IntScript.SyntaxError

/-!
# Self calls

A line that starts with a function defines it, and the same function further along the line
is a call of itself.  `checkSelfCalls` finds the first such call.
-/

namespace IntScript.Token

/-- The lines of a list of tokens, each with the token for its end if it has one. -/
def lines (tokens : List Token) : List (List Token) :=
  segments (fun token => token.kind == .endOfLine) tokens

/-- The first token of a line that calls the function the line defines. -/
def selfCall? : List Token → Option Token
  | [] => none
  | first :: rest =>
    if first.kind = .function then
      rest.find? fun token => token.kind == .function && token.text == first.text
    else
      none

/-- Checks that no definition calls the function it defines, and reports the first call
that does. -/
def checkSelfCalls (tokens : List Token) : Except SyntaxError Unit :=
  match (lines tokens).findSome? selfCall? with
  | some call => .error (.recursiveDefinition call.text call.line call.column)
  | none => .ok ()

end IntScript.Token
