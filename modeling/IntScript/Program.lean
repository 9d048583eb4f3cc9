import IntScript.Statement
import IntScript.Token.Adjacency
import IntScript.Token.SelfCall

/-!
# Programs

A program is a tree whose root has one child for each line that holds a statement.
`Program.ofTokens` makes the tree of a program from its tokens.  Tokens that cannot stand
next to each other are found first, then definitions that call themselves, and then whatever
else is wrong with a statement, line by line.
-/

namespace IntScript.Program

/-- The root of a program with the given statements. -/
def ofStatements (statements : List Node) : Node :=
  ⟨.root, "", 0, statements⟩

/-- The statements on the given lines, behind the statements `done`, of which the last one
comes first. -/
def statementsFrom (done : List Node) : List (List Token) → Except SyntaxError (List Node)
  | [] => .ok done.reverse
  | line :: lines =>
    match Statement.ofLine line with
    | .error error => .error error
    | .ok none => statementsFrom done lines
    | .ok (some statement) => statementsFrom (statement :: done) lines

/-- The statements on the given lines. -/
def statements (lines : List (List Token)) : Except SyntaxError (List Node) :=
  statementsFrom [] lines

/-- The program that a list of tokens makes up. -/
def ofTokens (tokens : List Token) : Except SyntaxError Node :=
  match Token.checkAdjacency tokens with
  | .error error => .error error
  | .ok () =>
    match Token.checkSelfCalls tokens with
    | .error error => .error error
    | .ok () => (statements (Token.lines tokens)).map ofStatements

end IntScript.Program
