import IntScript.Expression

/-!
# Statements

A line holds at most one statement: an assignment `x = e`, a definition `F[x] = e`, `read x`
or `print e`.  `Statement.ofLine` yields its node, which has the line of the first token.
-/

namespace IntScript.Statement

/-- The node of an assignment to a variable. -/
def assignment (name : String) (line : Nat) (value : Node) : Node :=
  ⟨.assignment, "", line, [.leaf .variable name line, value]⟩

/-- The node of the definition of a function. -/
def definition (name : String) (line : Nat) (parameter body : Node) : Node :=
  ⟨.definition, name, line, [parameter, body]⟩

/-- The node of a statement that reads a variable. -/
def read (line : Nat) (target : Node) : Node :=
  ⟨.read, "", line, [target]⟩

/-- The node of a statement that prints a value. -/
def print (line : Nat) (value : Node) : Node :=
  ⟨.print, "", line, [value]⟩

/-- The statement on a line, given as the tokens of the line with the token for its end, or
`none` for a line without any other token. -/
def ofLine : List Token → Except SyntaxError (Option Node)
  | [] => .ok none
  | first :: rest =>
    match first.kind with
    | .variable =>
      match rest with
      | ⟨.equals, _, _, _⟩ :: value =>
        (Expression.parse first.line value).map fun value =>
          some (assignment first.text first.line value)
      | _ => .error (.expectedEquals first.text first.line)
    | .function =>
      match rest with
      | ⟨.opening .square, _, _, _⟩ :: ⟨.variable, parameter, line, _⟩ ::
          ⟨.closing .square, _, _, _⟩ :: ⟨.equals, _, _, _⟩ :: next :: body =>
        (Expression.parse first.line (next :: body)).map fun body =>
          some (definition first.text first.line (.leaf .variable parameter line) body)
      | _ => .error (.invalidDefinition first.line)
    | .read =>
      match rest with
      | [⟨.variable, name, line, _⟩, ⟨.endOfLine, _, _, _⟩] =>
        .ok (some (read first.line (.leaf .variable name line)))
      | _ => .error (.invalidRead first.line)
    | .print =>
      (Expression.parse first.line rest).map fun value => some (print first.line value)
    | .endOfLine => .ok none
    | _ => .error (.unexpected first)

end IntScript.Statement
