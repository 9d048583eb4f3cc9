import IntScript.Proofs.Acceptance
import IntScript.Proofs.Bindings

/-!
# The call graph

A function calls another one if the body of its definition contains a call of the other one.
`Calls` is this relation, for any table of definitions, and `Program.definition?` is the
table of the definitions that a program can record, the first ones of each name.  Main
statement: in the call graph of a compiled program no function calls itself, since each call
in the body of a definition is written by a token of its line.
-/

namespace IntScript

/-- The body of the definition of a function contains a call of another one. -/
def Calls (definition? : String → Option Node) (caller callee : String) : Prop :=
  ∃ parameter body call, Records definition? caller parameter body ∧ body.Within call
    ∧ call.kind = .call ∧ call.text = callee

/-- A larger table has a larger call graph. -/
theorem Calls.mono
    {definition? definition?' : String → Option Node} {caller callee : String}
    (calls : Calls definition? caller callee)
    (grows : ∀ name definition, definition? name = some definition →
      definition?' name = some definition) :
  Calls definition?' caller callee
  := by
  obtain ⟨parameter, body, call, records, within, kind, name⟩ := calls
  exact ⟨parameter, body, call, records.mono grows, within, kind, name⟩

/-- Whether a statement defines the function of the given name. -/
def Node.defines (name : String) (statement : Node) : Bool :=
  statement.kind == .definition && statement.text == name

/-- The first definition of a function among the given statements, which is the one that is
recorded when they are performed. -/
def Program.definition? (statements : List Node) (name : String) : Option Node :=
  statements.find? (Node.defines name)

/-- The first definition of a name is a definition of that name. -/
theorem Program.definition?_eq_some {statements : List Node} {name : String} {definition : Node}
    (found : definition? statements name = some definition) :
  definition ∈ statements ∧ definition.kind = .definition ∧ definition.text = name
  := by
  have defines := List.find?_some found
  rw [Node.defines, Bool.and_eq_true, beq_iff_eq, beq_iff_eq] at defines
  exact ⟨List.mem_of_find?_eq_some found, defines⟩

/-! ### Calls and their tokens -/

/-- Every call in a written expression is written by a function token with its name. -/
theorem Expression.Written.exists_function
    {level : Nat} {tokens : List Token} {tree node : Node} (written : Written level tokens tree)
    (within : tree.Within node) (kind : node.kind = .call) :
  ∃ token ∈ tokens, token.kind = .function ∧ token.text = node.text
  := by
  induction written with
  | number | reference =>
    rcases within.eq_or_below with rfl | ⟨child, mem, -⟩
    · cases kind
    · cases mem
  | @call _ _ function _ _ tokens _ functionKind _ _ _ ih =>
    rcases within.eq_or_below with rfl | ⟨child, mem, below⟩
    · exact ⟨function, by simp, functionKind, rfl⟩
    · rw [List.mem_singleton.mp mem] at below
      obtain ⟨token, mem, found⟩ := ih below
      exact ⟨token, by simp [mem], found⟩
  | operation _ _ _ _ _ ihLeft ihRight =>
    rcases within.eq_or_below with rfl | ⟨child, mem, below⟩
    · cases kind
    · rcases List.mem_cons.mp mem with rfl | mem
      · obtain ⟨token, mem, found⟩ := ihLeft below
        exact ⟨token, by simp [mem], found⟩
      · rw [List.mem_singleton.mp mem] at below
        obtain ⟨token, mem, found⟩ := ihRight below
        exact ⟨token, by simp [mem], found⟩
  | bracketed _ _ _ ih =>
    obtain ⟨token, mem, found⟩ := ih within
    exact ⟨token, by simp [mem], found⟩

/-- A line that defines a function and does not name it again writes a body that does not
call it. -/
theorem Statement.Written.ne_of_noSelfCall
    {line : Token.Line} {definition parameter body call : Node}
    (written : Written line.body definition) (noSelfCall : line.NoSelfCall)
    (kind : definition.kind = .definition) (children : definition.children = [parameter, body])
    (within : body.Within call) (callKind : call.kind = .call) :
  call.text ≠ definition.text
  := by
  obtain ⟨tokens, ending⟩ := line
  cases written with
  | definition functionKind openingKind parameterKind closingKind equalsKind written =>
    cases children
    obtain ⟨token, mem, tokenKind, name⟩ := written.exists_function within callKind
    rw [← name]
    apply noSelfCall _ _ rfl functionKind token _ tokenKind
    simp [mem]
  | _ => cases kind

namespace Program

open Token

/-- Every statement of a compiled program is written by a line of it that the grammar allows. -/
theorem exists_line_of_mem
    {tokens : List Token} {root statement : Node} (accepted : ofTokens tokens = .ok root)
    (mem : statement ∈ root.children) :
  ∃ line : Line, line.tokens ∈ Token.lines tokens ∧ line.Allowed
    ∧ Statement.Written line.body statement
  := by
  obtain ⟨lines, rfl, allowed⟩ := exists_allowed_of_ofTokens accepted
  obtain ⟨statements, writes, made⟩ := exists_ofTokens_of_allowed allowed
  rw [made] at accepted
  cases accepted
  obtain ⟨body, bodyMem, written⟩ := exists_of_mem_right writes mem
  obtain ⟨line, lineMem, rfl⟩ := List.mem_map.mp (List.mem_of_mem_filter bodyMem)
  refine ⟨line, ?_, allowed line lineMem, written⟩
  rw [Line.lines_flatMap_tokens (fun line mem => (allowed line mem).ending)
    (fun line mem => (allowed line mem).inside)]
  apply List.mem_map_of_mem lineMem

/-- In the call graph of a compiled program no function calls itself. -/
theorem not_calls_self
    {tokens : List Token} {root : Node} (accepted : ofTokens tokens = .ok root) (name : String) :
  ¬ Calls (definition? root.children) name name
  := by
  rintro ⟨parameter, body, call, ⟨definition, found, children⟩, within, callKind, same⟩
  obtain ⟨mem, kind, named⟩ := definition?_eq_some found
  obtain ⟨line, -, allowed, written⟩ := exists_line_of_mem accepted mem
  apply written.ne_of_noSelfCall allowed.noSelfCall kind children within callKind
  rw [same, named]

end Program

end IntScript
