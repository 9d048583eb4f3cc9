import IntScript.Program

/-!
# The shape of compiled programs

A tree that is made from tokens has a definite shape: its root holds statements, every
statement has the children its form asks for, and the values in it are expressions made of
numbers, variables, calls of one argument and the five binary operations.  The stacks from
which expressions are built hold nothing but expressions, whatever tokens they are fed and
whether or not they accept them.
-/

namespace IntScript

namespace Node

/-- The trees of expressions. -/
inductive IsExpression : Node → Prop where
  | number (text : String) (line : Nat) : IsExpression (.leaf .number text line)
  | reference (name : String) (line : Nat) : IsExpression (.leaf .variable name line)
  | call {argument : Node} (name : String) (line : Nat) (isArgument : IsExpression argument) :
      IsExpression ⟨.call, name, line, [argument]⟩
  | operation {left right : Node} (op : Operator) (line : Nat) (isLeft : IsExpression left)
      (isRight : IsExpression right) : IsExpression ⟨.operation op, "", line, [left, right]⟩

/-- The trees of statements. -/
inductive IsStatement : Node → Prop where
  | assignment {value : Node} (name : String) (line : Nat) (isValue : IsExpression value) :
      IsStatement (Statement.assignment name line value)
  | definition {body : Node} (name parameter : String) (line parameterLine : Nat)
      (isBody : IsExpression body) :
      IsStatement
        (Statement.definition name line (.leaf .variable parameter parameterLine) body)
  | read (name : String) (line nameLine : Nat) :
      IsStatement (Statement.read line (.leaf .variable name nameLine))
  | print {value : Node} (line : Nat) (isValue : IsExpression value) :
      IsStatement (Statement.print line value)

/-- The trees of programs. -/
def IsProgram (root : Node) : Prop :=
  ∃ statements : List Node, root = Program.ofStatements statements
    ∧ ∀ statement ∈ statements, statement.IsStatement

end Node

/-! ### Stacks of expressions -/

namespace Expression

/-- All operands that are finished are expressions. -/
def Stacks.AllExpressions (state : Stacks) : Prop :=
  ∀ node ∈ state.operands, node.IsExpression

/-- The stacks that an action on them leaves, with or without an error. -/
def Stacks.left {α : Type} : EStateM.Result SyntaxError Stacks α → Stacks
  | .ok _ state => state
  | .error _ state => state

/-- What takes operands from a stack of expressions puts an expression back. -/
theorem Waiting.isExpression_of_settle?
    {top : Waiting} {operands operands' : List Node} (h : top.settle? operands = some operands')
    (all : ∀ node ∈ operands, node.IsExpression) :
  ∀ node ∈ operands', node.IsExpression
  := by
  unfold settle? at h
  split at h
  · cases h
    obtain ⟨isArgument, below⟩ := List.forall_mem_cons.mp all
    rw [List.forall_mem_cons]
    exact ⟨.call _ _ isArgument, below⟩
  · cases h
    obtain ⟨isRight, below⟩ := List.forall_mem_cons.mp all
    obtain ⟨isLeft, below⟩ := List.forall_mem_cons.mp below
    rw [List.forall_mem_cons]
    exact ⟨.operation _ _ isLeft isRight, below⟩
  · cases h

namespace Stacks

theorem allExpressions_settleWhile
    (leaves : Waiting → Bool) (line : Nat) (waiting : List Waiting) {operands : List Node}
    (all : ∀ node ∈ operands, node.IsExpression) :
  (left (settleWhile leaves line waiting operands)).AllExpressions
  := by
  induction waiting generalizing operands with
  | nil => apply all
  | cons top below ih =>
    unfold settleWhile
    split
    · split
      · rename_i settled
        apply ih
        apply Waiting.isExpression_of_settle? settled all
      · intro node mem
        cases mem
    · apply all

/-- An action on the stacks preserves expressions if it leaves only expressions where it
found only expressions. -/
def Preserves {α : Type} (x : Build α) : Prop :=
  ∀ state : Stacks, state.AllExpressions → (left (x state)).AllExpressions

theorem preserves_bind
    {α β : Type} {x : Build α} {f : α → Build β} (hx : Preserves x) (hf : ∀ a, Preserves (f a)) :
  Preserves (x >>= f)
  := by
  intro state all
  have kept := hx state all
  change (left (EStateM.bind x f state)).AllExpressions
  unfold EStateM.bind
  generalize x state = result at kept
  cases result with
  | ok a state' => apply hf a state' kept
  | error error state' => apply kept

theorem preserves_settle (leaves : Waiting → Bool) (line : Nat) :
  Preserves (settle leaves line)
  := by
  intro state all
  apply allExpressions_settleWhile leaves line state.waiting all

theorem preserves_throw {α : Type} (error : SyntaxError) :
  Preserves (throw error : Build α)
  := by
  intro state all
  apply all

theorem preserves_addOperand {node : Node} (h : node.IsExpression) :
  Preserves (addOperand node)
  := by
  intro state all
  change ∀ operand ∈ node :: state.operands, operand.IsExpression
  rw [List.forall_mem_cons]
  exact ⟨h, all⟩

theorem preserves_addWaiting (top : Waiting) :
  Preserves (addWaiting top)
  := by
  intro state all
  apply all

theorem preserves_closeBracket (bracket : Bracket) (line : Nat) :
  Preserves (closeBracket bracket line)
  := by
  apply preserves_bind (preserves_settle _ line)
  intro _ ⟨waiting, operands⟩ all
  match waiting with
  | .opening partner :: below =>
    change (left ((if partner = bracket then set (⟨below, operands⟩ : Stacks)
      else throw (.mismatchedBracket line) : Build PUnit) _)).AllExpressions
    split <;> apply all
  | [] | .call _ _ :: _ | .operation _ _ :: _ => apply all

/-- Expressions stay expressions, whichever token comes next. -/
theorem preserves_feed (token : Token) :
  Preserves (feed token)
  := by
  unfold feed
  split
  · apply preserves_addOperand (.reference _ _)
  · apply preserves_addOperand (.number _ _)
  · apply preserves_addWaiting
  · apply preserves_addWaiting
  · apply preserves_bind (preserves_settle _ _)
    intro _
    apply preserves_addWaiting
  · apply preserves_closeBracket
  · apply preserves_throw

/-- What is left in the end is an expression. -/
theorem isExpression_of_conclude
    {line : Nat} {state state' : Stacks} {node : Node} (all : state.AllExpressions)
    (h : conclude line state = .ok node state') :
  node.IsExpression
  := by
  have kept := preserves_settle (fun top => !top.isOpening) line state all
  change EStateM.bind (settle (fun top => !top.isOpening) line) _ state = _ at h
  unfold EStateM.bind at h
  generalize settle (fun top => !top.isOpening) line state = result at kept h
  match result with
  | .error error state => cases h
  | .ok () ⟨[], [operand]⟩ =>
    cases h
    apply kept node (List.mem_singleton.mpr rfl)
  | .ok () ⟨[], []⟩ | .ok () ⟨[], _ :: _ :: _⟩ | .ok () ⟨_ :: _, _⟩ => cases h

end Stacks

theorem isExpression_of_parseFrom
    {start : Nat} {state : Stacks} {tokens : List Token} {node : Node}
    (all : state.AllExpressions) (h : parseFrom start state tokens = .ok node) :
  node.IsExpression
  := by
  induction tokens generalizing state with
  | nil => cases h
  | cons token rest ih =>
    unfold parseFrom at h
    split at h
    · split at h
      · rename_i concluded
        cases h
        apply Stacks.isExpression_of_conclude all concluded
      · cases h
    · split at h
      · rename_i state' fed
        apply ih _ h
        have kept := Stacks.preserves_feed token state all
        rw [fed] at kept
        apply kept
      · cases h

/-- What is parsed is an expression. -/
theorem isExpression_of_parse
    {start : Nat} {tokens : List Token} {node : Node} (h : parse start tokens = .ok node) :
  node.IsExpression
  := by
  apply isExpression_of_parseFrom _ h
  intro operand mem
  cases mem

end Expression

/-! ### Statements and programs -/

namespace Statement

/-- What a line holds: nothing, or a statement with what is parsed in the place of its
expression. -/
inductive Holds : List Token → Option Node → Prop where
  | nothing : Holds [] none
  | empty {ending : Token} {tokens : List Token} (endingKind : ending.kind = .endOfLine) :
      Holds (ending :: tokens) none
  | assignment {name equals : Token} {tokens : List Token} {value : Node}
      (nameKind : name.kind = .variable) (equalsKind : equals.kind = .equals)
      (parsed : Expression.parse name.line tokens = .ok value) :
      Holds (name :: equals :: tokens) (some (Statement.assignment name.text name.line value))
  | definition {function opening parameter closing equals : Token} {tokens : List Token}
      {body : Node} (functionKind : function.kind = .function)
      (openingKind : opening.kind = .opening .square) (parameterKind : parameter.kind = .variable)
      (closingKind : closing.kind = .closing .square) (equalsKind : equals.kind = .equals)
      (parsed : Expression.parse function.line tokens = .ok body) :
      Holds (function :: opening :: parameter :: closing :: equals :: tokens)
        (some (Statement.definition function.text function.line
          (.leaf .variable parameter.text parameter.line) body))
  | read {keyword name ending : Token} (keywordKind : keyword.kind = .read)
      (nameKind : name.kind = .variable) (endingKind : ending.kind = .endOfLine) :
      Holds [keyword, name, ending]
        (some (Statement.read keyword.line (.leaf .variable name.text name.line)))
  | print {keyword : Token} {tokens : List Token} {value : Node}
      (keywordKind : keyword.kind = .print)
      (parsed : Expression.parse keyword.line tokens = .ok value) :
      Holds (keyword :: tokens) (some (Statement.print keyword.line value))

/-- What is mapped into a statement was there. -/
theorem exists_of_map_eq_ok
    {ε α β : Type} {result : Except ε α} {f : α → β} {b : β} (h : result.map f = .ok b) :
  ∃ a, result = .ok a ∧ f a = b
  := by
  cases result with
  | error error => cases h
  | ok a =>
    cases h
    exact ⟨a, rfl, rfl⟩

/-- A line that is accepted holds what it is accepted as. -/
theorem holds_of_ofLine
    {line : List Token} {statement? : Option Node} (h : ofLine line = .ok statement?) :
  Holds line statement?
  := by
  unfold ofLine at h
  split at h
  · cases h
    exact .nothing
  · split at h
    · rename_i kind
      split at h
      · obtain ⟨value, parsed, rfl⟩ := exists_of_map_eq_ok h
        exact .assignment kind rfl parsed
      · cases h
    · rename_i kind
      split at h
      · obtain ⟨body, parsed, rfl⟩ := exists_of_map_eq_ok h
        exact .definition kind rfl rfl rfl rfl parsed
      · cases h
    · rename_i kind
      split at h
      · cases h
        exact .read kind rfl rfl
      · cases h
    · rename_i kind
      obtain ⟨value, parsed, rfl⟩ := exists_of_map_eq_ok h
      exact .print kind parsed
    · rename_i kind
      cases h
      exact .empty kind
    · cases h

/-- What a line holds is a statement. -/
theorem Holds.isStatement {line : List Token} {statement : Node}
    (holds : Holds line (some statement)) :
  statement.IsStatement
  := by
  cases holds with
  | assignment _ _ parsed => exact .assignment _ _ (Expression.isExpression_of_parse parsed)
  | definition _ _ _ _ _ parsed =>
    exact .definition _ _ _ _ (Expression.isExpression_of_parse parsed)
  | read => exact .read _ _ _
  | print _ parsed => exact .print _ (Expression.isExpression_of_parse parsed)

end Statement

theorem Program.isStatement_of_statementsFrom
    {lines : List (List Token)} {done statements : List Node}
    (all : ∀ statement ∈ done, statement.IsStatement)
    (h : statementsFrom done lines = .ok statements) :
  ∀ statement ∈ statements, statement.IsStatement
  := by
  induction lines generalizing done with
  | nil =>
    cases h
    simpa using all
  | cons line lines ih =>
    unfold statementsFrom at h
    split at h
    · cases h
    · apply ih all h
    · rename_i made
      apply ih _ h
      rw [List.forall_mem_cons]
      exact ⟨(Statement.holds_of_ofLine made).isStatement, all⟩

/-- What is made from tokens is a program. -/
theorem Program.isProgram_of_ofTokens
    {tokens : List Token} {root : Node} (h : ofTokens tokens = .ok root) :
  root.IsProgram
  := by
  unfold ofTokens at h
  split at h
  · cases h
  · split at h
    · cases h
    · obtain ⟨statements, made, rfl⟩ := Statement.exists_of_map_eq_ok h
      refine ⟨statements, rfl, ?_⟩
      apply isStatement_of_statementsFrom _ made
      intro statement mem
      cases mem

end IntScript
