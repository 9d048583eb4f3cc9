import IntScript.Proofs.Bindings
import IntScript.Proofs.Lockstep
import IntScript.Proofs.Sequence

/-!
# Renaming parameters

The parameter of a function is seen in the body of the function and nowhere else, and the body
sees no other parameter.  So a parameter can be given any name that the body does not mention
otherwise.  `Node.rename` gives another name to a variable, and `Node.Renaming` relates two
definitions that differ in the name of the parameter.  Main statement: a compiled program in
which the parameter of a definition is renamed has an outcome that looks the same.
-/

namespace IntScript

namespace Node

/-! ### Other names for variables -/

/-- A variable of the given name is part of a tree. -/
def Mentions (root : Node) (name : String) : Prop :=
  ∃ node, root.Within node ∧ node.kind = .variable ∧ node.text = name

mutual
/-- The tree with other names for its variables. -/
def mapVariables (f : String → String) : Node → Node
  | ⟨kind, text, line, children⟩ =>
    ⟨kind, if kind = .variable then f text else text, line, mapVariablesOfAll f children⟩

/-- The trees of a list with other names for their variables. -/
def mapVariablesOfAll (f : String → String) : List Node → List Node
  | [] => []
  | node :: nodes => node.mapVariables f :: mapVariablesOfAll f nodes
end

/-- The tree in which the variable `x` is called `y`. -/
def rename (x y : String) (node : Node) : Node :=
  node.mapVariables fun name => if name = x then y else name

mutual
theorem mapVariables_id (node : Node) :
  node.mapVariables id = node
  := by
  obtain ⟨kind, text, line, children⟩ := node
  rw [mapVariables, mapVariablesOfAll_id children]
  simp

theorem mapVariablesOfAll_id (nodes : List Node) :
  mapVariablesOfAll id nodes = nodes
  := by
  cases nodes with
  | nil => rfl
  | cons node nodes => rw [mapVariablesOfAll, mapVariables_id node, mapVariablesOfAll_id nodes]
end

/-- What a tree mentions is the name of its root, or a tree below the root mentions it. -/
theorem Mentions.eq_or_below {root : Node} {name : String} (mentions : root.Mentions name) :
  root.kind = .variable ∧ root.text = name ∨ ∃ child ∈ root.children, child.Mentions name
  := by
  obtain ⟨node, within, kind, text⟩ := mentions
  rcases within.eq_or_below with rfl | ⟨child, mem, below⟩
  · exact .inl ⟨kind, text⟩
  · exact .inr ⟨child, mem, node, below, kind, text⟩

/-- What a tree below the root mentions is mentioned by the whole tree. -/
theorem Mentions.of_mem {root child : Node} {name : String} (mem : child ∈ root.children)
    (mentions : child.Mentions name) :
  root.Mentions name
  := by
  obtain ⟨node, within, kind, text⟩ := mentions
  exact ⟨node, within.of_mem mem, kind, text⟩

/-! ### Renamed parameters -/

/-- Two definitions of a function are the same, or the second one has another name for the
parameter, which the body does not mention. -/
inductive Renaming : Node → Node → Prop where
  | refl (definition : Node) : Renaming definition definition
  | parameter {parameter fresh : String} {body : Node} (name : String) (line parameterLine : Nat)
      (unused : ¬ body.Mentions fresh) :
      Renaming ⟨.definition, name, line, [.leaf .variable parameter parameterLine, body]⟩
        ⟨.definition, name, line,
          [.leaf .variable fresh parameterLine, body.rename parameter fresh]⟩

/-- A name and another one both are the parameters of two functions, or they are the same name
and neither is the parameter. -/
def NamesAgree (parameter parameter' name name' : String) : Prop :=
  (parameter = name ∧ parameter' = name')
    ∨ (parameter ≠ name ∧ parameter' ≠ name' ∧ name' = name)

/-- To rename the parameter of a definition is to rename it in both places. -/
theorem rename_definition (function parameter fresh : String) (line parameterLine : Nat)
    (body : Node) :
  (⟨.definition, function, line, [.leaf .variable parameter parameterLine, body]⟩ : Node).rename
      parameter fresh
    = ⟨.definition, function, line,
        [.leaf .variable fresh parameterLine, body.rename parameter fresh]⟩
  := by
  simp [rename, mapVariables, mapVariablesOfAll, leaf]

/-- Definitions that differ in the name of the parameter have bodies that differ in the names
of variables, and these names agree. -/
theorem Renaming.exists_body {definition definition' parameter body : Node}
    (related : Renaming definition definition')
    (children : definition.children = [parameter, body]) :
  ∃ parameter' f, definition'.children = [parameter', body.mapVariables f]
    ∧ ∀ name, body.Mentions name → NamesAgree parameter.text parameter'.text name (f name)
  := by
  cases related with
  | refl =>
    refine ⟨parameter, id, by rw [children, mapVariables_id], ?_⟩
    intro name _
    by_cases same : parameter.text = name
    · exact .inl ⟨same, same⟩
    · exact .inr ⟨same, same, rfl⟩
  | @parameter parameter fresh body name line parameterLine unused =>
    cases children
    refine ⟨_, _, rfl, ?_⟩
    intro name mentions
    by_cases same : parameter = name
    · left
      simp [leaf, same]
    · right
      have other : fresh ≠ name := by
        rintro rfl
        apply unused mentions
      simp [leaf, same, Ne.symm same, other]

end Node

/-! ### Expressions -/

/-- Functions that are sound, and the same ones with other names for their parameters. -/
structure FunctionsRenamed (functions functions' : Std.ExtTreeMap String Node) : Prop where
  sound : SoundFunctions functions
  renamed : ∀ name : String, Option.Rel Node.Renaming functions[name]? functions'[name]?

/-- A function is recorded in neither table, or in both, and then with bodies that agree. -/
theorem FunctionsRenamed.lookup {functions functions' : Std.ExtTreeMap String Node}
    (renamed : FunctionsRenamed functions functions') (name : String) :
  (functions[name]? = none ∧ functions'[name]? = none)
    ∨ ∃ (definition definition' parameter body parameter' : Node) (f : String → String),
      functions[name]? = some definition ∧ functions'[name]? = some definition'
        ∧ definition.children = [parameter, body] ∧ body.IsExpression
        ∧ definition'.children = [parameter', body.mapVariables f]
        ∧ ∀ other, body.Mentions other →
          Node.NamesAgree parameter.text parameter'.text other (f other)
  := by
  have related := renamed.renamed name
  cases recorded : functions[name]? with
  | none =>
    rw [recorded] at related
    generalize functions'[name]? = definition'? at related
    cases related
    left
    exact ⟨rfl, rfl⟩
  | some definition =>
    obtain ⟨-, parameter, body, children, isBody⟩ := renamed.sound name definition recorded
    rw [recorded] at related
    generalize functions'[name]? = definition'? at related
    cases related with
    | @some _ definition' related =>
      right
      obtain ⟨parameter', f, children', agree⟩ := related.exists_body children
      exact ⟨definition, definition', parameter, body, parameter', f, rfl, rfl, children, isBody,
        children', agree⟩

/-- Two scopes have the same global variables, and functions that differ in the names of their
parameters. -/
structure Scope.Renamed (scope scope' : Scope) : Prop where
  globals : scope'.globals = scope.globals
  functions : FunctionsRenamed scope.functions scope'.functions
  active : scope'.active = scope.active

namespace Scope.Renamed

variable {scope scope' : Scope}

theorem enter (renamed : scope.Renamed scope') (function parameter parameter' : String)
    (argument : Value) :
  (scope.enter function parameter argument).Renamed (scope'.enter function parameter' argument)
  := by
  constructor
  · apply renamed.globals
  · apply renamed.functions
  · apply congrArg (function :: ·) renamed.active

/-- In the body of a function and in the body with a renamed parameter, names that agree stand
for the same value. -/
theorem resolve_enter (renamed : scope.Renamed scope') (function : String)
    {parameter parameter' name name' : String} (argument : Value) (line : Nat)
    (agree : Node.NamesAgree parameter parameter' name name') :
  (scope'.enter function parameter' argument).resolve name' line
    = (scope.enter function parameter argument).resolve name line
  := by
  rcases agree with ⟨same, same'⟩ | ⟨other, other', rfl⟩
  · simp [resolve, Scope.enter, same, same']
  · simp [resolve, Scope.enter, other, other', resolveGlobal, renamed.globals]

end Scope.Renamed

/-- Two calls have the same value if their arguments have, and if the bodies of the function
have the same value whenever their names agree. -/
theorem Node.eval_call_congr
    {scope scope' : Scope} {name : String} {argument argument' : Node} (line : Nat)
    (renamed : scope.Renamed scope') (sameArgument : argument'.eval scope' = argument.eval scope)
    (sameBody : ∀ (value : Value) (definition : Node), scope.functions[name]? = some definition →
      name ∉ scope.active → ∀ (parameter body parameter' : Node) (f : String → String),
        body.IsExpression →
        (∀ other, body.Mentions other → NamesAgree parameter.text parameter'.text other (f other)) →
        (body.mapVariables f).eval (scope'.enter name parameter'.text value)
          = body.eval (scope.enter name parameter.text value)) :
  eval scope' ⟨.call, name, line, [argument']⟩ = eval scope ⟨.call, name, line, [argument]⟩
  := by
  rw [eval_call, eval_call, sameArgument, renamed.active]
  apply bind_congr
  intro value
  rcases renamed.functions.lookup name with ⟨undefined, undefined'⟩ |
    ⟨definition, definition', parameter, body, parameter', f, defined, defined', children, isBody,
      children', agree⟩
  · rw [undefined, undefined']
  · by_cases active : name ∈ scope.active
    · simp only [defined, defined', active, if_true]
    · simp only [defined, defined', active, if_false, children, children']
      apply sameBody value definition defined active parameter body parameter' f isBody agree

/-- An expression and the expression with other names for its variables have the same value if
the names stand for the same values. -/
theorem Node.eval_mapVariables
    {scope scope' : Scope} {node : Node} {f : String → String} (isExpression : node.IsExpression)
    (renamed : scope.Renamed scope')
    (resolves : ∀ name, node.Mentions name → ∀ line,
      scope'.resolve (f name) line = scope.resolve name line) :
  (node.mapVariables f).eval scope' = node.eval scope
  := by
  induction scope, node using Node.eval.induct generalizing scope' f with
  | case1 scope text line =>
    simp [mapVariables, mapVariablesOfAll, eval]
  | case2 scope name line =>
    have same := resolves name ⟨_, .root, rfl, rfl⟩ line
    simpa [mapVariables, mapVariablesOfAll, eval] using same
  | case3 scope op text line left right ihLeft ihRight =>
    cases isExpression with
    | operation _ _ isLeft isRight =>
      have sameLeft := ihLeft isLeft renamed fun name mentions =>
        resolves name (mentions.of_mem (by simp))
      have sameRight := ihRight isRight renamed fun name mentions =>
        resolves name (mentions.of_mem (by simp))
      simp [mapVariables, mapVariablesOfAll, eval, sameLeft, sameRight]
  | case4 scope name line argument ihArgument ihBody =>
    cases isExpression with
    | call _ _ isArgument =>
      have sameArgument := ihArgument isArgument renamed fun name mentions =>
        resolves name (mentions.of_mem (by simp))
      apply eval_call_congr line renamed sameArgument
      -- The body has names of its own, which `g` changes if this parameter is the renamed one.
      intro value definition defined inactive parameter body parameter' g isBody agree
      apply ihBody value definition defined inactive parameter body isBody
        (renamed.enter name parameter.text parameter'.text value)
      intro other mentions otherLine
      apply renamed.resolve_enter name value otherLine (agree other mentions)
  | case5 scope node number reference operation call =>
    cases isExpression with
    | number text line => cases number text line rfl
    | reference name line => cases reference name line rfl
    | call name line _ => cases call name line _ rfl
    | operation op line _ _ => cases operation op "" line _ _ rfl

/-! ### Statements -/

/-- Related definitions have the same name and the same line. -/
theorem Node.Renaming.text_eq {definition definition' : Node}
    (related : Renaming definition definition') :
  definition'.text = definition.text ∧ definition'.line = definition.line
  := by
  cases related with
  | refl => exact ⟨rfl, rfl⟩
  | parameter => exact ⟨rfl, rfl⟩

namespace FunctionsRenamed

variable {functions functions' : Std.ExtTreeMap String Node}

/-- Only the same names are recorded. -/
theorem mem_iff (renamed : FunctionsRenamed functions functions') (name : String) :
  name ∈ functions' ↔ name ∈ functions
  := by
  rw [Std.ExtTreeMap.mem_iff_isSome_getElem?, Std.ExtTreeMap.mem_iff_isSome_getElem?]
  have related := renamed.renamed name
  generalize functions[name]? = definition?, functions'[name]? = definition'? at related
  cases related <;> rfl

/-- Related definitions can be added. -/
theorem insert (renamed : FunctionsRenamed functions functions') {definition definition' : Node}
    (related : Node.Renaming definition definition') (isStatement : definition.IsStatement)
    (kind : definition.kind = .definition) :
  FunctionsRenamed (functions.insert definition.text definition)
    (functions'.insert definition.text definition')
  := by
  constructor
  · cases isStatement with
    | definition name parameter line parameterLine isBody =>
      apply renamed.sound.insert rfl isBody
    | _ => cases kind
  · intro name
    rw [Std.ExtTreeMap.getElem?_insert, Std.ExtTreeMap.getElem?_insert]
    split
    · apply Option.Rel.some related
    · apply renamed.renamed name

end FunctionsRenamed

namespace Store

/-- An expression has the same value if the functions have other names for their parameters. -/
theorem lockstep_value {node : Node} (isExpression : node.IsExpression) :
  Lockstep FunctionsRenamed (value node) (value node)
  := by
  intro store store' alike
  have renamed : store.scope.Renamed store'.scope := ⟨alike.globals, alike.functions, rfl⟩
  have same : (node.mapVariables id).eval store'.scope = node.eval store.scope := by
    apply Node.eval_mapVariables isExpression renamed
    intro name _ line
    simp [Store.scope, Scope.resolve, Scope.resolveGlobal, alike.globals]
  rw [Node.mapVariables_id] at same
  unfold value
  rw [same]
  cases node.eval store.scope with
  | ok value => exact .ok value alike
  | error error => exact .error error alike

theorem lockstep_define {definition definition' : Node}
    (related : Node.Renaming definition definition') (isStatement : definition.IsStatement)
    (kind : definition.kind = .definition) :
  Lockstep FunctionsRenamed (define definition) (define definition')
  := by
  intro store store' alike
  obtain ⟨text, line⟩ := related.text_eq
  unfold define
  rw [text, line]
  by_cases defined : definition.text ∈ store.functions
  · have defined' := (alike.functions.mem_iff definition.text).mpr defined
    simp only [defined, defined', if_true]
    apply ResultsAlike.error _ alike
  · have new' := mt (alike.functions.mem_iff definition.text).mp defined
    simp only [defined, new', if_false]
    apply ResultsAlike.ok ()
    constructor
    · apply alike.globals
    · apply alike.functions.insert related isStatement kind
    · apply alike.sink
    · apply alike.input

/-- Statements that are the same but for the name of a parameter are in lockstep. -/
theorem lockstep_perform {statement statement' : Node}
    (related : Node.Renaming statement statement') (isStatement : statement.IsStatement) :
  Lockstep FunctionsRenamed statement.perform statement'.perform
  := by
  cases related with
  | parameter name line parameterLine unused =>
    apply lockstep_define (.parameter name line parameterLine unused) isStatement rfl
  | refl =>
    cases isStatement with
    | assignment name line isValue =>
      apply lockstep_bind (lockstep_value isValue)
      intro value
      apply lockstep_assign
    | definition name parameter line parameterLine isBody =>
      apply lockstep_define (.refl _) (.definition name parameter line parameterLine isBody) rfl
    | read name line nameLine =>
      apply lockstep_bind (lockstep_readValue _ _)
      intro value
      apply lockstep_assign
    | print line isValue =>
      apply lockstep_bind (lockstep_value isValue)
      intro value
      apply lockstep_write

end Store

/-! ### Programs -/

/-- Other names for its variables leave an expression an expression. -/
theorem Node.IsExpression.mapVariables {node : Node} (isExpression : node.IsExpression)
    (f : String → String) :
  (node.mapVariables f).IsExpression
  := by
  induction isExpression with
  | number text line => apply IsExpression.number
  | reference name line => apply IsExpression.reference
  | call name line _ ih => apply IsExpression.call name line ih
  | operation op line _ _ ihLeft ihRight => apply IsExpression.operation op line ihLeft ihRight

/-- A statement in which a parameter is renamed is a statement. -/
theorem Node.Renaming.isStatement {statement statement' : Node}
    (related : Renaming statement statement') (isStatement : statement.IsStatement) :
  statement'.IsStatement
  := by
  cases related with
  | refl => apply isStatement
  | parameter name line parameterLine unused =>
    cases isStatement with
    | definition _ _ _ _ isBody =>
      apply IsStatement.definition _ _ _ _ (isBody.mapVariables _)

namespace Program

/-- Programs whose statements differ only in the names of parameters have outcomes that look
alike. -/
theorem execute_alike {statements statements' : List Node}
    (all : ∀ statement ∈ statements, statement.IsStatement)
    (related : List.Forall₂ Node.Renaming statements statements') (sink : Sink) (input : Input) :
  (execute (ofStatements statements) sink input).Alike
    (execute (ofStatements statements') sink input)
  := by
  have both := (List.forall₂_and_left _ _).mpr ⟨all, related⟩
  have all' : ∀ statement' ∈ statements', statement'.IsStatement := by
    intro statement' mem
    obtain ⟨statement, -, isStatement, renamed⟩ := exists_of_mem_right both mem
    apply renamed.isStatement isStatement
  have empty : FunctionsRenamed ∅ ∅ := by
    constructor
    · intro name definition lookup
      simp at lookup
    · intro name
      simp
  have line : (ofStatements statements').line = (ofStatements statements).line := rfl
  rw [execute_of_isProgram ⟨statements, rfl, all⟩, execute_of_isProgram ⟨statements', rfl, all'⟩]
  apply evaluate_alike line empty
  apply both.imp
  rintro statement statement' ⟨isStatement, renamed⟩
  apply Store.lockstep_perform renamed isStatement

/-- The parameter of a definition in a compiled program can be renamed, together with the variable
in the body, to any name that the body does not mention: whatever the streams are, the result is
the same error or the same final variables, and the streams are left the same. -/
theorem execute_rename_parameter
    {tokens : List Token} {root : Node} (accepted : ofTokens tokens = .ok root)
    {before after : List Node} {function : String} {line : Nat} {parameter body : Node}
    (statements : root.children
      = before ++ ⟨.definition, function, line, [parameter, body]⟩ :: after)
    {fresh : String} (unused : ¬ body.Mentions fresh) (sink : Sink) (input : Input) :
  (execute root sink input).Alike
    (execute (ofStatements (before
      ++ (⟨.definition, function, line, [parameter, body]⟩ : Node).rename parameter.text fresh
      :: after)) sink input)
  := by
  obtain ⟨_, rfl, all⟩ := isProgram_of_ofTokens accepted
  change _ = before ++ _ at statements
  subst statements
  have isStatement := all ⟨.definition, function, line, [parameter, body]⟩ (by simp)
  apply execute_alike all
  have same : ∀ statements : List Node, List.Forall₂ Node.Renaming statements statements :=
    fun statements => List.forall₂_same.mpr fun statement _ => .refl statement
  apply List.rel_append (same before)
  apply List.Forall₂.cons _ (same after)
  cases isStatement with
  | definition _ name _ parameterLine isBody =>
    change Node.Renaming _ (Node.rename name fresh _)
    rw [Node.rename_definition]
    apply Node.Renaming.parameter function line parameterLine unused

/-- The tokens of the lines `y = 3`, `F[x] = x * x`, `G[y] = F[1 + y] - y` and `print G[y]`. -/
def squareTokens : List Token :=
  [⟨.variable, "y", 1, 1⟩, ⟨.equals, "=", 1, 3⟩, ⟨.number, "3", 1, 5⟩, ⟨.endOfLine, "", 1, 6⟩,
    ⟨.function, "F", 2, 1⟩, ⟨.opening .square, "[", 2, 2⟩, ⟨.variable, "x", 2, 3⟩,
    ⟨.closing .square, "]", 2, 4⟩, ⟨.equals, "=", 2, 6⟩, ⟨.variable, "x", 2, 8⟩,
    ⟨.operator .multiply, "*", 2, 10⟩, ⟨.variable, "x", 2, 12⟩, ⟨.endOfLine, "", 2, 13⟩,
    ⟨.function, "G", 3, 1⟩, ⟨.opening .square, "[", 3, 2⟩, ⟨.variable, "y", 3, 3⟩,
    ⟨.closing .square, "]", 3, 4⟩, ⟨.equals, "=", 3, 6⟩, ⟨.function, "F", 3, 8⟩,
    ⟨.opening .square, "[", 3, 9⟩, ⟨.number, "1", 3, 10⟩, ⟨.operator .add, "+", 3, 12⟩,
    ⟨.variable, "y", 3, 14⟩, ⟨.closing .square, "]", 3, 15⟩, ⟨.operator .subtract, "-", 3, 17⟩,
    ⟨.variable, "y", 3, 19⟩, ⟨.endOfLine, "", 3, 20⟩,
    ⟨.print, "print", 4, 1⟩, ⟨.function, "G", 4, 7⟩, ⟨.opening .square, "[", 4, 8⟩,
    ⟨.variable, "y", 4, 9⟩, ⟨.closing .square, "]", 4, 10⟩, ⟨.endOfLine, "", 4, 11⟩]

/-- The parameter of `F` can have the name of a global variable that is the parameter of its
caller too: the program still prints `13`. -/
theorem execute_rename_parameter_square :
  ∃ (root renamed : Node) (line : Nat) (body : Node), ofTokens squareTokens = .ok root
    ∧ root.children[1]? = some (Statement.definition "F" line (.leaf .variable "x" line) body)
    ∧ renamed.children[1]? = some
      (Statement.definition "F" line (.leaf .variable "y" line) (body.rename "x" "y"))
    ∧ (execute root .unlimited (.ofBytes [])).Alike (execute renamed .unlimited (.ofBytes []))
    ∧ (execute renamed .unlimited (.ofBytes [])).sink.accepted.toList = [49, 51, 10]
  := by
  have accepted : ofTokens squareTokens = .ok (ofStatements [
    Statement.assignment "y" 1 (.leaf .number "3" 1),
    Statement.definition "F" 2 (.leaf .variable "x" 2)
      ⟨.operation .multiply, "", 2, [.leaf .variable "x" 2, .leaf .variable "x" 2]⟩,
    Statement.definition "G" 3 (.leaf .variable "y" 3)
      ⟨.operation .subtract, "", 3, [⟨.call, "F", 3, [⟨.operation .add, "", 3,
        [.leaf .number "1" 3, .leaf .variable "y" 3]⟩]⟩, .leaf .variable "y" 3]⟩,
    Statement.print 4 ⟨.call, "G", 4, [.leaf .variable "y" 4]⟩]) := rfl
  have unused : ¬ (⟨.operation .multiply, "", 2,
      [.leaf .variable "x" 2, .leaf .variable "x" 2]⟩ : Node).Mentions "y" := by
    intro mentions
    rcases mentions.eq_or_below with ⟨kind, -⟩ | ⟨child, mem, mentions⟩
    · cases kind
    · obtain rfl : child = .leaf .variable "x" 2 := by simpa using mem
      rcases mentions.eq_or_below with ⟨-, text⟩ | ⟨_, mem, -⟩
      · exact absurd text (by decide)
      · cases mem
  have alike := @execute_rename_parameter _ _ accepted [_] _ _ _ _ _ rfl _ unused .unlimited
    (.ofBytes [])
  refine ⟨_, _, 2, _, accepted, rfl, rfl, alike, ?_⟩
  rw [alike.sink]
  have executed := execute_of_resultWithin 50 .unlimited (.ofBytes [])
    (isProgram_of_ofTokens accepted).isWellFormed rfl
  rw [executed]
  rfl

end Program

end IntScript
