import IntScript.Program.Execution

/-!
# The evaluator

What a program means, told by recursion on its tree.  `Node.eval` is the value of an
expression in a `Scope`, which lists all that the value can depend on: the global variables,
the functions, the parameter of the function whose body is evaluated, and the functions that
are active.  `Node.perform` is the effect of a statement on a `Store`, and
`Program.evaluate` performs the statements of a program one after the other and flushes what
they printed.
-/

namespace IntScript

/-! ### Expressions -/

/-- What an expression sees. -/
structure Scope where
  globals : Std.ExtTreeMap String Value
  functions : Std.ExtTreeMap String Node
  /-- The parameter of the function whose body is evaluated, with its value. -/
  parameter : Option (String × Value)
  /-- The functions whose bodies are being evaluated. -/
  active : List String

namespace Scope

/-- The value of a global variable. -/
def resolveGlobal (scope : Scope) (name : String) (line : Nat) : Except RuntimeError Value :=
  match scope.globals[name]? with
  | some value => .ok value
  | none => .error (.undefinedVariable name line)

/-- The value of a name: the parameter comes before a global variable. -/
def resolve (scope : Scope) (name : String) (line : Nat) : Except RuntimeError Value :=
  match scope.parameter with
  | some (parameter, value) =>
    if parameter = name then .ok value else scope.resolveGlobal name line
  | none => scope.resolveGlobal name line

/-- The scope of the body of a function that is called with an argument. -/
def enter (scope : Scope) (function parameter : String) (argument : Value) : Scope :=
  { scope with parameter := some (parameter, argument), active := function :: scope.active }

/-- How many functions can still be called. -/
def idle (scope : Scope) : Nat :=
  (scope.functions.keys.filter (· ∉ scope.active)).length

/-- In the body of a function one function fewer can be called. -/
theorem idle_enter_lt
    {scope : Scope} {function : String} {definition : Node} (parameter : String) (argument : Value)
    (defined : scope.functions[function]? = some definition) (inactive : function ∉ scope.active) :
  (scope.enter function parameter argument).idle < scope.idle
  := by
  have mem : function ∈ scope.functions.keys := by
    simp [Std.ExtTreeMap.mem_iff_isSome_getElem?, defined]
  have split : scope.functions.keys.filter (· ∉ function :: scope.active)
      = (scope.functions.keys.filter (· ∉ scope.active)).filter (· ≠ function) := by
    simp only [List.filter_filter, List.mem_cons, not_or, Bool.decide_and]
  rw [idle, idle, enter, split, List.length_filter_lt_length_iff_exists]
  refine ⟨function, ?_, by simp⟩
  simp only [List.mem_filter, mem, inactive, not_false_eq_true, decide_true, and_self]

end Scope

/-- The value of an expression. -/
def Node.eval (scope : Scope) : Node → Except RuntimeError Value
  | ⟨.number, text, line, []⟩ => Number.ofLiteral text line
  | ⟨.variable, name, line, []⟩ => scope.resolve name line
  | ⟨.operation op, _, line, [left, right]⟩ => do
    let left ← left.eval scope
    let right ← right.eval scope
    op.applyOn line left right
  | ⟨.call, name, line, [argument]⟩ => do
    let argument ← argument.eval scope
    match lookup : scope.functions[name]? with
    | none => throw (.undefinedFunction name line)
    | some definition =>
      if active : name ∈ scope.active then
        throw (.recursiveCall name line)
      else
        match definition.children with
        | [parameter, body] =>
          have := Scope.idle_enter_lt parameter.text argument lookup active
          body.eval (scope.enter name parameter.text argument)
        | _ => throw (.malformedTree definition.line)
  | node => throw (.malformedTree node.line)
termination_by node => (scope.idle, sizeOf node)

/-- What the value of a call is, without the reasons for which it is found. -/
theorem Node.eval_call (scope : Scope) (name : String) (line : Nat) (argument : Node) :
  eval scope ⟨.call, name, line, [argument]⟩ = (do
    let value ← argument.eval scope
    match scope.functions[name]? with
    | none => throw (.undefinedFunction name line)
    | some definition =>
      if name ∈ scope.active then
        throw (.recursiveCall name line)
      else
        match definition.children with
        | [parameter, body] => body.eval (scope.enter name parameter.text value)
        | _ => throw (.malformedTree definition.line))
  := by
  rw [eval]
  congr
  funext value
  split
  · simp [*]
  · simp [*]

/-- A result that is used for another one, when there is another one. -/
theorem exists_of_bind_eq_ok
    {ε α β : Type} {result : Except ε α} {f : α → Except ε β} {b : β}
    (h : result >>= f = .ok b) :
  ∃ a, result = .ok a ∧ f a = .ok b
  := by
  cases result with
  | error => cases h
  | ok a => exact ⟨a, rfl, h⟩

/-- An operation has a value if its operands have values that the operator can be applied on. -/
theorem Node.eval_operation_eq_ok
    {scope : Scope} {op : Operator} {text : String} {line : Nat} {left right : Node}
    {value : Value} :
  eval scope ⟨.operation op, text, line, [left, right]⟩ = .ok value ↔
    ∃ leftValue rightValue, left.eval scope = .ok leftValue ∧ right.eval scope = .ok rightValue
      ∧ op.applyOn line leftValue rightValue = .ok value
  := by
  rw [eval]
  constructor
  · intro evaluated
    obtain ⟨leftValue, evaluatedLeft, evaluated⟩ := exists_of_bind_eq_ok evaluated
    obtain ⟨rightValue, evaluatedRight, applied⟩ := exists_of_bind_eq_ok evaluated
    exact ⟨leftValue, rightValue, evaluatedLeft, evaluatedRight, applied⟩
  · rintro ⟨leftValue, rightValue, evaluatedLeft, evaluatedRight, applied⟩
    rw [evaluatedLeft, evaluatedRight]
    apply applied

/-- A call has a value if its argument has one, the function is recorded with a parameter and a
body and is not active, and the body has a value. -/
theorem Node.eval_call_eq_ok
    {scope : Scope} {name : String} {line : Nat} {argument : Node} {value : Value} :
  eval scope ⟨.call, name, line, [argument]⟩ = .ok value ↔
    ∃ argumentValue definition parameter body, argument.eval scope = .ok argumentValue
      ∧ scope.functions[name]? = some definition ∧ name ∉ scope.active
      ∧ definition.children = [parameter, body]
      ∧ body.eval (scope.enter name parameter.text argumentValue) = .ok value
  := by
  rw [eval_call]
  constructor
  · intro evaluated
    obtain ⟨argumentValue, evaluatedArgument, evaluated⟩ := exists_of_bind_eq_ok evaluated
    split at evaluated
    · cases evaluated
    · rename_i definition defined
      split at evaluated
      · cases evaluated
      · rename_i inactive
        split at evaluated
        · rename_i parameter body children
          exact ⟨argumentValue, definition, parameter, body, evaluatedArgument, defined, inactive,
            children, evaluated⟩
        · cases evaluated
  · rintro ⟨argumentValue, definition, parameter, body, evaluatedArgument, defined, inactive,
      children, evaluated⟩
    rw [evaluatedArgument, defined]
    change (if name ∈ scope.active then _ else _) = _
    rw [if_neg inactive, children]
    apply evaluated

/-! ### Statements -/

/-- What statements change. -/
structure Store where
  globals : Std.ExtTreeMap String Value
  functions : Std.ExtTreeMap String Node
  sink : Sink
  input : Input

/-- What changes a store and may fail. -/
abbrev Effect := EStateM RuntimeError Store

namespace Store

/-- What an expression outside all functions sees. -/
def scope (store : Store) : Scope :=
  ⟨store.globals, store.functions, none, []⟩

/-- The value of an expression outside all functions. -/
def value (node : Node) : Effect Value := fun store =>
  match node.eval store.scope with
  | .ok value => .ok value store
  | .error error => .error error store

/-- Gives a variable a value. -/
def assign (name : String) (value : Value) : Effect Unit :=
  modify fun store => { store with globals := store.globals.insert name value }

/-- Records a definition under its name, which must be new. -/
def define (definition : Node) : Effect Unit := fun store =>
  if definition.text ∈ store.functions then
    .error (.duplicateFunction definition.text definition.line) store
  else
    .ok () { store with functions := store.functions.insert definition.text definition }

/-- Writes bytes to the sink. -/
def write (bytes : List UInt8) (line : Nat) : Effect Unit := fun store =>
  match store.sink.write bytes with
  | .ok () sink => .ok () { store with sink := sink }
  | .error cause sink => .error (.stream cause line) { store with sink := sink }

/-- Flushes the sink. -/
def flush (line : Nat) : Effect Unit := fun store =>
  match store.sink.flush with
  | .ok () sink => .ok () { store with sink := sink }
  | .error cause sink => .error (.stream cause line) { store with sink := sink }

/-- Takes the next word of the input. -/
def nextWord (line : Nat) : Effect (Option String) := fun store =>
  match store.input.nextWord with
  | .ok word? input => .ok word? { store with input := input }
  | .error cause input => .error (.stream cause line) { store with input := input }

/-- Reads a value for a variable.  What has been printed is flushed first. -/
def readValue (name : String) (line : Nat) : Effect Value := do
  flush line
  match (← nextWord line) with
  | none => throw (.endOfInput name line)
  | some word =>
    match Number.ofWord word line with
    | .ok value => return value
    | .error error => throw error

end Store

open Store in
/-- The effect of a statement. -/
def Node.perform : Node → Effect Unit
  | ⟨.assignment, _, _, [target, expression]⟩ => do assign target.text (← value expression)
  | ⟨.definition, name, line, children⟩ => define ⟨.definition, name, line, children⟩
  | ⟨.print, _, line, [expression]⟩ => do write (Number.printed (← value expression)) line
  | ⟨.read, _, line, [target]⟩ => do assign target.text (← readValue target.text line)
  | statement => throw (.malformedTree statement.line)

/-! ### Programs -/

/-- The outcome of effects on a store. -/
def Outcome.ofEffect : EStateM.Result RuntimeError Store Unit → Outcome RuntimeError Memory
  | .ok () store => ⟨.ok ⟨store.globals, store.functions, []⟩, store.sink, store.input⟩
  | .error error store => ⟨.error error, store.sink, store.input⟩

/-- The meaning of a program: its statements are performed in order, and then what they
printed is flushed. -/
def Program.evaluate (root : Node) (sink : Sink) (input : Input) : Outcome RuntimeError Memory :=
  let effect : Effect Unit := do
    root.children.forM Node.perform
    Store.flush root.line
  .ofEffect (effect ⟨∅, ∅, sink, input⟩)

end IntScript
