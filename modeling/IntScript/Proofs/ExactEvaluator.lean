import IntScript.Proofs.Evaluator

/-!
# The exact evaluator

What a program means when its numbers are the integers, without any bounds.  Literals and the
words of the input denote integers, operators have their exact results, and nothing overflows.
`Exact.calculate` is the value of an expression, together with all integers that are met on
the way to it, `Exact.perform` performs a statement on an `Exact.Store`, and `Exact.run`
performs the statements of a program one after the other.  What is printed is not written
anywhere but listed.
-/

namespace IntScript

/-- The integer that a text denotes when it is a row of digits behind at most one sign. -/
def Decimal.integer? (text : String) : Option Int :=
  match text.toList with
  | '-' :: digits => do
    let n ← natural? digits
    return -n
  | '+' :: digits => do
    let n ← natural? digits
    return n
  | digits => do
    let n ← natural? digits
    return n

/-- The exact result of an operator; there is no quotient by zero. -/
def Operator.exactResult? (op : Operator) (m n : Int) : Option Int :=
  if op.divides && n == 0 then none else some (op.exact m n)

namespace Exact

/-! ### Expressions -/

/-- What an expression sees. -/
structure Scope where
  globals : Std.ExtTreeMap String Int
  functions : Std.ExtTreeMap String Node
  /-- The parameter of the function whose body is evaluated, with its value. -/
  parameter : Option (String × Int)
  /-- The functions whose bodies are being evaluated. -/
  active : List String

namespace Scope

/-- The integer that a name stands for: the parameter comes before a global variable. -/
def resolve? (scope : Scope) (name : String) : Option Int :=
  match scope.parameter with
  | some (parameter, n) => if parameter = name then some n else scope.globals[name]?
  | none => scope.globals[name]?

/-- The scope of the body of a function that is called with an argument. -/
def enter (scope : Scope) (function parameter : String) (argument : Int) : Scope :=
  { scope with parameter := some (parameter, argument), active := function :: scope.active }

/-- How many functions can still be called. -/
def idle (scope : Scope) : Nat :=
  (scope.functions.keys.filter (· ∉ scope.active)).length

/-- In the body of a function one function fewer can be called. -/
theorem idle_enter_lt
    {scope : Scope} {function : String} {definition : Node} (parameter : String) (argument : Int)
    (defined : scope.functions[function]? = some definition) (inactive : function ∉ scope.active) :
  (scope.enter function parameter argument).idle < scope.idle
  := by
  let shape : IntScript.Scope := ⟨∅, scope.functions, none, scope.active⟩
  apply shape.idle_enter_lt parameter 0 defined inactive

end Scope

/-- The value of an expression, and the integers that are met on the way to it. -/
structure Calculation where
  value : Int
  met : List Int

/-- The exact value of an expression. -/
def calculate (scope : Scope) : Node → Option Calculation
  | ⟨.number, text, _, []⟩ => do
    let n ← Decimal.natural? text.toList
    return ⟨n, [n]⟩
  | ⟨.variable, name, _, []⟩ => do
    let n ← scope.resolve? name
    return ⟨n, [n]⟩
  | ⟨.operation op, _, _, [left, right]⟩ => do
    let left ← calculate scope left
    let right ← calculate scope right
    let n ← op.exactResult? left.value right.value
    return ⟨n, left.met ++ right.met ++ [n]⟩
  | ⟨.call, name, _, [argument]⟩ => do
    let argument ← calculate scope argument
    match lookup : scope.functions[name]? with
    | none => none
    | some definition =>
      if active : name ∈ scope.active then
        none
      else
        match definition.children with
        | [parameter, body] =>
          have := Scope.idle_enter_lt parameter.text argument.value lookup active
          do
            let result ← calculate (scope.enter name parameter.text argument.value) body
            return ⟨result.value, argument.met ++ result.met⟩
        | _ => none
  | _ => none
termination_by node => (scope.idle, sizeOf node)

/-- The value of a call is that of the body of its function, once the argument has a value. -/
theorem calculate_call
    {scope : Scope} {name : String} {argument definition parameter body : Node}
    {taken : Calculation} (line : Nat) (calculated : calculate scope argument = some taken)
    (defined : scope.functions[name]? = some definition) (inactive : name ∉ scope.active)
    (children : definition.children = [parameter, body]) :
  calculate scope ⟨.call, name, line, [argument]⟩ = (do
    let result ← calculate (scope.enter name parameter.text taken.value) body
    return ⟨result.value, taken.met ++ result.met⟩)
  := by
  rw [calculate, calculated, Option.bind_eq_bind, Option.bind_some]
  split
  · rename_i undefined
    rw [defined] at undefined
    cases undefined
  · rename_i found
    rw [defined] at found
    cases found
    rw [dif_neg inactive]
    split
    · rename_i children'
      rw [children] at children'
      cases children'
      rfl
    · rename_i others
      exact absurd children (others _ _)

/-! ### Statements -/

/-- What statements change. -/
structure Store where
  globals : Std.ExtTreeMap String Int
  functions : Std.ExtTreeMap String Node
  input : Input
  /-- The integers that were printed, in order. -/
  printed : List Int
  /-- All integers that were met. -/
  met : List Int

/-- What an expression outside all functions sees. -/
def Store.scope (store : Store) : Scope :=
  ⟨store.globals, store.functions, none, []⟩

/-- The value of an expression outside all functions. -/
def Store.value (store : Store) (node : Node) : Option (Int × Store) := do
  let calculation ← calculate store.scope node
  return (calculation.value, { store with met := store.met ++ calculation.met })

/-- The effect of a statement. -/
def perform (store : Store) : Node → Option Store
  | ⟨.assignment, _, _, [target, expression]⟩ => do
    let (n, store) ← store.value expression
    return { store with globals := store.globals.insert target.text n }
  | ⟨.definition, name, line, children⟩ =>
    if name ∈ store.functions then
      none
    else
      let definition : Node := ⟨.definition, name, line, children⟩
      some { store with functions := store.functions.insert name definition }
  | ⟨.print, _, _, [expression]⟩ => do
    let (n, store) ← store.value expression
    return { store with printed := store.printed ++ [n] }
  | ⟨.read, _, _, [target]⟩ =>
    match store.input.nextWord with
    | .ok (some word) input => do
      let n ← Decimal.integer? word
      return { store with
        globals := store.globals.insert target.text n, input := input, met := store.met ++ [n] }
    | _ => none
  | _ => none

/-- What an integer looks like when it is printed: its decimal text and a newline. -/
def bytes (n : Int) : List UInt8 :=
  Text.encode (Decimal.ofInt n ++ ['\n'])

/-- The exact meaning of a program: its statements are performed in order. -/
def run (root : Node) (input : Input) : Option Store :=
  root.children.foldlM perform ⟨∅, ∅, input, [], []⟩

end Exact

end IntScript
