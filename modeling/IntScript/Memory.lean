import IntScript.RuntimeError
import Std.Data.ExtTreeMap

/-!
# Memory

A running program remembers its global variables, the definitions of its functions, and the
bindings of the calls that are active.  A function has at most one definition, and only the
innermost binding is visible to the body that is being evaluated.  `Memory.enter` activates
a call and `Memory.leave` ends it.

What may fail is a `Memory.Change`, which keeps the memory in which an error was met.
-/

namespace IntScript

/-- The parameter of an active call with the value of its argument. -/
structure Binding where
  function : String
  parameter : String
  value : Value
deriving DecidableEq, Repr

/-- What a running program remembers.  The bindings are listed from the innermost. -/
structure Memory where
  globals : Std.ExtTreeMap String Value
  functions : Std.ExtTreeMap String Node
  bindings : List Binding

/-- What changes a memory and may fail. -/
abbrev Memory.Change := EStateM RuntimeError Memory

namespace Memory

theorem get_bind {α : Type} (change : Memory → Change α) (memory : Memory) :
  (get >>= change) memory = change memory memory
  :=
  rfl

/-- The memory of a program that has not run. -/
def empty : Memory :=
  ⟨∅, ∅, []⟩

/-- The value of a global variable. -/
def global? (memory : Memory) (name : String) : Option Value :=
  memory.globals[name]?

/-- The value of the innermost binding, if its parameter has the given name. -/
def parameter? (memory : Memory) (name : String) : Option Value :=
  match memory.bindings with
  | [] => none
  | binding :: _ => if binding.parameter = name then some binding.value else none

/-- The value a name stands for: the parameter of the innermost call comes before a global
variable. -/
def resolve (name : String) (line : Nat) : Change Value := do
  let memory ← get
  match (memory.parameter? name).or (memory.global? name) with
  | some value => return value
  | none => throw (.undefinedVariable name line)

theorem resolve_eq (memory : Memory) (name : String) (line : Nat) :
  memory.resolve name line
    = match (memory.parameter? name).or (memory.global? name) with
      | some value => .ok value memory
      | none => .error (.undefinedVariable name line) memory
  := by
  rw [resolve, get_bind]
  cases (memory.parameter? name).or (memory.global? name) <;> rfl

/-- Gives a global variable a value. -/
def assign (memory : Memory) (name : String) (value : Value) : Memory :=
  { memory with globals := memory.globals.insert name value }

/-- Records a definition under its name, which must be new. -/
def define (definition : Node) : Change Unit := do
  if definition.text ∈ (← get).functions then
    throw (.duplicateFunction definition.text definition.line)
  else
    modify fun memory =>
      { memory with functions := memory.functions.insert definition.text definition }

theorem define_eq (memory : Memory) (definition : Node) :
  memory.define definition
    = if definition.text ∈ memory.functions then
        .error (.duplicateFunction definition.text definition.line) memory
      else
        .ok () { memory with functions := memory.functions.insert definition.text definition }
  := by
  rw [define, get_bind]
  split <;> rfl

/-- Adds an innermost binding. -/
def bind (memory : Memory) (binding : Binding) : Memory :=
  { memory with bindings := binding :: memory.bindings }

/-- Whether the body of a function is being evaluated. -/
def isActive (memory : Memory) (function : String) : Bool :=
  memory.bindings.any fun binding => binding.function == function

/-- Activates a call, and yields the body to evaluate.  The function must be defined, with
a parameter and a body, and must not be active. -/
def enter (function : String) (argument : Value) (line : Nat) : Change Node := do
  let memory ← get
  match memory.functions[function]? with
  | none => throw (.undefinedFunction function line)
  | some definition =>
    if memory.isActive function then
      throw (.recursiveCall function line)
    else
      match definition.children with
      | [parameter, body] =>
        modify fun memory => memory.bind ⟨definition.text, parameter.text, argument⟩
        return body
      | _ => throw (.malformedTree definition.line)

theorem enter_eq (memory : Memory) (function : String) (argument : Value) (line : Nat) :
  memory.enter function argument line
    = match memory.functions[function]? with
      | none => .error (.undefinedFunction function line) memory
      | some definition =>
        if memory.isActive function then
          .error (.recursiveCall function line) memory
        else
          match definition.children with
          | [parameter, body] =>
            .ok body (memory.bind ⟨definition.text, parameter.text, argument⟩)
          | _ => .error (.malformedTree definition.line) memory
  := by
  rw [enter, get_bind]
  cases memory.functions[function]? with
  | none => rfl
  | some definition =>
    simp only
    split
    · rfl
    · rcases definition.children with _ | ⟨parameter, _ | ⟨body, _ | _⟩⟩ <;> rfl

/-- Ends the innermost call. -/
def leave (memory : Memory) : Memory :=
  { memory with bindings := memory.bindings.tail }

end Memory

end IntScript
