import IntScript.Memory
import Mathlib.Data.List.Induction

/-!
# Consistent memories

What can be done with a memory: variables are assigned, functions defined, calls entered and left,
and names looked up, in any order and with any definitions.  Main statement: whatever was done,
every name has the first definition that was made for it, the active functions are different and
defined, an operation that fails changes nothing, and to leave a call that has just been entered is
to go back to the memory before it.
-/

namespace IntScript.Memory

/-! ### Operations -/

/-- What can be done with a memory. -/
inductive Operation where
  | assign (name : String) (value : Value)
  | define (definition : Node)
  | enter (function : String) (argument : Value) (line : Nat)
  | leave
  | lookUp (name : String)
  | resolve (name : String) (line : Nat)

/-- What an operation on a memory yields. -/
inductive Reply where
  | done
  | body (body : Node)
  | value (value? : Option Value)

/-- Performs an operation. -/
def perform : Operation → Change Reply
  | .assign name value => do
    modify fun memory => memory.assign name value
    return .done
  | .define definition => do
    define definition
    return .done
  | .enter function argument line => return .body (← enter function argument line)
  | .leave => do
    modify leave
    return .done
  | .lookUp name => return .value ((← get).global? name)
  | .resolve name line => return .value (some (← resolve name line))

/-- The memory after an operation, whether it failed or not. -/
def next (memory : Memory) (operation : Operation) : Memory :=
  match memory.perform operation with
  | .ok _ memory' => memory'
  | .error _ memory' => memory'

/-- The memory after operations that are performed one after the other on an empty one. -/
def after (operations : List Operation) : Memory :=
  operations.foldl next empty

/-- The definition that an operation tries to record. -/
def Operation.definition? : Operation → Option Node
  | .define definition => some definition
  | _ => none

/-- The first of some definitions that has the given name. -/
def first? (definitions : List Node) (name : String) : Option Node :=
  definitions.find? fun definition => definition.text == name

/-! ### Inversion -/

variable {memory memory' : Memory} {definitions : List Node}

/-- A call that is entered is that of a defined function that was not active. -/
theorem enter_eq_ok {function : String} {argument : Value} {line : Nat} {body : Node}
    (entered : memory.enter function argument line = .ok body memory') :
  ∃ definition parameter, memory.functions[function]? = some definition
    ∧ definition.children = [parameter, body]
    ∧ function ∉ memory.bindings.map Binding.function
    ∧ memory' = memory.bind ⟨definition.text, parameter.text, argument⟩
  := by
  rw [enter_eq] at entered
  split at entered
  · cases entered
  · rename_i definition recorded
    split at entered
    · cases entered
    · rename_i inactive
      split at entered <;> cases entered
      rename_i parameter children
      refine ⟨definition, parameter, recorded, children, ?_, rfl⟩
      simpa [isActive] using inactive

/-- A change is atomic if it leaves the memory as it is when it fails. -/
def Atomic {α : Type} (change : Change α) : Prop :=
  ∀ ⦃memory memory' : Memory⦄ ⦃error : RuntimeError⦄,
    change memory = .error error memory' → memory' = memory

theorem atomic_resolve (name : String) (line : Nat) :
  Atomic (resolve name line)
  := by
  intro memory memory' error failed
  rw [resolve_eq] at failed
  split at failed <;> cases failed
  rfl

/-- It is checked that a definition is new before it is recorded. -/
theorem atomic_define (definition : Node) :
  Atomic (define definition)
  := by
  intro memory memory' error failed
  rw [define_eq] at failed
  split at failed <;> cases failed
  rfl

/-- A call is checked before it becomes active. -/
theorem atomic_enter (function : String) (argument : Value) (line : Nat) :
  Atomic (enter function argument line)
  := by
  intro memory memory' error failed
  rw [enter_eq] at failed
  split at failed
  · cases failed
    rfl
  · split at failed
    · cases failed
      rfl
    · split at failed <;> cases failed
      rfl

/-- An operation replies with what it makes of the value of a change. -/
theorem reply_eq {α : Type} (change : Change α) (reply : α → Reply) (memory : Memory) :
  (do return reply (← change) : Change Reply) memory
    = match change memory with
      | .ok a memory' => .ok (reply a) memory'
      | .error error memory' => .error error memory'
  := by
  change EStateM.bind change _ memory = _
  unfold EStateM.bind
  cases change memory <;> rfl

theorem Atomic.reply {α : Type} {change : Change α} (atomic : Atomic change) (reply : α → Reply) :
  Atomic (do return reply (← change))
  := by
  intro memory memory' error failed
  rw [reply_eq] at failed
  split at failed <;> cases failed
  rename_i failed
  exact atomic failed

/-- An operation that fails changes nothing. -/
theorem atomic_perform (operation : Operation) :
  Atomic (perform operation)
  := by
  cases operation with
  | assign | leave | lookUp => exact nofun
  | define definition => exact (atomic_define definition).reply fun _ => .done
  | enter function argument line => exact (atomic_enter function argument line).reply .body
  | resolve name line => exact (atomic_resolve name line).reply fun value => .value (some value)

theorem perform_define (memory : Memory) (definition : Node) :
  memory.perform (.define definition)
    = if definition.text ∈ memory.functions then
        .error (.duplicateFunction definition.text definition.line) memory
      else
        .ok .done
          { memory with functions := memory.functions.insert definition.text definition }
  := by
  rw [perform, reply_eq, define_eq]
  by_cases defined : definition.text ∈ memory.functions
  · rw [if_pos defined, if_pos defined]
  · rw [if_neg defined, if_neg defined]

/-- To perform a call is to enter it. -/
theorem enter_of_perform {function : String} {argument : Value} {line : Nat} {reply : Reply}
    (performed : memory.perform (.enter function argument line) = .ok reply memory') :
  ∃ body, memory.enter function argument line = .ok body memory' ∧ reply = .body body
  := by
  rw [perform, reply_eq] at performed
  split at performed <;> cases performed
  rename_i body entered
  exact ⟨body, entered, rfl⟩

/-! ### Consistency -/

/-- A memory is consistent with the definitions that were made if it has the first one of each name,
and the active functions are different from each other and defined. -/
structure Consistent (definitions : List Node) (memory : Memory) : Prop where
  recorded : ∀ name : String, memory.functions[name]? = first? definitions name
  distinct : (memory.bindings.map Binding.function).Nodup
  defined : ∀ binding ∈ memory.bindings, binding.function ∈ memory.functions

theorem Consistent.text_eq {name : String} {definition : Node}
    (consistent : Consistent definitions memory)
    (recorded : memory.functions[name]? = some definition) :
  definition.text = name
  := by
  rw [consistent.recorded] at recorded
  simpa using List.find?_some recorded

theorem first?_concat (definitions : List Node) (definition : Node) (name : String) :
  first? (definitions ++ [definition]) name
    = (first? definitions name).or (if definition.text = name then some definition else none)
  := by
  rw [first?, List.find?_append, List.find?_singleton]
  simp [first?]

/-- A definition is recorded if it is the first one of its name, and only then. -/
theorem Consistent.define (consistent : Consistent definitions memory) (definition : Node) :
  Consistent (definitions ++ [definition]) (memory.next (.define definition))
  := by
  have recorded := consistent.recorded
  rw [Memory.next, perform_define]
  by_cases known : definition.text ∈ memory.functions
  · rw [if_pos known]
    refine ⟨fun name => ?_, consistent.distinct, consistent.defined⟩
    rw [first?_concat, ← recorded]
    by_cases text : definition.text = name
    · subst text
      rw [Std.ExtTreeMap.mem_iff_isSome_getElem?] at known
      rw [Option.or_of_isSome known]
    · rw [if_neg text, Option.or_none]
  · rw [if_neg known]
    refine ⟨fun name => ?_, consistent.distinct, ?_⟩
    · rw [first?_concat, ← recorded, Std.ExtTreeMap.getElem?_insert]
      by_cases text : definition.text = name
      · subst text
        simp [Std.ExtTreeMap.getElem?_eq_none known]
      · simp [text]
    · intro binding mem
      rw [Std.ExtTreeMap.mem_insert]
      exact .inr (consistent.defined binding mem)

theorem Consistent.enter {function : String} {argument : Value} {line : Nat} {body : Node}
    (consistent : Consistent definitions memory)
    (entered : memory.enter function argument line = .ok body memory') :
  Consistent definitions memory'
  := by
  obtain ⟨definition, parameter, recorded, -, inactive, rfl⟩ := enter_eq_ok entered
  rw [consistent.text_eq recorded]
  refine ⟨consistent.recorded, ?_, ?_⟩
  · exact List.nodup_cons.mpr ⟨inactive, consistent.distinct⟩
  · apply List.forall_mem_cons.mpr ⟨_, consistent.defined⟩
    rw [Std.ExtTreeMap.mem_iff_isSome_getElem?, recorded]
    rfl

theorem Consistent.leave (consistent : Consistent definitions memory) :
  Consistent definitions memory.leave
  where
  recorded := consistent.recorded
  distinct := by
    have distinct := consistent.distinct.tail
    rwa [← List.map_tail] at distinct
  defined binding mem := consistent.defined binding (List.mem_of_mem_tail mem)

/-- Memories stay consistent, whatever is done with them and whether it fails or not. -/
theorem Consistent.next (consistent : Consistent definitions memory) (operation : Operation) :
  Consistent (definitions ++ operation.definition?.toList) (memory.next operation)
  := by
  have undefining {memory' : Memory} (kept : Consistent definitions memory') :
      Consistent (definitions ++ []) memory' := by
    rwa [List.append_nil]
  cases operation with
  | define definition => exact consistent.define definition
  | assign name value =>
    apply undefining
    exact ⟨consistent.recorded, consistent.distinct, consistent.defined⟩
  | leave => exact undefining consistent.leave
  | lookUp name => exact undefining consistent
  | resolve name line =>
    apply undefining
    rw [Memory.next, perform, reply_eq, resolve_eq]
    cases (memory.parameter? name).or (memory.global? name) <;> exact consistent
  | enter function argument line =>
    apply undefining
    rw [Memory.next]
    cases performed : memory.perform (.enter function argument line) with
    | error error => rw [atomic_perform _ performed]; exact consistent
    | ok reply =>
      obtain ⟨body, entered, -⟩ := enter_of_perform performed
      exact consistent.enter entered

theorem after_concat (operations : List Operation) (operation : Operation) :
  after (operations ++ [operation]) = (after operations).next operation
  := by
  rw [after, List.foldl_append]
  rfl

/-- A memory is consistent with all definitions that operations tried to record in it. -/
theorem consistent_after (operations : List Operation) :
  Consistent (operations.filterMap Operation.definition?) (after operations)
  := by
  induction operations using List.reverseRecOn with
  | nil => exact ⟨fun _ => rfl, .nil, nofun⟩
  | append_singleton operations operation ih =>
    have tried : [operation].filterMap Operation.definition? = operation.definition?.toList := by
      cases tried : operation.definition? <;> simp [tried]
    rw [after_concat, List.filterMap_append, tried]
    exact ih.next operation

/-! ### Single operations -/

/-- To leave a call that has been entered is to go back. -/
theorem leave_of_enter {function : String} {argument : Value} {line : Nat} {reply : Reply}
    (entered : memory.perform (.enter function argument line) = .ok reply memory') :
  memory'.leave = memory
  := by
  obtain ⟨body, entered, -⟩ := enter_of_perform entered
  obtain ⟨definition, parameter, -, -, -, rfl⟩ := enter_eq_ok entered
  rfl

/-- Whatever is done with an empty memory, and whichever operations fail, every name has the first
definition that was made for it, and keeps it.  The active functions are different and defined.  An
operation that fails leaves the memory as it is, and whoever leaves a call that has been entered
finds the memory as it was before. -/
theorem operations_keep_consistent (operations : List Operation) :
  (∀ name : String, (after operations).functions[name]?
      = first? (operations.filterMap Operation.definition?) name)
    ∧ (∀ (name : String) (definition : Node) (later : List Operation),
      (after operations).functions[name]? = some definition →
      (after (operations ++ later)).functions[name]? = some definition)
    ∧ ((after operations).bindings.map Binding.function).Nodup
    ∧ (∀ binding ∈ (after operations).bindings, binding.function ∈ (after operations).functions)
    ∧ (∀ operation error memory, (after operations).perform operation = .error error memory →
      memory = after operations)
    ∧ ∀ function argument line reply memory,
      (after operations).perform (.enter function argument line) = .ok reply memory →
      memory.perform .leave = .ok .done (after operations)
  := by
  have consistent := consistent_after operations
  refine ⟨consistent.recorded, ?_, consistent.distinct, consistent.defined, ?_, ?_⟩
  · intro name definition later recorded
    rw [consistent.recorded, first?] at recorded
    rw [(consistent_after (operations ++ later)).recorded, first?, List.filterMap_append,
      List.find?_append, recorded, Option.some_or]
  · intro operation error memory failed
    exact atomic_perform operation failed
  · intro function argument line reply memory entered
    rw [← leave_of_enter entered]
    rfl

/-- A definition without a parameter and a body, another one of the same name, one that can be
called, and an end of a call that was never entered. -/
def sampleOperations : List Operation :=
  [.define ⟨.definition, "F", 1, []⟩,
    .define ⟨.definition, "F", 2, [.leaf .variable "x" 2, .leaf .number "1" 2]⟩,
    .define ⟨.definition, "G", 3, [.leaf .variable "x" 3, .leaf .variable "x" 3]⟩, .leave]

/-- The first definition of `F` stays, although it cannot be called, and a call of `G` can be
entered and left. -/
theorem operations_keep_consistent_sample :
  (after sampleOperations).functions["F"]? = some ⟨.definition, "F", 1, []⟩
    ∧ (∃ memory, (after sampleOperations).perform (.enter "F" 5 4)
        = .error (.malformedTree 1) memory
      ∧ memory = after sampleOperations)
    ∧ ∃ memory, (after sampleOperations).perform (.enter "G" 5 4)
        = .ok (.body (.leaf .variable "x" 3)) memory
      ∧ memory.perform .leave = .ok .done (after sampleOperations)
  := by
  obtain ⟨recorded, -, -, -, failing, entering⟩ := operations_keep_consistent sampleOperations
  have failed : (after sampleOperations).perform (.enter "F" 5 4)
      = .error (.malformedTree 1) (after sampleOperations) := rfl
  refine ⟨recorded "F", ⟨_, failed, failing _ _ _ failed⟩, ?_⟩
  have entered : (after sampleOperations).perform (.enter "G" 5 4)
      = .ok (.body (.leaf .variable "x" 3))
        ((after sampleOperations).bind ⟨"G", "x", 5⟩) := rfl
  exact ⟨_, entered, entering _ _ _ _ _ entered⟩

end IntScript.Memory
