import IntScript.Proofs.Lockstep
import IntScript.Proofs.Sequence
import IntScript.Token.Scan

/-!
# Earlier definitions

A definition can stand anywhere before the first statement that needs it.  An expression that has
a value keeps it when more functions are recorded, and a statement that does its work does the
same.  Main statement: if a compiled program succeeds and one of its definitions is moved to an
earlier place, the program still has the same outcome.
-/

namespace IntScript

/-! ### Expressions -/

/-- A scope extends another one if it differs from it in nothing but further functions. -/
structure Scope.Extends (scope scope' : Scope) : Prop where
  globals : scope'.globals = scope.globals
  functions : ∀ (name : String) (definition : Node), scope.functions[name]? = some definition →
    scope'.functions[name]? = some definition
  parameter : scope'.parameter = scope.parameter
  active : scope'.active = scope.active

namespace Scope.Extends

variable {scope scope' : Scope}

theorem enter (extend : scope.Extends scope') (function parameter : String) (argument : Value) :
  (scope.enter function parameter argument).Extends (scope'.enter function parameter argument)
  where
  globals := extend.globals
  functions := extend.functions
  parameter := rfl
  active := congrArg (function :: ·) extend.active

/-- Names stand for the same values. -/
theorem resolve_eq (extend : scope.Extends scope') (name : String) (line : Nat) :
  scope'.resolve name line = scope.resolve name line
  := by
  simp only [resolve, resolveGlobal, extend.globals, extend.parameter]

end Scope.Extends

/-- An expression that has a value has the same value when there are more functions. -/
theorem Node.eval_of_extends {scope scope' : Scope} {node : Node} {value : Value}
    (extend : scope.Extends scope') (evaluated : node.eval scope = .ok value) :
  node.eval scope' = .ok value
  := by
  induction scope, node using Node.eval.induct generalizing scope' value with
  | case1 scope text line =>
    rw [eval] at evaluated ⊢
    apply evaluated
  | case2 scope name line =>
    rw [eval] at evaluated ⊢
    rw [extend.resolve_eq, evaluated]
  | case3 scope op text line left right ihLeft ihRight =>
    obtain ⟨leftValue, rightValue, evaluatedLeft, evaluatedRight, applied⟩ :=
      eval_operation_eq_ok.mp evaluated
    apply eval_operation_eq_ok.mpr
    exact ⟨leftValue, rightValue, ihLeft extend evaluatedLeft, ihRight extend evaluatedRight,
      applied⟩
  | case4 scope name line argument ihArgument ihBody =>
    obtain ⟨argumentValue, definition, parameter, body, evaluatedArgument, defined, inactive,
      children, evaluatedBody⟩ := eval_call_eq_ok.mp evaluated
    apply eval_call_eq_ok.mpr
    refine ⟨argumentValue, definition, parameter, body, ihArgument extend evaluatedArgument,
      extend.functions name definition defined, ?_, children, ?_⟩
    · rw [extend.active]
      apply inactive
    · apply ihBody argumentValue definition defined inactive parameter body _ evaluatedBody
      apply extend.enter
  | case5 scope node number reference operation call =>
    rw [eval] at evaluated
    · cases evaluated
    all_goals assumption

/-! ### Statements -/

/-- A table of functions has one definition more than another one. -/
structure Adds (definition : Node) (functions functions' : Std.ExtTreeMap String Node) : Prop where
  new : definition.text ∉ functions
  eq : functions' = functions.insert definition.text definition

/-- The definition of another function can be recorded before or after. -/
theorem Adds.insert {definition other : Node} {functions functions' : Std.ExtTreeMap String Node}
    (adds : Adds definition functions functions') (different : other.text ≠ definition.text) :
  Adds definition (functions.insert other.text other) (functions'.insert other.text other)
  := by
  constructor
  · simp [adds.new, different]
  · rw [adds.eq]
    apply Std.ExtTreeMap.ext_getElem?
    intro name
    simp only [Std.ExtTreeMap.getElem?_insert, Std.compare_eq_iff_eq]
    by_cases isOther : other.text = name
    · have notThis : definition.text ≠ name := by
        rintro rfl
        apply different isOther
      rw [if_pos isOther, if_neg notThis, if_pos isOther]
    · simp only [if_neg isOther]

namespace Store

variable {store store' store₁ : Store} {α : Type} {definition other : Node} {x : Effect α}
  {name : String}

/-- An effect that succeeds follows if it also succeeds with one definition more, unless it records
a function of that name, and yields the same value in a store that has one definition more. -/
def Follows (definition : Node) (x : Effect α) : Prop :=
  ∀ ⦃store store' store₁ : Store⦄ ⦃a : α⦄, Alike (Adds definition) store store' →
    x store = .ok a store₁ → definition.text ∉ store₁.functions →
    ∃ store₁', x store' = .ok a store₁' ∧ Alike (Adds definition) store₁ store₁'

/-- What has nothing to do with the functions follows. -/
theorem follows_of_lockstep (lockstep : Lockstep (Adds definition) x x) :
  Follows definition x
  := by
  intro store store' store₁ a alike succeeded _
  have results := lockstep alike
  rw [succeeded] at results
  generalize x store' = result at results
  cases results with
  | ok _ alike₁ => exact ⟨_, rfl, alike₁⟩

/-- More functions make a scope that extends the former one. -/
theorem Alike.extends_scope (alike : Alike (Adds definition) store store') :
  store.scope.Extends store'.scope
  where
  globals := alike.globals
  functions := by
    intro name recorded found
    have found : store.functions[name]? = some recorded := found
    change store'.functions[name]? = some recorded
    have other : definition.text ≠ name := by
      rintro rfl
      apply alike.functions.new
      rw [Std.ExtTreeMap.mem_iff_isSome_getElem?, found]
      rfl
    rw [alike.functions.eq, Std.ExtTreeMap.getElem?_insert, if_neg (by simpa using other), found]
  parameter := rfl
  active := rfl

/-- What is done with the value of an expression follows. -/
theorem follows_value_bind (node : Node) {f : Value → Effect α}
    (lockstep : ∀ a, Lockstep (Adds definition) (f a) (f a)) :
  Follows definition (value node >>= f)
  := by
  intro store store' store₁ a alike succeeded new
  cases evaluated : node.eval store.scope with
  | error error =>
    have failed : value node store = .error error store := by simp only [value, evaluated]
    rw [Machine.bind_of_error failed] at succeeded
    cases succeeded
  | ok v =>
    have evaluated' := Node.eval_of_extends alike.extends_scope evaluated
    have first : value node store = .ok v store := by simp only [value, evaluated]
    have first' : value node store' = .ok v store' := by simp only [value, evaluated']
    rw [Machine.bind_of_ok first] at succeeded
    rw [Machine.bind_of_ok first']
    apply follows_of_lockstep (lockstep v) alike succeeded new

/-- What `define` does when it succeeds. -/
theorem define_eq_ok :
  define definition store = .ok () store₁ ↔ definition.text ∉ store.functions
    ∧ store₁ = { store with functions := store.functions.insert definition.text definition }
  := by
  unfold define
  split
  · simp_all
  · simp_all [eq_comm]

/-- Definitions of other functions follow. -/
theorem follows_define (other : Node) :
  Follows definition (define other)
  := by
  intro store store' store₁ _ alike succeeded new
  obtain ⟨newOther, rfl⟩ := define_eq_ok.mp succeeded
  have different : other.text ≠ definition.text := by
    intro same
    apply new
    simp [same]
  have newOther' : other.text ∉ store'.functions := by
    rw [alike.functions.eq]
    simp [newOther, Ne.symm different]
  refine ⟨_, define_eq_ok.mpr ⟨newOther', rfl⟩, ?_⟩
  exact ⟨alike.globals, alike.functions.insert different, alike.sink, alike.input⟩

/-- Every statement follows. -/
theorem follows_perform (statement : Node) :
  Follows definition statement.perform
  := by
  -- The cases are an assignment, a definition, `print`, `read` and whatever is no statement.
  unfold Node.perform
  split
  · apply follows_value_bind
    intro value
    apply lockstep_assign
  · apply follows_define
  · apply follows_value_bind
    intro value
    apply lockstep_write
  · apply follows_of_lockstep
    apply lockstep_bind (lockstep_readValue _ _)
    intro value
    apply lockstep_assign
  · apply follows_of_lockstep
    apply lockstep_throw

/-! ### Statements one after the other -/

/-- A statement forgets no function. -/
theorem mem_functions_of_perform {statement : Node} (isStatement : statement.IsStatement)
    (performed : statement.perform store = .ok () store₁) (mem : name ∈ store.functions) :
  name ∈ store₁.functions
  := by
  by_cases definition : statement.kind = .definition
  · cases isStatement with
    | definition function parameter line parameterLine isBody =>
      obtain ⟨-, rfl⟩ := define_eq_ok.mp performed
      simp [mem]
    | _ => cases definition
  · let m : Machine := ⟨[], [], ⟨store.globals, store.functions, []⟩, store.sink, store.input⟩
    have performed : statement.perform m.store = .ok () store₁ := performed
    have same := Machine.functions_of_perform isStatement definition
      (Machine.onStore_of_ok performed)
    change store₁.functions = store.functions at same
    rw [same]
    apply mem

theorem mem_functions_of_forM {statements : List Node}
    (all : ∀ statement ∈ statements, statement.IsStatement)
    (performed : statements.forM Node.perform store = .ok () store₁)
    (mem : name ∈ store.functions) :
  name ∈ store₁.functions
  := by
  induction statements generalizing store with
  | nil =>
    cases performed
    apply mem
  | cons statement statements ih =>
    rw [List.forall_mem_cons] at all
    obtain ⟨_, store', first, rest⟩ := Machine.bind_eq_ok.mp performed
    apply ih all.2 rest
    apply mem_functions_of_perform all.1 first mem

/-- Statements follow one after the other. -/
theorem follows_forM {statements : List Node}
    (all : ∀ statement ∈ statements, statement.IsStatement) :
  Follows definition (statements.forM Node.perform)
  := by
  induction statements with
  | nil =>
    apply follows_of_lockstep
    apply lockstep_pure
  | cons statement statements ih =>
    rw [List.forall_mem_cons] at all
    intro store store' store₂ _ alike performed new
    obtain ⟨_, store₁, first, rest⟩ := Machine.bind_eq_ok.mp performed
    have new₁ : definition.text ∉ store₁.functions :=
      fun mem => new (mem_functions_of_forM all.2 rest mem)
    obtain ⟨store₁', first', alike₁⟩ := follows_perform statement alike first new₁
    obtain ⟨store₂', rest', alike₂⟩ := ih all.2 alike₁ rest new
    exact ⟨store₂', (Machine.bind_of_ok first').trans rest', alike₂⟩

/-- A store with one definition more is given by that definition. -/
theorem Alike.eq (alike : Alike (Adds definition) store store') :
  store' = { store with functions := store.functions.insert definition.text definition }
  := by
  obtain ⟨globals', functions', sink', input'⟩ := store'
  obtain ⟨rfl, ⟨-, rfl⟩, rfl, rfl⟩ := alike
  rfl

theorem perform_definition (kind : definition.kind = .definition) :
  definition.perform = define definition
  := by
  obtain ⟨_, name, line, children⟩ := definition
  cases kind
  rfl

/-- When statements succeed, a definition among them can be moved to an earlier place, and they
leave the same store. -/
theorem forM_move_definition {before between after : List Node}
    (all : ∀ statement ∈ between, statement.IsStatement) (kind : definition.kind = .definition)
    (performed : (before ++ (between ++ definition :: after)).forM Node.perform store
      = .ok () store₁) :
  (before ++ definition :: (between ++ after)).forM Node.perform store = .ok () store₁
  := by
  obtain ⟨here, performedBefore, performed⟩ := exists_forM_take performed before.length
  rw [List.take_left] at performedBefore
  rw [List.drop_left] at performed
  obtain ⟨there, performedBetween, performed⟩ := exists_forM_take performed between.length
  rw [List.take_left] at performedBetween
  rw [List.drop_left] at performed
  obtain ⟨_, recorded, performedDefinition, performedAfter⟩ := Machine.bind_eq_ok.mp performed
  rw [perform_definition kind] at performedDefinition
  obtain ⟨new, rfl⟩ := define_eq_ok.mp performedDefinition
  have newHere : definition.text ∉ here.functions :=
    fun mem => new (mem_functions_of_forM all performedBetween mem)
  have alike : Alike (Adds definition) here
      { here with functions := here.functions.insert definition.text definition } :=
    ⟨rfl, ⟨newHere, rfl⟩, rfl, rfl⟩
  obtain ⟨there', performedBetween', alike'⟩ := follows_forM all alike performedBetween new
  obtain rfl := alike'.eq
  have defined : definition.perform here = _ :=
    (congrFun (perform_definition kind) here).trans (define_eq_ok.mpr ⟨newHere, rfl⟩)
  rw [forM_append_of_ok performedBefore]
  apply (Machine.bind_of_ok defined).trans
  rw [forM_append_of_ok performedBetween']
  apply performedAfter

end Store

/-! ### Programs -/

namespace Program

/-- A definition of a compiled program that succeeds can be moved to any earlier place: the program
succeeds with the same final variables and the same functions, and the streams are left the same. -/
theorem execute_move_definition
    {tokens : List Token} {root : Node} (accepted : ofTokens tokens = .ok root)
    {before between after : List Node} {definition : Node} (kind : definition.kind = .definition)
    (statements : root.children = before ++ (between ++ definition :: after))
    {sink : Sink} {input : Input} {memory : Memory}
    (succeeded : (execute root sink input).result = .ok memory) :
  execute (ofStatements (before ++ definition :: (between ++ after))) sink input
    = execute root sink input
  := by
  obtain ⟨_, rfl, all⟩ := isProgram_of_ofTokens accepted
  change _ = before ++ _ at statements
  subst statements
  have allMoved : ∀ statement ∈ before ++ definition :: (between ++ after),
      statement.IsStatement := by
    intro statement mem
    have moves : (between ++ definition :: after).Perm (definition :: (between ++ after)) :=
      List.perm_middle
    apply all statement ((moves.append_left before).mem_iff.mpr mem)
  cases performed : (before ++ (between ++ definition :: after)).forM Node.perform
      ⟨∅, ∅, sink, input⟩ with
  | error error store =>
    rw [execute_of_failed all performed] at succeeded
    cases succeeded
  | ok _ store =>
    have moved := Store.forM_move_definition (fun statement mem => all statement (by simp [mem]))
      kind performed
    rw [execute_of_isProgram ⟨_, rfl, all⟩, execute_of_isProgram ⟨_, rfl, allMoved⟩]
    apply congrArg Outcome.ofEffect
    apply (Machine.bind_of_ok moved).trans
    apply (Machine.bind_of_ok performed).symm

/-- The function `F` can be defined before its caller, and even before the variable in its body has
a value: the program still prints `10`. -/
theorem execute_move_definition_front :
  ∃ first second third fourth,
    ofTokens (Token.scan ["y = 2", "G[x] = F[x] * 2", "F[x] = x + y", "print G[3]"])
        = .ok (ofStatements [first, second, third, fourth])
      ∧ third.kind = .definition
      ∧ execute (ofStatements [third, first, second, fourth]) .unlimited (.ofBytes [])
        = execute (ofStatements [first, second, third, fourth]) .unlimited (.ofBytes [])
      ∧ (execute (ofStatements [third, first, second, fourth]) .unlimited
        (.ofBytes [])).sink.accepted = #[49, 48, 10]
  := by
  have accepted :
      ofTokens (Token.scan ["y = 2", "G[x] = F[x] * 2", "F[x] = x + y", "print G[3]"])
        = .ok (ofStatements [
          Statement.assignment "y" 1 (.leaf .number "2" 1),
          Statement.definition "G" 2 (.leaf .variable "x" 2) ⟨.operation .multiply, "", 2,
            [⟨.call, "F", 2, [.leaf .variable "x" 2]⟩, .leaf .number "2" 2]⟩,
          Statement.definition "F" 3 (.leaf .variable "x" 3) ⟨.operation .add, "", 3,
            [.leaf .variable "x" 3, .leaf .variable "y" 3]⟩,
          Statement.print 4 ⟨.call, "G", 4, [.leaf .number "3" 4]⟩]) := rfl
  have executed := execute_of_resultWithin 50 .unlimited (.ofBytes [])
    (isProgram_of_ofTokens accepted).isWellFormed rfl
  have moved := @execute_move_definition _ _ accepted [] [_, _] [_] _ rfl rfl _ _ _
    (congrArg Outcome.result executed)
  refine ⟨_, _, _, _, accepted, rfl, moved, ?_⟩
  have output := congrArg (·.sink.accepted) (moved.trans executed)
  apply output

end Program

end IntScript
