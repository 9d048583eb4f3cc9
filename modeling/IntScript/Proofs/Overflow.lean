import IntScript.Proofs.Arithmetic
import IntScript.Proofs.ExactEvaluator
import IntScript.Proofs.ValueStack
import Mathlib.Algebra.Ring.Int.Defs

/-!
# No silent overflow

Values are integers of 64 bits, and whatever would leave their range is an error.  A program
that succeeds has therefore computed what it means for the integers.  Main statement: if a
compiled program succeeds, its exact evaluation succeeds, with the same globals, the same
printed numbers and the same words taken from the input, and all integers that the exact
evaluation meets are in range.
-/

namespace IntScript

/-! ### Numbers -/

/-- The range of values in numbers. -/
theorem Value.inRange_iff {n : Int} :
  InRange n ↔ -2 ^ 63 ≤ n ∧ n ≤ 2 ^ 63 - 1
  :=
  Iff.rfl

/-- The value of a literal is the number that it denotes. -/
theorem Decimal.natural?_of_literal? {text : String} {value : Value}
    (read : literal? text = some value) :
  ∃ n : Nat, natural? text.toList = some n ∧ (n : Int) = value.toInt
  := by
  obtain ⟨n, number, inRange⟩ := Option.bind_eq_some_iff.mp read
  exact ⟨n, number, (Value.ofInt?_eq_some_iff.mp inRange).symm⟩

/-- The value of a word is the integer that it denotes. -/
theorem Decimal.integer?_of_signed? {text : String} {value : Value}
    (read : signed? text = some value) :
  integer? text = some value.toInt
  := by
  unfold signed? at read
  unfold integer?
  split at read
  all_goals
    obtain ⟨n, number, inRange⟩ := Option.bind_eq_some_iff.mp read
    rw [Value.ofInt?_eq_some_iff.mp inRange]
    simp [*]

/-- The result of an operator on values is its exact result. -/
theorem Operator.exactResult?_of_applyOn
    {op : Operator} {line : Nat} {left right value : Value}
    (applied : op.applyOn line left right = .ok value) :
  op.exactResult? left.toInt right.toInt = some value.toInt
  := by
  obtain ⟨divisible, -, same⟩ := applyOn_eq_ok_iff.mp applied
  rw [exactResult?, if_neg (mt dividesByZero_iff.mpr divisible), same]

/-! ### Expressions -/

namespace Exact

/-- A scope with integers agrees with one with values if they show the same. -/
structure Scope.Agrees (ideal : Scope) (scope : IntScript.Scope) : Prop where
  globals : ∀ name : String, ideal.globals[name]? = scope.globals[name]?.map Int64.toInt
  functions : ideal.functions = scope.functions
  parameter : ideal.parameter
    = scope.parameter.map fun (name, value) => (name, value.toInt)
  active : ideal.active = scope.active

namespace Scope.Agrees

variable {ideal : Scope} {scope : IntScript.Scope}

theorem enter (agrees : ideal.Agrees scope) (function parameter : String) (value : Value) :
  (ideal.enter function parameter value.toInt).Agrees (scope.enter function parameter value)
  where
  globals := agrees.globals
  functions := agrees.functions
  parameter := rfl
  active := congrArg (function :: ·) agrees.active

theorem resolveGlobal {name : String} {line : Nat} {value : Value} (agrees : ideal.Agrees scope)
    (resolved : scope.resolveGlobal name line = .ok value) :
  ideal.globals[name]? = some value.toInt
  := by
  unfold IntScript.Scope.resolveGlobal at resolved
  split at resolved
  · rename_i lookup
    cases resolved
    rw [agrees.globals, lookup]
    rfl
  · cases resolved

theorem resolve {name : String} {line : Nat} {value : Value} (agrees : ideal.Agrees scope)
    (resolved : scope.resolve name line = .ok value) :
  ideal.resolve? name = some value.toInt
  := by
  unfold IntScript.Scope.resolve at resolved
  rw [resolve?, agrees.parameter]
  split at resolved
  · rename_i bound
    rw [bound]
    split at resolved
    · rename_i same
      cases resolved
      simp [same]
    · rename_i other
      simp only [Option.map_some, other, if_false]
      apply agrees.resolveGlobal resolved
  · rename_i unbound
    rw [unbound]
    apply agrees.resolveGlobal resolved

end Scope.Agrees

/-- The exact value of an expression is that of a value, and all integers on the way to it are
in range. -/
def Calculates (ideal : Scope) (node : Node) (value : Value) : Prop :=
  ∃ met, calculate ideal node = some ⟨value.toInt, met⟩ ∧ ∀ n ∈ met, Value.InRange n

variable {ideal : Scope} {scope : IntScript.Scope}

/-- A literal has the exact value of its digits. -/
theorem calculates_number {text : String} {line : Nat} {value : Value}
    (evaluated : Number.ofLiteral text line = .ok value) :
  Calculates ideal ⟨.number, text, line, []⟩ value
  := by
  unfold Number.ofLiteral at evaluated
  split at evaluated <;> cases evaluated
  rename_i read
  obtain ⟨n, number, same⟩ := Decimal.natural?_of_literal? read
  refine ⟨[value.toInt], ?_, List.forall_mem_singleton.mpr value.inRange_toInt⟩
  rw [calculate, number, ← same]
  rfl

/-- A name stands for the same value. -/
theorem calculates_reference {name : String} {line : Nat} {value : Value}
    (agrees : ideal.Agrees scope) (evaluated : scope.resolve name line = .ok value) :
  Calculates ideal ⟨.variable, name, line, []⟩ value
  := by
  refine ⟨[value.toInt], ?_, List.forall_mem_singleton.mpr value.inRange_toInt⟩
  rw [calculate, agrees.resolve evaluated]
  rfl

/-- An operation has an exact result, since it has a result on values. -/
theorem calculates_operation
    {op : Operator} {left right : Node} {leftValue rightValue value : Value} {line : Nat}
    (text : String) (calculatesLeft : Calculates ideal left leftValue)
    (calculatesRight : Calculates ideal right rightValue)
    (applied : op.applyOn line leftValue rightValue = .ok value) :
  Calculates ideal ⟨.operation op, text, line, [left, right]⟩ value
  := by
  obtain ⟨metLeft, calculatedLeft, inRangeLeft⟩ := calculatesLeft
  obtain ⟨metRight, calculatedRight, inRangeRight⟩ := calculatesRight
  refine ⟨metLeft ++ metRight ++ [value.toInt], ?_, ?_⟩
  · rw [calculate, calculatedLeft, calculatedRight]
    change (op.exactResult? leftValue.toInt rightValue.toInt >>= _) = _
    rw [Operator.exactResult?_of_applyOn applied]
    rfl
  · simp only [List.forall_mem_append, List.forall_mem_singleton]
    exact ⟨⟨inRangeLeft, inRangeRight⟩, value.inRange_toInt⟩

/-- A call has the exact value of the body of its function. -/
theorem calculates_call
    {name : String} {argument definition parameter body : Node} {argumentValue value : Value}
    (line : Nat) (agrees : ideal.Agrees scope)
    (calculatesArgument : Calculates ideal argument argumentValue)
    (defined : scope.functions[name]? = some definition) (inactive : name ∉ scope.active)
    (children : definition.children = [parameter, body])
    (calculatesBody : Calculates (ideal.enter name parameter.text argumentValue.toInt) body value) :
  Calculates ideal ⟨.call, name, line, [argument]⟩ value
  := by
  obtain ⟨met, calculated, inRange⟩ := calculatesArgument
  obtain ⟨met', calculated', inRange'⟩ := calculatesBody
  refine ⟨met ++ met', ?_, List.forall_mem_append.mpr ⟨inRange, inRange'⟩⟩
  rw [← agrees.functions] at defined
  rw [← agrees.active] at inactive
  rw [calculate_call line calculated defined inactive children, calculated']
  rfl

/-- An expression with a value has this value in the integers, and meets only integers in
range. -/
theorem calculates_of_eval {node : Node} {value : Value} (agrees : ideal.Agrees scope)
    (evaluated : node.eval scope = .ok value) :
  Calculates ideal node value
  := by
  induction scope, node using Node.eval.induct generalizing ideal value with
  | case1 scope text line =>
    rw [Node.eval] at evaluated
    apply calculates_number evaluated
  | case2 scope name line =>
    rw [Node.eval] at evaluated
    apply calculates_reference agrees evaluated
  | case3 scope op text line left right ihLeft ihRight =>
    obtain ⟨leftValue, rightValue, evaluatedLeft, evaluatedRight, applied⟩ :=
      Node.eval_operation_eq_ok.mp evaluated
    apply calculates_operation text (ihLeft agrees evaluatedLeft) (ihRight agrees evaluatedRight)
      applied
  | case4 scope name line argument ihArgument ihBody =>
    obtain ⟨argumentValue, definition, parameter, body, evaluatedArgument, defined, inactive,
      children, evaluated⟩ := Node.eval_call_eq_ok.mp evaluated
    have entered := agrees.enter name parameter.text argumentValue
    apply calculates_call line agrees (ihArgument agrees evaluatedArgument) defined inactive
      children
    apply ihBody argumentValue definition defined inactive parameter body entered evaluated
  | case5 scope node number reference operation call =>
    rw [Node.eval] at evaluated
    · cases evaluated
    all_goals assumption

end Exact

/-! ### Statements -/

/-- What a sink has written, it has accepted. -/
theorem Sink.accepted_of_write {sink sink' : Sink} {bytes : List UInt8}
    (written : sink.write bytes = .ok () sink') :
  sink'.accepted.toList = sink.accepted.toList ++ bytes
  := by
  simp only [write] at written
  split at written <;> cases written
  rename_i fits
  simp [List.take_of_length_le (Nat.le_of_not_lt fits)]

/-- A flush keeps what was accepted. -/
theorem Sink.accepted_of_flush {sink sink' : Sink} (flushed : sink.flush = .ok () sink') :
  sink'.accepted = sink.accepted
  := by
  unfold flush at flushed
  split at flushed <;> cases flushed
  rfl

namespace Exact

/-- A store with integers agrees with one with values if they show the same, what was printed
was written, and all integers that were met are in range. -/
structure Store.Agrees (ideal : Store) (before : List UInt8) (store : IntScript.Store) : Prop where
  globals : ∀ name : String, ideal.globals[name]? = store.globals[name]?.map Int64.toInt
  functions : ideal.functions = store.functions
  input : ideal.input = store.input
  printed : store.sink.accepted.toList = before ++ ideal.printed.flatMap bytes
  inRange : ∀ n ∈ ideal.met, Value.InRange n

namespace Store.Agrees

variable {before : List UInt8} {ideal : Store} {store store' : IntScript.Store}

theorem scope (agrees : ideal.Agrees before store) :
  ideal.scope.Agrees store.scope
  where
  globals := agrees.globals
  functions := agrees.functions
  parameter := rfl
  active := rfl

/-- The value of an expression is the same in the integers. -/
theorem exists_value {node : Node} {value : Value} (agrees : ideal.Agrees before store)
    (valued : IntScript.Store.value node store = .ok value store') :
  ∃ ideal', ideal.value node = some (value.toInt, ideal') ∧ ideal'.Agrees before store'
  := by
  unfold IntScript.Store.value at valued
  split at valued <;> cases valued
  rename_i evaluated
  obtain ⟨met, calculated, inRange⟩ := calculates_of_eval agrees.scope evaluated
  refine ⟨{ ideal with met := ideal.met ++ met }, by rw [Store.value, calculated]; rfl, ?_⟩
  exact { agrees with inRange := List.forall_mem_append.mpr ⟨agrees.inRange, inRange⟩ }

/-- An assignment of the same value keeps the agreement. -/
theorem insert (agrees : ideal.Agrees before store) (name : String) (value : Value) :
  Store.Agrees { ideal with globals := ideal.globals.insert name value.toInt } before
    { store with globals := store.globals.insert name value }
  := by
  refine { agrees with globals := ?_ }
  intro other
  rw [Std.ExtTreeMap.getElem?_insert, Std.ExtTreeMap.getElem?_insert]
  split
  · rfl
  · apply agrees.globals

/-- A definition keeps the agreement. -/
theorem define {definition : Node} (agrees : ideal.Agrees before store)
    (defined : IntScript.Store.define definition store = .ok () store') :
  definition.text ∉ ideal.functions ∧ Store.Agrees
    { ideal with functions := ideal.functions.insert definition.text definition } before store'
  := by
  unfold IntScript.Store.define at defined
  split at defined <;> cases defined
  rename_i new
  rw [agrees.functions]
  exact ⟨new, { agrees with functions := rfl }⟩

/-- What is written for a value is what the same integer looks like. -/
theorem write {value : Value} {line : Nat} (agrees : ideal.Agrees before store)
    (written : IntScript.Store.write (Number.printed value) line store = .ok () store') :
  Store.Agrees { ideal with printed := ideal.printed ++ [value.toInt] } before store'
  := by
  unfold IntScript.Store.write at written
  split at written <;> cases written
  rename_i accepted
  refine { agrees with printed := ?_ }
  rw [Sink.accepted_of_write accepted, agrees.printed]
  simp [bytes, Number.printed, Decimal.ofValue]

/-- A flush keeps the agreement. -/
theorem flush {line : Nat} (agrees : ideal.Agrees before store)
    (flushed : IntScript.Store.flush line store = .ok () store') :
  ideal.Agrees before store'
  := by
  unfold IntScript.Store.flush at flushed
  split at flushed <;> cases flushed
  rename_i granted
  refine { agrees with printed := ?_ }
  rw [Sink.accepted_of_flush granted, agrees.printed]

/-- A word that is read as a value denotes the same integer. -/
theorem readValue {name : String} {line : Nat} {value : Value} (agrees : ideal.Agrees before store)
    (read : IntScript.Store.readValue name line store = .ok value store') :
  ∃ word, ideal.input.nextWord = .ok (some word) store'.input
    ∧ Decimal.integer? word = some value.toInt ∧ Store.Agrees
      { ideal with input := store'.input, met := ideal.met ++ [value.toInt] } before store'
  := by
  obtain ⟨_, store₁, flushed, read⟩ := Machine.bind_eq_ok.mp read
  obtain ⟨word?, store₂, next, read⟩ := Machine.bind_eq_ok.mp read
  replace agrees := agrees.flush flushed
  unfold IntScript.Store.nextWord at next
  split at next <;> cases next
  rename_i taken
  cases word? with
  | none => cases read
  | some word =>
    simp only [Number.ofWord] at read
    cases number : Decimal.signed? word with
    | none =>
      rw [number] at read
      cases read
    | some =>
      rw [number] at read
      cases read
      rw [← agrees.input] at taken
      refine ⟨word, taken, Decimal.integer?_of_signed? number,
        { agrees with input := rfl, inRange := ?_ }⟩
      rw [List.forall_mem_append, List.forall_mem_singleton]
      exact ⟨agrees.inRange, value.inRange_toInt⟩

end Store.Agrees

variable {before : List UInt8} {ideal : Store} {store store' : IntScript.Store}

/-- A statement that is performed is performed in the integers. -/
theorem exists_perform {statement : Node} (agrees : ideal.Agrees before store)
    (performed : statement.perform store = .ok () store') :
  ∃ ideal', perform ideal statement = some ideal' ∧ ideal'.Agrees before store'
  := by
  -- The cases are an assignment, a definition, `print`, `read` and whatever is no statement.
  unfold Node.perform at performed
  split at performed
  · rename_i target expression
    obtain ⟨value, store₁, valued, assigned⟩ := Machine.bind_eq_ok.mp performed
    obtain ⟨ideal₁, idealValued, agrees₁⟩ := agrees.exists_value valued
    cases assigned
    refine ⟨_, ?_, agrees₁.insert target.text value⟩
    rw [perform, idealValued]
    rfl
  · obtain ⟨new, agrees⟩ := agrees.define performed
    refine ⟨_, ?_, agrees⟩
    rw [perform, if_neg new]
  · obtain ⟨value, store₁, valued, written⟩ := Machine.bind_eq_ok.mp performed
    obtain ⟨ideal₁, idealValued, agrees₁⟩ := agrees.exists_value valued
    refine ⟨_, ?_, agrees₁.write written⟩
    rw [perform, idealValued]
    rfl
  · rename_i target
    obtain ⟨value, store₁, read, assigned⟩ := Machine.bind_eq_ok.mp performed
    obtain ⟨word, taken, number, agrees₁⟩ := agrees.readValue read
    cases assigned
    refine ⟨_, ?_, agrees₁.insert target.text value⟩
    rw [perform, taken]
    simp only [number]
    rfl
  · cases performed

/-- Statements that are performed are performed in the integers. -/
theorem exists_foldlM_perform {statements : List Node} (agrees : ideal.Agrees before store)
    (performed : statements.forM Node.perform store = .ok () store') :
  ∃ ideal', statements.foldlM perform ideal = some ideal' ∧ ideal'.Agrees before store'
  := by
  induction statements generalizing ideal store with
  | nil =>
    cases performed
    exact ⟨ideal, rfl, agrees⟩
  | cons statement statements ih =>
    obtain ⟨_, store₁, first, others⟩ := Machine.bind_eq_ok.mp performed
    obtain ⟨ideal₁, idealFirst, agrees₁⟩ := exists_perform agrees first
    obtain ⟨ideal', idealOthers, agrees'⟩ := ih agrees₁ others
    refine ⟨ideal', ?_, agrees'⟩
    rw [List.foldlM_cons, idealFirst]
    apply idealOthers

end Exact

/-! ### Programs -/

namespace Program

open Machine

/-- A program that succeeds has performed its statements, and flushed what they printed. -/
theorem exists_store_of_execute
    {root : Node} {sink : Sink} {input : Input} {memory : Memory} (isProgram : root.IsProgram)
    (succeeded : (execute root sink input).result = .ok memory) :
  ∃ store store', root.children.forM Node.perform ⟨∅, ∅, sink, input⟩ = .ok () store
    ∧ Store.flush root.line store = .ok () store'
    ∧ execute root sink input = .ofEffect (.ok () store')
  := by
  let effect : Effect Unit := root.children.forM Node.perform >>= fun _ => Store.flush root.line
  have executed : execute root sink input = .ofEffect (effect ⟨∅, ∅, sink, input⟩) :=
    execute_of_isProgram isProgram sink input
  rw [executed] at succeeded ⊢
  cases performed : effect ⟨∅, ∅, sink, input⟩ with
  | error error store =>
    rw [performed] at succeeded
    cases succeeded
  | ok _ store' =>
    obtain ⟨_, store, statements, flushed⟩ := bind_eq_ok.mp performed
    exact ⟨store, store', statements, flushed, rfl⟩

/-- A compiled program that succeeds has computed what it means for the integers: its exact
evaluation succeeds, with the same globals, the same numbers printed and the same words read,
and meets only integers of 64 bits. -/
theorem execute_exact
    {tokens : List Token} {root : Node} (accepted : ofTokens tokens = .ok root) {sink : Sink}
    {input : Input} {memory : Memory}
    (succeeded : (execute root sink input).result = .ok memory) :
  ∃ ideal, Exact.run root input = some ideal
    ∧ (∀ name : String, memory.globals[name]?.map Int64.toInt = ideal.globals[name]?)
    ∧ (execute root sink input).sink.accepted.toList
      = sink.accepted.toList ++ ideal.printed.flatMap Exact.bytes
    ∧ (execute root sink input).input = ideal.input
    ∧ ∀ n ∈ ideal.met, -2 ^ 63 ≤ n ∧ n ≤ 2 ^ 63 - 1
  := by
  obtain ⟨store, store', performed, flushed, executed⟩ :=
    exists_store_of_execute (isProgram_of_ofTokens accepted) succeeded
  have start : Exact.Store.Agrees ⟨∅, ∅, input, [], []⟩ sink.accepted.toList
      ⟨∅, ∅, sink, input⟩ := by
    constructor <;> simp
  obtain ⟨ideal, ran, agrees⟩ := Exact.exists_foldlM_perform start performed
  replace agrees := agrees.flush flushed
  rw [executed] at succeeded ⊢
  cases succeeded
  exact ⟨ideal, ran, fun name => (agrees.globals name).symm, agrees.printed, agrees.input.symm,
    fun n mem => Value.inRange_iff.mp (agrees.inRange n mem)⟩

/-- The exact evaluation of `F[x] = x % y`, `read y` and `print F[7]` takes `-5` for `y` and
prints `2`. -/
theorem execute_exact_remainder :
  ∃ root memory ideal, ofTokens remainderTokens = .ok root
    ∧ (execute root .unlimited (.ofBytes [45, 53, 10])).result = .ok memory
    ∧ Exact.run root (.ofBytes [45, 53, 10]) = some ideal
    ∧ ideal.globals["y"]? = some (-5) ∧ ideal.printed.flatMap Exact.bytes = [50, 10]
    ∧ ∀ n ∈ ideal.met, -2 ^ 63 ≤ n ∧ n ≤ 2 ^ 63 - 1
  := by
  have accepted : ofTokens remainderTokens = .ok remainderTree := rfl
  have executed := execute_of_resultWithin 20 .unlimited (.ofBytes [45, 53, 10])
    (isProgram_of_ofTokens accepted).isWellFormed rfl
  have succeeded := congrArg Outcome.result executed
  obtain ⟨ideal, ran, globals, printed, -, inRange⟩ := execute_exact accepted succeeded
  refine ⟨_, _, ideal, accepted, succeeded, ran, ?_, ?_, inRange⟩
  · rw [← globals "y"]
    rfl
  · rw [executed] at printed
    apply printed.symm

end Program

end IntScript
