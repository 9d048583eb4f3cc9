import IntScript.Proofs.Arity
import IntScript.Proofs.Evaluator
import IntScript.Proofs.Steps

/-!
# The machine and the evaluator

The machine that runs a compiled program does what the evaluator says.  Below the frames of
an expression lie those of whatever is waiting for its value, and below its value those of
the operands before it; the correspondence holds for all of them.  Main statements: a
machine that visits an expression comes to the point where its value is on the stack or
fails with the error of the evaluator (`yields_eval`), a machine that visits a statement
performs its effect (`performs_statement`), and the execution of an accepted program is its
evaluation (`execute_eq_evaluate`).
-/

namespace IntScript

/-! ### Scopes and memory -/

namespace Memory

/-- What an expression sees of the memory. -/
def scope (memory : Memory) : Scope where
  globals := memory.globals
  functions := memory.functions
  parameter := memory.bindings.head?.map fun binding => (binding.parameter, binding.value)
  active := memory.bindings.map Binding.function

/-- A name stands for what the scope says. -/
theorem scope_resolve (memory : Memory) (name : String) (line : Nat) :
  memory.scope.resolve name line
    = match (memory.parameter? name).or (memory.global? name) with
      | some value => .ok value
      | none => .error (.undefinedVariable name line)
  := by
  obtain ⟨globals, functions, bindings⟩ := memory
  cases bindings with
  | nil => rfl
  | cons binding bindings =>
    by_cases same : binding.parameter = name
    · simp [Scope.resolve, parameter?, scope, same]
    · simp only [Scope.resolve, parameter?, scope, same, List.head?_cons, Option.map_some,
        if_false, Option.none_or]
      rfl

theorem isActive_iff (memory : Memory) (function : String) :
  memory.isActive function ↔ function ∈ memory.scope.active
  := by
  simp [isActive, scope]

/-- Behind the binding of a call the memory shows the scope of the body. -/
theorem scope_bind (memory : Memory) (binding : Binding) :
  (memory.bind binding).scope
    = memory.scope.enter binding.function binding.parameter binding.value
  :=
  rfl

end Memory

/-- A table of functions is sound if each is listed under its name, with a parameter and an
expression as its body. -/
def SoundFunctions (functions : Std.ExtTreeMap String Node) : Prop :=
  ∀ (name : String) (definition : Node), functions[name]? = some definition →
    definition.text = name ∧ ∃ parameter body : Node, definition.children = [parameter, body]
      ∧ body.IsExpression

theorem SoundFunctions.insert
    {functions : Std.ExtTreeMap String Node} {definition parameter body : Node}
    (sound : SoundFunctions functions) (children : definition.children = [parameter, body])
    (isBody : body.IsExpression) :
  SoundFunctions (functions.insert definition.text definition)
  := by
  intro name definition' lookup
  rw [Std.ExtTreeMap.getElem?_insert] at lookup
  split at lookup
  case isTrue same =>
    cases lookup
    exact ⟨Std.LawfulEqCmp.eq_of_compare same, parameter, body, children, isBody⟩
  case isFalse => apply sound name definition' lookup

/-! ### What machines perform -/

namespace Machine

/-- The machine in which a node has operands to evaluate before it acts. -/
def await (m : Machine) (node : Node) (pending : List Node) : Machine :=
  { m with frames := .evaluating node pending :: m.frames }

/-- The machine with a node to evaluate. -/
def visit (m : Machine) (node : Node) : Machine :=
  m.await node node.operands

/-- The machine with one more value. -/
def hold (m : Machine) (value : Value) : Machine :=
  { m with values := value :: m.values }

/-- The machine within a call whose parameter is bound. -/
def inside (m : Machine) (call : Node) (binding : Binding) : Machine :=
  { m with frames := .calling call :: m.frames, memory := m.memory.bind binding }

/-- Puts the value of a result on the stack, or fails with its error. -/
def yield (result : Except RuntimeError Value) : Action Unit := do
  pushValue (← check result)

/-- A machine performs what an action results in if it reaches the machine that the action
leaves, or fails with the error of the action and the streams as the action leaves them. -/
def Performs (m : Machine) : EStateM.Result RuntimeError Machine Unit → Prop
  | .ok () m' => Reaches m m'
  | .error error m' => ∃ last failed, Reaches m last
      ∧ last.step? = some (.error error failed)
      ∧ failed.sink = m'.sink ∧ failed.input = m'.input

/-- What is performed after some steps is performed from the beginning. -/
theorem Reaches.performs
    {m m' : Machine} {result : EStateM.Result RuntimeError Machine Unit} (reaches : Reaches m m')
    (performs : Performs m' result) :
  Performs m result
  := by
  cases result with
  | ok _ last => apply reaches.trans performs
  | error error m'' =>
    obtain ⟨last, failed, reaches', failure, streams⟩ := performs
    exact ⟨last, failed, reaches.trans reaches', failure, streams⟩

/-- Only the streams matter when a machine fails. -/
theorem Performs.error {m m' m'' : Machine} {error : RuntimeError}
    (performs : Performs m (.error error m')) (sink : m'.sink = m''.sink)
    (input : m'.input = m''.input) :
  Performs m (.error error m'')
  := by
  obtain ⟨last, failed, reaches, failure, sinkLeft, inputLeft⟩ := performs
  exact ⟨last, failed, reaches, failure, sinkLeft.trans sink, inputLeft.trans input⟩

/-- A machine whose node has no operand left performs the action of the node. -/
theorem performs_act (m : Machine) (node : Node) :
  Performs (m.await node []) (act node m)
  := by
  have step : (m.await node []).step? = some (act node m) := rfl
  match acts : act node m with
  | .ok () m' =>
    rw [acts] at step
    exact .single step
  | .error error m' =>
    rw [acts] at step
    exact ⟨_, m', .refl _, step, rfl, rfl⟩

/-! ### Expressions -/

theorem pushResolved_eq (m : Machine) (name : String) (line : Nat) :
  pushResolved name line m = yield (m.memory.scope.resolve name line) m
  := by
  change EStateM.bind (onMemory (Memory.resolve name line)) _ m = _
  unfold EStateM.bind onMemory
  rw [m.memory.resolve_eq, m.memory.scope_resolve]
  cases (m.memory.parameter? name).or (m.memory.global? name) <;> rfl

/-- A call acts by entering the body of its function. -/
theorem act_call_eq (m : Machine) (name : String) (line : Nat) (argument : Node) (value : Value) :
  act ⟨.call, name, line, [argument]⟩ (m.hold value)
    = match m.memory.enter name value line with
      | .ok body memory =>
        .ok () (visit { m with
          frames := .calling ⟨.call, name, line, [argument]⟩ :: m.frames, memory := memory } body)
      | .error error memory => .error error { m with memory := memory }
  := by
  change EStateM.bind (onMemory (Memory.enter name value line)) _ m = _
  unfold EStateM.bind onMemory
  cases m.memory.enter name value line <;> rfl

/-- When a machine within a call has the value of the body, the call ends with this value. -/
theorem performs_of_inside
    {start m : Machine} {call : Node} {binding : Binding} {result : Except RuntimeError Value}
    (performs : Performs start (yield result (m.inside call binding))) :
  Performs start (yield result m)
  := by
  cases result with
  | error error => apply performs.error rfl rfl
  | ok value =>
    have leaves : Next (m.hold value) ((m.inside call binding).hold value) := rfl
    apply Reaches.trans performs (.single leaves)

/-- With the given memory a node yields a result, whatever else a machine holds. -/
def Yields (memory : Memory) (node : Node) (result : Except RuntimeError Value) : Prop :=
  ∀ m : Machine, m.memory = memory → Performs (m.visit node) (yield result m)

/-- An operand that yields a result is evaluated, and the node goes on if there is a value. -/
theorem Yields.performs_operand
    {memory : Memory} {operand : Node} {result : Except RuntimeError Value}
    (yields : Yields memory operand result) (m : Machine) (same : m.memory = memory) (node : Node)
    (pending : List Node) :
  Performs (m.await node (operand :: pending)) (yield result (m.await node pending))
  := by
  have turns : Reaches (m.await node (operand :: pending)) ((m.await node pending).visit operand) :=
    .single rfl
  apply turns.performs
  apply yields (m.await node pending) same

theorem yields_number (memory : Memory) (text : String) (line : Nat) :
  Yields memory (.leaf .number text line) (Number.ofLiteral text line)
  := by
  intro m _
  apply performs_act m (.leaf .number text line)

theorem yields_reference (memory : Memory) (name : String) (line : Nat) :
  Yields memory (.leaf .variable name line) (memory.scope.resolve name line)
  := by
  rintro m rfl
  rw [← pushResolved_eq]
  apply performs_act m (.leaf .variable name line)

/-- An operation yields its value if its operands do. -/
theorem yields_operation
    {memory : Memory} {left right : Node} (op : Operator) (text : String) (line : Nat)
    (yieldsLeft : Yields memory left (left.eval memory.scope))
    (yieldsRight : Yields memory right (right.eval memory.scope)) :
  Yields memory ⟨.operation op, text, line, [left, right]⟩
    (Node.eval memory.scope ⟨.operation op, text, line, [left, right]⟩)
  := by
  intro m same
  let node : Node := ⟨.operation op, text, line, [left, right]⟩
  have performsLeft := yieldsLeft.performs_operand m same node [right]
  rw [Node.eval]
  generalize left.eval memory.scope = result at performsLeft ⊢
  cases result with
  | error error => apply performsLeft.error rfl rfl
  | ok leftValue =>
    have performsRight := Reaches.performs performsLeft
      (yieldsRight.performs_operand (m.hold leftValue) same node [])
    generalize right.eval memory.scope = result at performsRight ⊢
    cases result with
    | error error => apply performsRight.error rfl rfl
    | ok rightValue =>
      apply Reaches.performs performsRight
      apply performs_act ((m.hold leftValue).hold rightValue) node

/-- A call yields its value if its argument does, and the body of its function. -/
theorem yields_call
    {memory : Memory} {argument : Node} {name : String} (line : Nat)
    (sound : SoundFunctions memory.functions)
    (yieldsArgument : Yields memory argument (argument.eval memory.scope))
    (yieldsBody : ∀ (value : Value) (definition : Node),
      memory.functions[name]? = some definition → name ∉ memory.scope.active →
      ∀ parameter body : Node, body.IsExpression →
        Yields (memory.bind ⟨name, parameter.text, value⟩) body
          (body.eval (memory.scope.enter name parameter.text value))) :
  Yields memory ⟨.call, name, line, [argument]⟩
    (Node.eval memory.scope ⟨.call, name, line, [argument]⟩)
  := by
  rintro m rfl
  let node : Node := ⟨.call, name, line, [argument]⟩
  have performsArgument := yieldsArgument.performs_operand m rfl node []
  rw [Node.eval_call]
  generalize argument.eval m.memory.scope = result at performsArgument ⊢
  cases result with
  | error error => apply performsArgument.error rfl rfl
  | ok value =>
    have entering := Reaches.performs performsArgument (performs_act (m.hold value) node)
    have table : m.memory.scope.functions = m.memory.functions := rfl
    rw [act_call_eq, Memory.enter_eq] at entering
    rw [table]
    cases lookup : m.memory.functions[name]? with
    | none =>
      rw [lookup] at entering
      apply entering
    | some definition =>
      obtain ⟨named, parameter, body, children, isBody⟩ := sound name definition lookup
      by_cases active : name ∈ m.memory.scope.active
      · rw [lookup] at entering
        simp only [(m.memory.isActive_iff name).mpr active, if_true] at entering
        simp only [active, if_true]
        apply entering
      · have inactive := mt (m.memory.isActive_iff name).mp active
        simp only [lookup, inactive, children, named] at entering
        simp only [active, if_false, children]
        apply performs_of_inside
        apply Reaches.performs entering
        apply yieldsBody value definition lookup active parameter body isBody
        rfl

/-- An expression yields its value. -/
theorem yields_eval
    {scope : Scope} {node : Node} {memory : Memory} (isExpression : node.IsExpression)
    (sound : SoundFunctions memory.functions) (same : scope = memory.scope) :
  Yields memory node (node.eval scope)
  := by
  induction scope, node using Node.eval.induct generalizing memory with
  | case1 scope text line =>
    rw [Node.eval]
    apply yields_number
  | case2 scope name line =>
    rw [Node.eval, same]
    apply yields_reference
  | case3 scope op text line left right ihLeft ihRight =>
    subst same
    cases isExpression with
    | operation _ _ isLeft isRight =>
      apply yields_operation op "" line (ihLeft isLeft sound rfl) (ihRight isRight sound rfl)
  | case4 scope name line argument ihArgument ihBody =>
    subst same
    cases isExpression with
    | call _ _ isArgument =>
      apply yields_call line sound (ihArgument isArgument sound rfl)
      intro value definition lookup inactive parameter body isBody
      let memory' := memory.bind ⟨name, parameter.text, value⟩
      have sound' : SoundFunctions memory'.functions := sound
      apply ihBody value definition lookup inactive parameter body isBody sound'
      rw [memory.scope_bind]
  | case5 scope node number reference operation call =>
    cases isExpression with
    | number text line => cases number text line rfl
    | reference name line => cases reference name line rfl
    | call name line _ => cases call name line _ rfl
    | operation op line _ _ => cases operation op "" line _ _ rfl

/-! ### Effects as actions -/

/-- What statements change of a machine. -/
def store (m : Machine) : Store :=
  ⟨m.memory.globals, m.memory.functions, m.sink, m.input⟩

/-- The machine with another store. -/
def restore (m : Machine) (store : Store) : Machine where
  frames := m.frames
  values := m.values
  memory := ⟨store.globals, store.functions, m.memory.bindings⟩
  sink := store.sink
  input := store.input

/-- An effect as an action of the machine. -/
def onStore {α : Type} (effect : Effect α) : Action α := fun m =>
  match effect m.store with
  | .ok a store => .ok a (m.restore store)
  | .error error store => .error error (m.restore store)

theorem onStore_bind {α β : Type} (effect : Effect α) (f : α → Effect β) :
  onStore (effect >>= f) = onStore effect >>= fun a => onStore (f a)
  := by
  funext m
  change onStore (EStateM.bind effect f) m = EStateM.bind (onStore effect) _ m
  simp only [EStateM.bind, onStore]
  cases effect m.store <;> rfl

theorem onStore_of_ok {α : Type} {effect : Effect α} {m : Machine} {a : α} {store : Store}
    (h : effect m.store = .ok a store) :
  onStore effect m = .ok a (m.restore store)
  := by
  rw [onStore, h]

theorem onStore_of_error
    {α : Type} {effect : Effect α} {m : Machine} {error : RuntimeError} {store : Store}
    (h : effect m.store = .error error store) :
  onStore effect m = .error error (m.restore store)
  := by
  rw [onStore, h]

theorem onStore_define (definition : Node) :
  onStore (Store.define definition) = define definition
  := by
  funext m
  simp only [onStore, Store.define, define, onMemory, Memory.define_eq]
  by_cases defined : definition.text ∈ m.memory.functions
  · simp [defined, store, restore]
  · simp [defined, store, restore]

theorem onStore_write (bytes : List UInt8) (line : Nat) :
  onStore (Store.write bytes line) = write bytes line
  := by
  funext ⟨frames, values, memory, sink, input⟩
  simp only [onStore, Store.write, write, store]
  cases sink.write bytes <;> rfl

theorem onStore_flush (line : Nat) :
  onStore (Store.flush line) = flush line
  := by
  funext m
  simp only [onStore, Store.flush, flush, store]
  cases m.sink.flush <;> rfl

theorem onStore_nextWord (line : Nat) :
  onStore (Store.nextWord line) = nextWord line
  := by
  funext m
  simp only [onStore, Store.nextWord, nextWord, store]
  cases m.input.nextWord <;> rfl

theorem onStore_readValue (name : String) (line : Nat) :
  onStore (Store.readValue name line) = readValue name line
  := by
  simp only [Store.readValue, readValue, onStore_bind, onStore_flush, onStore_nextWord]
  congr
  funext _
  congr
  funext word?
  cases word? with
  | none => rfl
  | some word =>
    simp only
    cases Number.ofWord word line <;> rfl

/-- How a value is taken from an effect. -/
theorem onStore_value_bind (m : Machine) (expression : Node) (f : Value → Effect Unit) :
  onStore (Store.value expression >>= f) m
    = match expression.eval m.store.scope with
      | .ok value => onStore (f value) m
      | .error error => .error error m
  := by
  rw [onStore_bind]
  change EStateM.bind (onStore (Store.value expression)) _ m = _
  simp only [EStateM.bind, onStore, Store.value]
  cases expression.eval m.store.scope <;> rfl

/-! ### Statements -/

/-- A statement acts as it stands, or it has one expression and acts on its value. -/
theorem acts_of_isStatement {statement : Node} (isStatement : statement.IsStatement) :
  (statement.operands = [] ∧ act statement = onStore statement.perform)
    ∨ ∃ expression f, expression.IsExpression ∧ statement.operands = [expression]
      ∧ statement.perform = Store.value expression >>= f
      ∧ ∀ m value, act statement (m.hold value) = onStore (f value) m
  := by
  cases isStatement with
  | assignment name line isValue =>
    exact .inr ⟨_, Store.assign name, isValue, rfl, rfl, fun _ _ => rfl⟩
  | definition name parameter line parameterLine isBody =>
    left
    refine ⟨rfl, ?_⟩
    simp only [Statement.definition, Node.perform, onStore_define]
    rfl
  | read name line nameLine =>
    left
    refine ⟨rfl, ?_⟩
    simp only [Statement.read, Node.perform, onStore_bind, onStore_readValue]
    rfl
  | print line isValue =>
    refine .inr ⟨_, fun value => Store.write (Number.printed value) line, isValue, rfl, rfl, ?_⟩
    intro m value
    rw [onStore_write]
    rfl

/-- A machine that visits a statement performs its effect. -/
theorem performs_statement
    {statement : Node} (m : Machine) (isStatement : statement.IsStatement)
    (sound : SoundFunctions m.memory.functions) (outside : m.memory.bindings = []) :
  Performs (m.visit statement) (onStore statement.perform m)
  := by
  rcases acts_of_isStatement isStatement with ⟨operands, acts⟩ |
    ⟨expression, f, isExpression, operands, perform, acts⟩
  · rw [visit, operands, ← acts]
    apply performs_act m statement
  · have scope : m.store.scope = m.memory.scope := by
      simp [Store.scope, Memory.scope, outside, store]
    have performs := (yields_eval isExpression sound scope).performs_operand m rfl statement []
    rw [visit, operands, perform, onStore_value_bind]
    generalize expression.eval m.store.scope = result at performs ⊢
    cases result with
    | error error => apply performs.error rfl rfl
    | ok value =>
      have done := Reaches.performs performs (performs_act (m.hold value) statement)
      rw [acts] at done
      apply done

/-- A statement that is no definition leaves the functions as they are. -/
theorem functions_of_perform
    {statement : Node} {m m' : Machine} (isStatement : statement.IsStatement)
    (definition : statement.kind ≠ .definition)
    (performed : onStore statement.perform m = .ok () m') :
  m'.memory.functions = m.memory.functions
  := by
  have call : statement.kind ≠ .call := by
    cases isStatement <;> exact nofun
  rcases acts_of_isStatement isStatement with ⟨-, acts⟩ | ⟨expression, f, -, -, perform, acts⟩
  · rw [← acts] at performed
    apply (quiet_act call definition performed).functions
  · rw [perform, onStore_value_bind] at performed
    split at performed
    · rw [← acts] at performed
      apply (quiet_act call definition performed).functions
    · cases performed

/-- Statements keep the functions sound. -/
theorem sound_of_perform
    {statement : Node} {m m' : Machine} (isStatement : statement.IsStatement)
    (sound : SoundFunctions m.memory.functions)
    (performed : onStore statement.perform m = .ok () m') :
  SoundFunctions m'.memory.functions
  := by
  by_cases definition : statement.kind = .definition
  · cases isStatement with
    | definition name parameter line parameterLine isBody =>
      have defined := (congrFun (onStore_define _) m).symm.trans performed
      obtain ⟨-, -, functions⟩ := act_definition definition defined
      rw [functions]
      apply sound.insert rfl isBody
    | _ => cases definition
  · rw [functions_of_perform isStatement definition performed]
    apply sound

/-- A machine that has statements to perform performs them one after the other. -/
theorem performs_statements
    {root : Node} {statements : List Node} (m : Machine) (kind : root.kind = .root)
    (all : ∀ statement ∈ statements, statement.IsStatement)
    (sound : SoundFunctions m.memory.functions) (outside : m.memory.bindings = []) :
  Performs (m.await root statements) (onStore (statements.forM Node.perform) m)
  := by
  induction statements generalizing m with
  | nil =>
    have acts : act root = pure () := by simp only [act, kind]
    have performs := performs_act m root
    rw [acts] at performs
    apply performs
  | cons statement statements ih =>
    rw [List.forall_mem_cons] at all
    obtain ⟨isStatement, others⟩ := all
    have turns : Reaches (m.await root (statement :: statements))
        ((m.await root statements).visit statement) := .single rfl
    have performs := turns.performs
      (performs_statement (m.await root statements) isStatement sound outside)
    change Performs _ (onStore (statement.perform >>= fun _ => statements.forM Node.perform) m)
    rw [onStore_bind]
    change Performs _ (EStateM.bind (onStore statement.perform) _ m)
    rw [EStateM.bind]
    cases performed : statement.perform m.store with
    | error error store =>
      have here : onStore statement.perform (m.await root statements) = _ :=
        onStore_of_error performed
      rw [here] at performs
      rw [onStore_of_error performed]
      apply performs.error rfl rfl
    | ok _ store =>
      have here : onStore statement.perform (m.await root statements) = _ :=
        onStore_of_ok performed
      have keeps := sound_of_perform isStatement sound (onStore_of_ok performed)
      rw [here] at performs
      rw [onStore_of_ok performed]
      apply Reaches.performs performs
      apply ih (m.restore store) others keeps outside

end Machine

/-! ### Programs -/

namespace Program

open Machine

/-- The outcome of a program is decided by the machine that performs its statements. -/
theorem finish_flush (m : Machine) (store : Store) (line : Nat) (outside : m.memory.bindings = []) :
  finish line (.ok () (m.restore store)) = .ofEffect (Store.flush line store)
  := by
  cases flushed : Store.flush line store with
  | ok _ store' =>
    have here : onStore (Store.flush line) (m.restore store) = _ := onStore_of_ok flushed
    rw [finish, ← onStore_flush, here]
    simp only [Outcome.ofResult, Outcome.ofEffect, restore, outside]
  | error error store' =>
    have here : onStore (Store.flush line) (m.restore store) = _ := onStore_of_error flushed
    rw [finish, ← onStore_flush, here]
    rfl

/-- The execution of a program is its evaluation, wherever its tree comes from. -/
theorem execute_of_isProgram {root : Node} (isProgram : root.IsProgram) (sink : Sink)
    (input : Input) :
  execute root sink input = evaluate root sink input
  := by
  have wellFormed := isProgram.isWellFormed
  obtain ⟨statements, rfl, all⟩ := isProgram
  let m : Machine := ⟨[], [], .empty, sink, input⟩
  have sound : SoundFunctions m.memory.functions := by
    intro name definition lookup
    simp [m, Memory.empty] at lookup
  have performs : Performs (.start (ofStatements statements) sink input)
      (onStore (statements.forM Node.perform) m) := performs_statements m rfl all sound rfl
  change _ = Outcome.ofEffect (EStateM.bind (statements.forM Node.perform) _ m.store)
  rw [EStateM.bind]
  cases performed : statements.forM Node.perform m.store with
  | error error store =>
    rw [onStore_of_error performed] at performs
    obtain ⟨last, failed, reaches, failure, sinkLeft, inputLeft⟩ := performs
    rw [execute_of_ends wellFormed reaches (.failed failure), finish, Outcome.ofResult, sinkLeft,
      inputLeft]
    rfl
  | ok _ store =>
    rw [onStore_of_ok performed] at performs
    rw [execute_of_ends wellFormed performs (.done rfl)]
    apply finish_flush m store _ rfl

/-- The execution of an accepted program is its evaluation, whatever its streams are. -/
theorem execute_eq_evaluate
    {tokens : List Token} {root : Node} (accepted : ofTokens tokens = .ok root) (sink : Sink)
    (input : Input) :
  execute root sink input = evaluate root sink input
  := by
  apply execute_of_isProgram (isProgram_of_ofTokens accepted)

/-- The tokens of the lines `F[x] = x % y`, `read y` and `print F[7]`. -/
def remainderTokens : List Token :=
  [⟨.function, "F", 1, 1⟩, ⟨.opening .square, "[", 1, 2⟩, ⟨.variable, "x", 1, 3⟩,
    ⟨.closing .square, "]", 1, 4⟩, ⟨.equals, "=", 1, 6⟩, ⟨.variable, "x", 1, 8⟩,
    ⟨.operator .modulo, "%", 1, 10⟩, ⟨.variable, "y", 1, 12⟩, ⟨.endOfLine, "", 1, 13⟩,
    ⟨.read, "read", 2, 1⟩, ⟨.variable, "y", 2, 6⟩, ⟨.endOfLine, "", 2, 7⟩,
    ⟨.print, "print", 3, 1⟩, ⟨.function, "F", 3, 7⟩, ⟨.opening .square, "[", 3, 8⟩,
    ⟨.number, "7", 3, 9⟩, ⟨.closing .square, "]", 3, 10⟩, ⟨.endOfLine, "", 3, 11⟩]

/-- The tree of these lines. -/
def remainderTree : Node :=
  ofStatements [
    Statement.definition "F" 1 (.leaf .variable "x" 1)
      ⟨.operation .modulo, "", 1, [.leaf .variable "x" 1, .leaf .variable "y" 1]⟩,
    Statement.read 2 (.leaf .variable "y" 2),
    Statement.print 3 ⟨.call, "F", 3, [.leaf .number "7" 3]⟩]

/-- A program that defines a function, reads a value and prints a call of the function is
executed as it is evaluated: with `5` for `y` it prints `2`. -/
theorem execute_eq_evaluate_remainder :
  ∃ root, ofTokens remainderTokens = .ok root ∧ root.children.length = 3
    ∧ execute root .unlimited (.ofBytes [53, 10]) = evaluate root .unlimited (.ofBytes [53, 10])
    ∧ (evaluate root .unlimited (.ofBytes [53, 10])).sink.accepted.toList = [50, 10]
    ∧ ∃ memory, (evaluate root .unlimited (.ofBytes [53, 10])).result = .ok memory
      ∧ memory.globals["y"]? = some 5
  := by
  have accepted : ofTokens remainderTokens = .ok remainderTree := rfl
  have evaluated := execute_eq_evaluate accepted .unlimited (.ofBytes [53, 10])
  have executed := execute_of_resultWithin 20 .unlimited (.ofBytes [53, 10])
    (isProgram_of_ofTokens accepted).isWellFormed rfl
  refine ⟨_, accepted, rfl, evaluated, ?_⟩
  rw [← evaluated, executed]
  exact ⟨rfl, _, rfl, rfl⟩

end Program

end IntScript
