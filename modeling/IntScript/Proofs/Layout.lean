import IntScript.Proofs.Bindings
import IntScript.Proofs.Simulation

/-!
# The layout of the stacks

In the run of a compiled program the stack of values holds the results of the operands that
are finished, of all the nodes at work, and nothing else.  `Machine.Below` says what lies on
the stacks below a node at work, `Machine.AtWork` what a machine holds that has come to some
point of the evaluation of a node, and `Machine.Finished` what it holds in the end.  Main
statement: a machine at work is at work after a step, or it has finished (`AtWork.next`).
-/

namespace IntScript

/-! ### What nodes leave -/

namespace Node

/-- The kinds of nodes that leave a value. -/
def Kind.isExpression : Kind → Bool
  | .call | .variable | .number | .operation _ => true
  | .root | .definition | .read | .print | .assignment => false

/-- What a node leaves on the stack when it is done: its value if it is an expression, and
nothing otherwise. -/
inductive Leaves (scope : Scope) (node : Node) : List Value → Prop where
  | value {value : Value} (expression : node.kind.isExpression)
      (evaluated : node.eval scope = .ok value) : Leaves scope node [value]
  | nothing (statement : node.kind.isExpression = false) : Leaves scope node []

/-- What finished operands leave on the stack, where the last one is topmost. -/
def LeaveAll (scope : Scope) (done : List Node) (values : List Value) : Prop :=
  ∃ results, List.Forall₂ (Leaves scope) done results ∧ values = results.reverse.flatten

theorem leaveAll_nil (scope : Scope) :
  LeaveAll scope [] []
  :=
  ⟨[], .nil, rfl⟩

/-- One more operand leaves its result on top of the others. -/
theorem LeaveAll.append
    {scope : Scope} {done : List Node} {node : Node} {values result : List Value}
    (all : LeaveAll scope done values) (leaves : node.Leaves scope result) :
  LeaveAll scope (done ++ [node]) (result ++ values)
  := by
  obtain ⟨results, each, rfl⟩ := all
  refine ⟨results ++ [result], ?_, by simp⟩
  apply List.rel_append each (.cons leaves .nil)

theorem leaveAll_nil_iff {scope : Scope} {values : List Value} :
  LeaveAll scope [] values ↔ values = []
  := by
  constructor
  · rintro ⟨results, each, rfl⟩
    cases each
    rfl
  · rintro rfl
    apply leaveAll_nil

/-- An expression leaves its value. -/
theorem IsExpression.kind {node : Node} (isExpression : node.IsExpression) :
  node.kind.isExpression
  := by
  cases isExpression <;> rfl

theorem IsExpression.leaves {node : Node} {scope : Scope} {result : List Value}
    (isExpression : node.IsExpression) (leaves : node.Leaves scope result) :
  ∃ value, result = [value] ∧ node.eval scope = .ok value
  := by
  cases leaves with
  | @value value _ evaluated => exact ⟨value, rfl, evaluated⟩
  | nothing statement =>
    rw [isExpression.kind] at statement
    contradiction

theorem leaveAll_singleton {scope : Scope} {operand : Node} {values : List Value}
    (isExpression : operand.IsExpression) (all : LeaveAll scope [operand] values) :
  ∃ value, values = [value] ∧ operand.eval scope = .ok value
  := by
  obtain ⟨results, each, rfl⟩ := all
  cases each with
  | cons leaves rest =>
    cases rest
    obtain ⟨value, rfl, evaluated⟩ := isExpression.leaves leaves
    exact ⟨value, rfl, evaluated⟩

theorem leaveAll_pair {scope : Scope} {left right : Node} {values : List Value}
    (isLeft : left.IsExpression) (isRight : right.IsExpression)
    (all : LeaveAll scope [left, right] values) :
  ∃ leftValue rightValue, values = [rightValue, leftValue]
    ∧ left.eval scope = .ok leftValue ∧ right.eval scope = .ok rightValue
  := by
  obtain ⟨results, each, rfl⟩ := all
  cases each with
  | cons leavesLeft rest =>
    cases rest with
    | cons leavesRight rest =>
      cases rest
      obtain ⟨leftValue, rfl, evaluatedLeft⟩ := isLeft.leaves leavesLeft
      obtain ⟨rightValue, rfl, evaluatedRight⟩ := isRight.leaves leavesRight
      exact ⟨leftValue, rightValue, rfl, evaluatedLeft, evaluatedRight⟩

/-- Statements leave nothing, whatever they see. -/
theorem leaveAll_iff_of_statements {scope : Scope} {done : List Node} {values : List Value}
    (statements : ∀ node ∈ done, node.kind.isExpression = false) :
  LeaveAll scope done values ↔ values = []
  := by
  induction done generalizing values with
  | nil => apply leaveAll_nil_iff
  | cons node done ih =>
    rw [List.forall_mem_cons] at statements
    constructor
    · rintro ⟨results, each, rfl⟩
      cases each with
      | cons leaves rest =>
        cases leaves with
        | value expression =>
          rw [statements.1] at expression
          contradiction
        | nothing =>
          rw [List.reverse_cons, List.flatten_append, (ih statements.2).mp ⟨_, rest, rfl⟩]
          rfl
    · rintro rfl
      obtain ⟨results, each, flat⟩ := (ih statements.2).mpr rfl
      exact ⟨[] :: results, .cons (.nothing statements.1) each, by simp [← flat]⟩

/-! ### Parts of programs -/

/-- The nodes that come to work in the run of a program. -/
inductive IsPart (node : Node) : Prop where
  | program (isProgram : node.IsProgram)
  | statement (isStatement : node.IsStatement)
  | expression (isExpression : node.IsExpression)

theorem IsStatement.kind {node : Node} (isStatement : node.IsStatement) :
  node.kind.isExpression = false ∧ node.kind ≠ .root
  := by
  cases isStatement <;> exact ⟨rfl, nofun⟩

theorem IsExpression.kind_ne_root {node : Node} (isExpression : node.IsExpression) :
  node.kind ≠ .root
  := by
  cases isExpression <;> exact nofun

/-- Only programs are roots. -/
theorem IsPart.isProgram {node : Node} (isPart : node.IsPart) (kind : node.kind = .root) :
  node.IsProgram
  := by
  cases isPart with
  | program isProgram => apply isProgram
  | statement isStatement => exact absurd kind isStatement.kind.2
  | expression isExpression => exact absurd kind isExpression.kind_ne_root

/-- The operands of a statement are expressions. -/
theorem IsStatement.operand {node operand : Node} (isStatement : node.IsStatement)
    (mem : operand ∈ node.operands) :
  operand.IsExpression
  := by
  cases isStatement with
  | assignment _ _ isValue | print _ isValue =>
    rw [List.mem_singleton.mp mem]
    apply isValue
  | definition | read => cases mem

/-- The operands of an expression are expressions. -/
theorem IsExpression.operand {node operand : Node} (isExpression : node.IsExpression)
    (mem : operand ∈ node.operands) :
  operand.IsExpression
  := by
  cases isExpression with
  | number | reference => cases mem
  | call _ _ isArgument =>
    rw [List.mem_singleton.mp mem]
    apply isArgument
  | operation _ _ isLeft isRight =>
    rcases List.mem_cons.mp mem with rfl | mem
    · apply isLeft
    · rw [List.mem_singleton.mp mem]
      apply isRight

/-- The operands of a program are its statements. -/
theorem IsProgram.operand {root operand : Node} (isProgram : root.IsProgram)
    (mem : operand ∈ root.operands) :
  operand.IsStatement
  := by
  obtain ⟨statements, rfl, all⟩ := isProgram
  apply all operand mem

theorem IsProgram.kind {root : Node} (isProgram : root.IsProgram) :
  root.kind = .root
  := by
  obtain ⟨statements, rfl, all⟩ := isProgram
  rfl

/-- The statements of a program leave nothing. -/
theorem IsProgram.leaveAll_iff
    {root : Node} {done pending : List Node} {scope : Scope} {values : List Value}
    (isProgram : root.IsProgram) (operands : root.operands = done ++ pending) :
  LeaveAll scope done values ↔ values = []
  := by
  apply leaveAll_iff_of_statements
  intro statement mem
  apply (isProgram.operand (operands ▸ List.mem_append_left _ mem)).kind.1

theorem IsProgram.leaves {root : Node} {scope : Scope} {result : List Value}
    (isProgram : root.IsProgram) (leaves : root.Leaves scope result) :
  result = []
  := by
  cases leaves with
  | nothing => rfl
  | value expression =>
    rw [isProgram.kind] at expression
    cases expression

/-- The operands of a part are statements if it is a program, and expressions otherwise. -/
theorem IsPart.operand {node operand : Node} (isPart : node.IsPart)
    (mem : operand ∈ node.operands) :
  (node.IsProgram ∧ operand.IsStatement) ∨ operand.IsExpression
  := by
  cases isPart with
  | program isProgram => exact .inl ⟨isProgram, isProgram.operand mem⟩
  | statement isStatement => exact .inr (isStatement.operand mem)
  | expression isExpression => exact .inr (isExpression.operand mem)

/-- A definition has a parameter and an expression as its body. -/
theorem IsPart.children_of_definition {node : Node} (isPart : node.IsPart)
    (kind : node.kind = .definition) :
  ∃ parameter body, node.children = [parameter, body] ∧ body.IsExpression
  := by
  cases isPart with
  | program isProgram =>
    rw [isProgram.kind] at kind
    cases kind
  | statement isStatement =>
    cases isStatement with
    | definition _ _ _ _ isBody => exact ⟨_, _, rfl, isBody⟩
    | _ => cases kind
  | expression isExpression => cases isExpression <;> cases kind

end Node

/-! ### What lies on the stacks -/

/-- How a call enters the body of its function: the argument is evaluated, the function is
not active, and the binding gives the recorded parameter the value of the argument. -/
structure Memory.Entered (memory : Memory) (call : Node) (binding : Binding) (body : Node) :
    Prop where
  kind : call.kind = .call
  argument : ∃ argument, call.children = [argument]
    ∧ argument.eval memory.scope = .ok binding.value
  function : binding.function = call.text
  recorded : ∃ parameter, Records memory.definition? call.text parameter body
    ∧ binding.parameter = parameter.text
  inactive : call.text ∉ memory.scope.active

namespace Memory.Entered

variable {memory : Memory} {call body : Node} {binding : Binding}

/-- The body that a call has entered is an expression. -/
theorem isExpression (entered : memory.Entered call binding body)
    (sound : SoundFunctions memory.functions) :
  body.IsExpression
  := by
  obtain ⟨parameter, ⟨definition, lookup, children⟩, -⟩ := entered.recorded
  obtain ⟨-, _, _, children', isBody⟩ := sound _ definition lookup
  rw [children] at children'
  cases children'
  apply isBody

/-- The value of a call is that of the body it has entered. -/
theorem eval_eq (entered : memory.Entered call binding body) :
  call.eval memory.scope = body.eval (memory.bind binding).scope
  := by
  obtain ⟨kind, ⟨argument, children, evaluated⟩, function, ⟨parameter, ⟨definition, lookup,
    children'⟩, parameterName⟩, inactive⟩ := entered
  obtain ⟨_, name, line, _⟩ := call
  cases kind
  cases children
  have found : memory.scope.functions[name]? = some definition := lookup
  rw [Node.eval_call, evaluated, memory.scope_bind, function, parameterName]
  change Except.bind (.ok binding.value) _ = _
  simp only [Except.bind, found, inactive, if_false, children']

end Memory.Entered

namespace Machine

/-- What lies on the stacks below a node at work, when `node₀` was visited on top of what `m₀`
holds: the frames that wait for the node, the memory that the node sees, and the values of
the operands that these frames have finished. -/
inductive Below (m₀ : Machine) (node₀ : Node) :
    Node → List Frame → Memory → List Value → Prop where
  /-- The evaluation starts on top of what the machine holds.  While an expression is
  evaluated its memory stays the same, and a statement may change what it does not bind. -/
  | base {memory : Memory} (bindings : memory.bindings = m₀.memory.bindings)
      (kept : node₀.kind.isExpression → memory = m₀.memory) :
      Below m₀ node₀ node₀ m₀.frames memory m₀.values
  /-- An operand is at work for a node, on top of the operands before it. -/
  | operand {node operand : Node} {done pending : List Node} {frames : List Frame}
      {memory : Memory} {values results : List Value}
      (below : Below m₀ node₀ node frames memory values)
      (operands : node.operands = done ++ operand :: pending)
      (leaveAll : Node.LeaveAll memory.scope done results) :
      Below m₀ node₀ operand (.evaluating node pending :: frames) memory (results ++ values)
  /-- The body of a function is at work for a call, which has taken its argument. -/
  | body {call body : Node} {binding : Binding} {frames : List Frame} {memory : Memory}
      {values : List Value} (below : Below m₀ node₀ call frames memory values)
      (entered : memory.Entered call binding body) :
      Below m₀ node₀ body (.calling call :: frames) (memory.bind binding) values

/-- A machine that has come to some point of the evaluation of `node₀`, which was visited on
top of what `m₀` holds. -/
inductive AtWork (m₀ : Machine) (node₀ : Node) (m : Machine) : Prop where
  /-- Some operands of the node on top are finished, and the others are pending. -/
  | evaluating {node : Node} {done pending : List Node} {frames : List Frame}
      {values results : List Value} (below : Below m₀ node₀ node frames m.memory values)
      (top : m.frames = .evaluating node pending :: frames)
      (operands : node.operands = done ++ pending)
      (leaveAll : Node.LeaveAll m.memory.scope done results) (held : m.values = results ++ values)
  /-- The body of the function is finished that the call on top has entered. -/
  | calling {call body : Node} {binding : Binding} {frames : List Frame} {memory : Memory}
      {values result : List Value} (below : Below m₀ node₀ call frames memory values)
      (entered : memory.Entered call binding body) (memory : m.memory = memory.bind binding)
      (top : m.frames = .calling call :: frames) (leaves : body.Leaves m.memory.scope result)
      (held : m.values = result ++ values)

/-- A machine that has finished the evaluation of `node₀` holds what it leaves on top of what
`m₀` holds. -/
structure Finished (m₀ : Machine) (node₀ : Node) (m : Machine) : Prop where
  frames : m.frames = m₀.frames
  bindings : m.memory.bindings = m₀.memory.bindings
  kept : node₀.kind.isExpression → m.memory = m₀.memory
  held : ∃ result, node₀.Leaves m₀.memory.scope result ∧ m.values = result ++ m₀.values

variable {m₀ m m' : Machine} {node₀ node : Node} {frames : List Frame} {memory : Memory}
  {values : List Value}

/-- A node that is visited is at work. -/
theorem atWork_start (m : Machine) (node : Node) :
  AtWork m node (m.visit node)
  :=
  .evaluating (.base rfl fun _ => rfl) rfl rfl (Node.leaveAll_nil _) rfl

/-- Whatever lies below a node at work, it is a part of the program. -/
theorem Below.isPart (below : Below m₀ node₀ node frames memory values)
    (isPart₀ : node₀.IsPart) (sound : SoundFunctions memory.functions) :
  node.IsPart
  := by
  induction below with
  | base => apply isPart₀
  | @operand node operand _ _ _ _ _ _ _ operands _ ih =>
    have mem : operand ∈ node.operands := by simp [operands]
    rcases (ih sound).operand mem with ⟨-, isStatement⟩ | isExpression
    · exact .statement isStatement
    · exact .expression isExpression
  | body _ entered _ => exact .expression (entered.isExpression sound)

/-- What lies below a node that is no expression holds no results, so that it depends on
nothing but the bindings. -/
theorem Below.of_statement
    {memory' : Memory} (below : Below m₀ node₀ node frames memory values)
    (isPart₀ : node₀.IsPart) (sound : SoundFunctions memory.functions)
    (statement : node.kind.isExpression = false) (bindings : memory'.bindings = memory.bindings) :
  Below m₀ node₀ node frames memory' values
  := by
  induction below with
  | base same kept =>
    apply Below.base (bindings.trans same)
    intro expression
    rw [statement] at expression
    contradiction
  | @operand node operand _ _ _ _ _ _ below operands leaveAll ih =>
    have mem : operand ∈ node.operands := by simp [operands]
    rcases (below.isPart isPart₀ sound).operand mem with ⟨isProgram, -⟩ | isExpression
    · have root : node.kind.isExpression = false := by rw [isProgram.kind]; rfl
      apply Below.operand (ih sound root bindings) operands
      rw [isProgram.leaveAll_iff operands] at leaveAll ⊢
      apply leaveAll
    · rw [isExpression.kind] at statement
      contradiction
  | body _ entered _ =>
    rw [(entered.isExpression sound).kind] at statement
    contradiction

/-- When a node is done, what lay below it goes on, unless the evaluation is finished. -/
theorem Below.done
    {result : List Value} (below : Below m₀ node₀ node frames memory values)
    (top : m.frames = frames) (same : m.memory = memory) (leaves : node.Leaves memory.scope result)
    (held : m.values = result ++ values) :
  AtWork m₀ node₀ m ∨ Finished m₀ node₀ m
  := by
  cases below with
  | base bindings kept =>
    right
    rw [← same] at bindings kept leaves
    refine ⟨top, bindings, kept, result, ?_, held⟩
    cases leaves with
    | value expression evaluated =>
      rw [kept expression] at evaluated
      exact .value expression evaluated
    | nothing statement => exact .nothing statement
  | operand below operands leaveAll =>
    left
    rw [← same] at below leaveAll leaves
    apply AtWork.evaluating below top _ (leaveAll.append leaves)
    · rw [held, List.append_assoc]
    · rw [operands, List.append_assoc]
      rfl
  | body below entered =>
    left
    rw [← same] at leaves
    exact .calling below entered same top leaves held

/-! ### Steps -/

/-- An expression whose operands are finished acts by putting its value in their place, if it
is no call. -/
theorem act_eq_yield {results : List Value} (isExpression : node.IsExpression)
    (call : node.kind ≠ .call) (leaveAll : Node.LeaveAll m.memory.scope node.operands results) :
  act node { m with values := results ++ m.values } = yield (node.eval m.memory.scope) m
  := by
  cases isExpression with
  | number text line =>
    obtain rfl := Node.leaveAll_nil_iff.mp leaveAll
    rw [Node.leaf, Node.eval]
    rfl
  | reference name line =>
    obtain rfl := Node.leaveAll_nil_iff.mp leaveAll
    rw [Node.leaf, Node.eval, ← pushResolved_eq]
    rfl
  | call => contradiction
  | operation op line isLeft isRight =>
    obtain ⟨leftValue, rightValue, rfl, evaluatedLeft, evaluatedRight⟩ :=
      Node.leaveAll_pair isLeft isRight leaveAll
    rw [Node.eval, evaluatedLeft, evaluatedRight]
    rfl

/-- A call whose argument is finished acts by entering the body of its function. -/
theorem exists_entered_of_act {results : List Value} (isExpression : node.IsExpression)
    (call : node.kind = .call) (leaveAll : Node.LeaveAll m.memory.scope node.operands results)
    (sound : SoundFunctions m.memory.functions)
    (acts : act node { m with values := results ++ m.values } = .ok () m') :
  ∃ binding body, m.memory.Entered node binding body
    ∧ m' = visit { m with frames := .calling node :: m.frames, memory := m.memory.bind binding }
      body
  := by
  cases isExpression with
  | @call argument name line isArgument =>
    obtain ⟨value, rfl, evaluated⟩ := Node.leaveAll_singleton isArgument leaveAll
    change act _ (m.hold value) = _ at acts
    rw [act_call_eq, Memory.enter_eq] at acts
    cases lookup : m.memory.functions[name]? with
    | none =>
      rw [lookup] at acts
      cases acts
    | some definition =>
      obtain ⟨named, parameter, body, children, -⟩ := sound name definition lookup
      by_cases active : m.memory.isActive name
      · simp [lookup, active] at acts
      · simp only [lookup, active, children, Bool.false_eq_true, if_false] at acts
        cases acts
        refine ⟨⟨definition.text, parameter.text, value⟩, body, ?_, rfl⟩
        constructor
        · rfl
        · exact ⟨argument, rfl, evaluated⟩
        · apply named
        · exact ⟨parameter, ⟨definition, lookup, children⟩, rfl⟩
        · apply mt (m.memory.isActive_iff name).mpr active
  | _ => cases call

theorem exists_restore_of_onStore {effect : Effect Unit}
    (performed : onStore effect m = .ok () m') :
  ∃ store, m' = m.restore store
  := by
  unfold onStore at performed
  split at performed <;> cases performed
  exact ⟨_, rfl⟩

/-- A statement whose operands are finished takes their values when it acts. -/
theorem act_of_isStatement {results : List Value} (isStatement : node.IsStatement)
    (leaveAll : Node.LeaveAll m.memory.scope node.operands results)
    (acts : act node { m with values := results ++ m.values } = .ok () m') :
  ∃ store, m' = m.restore store
  := by
  rcases acts_of_isStatement isStatement with ⟨operands, acts'⟩ |
    ⟨expression, f, isExpression, operands, -, acts'⟩
  all_goals rw [operands] at leaveAll
  · obtain rfl := Node.leaveAll_nil_iff.mp leaveAll
    rw [acts'] at acts
    apply exists_restore_of_onStore acts
  · obtain ⟨value, rfl, -⟩ := Node.leaveAll_singleton isExpression leaveAll
    change act _ (m.hold value) = _ at acts
    rw [acts'] at acts
    apply exists_restore_of_onStore acts

/-- When a node acts whose operands are finished, the machine stays at work or has finished. -/
theorem Below.act
    {results : List Value} (below : Below m₀ node₀ node m.frames m.memory m.values)
    (isPart₀ : node₀.IsPart) (sound : SoundFunctions m.memory.functions)
    (leaveAll : Node.LeaveAll m.memory.scope node.operands results)
    (acts : act node { m with values := results ++ m.values } = .ok () m') :
  AtWork m₀ node₀ m' ∨ Finished m₀ node₀ m'
  := by
  cases below.isPart isPart₀ sound with
  | program isProgram =>
    have statement : node.kind.isExpression = false := by rw [isProgram.kind]; rfl
    obtain rfl := (isProgram.leaveAll_iff (List.append_nil _).symm).mp leaveAll
    simp only [Machine.act, isProgram.kind] at acts
    cases acts
    exact below.done rfl rfl (.nothing statement) rfl
  | statement isStatement =>
    have statement := isStatement.kind.1
    obtain ⟨store, rfl⟩ := act_of_isStatement isStatement leaveAll acts
    have below' : Below m₀ node₀ node m.frames (m.restore store).memory m.values :=
      below.of_statement isPart₀ sound statement rfl
    exact below'.done rfl rfl (.nothing statement) rfl
  | expression isExpression =>
    by_cases call : node.kind = .call
    · obtain ⟨binding, body, entered, rfl⟩ :=
        exists_entered_of_act isExpression call leaveAll sound acts
      exact .inl (.evaluating (below.body entered) rfl rfl (Node.leaveAll_nil _) rfl)
    · rw [act_eq_yield isExpression call leaveAll] at acts
      cases evaluated : node.eval m.memory.scope with
      | error error =>
        rw [evaluated] at acts
        cases acts
      | ok value =>
        rw [evaluated] at acts
        cases acts
        exact below.done rfl rfl (.value isExpression.kind evaluated) rfl

/-- A machine at work whose node on top has an operand left has finished those before it. -/
theorem AtWork.of_evaluating
    {pending : List Node} (atWork : AtWork m₀ node₀ m)
    (top : m.frames = .evaluating node pending :: frames) :
  ∃ done results values, Below m₀ node₀ node frames m.memory values
    ∧ node.operands = done ++ pending ∧ Node.LeaveAll m.memory.scope done results
    ∧ m.values = results ++ values
  := by
  cases atWork with
  | calling _ _ _ top' =>
    rw [top] at top'
    cases top'
  | evaluating below top' operands leaveAll held =>
    rw [top] at top'
    cases top'
    exact ⟨_, _, _, below, operands, leaveAll, held⟩

/-- A machine at work whose node on top is a call that has entered a body has finished it. -/
theorem AtWork.of_calling
    {call : Node} (atWork : AtWork m₀ node₀ m) (top : m.frames = .calling call :: frames) :
  ∃ memory binding body result values, Below m₀ node₀ call frames memory values
    ∧ memory.Entered call binding body ∧ m.memory = memory.bind binding
    ∧ body.Leaves m.memory.scope result ∧ m.values = result ++ values
  := by
  cases atWork with
  | evaluating _ top' =>
    rw [top] at top'
    cases top'
  | calling below entered memory top' leaves held =>
    rw [top] at top'
    cases top'
    exact ⟨_, _, _, _, _, below, entered, memory, leaves, held⟩

/-- A machine at work stays at work, or it has finished. -/
theorem AtWork.next (atWork : AtWork m₀ node₀ m) (isPart₀ : node₀.IsPart)
    (sound : SoundFunctions m.memory.functions) (next : Next m' m) :
  AtWork m₀ node₀ m' ∨ Finished m₀ node₀ m'
  := by
  rcases next.cases with ⟨node, operand, pending, frames, top, rfl⟩ | ⟨call, frames, top, rfl⟩ |
    ⟨node, frames, top, acts⟩
  · obtain ⟨done, results, values, below, operands, leaveAll, held⟩ := atWork.of_evaluating top
    exact .inl (.evaluating (below.operand operands leaveAll) rfl rfl (Node.leaveAll_nil _) held)
  · obtain ⟨memory, binding, body, result, values, below, entered, same, leaves, held⟩ :=
      atWork.of_calling top
    rw [same] at sound leaves
    obtain ⟨value, rfl, evaluated⟩ := (entered.isExpression sound).leaves leaves
    have expression : call.kind.isExpression := by rw [entered.kind]; rfl
    refine below.done rfl (by rw [same]; rfl) (.value expression ?_) held
    rw [entered.eval_eq, evaluated]
  · obtain ⟨done, results, values, below, operands, leaveAll, held⟩ := atWork.of_evaluating top
    rw [List.append_nil] at operands
    rw [← operands] at leaveAll
    rw [held] at acts
    let m₁ : Machine := { m with frames := frames, values := values }
    have below₁ : Below m₀ node₀ node m₁.frames m₁.memory m₁.values := below
    apply below₁.act isPart₀ sound leaveAll acts

end Machine

end IntScript
