import IntScript.Proofs.Traversal
import Mathlib.Data.List.Chain
import Mathlib.Data.List.Forall2

/-!
# Bindings and calls at work

A call whose argument is evaluated stays on the stack of frames while the body of its
function is evaluated, and so does its binding on the stack of bindings.  In the run of a
well-formed tree the two stacks stay aligned, wherever definitions and calls stand in the
tree.  Main statement: the bindings are, in order, those of the calls at work, of different
functions with recorded definitions, the frame above each such call evaluates the recorded
body, and no binding is left when the run has ended.
-/

namespace IntScript

/-- What stands in the second of two related lists is related to something in the first. -/
theorem exists_of_mem_right
    {α β : Type} {R : α → β → Prop} {as : List α} {bs : List β} (each : List.Forall₂ R as bs)
    {b : β} (mem : b ∈ bs) :
  ∃ a ∈ as, R a b
  := by
  induction each with
  | nil => cases mem
  | cons related _ ih =>
    rcases List.mem_cons.mp mem with rfl | mem
    · exact ⟨_, List.mem_cons_self, related⟩
    · obtain ⟨a, aMem, related⟩ := ih mem
      exact ⟨a, List.mem_cons_of_mem _ aMem, related⟩

/-! ### Recorded definitions -/

/-- A definition is recorded for a function, with the given parameter and body. -/
def Records (definition? : String → Option Node) (function : String) (parameter body : Node) :
    Prop :=
  ∃ definition, definition? function = some definition ∧ definition.children = [parameter, body]

/-- The definition that is recorded under a name. -/
def Memory.definition? (memory : Memory) (name : String) : Option Node :=
  memory.functions[name]?

/-- What is recorded stays recorded when a table grows. -/
theorem Records.mono
    {definition? definition?' : String → Option Node} {function : String} {parameter body : Node}
    (records : Records definition? function parameter body)
    (grows : ∀ name definition, definition? name = some definition →
      definition?' name = some definition) :
  Records definition?' function parameter body
  := by
  obtain ⟨definition, recorded, children⟩ := records
  exact ⟨definition, grows _ _ recorded, children⟩

namespace Machine

/-- A definition that acts is the first one of its name. -/
theorem not_mem_of_act_definition
    {node : Node} {m m' : Machine} (kind : node.kind = .definition)
    (h : act node m = .ok () m') :
  node.text ∉ m.memory.functions
  := by
  simp only [act, kind] at h
  obtain ⟨memory, defined, rfl⟩ := onMemory_eq_ok.mp h
  rw [Memory.define_eq] at defined
  split at defined <;> cases defined
  assumption

/-- A step keeps the definitions that are recorded. -/
theorem Next.definition?_eq
    {m m' : Machine} {name : String} {definition : Node} (next : Next m' m)
    (recorded : m.memory.definition? name = some definition) :
  m'.memory.definition? name = some definition
  := by
  unfold Memory.definition? at recorded ⊢
  rcases next.cases with ⟨_, _, _, _, _, rfl⟩ | ⟨_, _, _, rfl⟩ | ⟨node, frames, -, acts⟩
  · apply recorded
  · apply recorded
  · by_cases call : node.kind = .call
    · obtain ⟨-, -, -, -, -, -, -, -, functions, -⟩ := act_call call acts
      rw [functions]
      apply recorded
    · by_cases kind : node.kind = .definition
      · obtain ⟨-, -, functions⟩ := act_definition kind acts
        rw [functions, Std.ExtTreeMap.getElem?_insert, if_neg]
        · apply recorded
        · intro same
          apply not_mem_of_act_definition kind acts
          rw [Std.LawfulEqCmp.eq_of_compare same, Std.ExtTreeMap.mem_iff_isSome_getElem?, recorded]
          rfl
      · rw [(quiet_act call kind acts).functions]
        apply recorded

end Machine

/-! ### Calls at work -/

namespace Frame

/-- Whether a frame is that of a call whose body is being evaluated: a call evaluates its
argument at its first turn and enters the body at its second. -/
def inCall (frame : Frame) : Bool :=
  frame.node.kind == .call && frame.turns == 2

/-- No body is being evaluated for a node that has not acted. -/
theorem inCall_evaluating {node : Node} (hasArity : node.hasArity) (pending : List Node) :
  (evaluating node pending).inCall = false
  := by
  obtain ⟨kind, text, line, children⟩ := node
  cases kind with
  | call =>
    obtain ⟨argument, rfl⟩ := Node.exists_child hasArity rfl
    have few : 1 - pending.length ≠ 2 := by omega
    simp [inCall, Frame.node, turns, Node.operands, few]
  | _ => rfl

theorem inCall_calling {call : Node} (kind : call.kind = .call) (hasArity : call.hasArity) :
  (calling call).inCall = true
  := by
  obtain ⟨_, text, line, children⟩ := call
  cases kind
  obtain ⟨argument, rfl⟩ := Node.exists_child hasArity rfl
  rfl

/-- A binding belongs to a call at work if it names the function of the call and the
parameter of the definition that is recorded for it. -/
def BoundBy (definition? : String → Option Node) (frame : Frame) (binding : Binding) : Prop :=
  binding.function = frame.node.text
    ∧ ∃ parameter body, Records definition? frame.node.text parameter body
      ∧ binding.parameter = parameter.text

/-- What stands above a call at work evaluates the body that is recorded for its function. -/
def RunsBodyOf (definition? : String → Option Node) (above frame : Frame) : Prop :=
  frame.inCall → ∃ parameter, Records definition? frame.node.text parameter above.node

/-- A frame only asks for the node of the frame above it. -/
theorem isChain_of_node_eq
    {definition? : String → Option Node} {frame frame' : Frame} {frames : List Frame}
    (bodies : (frame :: frames).IsChain (RunsBodyOf definition?))
    (same : frame'.node = frame.node) :
  (frame' :: frames).IsChain (RunsBodyOf definition?)
  := by
  cases bodies with
  | singleton => apply List.IsChain.singleton
  | cons_cons runsBody bodies =>
    apply List.IsChain.cons_cons _ bodies
    intro inCall
    rw [same]
    apply runsBody inCall

end Frame

/-! ### Aligned machines -/

namespace Machine

/-- The bindings of an aligned machine are, in order, those of its calls at work, of which
no two call the same function, and above each of them the right body is evaluated. -/
structure Aligned (m : Machine) : Prop where
  bound : List.Forall₂ (Frame.BoundBy m.memory.definition?) (m.frames.filter Frame.inCall)
    m.memory.bindings
  distinct : (m.memory.bindings.map Binding.function).Nodup
  bodies : m.frames.IsChain (Frame.RunsBodyOf m.memory.definition?)

/-- The functions of bindings that are aligned are defined. -/
theorem Aligned.mem_functions {m : Machine} (aligned : m.Aligned) :
  ∀ binding ∈ m.memory.bindings, binding.function ∈ m.memory.functions
  := by
  intro binding mem
  obtain ⟨frame, -, name, _, _, ⟨definition, recorded, -⟩, -⟩ :=
    exists_of_mem_right aligned.bound mem
  rw [name, Std.ExtTreeMap.mem_iff_isSome_getElem?]
  apply Option.isSome_of_eq_some recorded

/-- Machines stay aligned while only the table of functions grows. -/
theorem Aligned.mono
    {m m' : Machine} (aligned : m.Aligned) (frames : m'.frames = m.frames)
    (bindings : m'.memory.bindings = m.memory.bindings)
    (grows : ∀ name definition, m.memory.definition? name = some definition →
      m'.memory.definition? name = some definition) :
  m'.Aligned
  where
  bound := by
    rw [frames, bindings]
    apply aligned.bound.imp
    rintro frame binding ⟨name, parameter, body, records, parameterName⟩
    exact ⟨name, parameter, body, records.mono grows, parameterName⟩
  distinct := by
    rw [bindings]
    apply aligned.distinct
  bodies := by
    rw [frames]
    apply aligned.bodies.imp
    intro above frame runsBody inCall
    obtain ⟨parameter, records⟩ := runsBody inCall
    exact ⟨parameter, records.mono grows⟩

/-- A node that has not acted may go, and the machine is still aligned. -/
theorem Aligned.drop
    {m : Machine} {node : Node} {pending : List Node} {frames : List Frame}
    (aligned : m.Aligned) (top : m.frames = .evaluating node pending :: frames)
    (hasArity : node.hasArity) :
  Aligned { m with frames := frames }
  where
  bound := by
    have bound := aligned.bound
    rwa [top, List.filter_cons_of_neg (by simp [Frame.inCall_evaluating hasArity])] at bound
  distinct := aligned.distinct
  bodies := by
    have bodies := aligned.bodies
    rw [top] at bodies
    apply bodies.tail

/-- An aligned machine may visit a node above any frame but that of a call at work. -/
theorem Aligned.visit
    {m : Machine} {node operand : Node} {pending pending' : List Node} {frames : List Frame}
    (aligned : m.Aligned) (top : m.frames = .evaluating node pending :: frames)
    (hasArity : node.hasArity) (operandHasArity : operand.hasArity) :
  Aligned { m with frames := .start operand :: .evaluating node pending' :: frames }
  where
  bound := by
    have notInCall (pending : List Node) : (Frame.evaluating node pending).inCall ≠ true := by
      simp [Frame.inCall_evaluating hasArity]
    have bound := aligned.bound
    rw [top, List.filter_cons_of_neg (notInCall _)] at bound
    rwa [List.filter_cons_of_neg (by simp [Frame.start, Frame.inCall_evaluating operandHasArity]),
      List.filter_cons_of_neg (notInCall _)]
  distinct := aligned.distinct
  bodies := by
    have bodies := aligned.bodies
    rw [top] at bodies
    apply List.IsChain.cons_cons
    · intro inCall
      rw [Frame.inCall_evaluating hasArity] at inCall
      contradiction
    · apply Frame.isChain_of_node_eq bodies
      rfl

/-- A call that ends leaves the machine aligned. -/
theorem Aligned.leave
    {m : Machine} {call : Node} {frames : List Frame} (aligned : m.Aligned)
    (top : m.frames = .calling call :: frames) (inCall : (Frame.calling call).inCall) :
  Aligned { m with frames := frames, memory := m.memory.leave }
  where
  bound := by
    have bound := aligned.bound
    rw [top, List.filter_cons_of_pos inCall] at bound
    rw [Memory.leave]
    generalize m.memory.bindings = bindings at bound
    cases bound with
    | cons _ bound => apply bound
  distinct := by
    have distinct := aligned.distinct
    simp only [Memory.leave, List.map_tail]
    apply distinct.tail
  bodies := by
    have bodies := aligned.bodies
    rw [top] at bodies
    apply bodies.tail

/-- A call that enters the body of its function leaves the machine aligned. -/
theorem Aligned.enter
    {root call : Node} {m m' : Machine} {frames : List Frame} (aligned : m.Aligned)
    (grounded : Grounded root m) (wellFormed : root.isWellFormed) (within : root.Within call)
    (top : m.frames = .evaluating call [] :: frames) (kind : call.kind = .call)
    (acts : act call { m with frames := frames } = .ok () m') :
  m'.Aligned
  := by
  have hasArity := within.hasArity wellFormed
  obtain ⟨bound, distinct, -⟩ := aligned.drop top hasArity
  obtain ⟨definition, parameter, body, argument, lookup, children, inactive, frames', functions',
    bindings'⟩ := act_call kind acts
  obtain ⟨named, definitionWithin⟩ := grounded.functions _ _ lookup
  have bodyHasArity : body.hasArity :=
    (definitionWithin.child (by simp [children])).hasArity wellFormed
  have inCall := Frame.inCall_calling kind hasArity
  have same : m'.memory.definition? = m.memory.definition? := by
    funext name
    rw [Memory.definition?, functions', Memory.definition?]
  have records : Records m.memory.definition? call.text parameter body :=
    ⟨definition, lookup, children⟩
  constructor
  · rw [frames', bindings', same]
    rw [List.filter_cons_of_neg (by simp [Frame.start, Frame.inCall_evaluating bodyHasArity]),
      List.filter_cons_of_pos inCall]
    exact .cons ⟨named, parameter, body, records, rfl⟩ bound
  · rw [bindings', List.map_cons, List.nodup_cons]
    constructor
    · simpa [Memory.isActive, named] using inactive
    · apply distinct
  · rw [frames', same]
    apply List.IsChain.cons_cons
    · intro _
      exact ⟨parameter, records⟩
    · have bodies := aligned.bodies
      rw [top] at bodies
      apply Frame.isChain_of_node_eq bodies
      rfl

/-- A step leaves a machine aligned. -/
theorem Aligned.next
    {root : Node} {m m' : Machine} (aligned : m.Aligned) (grounded : Grounded root m)
    (inTurn : InTurn root m) (wellFormed : root.isWellFormed) (next : Next m' m) :
  m'.Aligned
  := by
  have grows : ∀ name definition, m.memory.definition? name = some definition →
      m'.memory.definition? name = some definition := fun _ _ => next.definition?_eq
  rcases next.cases with ⟨node, operand, pending, frames, top, rfl⟩ | ⟨call, frames, top, rfl⟩ |
    ⟨node, frames, top, acts⟩
  all_goals
    have first := inTurn _ (by rw [top]; apply List.mem_cons_self)
    have hasArity := first.within.hasArity wellFormed
  · have mem : operand ∈ node.operands := first.2.subset List.mem_cons_self
    have operandWithin := first.1.child (Node.mem_children_of_mem_operands mem)
    apply aligned.visit top hasArity (operandWithin.hasArity wellFormed)
  · apply aligned.leave top (Frame.inCall_calling first.2 hasArity)
  · by_cases call : node.kind = .call
    · apply aligned.enter grounded wellFormed first.1 top call acts
    · have dropped := aligned.drop top hasArity
      by_cases definition : node.kind = .definition
      · obtain ⟨frames', bindings', -⟩ := act_definition definition acts
        apply dropped.mono frames' bindings' grows
      · have keeps := quiet_act call definition acts
        apply dropped.mono keeps.frames keeps.bindings grows

theorem aligned_start {root : Node} (sink : Sink) (input : Input) (hasArity : root.hasArity) :
  Aligned (start root sink input)
  where
  bound := by
    rw [start, List.filter_cons_of_neg (by simp [Frame.start, Frame.inCall_evaluating hasArity])]
    exact .nil
  distinct := List.nodup_nil
  bodies := .singleton _

/-- The machines in the run of a well-formed tree are aligned. -/
theorem Reaches.aligned {root : Node} {sink : Sink} {input : Input} {m : Machine}
    (reaches : Reaches (start root sink input) m) (wellFormed : root.isWellFormed) :
  m.Aligned
  := by
  have preserved : ∀ {m m'}, Grounded root m ∧ InTurn root m ∧ m.Aligned → Next m' m →
      Grounded root m' ∧ InTurn root m' ∧ m'.Aligned :=
    fun ⟨grounded, inTurn, aligned⟩ next =>
      ⟨grounded.next next, inTurn.next grounded next, aligned.next grounded inTurn wellFormed next⟩
  have hasArity := Node.Within.root.hasArity wellFormed
  apply (reaches.preserves preserved ⟨grounded_start root sink input, inTurn_start root sink input,
    aligned_start sink input hasArity⟩).2.2

/-! ### Runs do not come back -/

/-- The work that is left depends on which functions are active, and not on the rest of the
bindings. -/
theorem workOf_congr
    (root : Node) (frames : List Frame) {bindings bindings' : List Binding}
    (same : bindings.map Binding.function = bindings'.map Binding.function) :
  workOf root frames bindings = workOf root frames bindings'
  := by
  induction frames generalizing bindings bindings' with
  | nil => rfl
  | cons frame frames ih =>
    cases frame with
    | evaluating node pending =>
      have idle_eq (bindings : List Binding) : idle root.texts bindings
          = root.texts.filter fun name =>
            !(bindings.map Binding.function).any fun function => function == name := by
        simp only [idle, List.any_map]
        rfl
      rw [workOf, workOf, ih same, idle_eq, idle_eq, same]
    | calling call =>
      have tails : bindings.tail.map Binding.function = bindings'.tail.map Binding.function := by
        rw [List.map_tail, same, List.map_tail]
      rw [workOf, workOf, ih tails]

/-- The active functions are those of the calls at work. -/
theorem Aligned.map_function_eq {m : Machine} (aligned : m.Aligned) :
  m.memory.bindings.map Binding.function
    = (m.frames.filter Frame.inCall).map fun frame => frame.node.text
  := by
  have bound := aligned.bound
  generalize m.frames.filter Frame.inCall = frames, m.memory.bindings = bindings at bound
  induction bound with
  | nil => rfl
  | cons boundBy _ ih => rw [List.map_cons, List.map_cons, boundBy.1, ih]

/-- The run of a well-formed tree never comes back to the same frames. -/
theorem Reaches.eq_of_frames_eq
    {root : Node} {sink : Sink} {input : Input} {m m' : Machine}
    (reaches : Reaches (start root sink input) m) (wellFormed : root.isWellFormed)
    (later : Reaches m m') (same : m'.frames = m.frames) :
  m' = m
  := by
  have grounded := reaches.preserves Grounded.next (grounded_start root sink input)
  have active : m'.memory.bindings.map Binding.function
      = m.memory.bindings.map Binding.function := by
    rw [((reaches.trans later).aligned wellFormed).map_function_eq,
      (reaches.aligned wellFormed).map_function_eq, same]
  have sameWork : work root m' = work root m := by
    rw [work, work, same, workOf_congr root m.frames active]
  obtain ⟨n, steps⟩ := later
  have bounded := grounded.steps_le steps
  obtain rfl : n = 0 := by omega
  cases steps
  rfl

end Machine

/-! ### Runs -/

namespace Program

/-- In the run of a well-formed tree bindings and calls at work are aligned, every binding is
that of a defined function, and none is left in the end. -/
theorem bindings_aligned_with_calls {root : Node} (wellFormed : root.isWellFormed) (sink : Sink)
    (input : Input) :
  (∀ m, Machine.Reaches (.start root sink input) m →
      m.Aligned ∧ ∀ binding ∈ m.memory.bindings, binding.function ∈ m.memory.functions)
    ∧ ∀ memory, (execute root sink input).result = .ok memory → memory.bindings = []
  := by
  constructor
  · intro m reaches
    have aligned := reaches.aligned wellFormed
    exact ⟨aligned, aligned.mem_functions⟩
  · intro memory succeeded
    obtain ⟨last, reaches, done, rfl⟩ := exists_done_of_execute succeeded
    have bound := (reaches.aligned wellFormed).bound
    rw [Machine.frames_eq_nil done] at bound
    apply List.forall₂_nil_left_iff.mp bound

/-- A function whose body defines another function, and a call of it. -/
def nestedDefinition : Node :=
  ⟨.root, "", 0, [
    ⟨.definition, "F", 1, [.leaf .variable "x" 1,
      ⟨.definition, "G", 1, [.leaf .variable "y" 1, .leaf .variable "y" 1]⟩]⟩,
    ⟨.call, "F", 2, [.leaf .number "1" 2]⟩]⟩

/-- A function is defined while a call is at work, and no binding is left. -/
theorem bindings_aligned_nestedDefinition :
  nestedDefinition.isWellFormed
    ∧ (∀ m, Machine.Reaches (.start nestedDefinition .unlimited (.ofBytes [])) m → m.Aligned)
    ∧ ∃ memory, (execute nestedDefinition .unlimited (.ofBytes [])).result = .ok memory
      ∧ "G" ∈ memory.functions ∧ memory.bindings = []
  := by
  have wellFormed : nestedDefinition.isWellFormed := by
    simp [nestedDefinition, Node.isWellFormed, Node.allWellFormed, Node.hasArity,
      Node.Kind.arity?, Node.leaf]
  obtain ⟨aligned, empty⟩ := bindings_aligned_with_calls wellFormed .unlimited (.ofBytes [])
  have executed := execute_of_resultWithin 10 .unlimited (.ofBytes []) wellFormed rfl
  have succeeded := congrArg Outcome.result executed
  refine ⟨wellFormed, fun m reaches => (aligned m reaches).1, _, succeeded, ?_, empty _ succeeded⟩
  decide

end Program

end IntScript
