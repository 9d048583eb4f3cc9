import IntScript.Proofs.Arity
import IntScript.Proofs.Steps

/-!
# The traversal of a tree

A frame lists the operands that are pending.  The same traversal can be told by positions:
a node on the stack has had a number of turns, and at each turn `Node.turn?` looks up the
children that it needs by their positions and either names the next node to visit or is
done.  A turn does not exist if a child that is looked up does not.  Main statements: in the
run of a well-formed tree every step is the turn of the node on top, so no child is ever
missing, and every tree is done after a number of steps that the tree alone bounds.
-/

namespace IntScript

/-! ### Turns -/

namespace Node

open Machine

/-- What a node does at a turn when it has had the given number of turns.  The turn yields
the node to visit next, if the node is not done.  There is no turn if the node looks up a
child that does not exist. -/
def turn? (node : Node) (turns : Nat) : Option (Action (Option Node)) :=
  match node.kind, turns with
  | .root, turns => some (pure node.children[turns]?)
  | .assignment, 0 => node.children[1]?.map fun value => pure (some value)
  | .assignment, _ + 1 => node.children[0]?.map fun target => do
    assign target.text (← popValue node.line)
    return none
  | .variable, _ => some do
    pushResolved node.text node.line
    return none
  | .number, _ => some do
    pushValue (← check (Number.ofLiteral node.text node.line))
    return none
  | .operation op, turns => some do
    match node.children[turns]? with
    | some operand => return some operand
    | none =>
      let right ← popValue node.line
      let left ← popValue node.line
      pushValue (← check (op.applyOn node.line left right))
      return none
  | .print, 0 => node.children[0]?.map fun operand => pure (some operand)
  | .print, _ + 1 => some do
    write (Number.printed (← popValue node.line)) node.line
    return none
  | .read, _ => node.children[0]?.map fun target => do
    assign target.text (← readValue target.text node.line)
    return none
  | .definition, _ => some do
    define node
    return none
  | .call, 0 => node.children[0]?.map fun argument => pure (some argument)
  | .call, 1 => some do
    let argument ← popValue node.line
    let body ← enter node.text argument node.line
    return some body
  | .call, _ + 2 => some do
    leave
    return none

end Node

namespace Frame

/-- The node at work. -/
def node : Frame → Node
  | .evaluating node _ => node
  | .calling call => call

/-- How many turns the node of a frame has had. -/
def turns : Frame → Nat
  | .evaluating node pending => node.operands.length - pending.length
  | .calling call => call.operands.length + 1

/-- The frame of a node that has had one more turn and is not done. -/
def again : Frame → Frame
  | .evaluating node (_ :: pending) => .evaluating node pending
  | .evaluating node [] => .calling node
  | .calling call => .calling call

/-- Gives the node of a frame a turn.  The node that it wants to visit comes on top. -/
def take (frame : Frame) (turn : Action (Option Node)) : Action Unit := do
  match (← turn) with
  | some next => Machine.pushFrames [.start next, frame.again]
  | none => return ()

/-- A frame that can be met in the run of a tree: its node is within the tree, the pending
operands are the last ones of the node, and only calls wait for a body. -/
def InTurn (root : Node) : Frame → Prop
  | .evaluating node pending => root.Within node ∧ pending <:+ node.operands
  | .calling call => root.Within call ∧ call.kind = .call

/-- The node of a frame that can be met is within the tree. -/
theorem InTurn.within {root : Node} {frame : Frame} (inTurn : frame.InTurn root) :
  root.Within frame.node
  := by
  cases frame with
  | evaluating => apply inTurn.1
  | calling => apply inTurn.1

/-- The turns are counted, but for the last one of a call. -/
theorem InTurn.turns_again {root : Node} {frame : Frame} (inTurn : frame.InTurn root)
    (inside : frame ≠ .calling frame.node) :
  frame.again.turns = frame.turns + 1
  := by
  cases frame with
  | calling => contradiction
  | evaluating node pending =>
    cases pending with
    | nil => rfl
    | cons operand pending =>
      have fits := inTurn.2.length_le
      simp only [again, turns, List.length_cons] at fits ⊢
      omega

/-- What a turn yields decides how the frame goes on. -/
theorem take_visits (frame : Frame) (next : Node) :
  frame.take (pure (some next)) = Machine.pushFrames [.start next, frame.again]
  := by
  rw [take, pure_bind]

end Frame

/-! ### Steps are turns -/

namespace Node

open Machine

/-- A pending operand stands at the position that the turns have reached. -/
theorem getElem?_of_suffix {operand : Node} {pending operands : List Node}
    (suffix : operand :: pending <:+ operands) :
  operands[operands.length - (operand :: pending).length]? = some operand
  := by
  obtain ⟨front, rfl⟩ := suffix
  simp

theorem eq_of_suffix_singleton {operand child : Node} {pending : List Node}
    (suffix : operand :: pending <:+ [child]) :
  operand = child ∧ pending = []
  := by
  rcases List.suffix_cons_iff.mp suffix with same | none
  · cases same
    exact ⟨rfl, rfl⟩
  · cases List.suffix_nil.mp none

/-- While operands are pending, a turn visits the next one. -/
theorem turn?_of_pending {node operand : Node} {pending : List Node} (hasArity : node.hasArity)
    (suffix : operand :: pending <:+ node.operands) :
  node.turn? (node.operands.length - (operand :: pending).length) = some (pure (some operand))
  := by
  obtain ⟨kind, text, line, children⟩ := node
  have found := getElem?_of_suffix suffix
  cases kind with
  | root => apply congrArg (fun child? => some (pure child?)) found
  | operation op =>
    simp only [operands] at found
    simp only [turn?, operands, found]
  | call | print =>
    obtain ⟨child, rfl⟩ := exists_child hasArity rfl
    obtain ⟨rfl, rfl⟩ := eq_of_suffix_singleton suffix
    rfl
  | assignment =>
    obtain ⟨target, value, rfl⟩ := exists_children hasArity rfl
    obtain ⟨rfl, rfl⟩ := eq_of_suffix_singleton suffix
    rfl
  | _ => cases List.suffix_nil.mp suffix

/-- When no operand is pending, a turn is what the node does in the end, and a call goes on
with the body. -/
theorem turn?_of_nil {node : Node} (hasArity : node.hasArity) :
  ∃ turn, node.turn? node.operands.length = some turn
    ∧ act node = (Frame.evaluating node []).take turn
  := by
  obtain ⟨kind, text, line, children⟩ := node
  cases kind with
  | root => exact ⟨pure none, by simp [turn?, operands], rfl⟩
  | operation op =>
    refine ⟨_, rfl, ?_⟩
    simp [act, Frame.take, operands]
  | call =>
    obtain ⟨child, rfl⟩ := exists_child hasArity rfl
    refine ⟨_, rfl, ?_⟩
    simp [act, Frame.take, Frame.again]
  | print | read =>
    obtain ⟨child, rfl⟩ := exists_child hasArity rfl
    refine ⟨_, rfl, ?_⟩
    simp [act, Frame.take]
  | assignment =>
    obtain ⟨target, value, rfl⟩ := exists_children hasArity rfl
    refine ⟨_, rfl, ?_⟩
    simp [act, Frame.take]
  | _ =>
    refine ⟨_, rfl, ?_⟩
    simp [act, Frame.take]

end Node

/-- A frame that can be met in a run advances by the turn of its node. -/
theorem Frame.InTurn.exists_turn {root : Node} {frame : Frame} (inTurn : frame.InTurn root)
    (hasArity : frame.node.hasArity) :
  ∃ turn, frame.node.turn? frame.turns = some turn ∧ Machine.advance frame = frame.take turn
  := by
  match frame with
  | .evaluating node (operand :: pending) =>
    refine ⟨_, Node.turn?_of_pending hasArity inTurn.2, ?_⟩
    rw [take_visits]
    rfl
  | .evaluating node [] => apply Node.turn?_of_nil hasArity
  | .calling ⟨kind, text, line, children⟩ =>
    cases inTurn.2
    obtain ⟨argument, rfl⟩ := Node.exists_child hasArity rfl
    refine ⟨_, rfl, ?_⟩
    simp [Machine.advance, take]

/-! ### Frames stay in turn -/

namespace Machine

/-- A machine is in turn if all its frames can be met in the run of the tree. -/
def InTurn (root : Node) (m : Machine) : Prop :=
  ∀ frame ∈ m.frames, frame.InTurn root

theorem inTurn_start (root : Node) (sink : Sink) (input : Input) :
  InTurn root (start root sink input)
  := by
  intro frame mem
  rw [List.mem_singleton.mp mem]
  exact ⟨.root, List.suffix_refl _⟩

/-- A step of a grounded machine leaves it in turn. -/
theorem InTurn.next {root : Node} {m m' : Machine} (inTurn : InTurn root m)
    (grounded : Grounded root m) (next : Next m' m) :
  InTurn root m'
  := by
  unfold InTurn at inTurn ⊢
  rcases next.cases with ⟨node, operand, pending, frames, top, rfl⟩ | ⟨call, frames, top, rfl⟩ |
    ⟨node, frames, top, acts⟩
  all_goals
    rw [top, List.forall_mem_cons] at inTurn
    obtain ⟨first, others⟩ := inTurn
  · obtain ⟨within, suffix⟩ := first
    have mem : operand ∈ node.operands := suffix.subset List.mem_cons_self
    have operandWithin := within.child (Node.mem_children_of_mem_operands mem)
    have rest : pending <:+ node.operands := (List.suffix_cons operand pending).trans suffix
    simp only [List.forall_mem_cons]
    exact ⟨⟨operandWithin, List.suffix_refl _⟩, ⟨within, rest⟩, others⟩
  · apply others
  · by_cases call : node.kind = .call
    · obtain ⟨definition, parameter, body, argument, lookup, children, -, frames', -⟩ :=
        act_call call acts
      have bodyWithin : root.Within body :=
        (grounded.functions _ _ lookup).2.child (by simp [children])
      rw [frames']
      simp only [List.forall_mem_cons]
      exact ⟨⟨bodyWithin, List.suffix_refl _⟩, ⟨first.1, call⟩, others⟩
    · by_cases definition : node.kind = .definition
      · obtain ⟨frames', -⟩ := act_definition definition acts
        rw [frames']
        apply others
      · rw [(quiet_act call definition acts).frames]
        apply others

/-- The machines in the run of a tree are in turn. -/
theorem Reaches.inTurn {root : Node} {sink : Sink} {input : Input} {m : Machine}
    (reaches : Reaches (start root sink input) m) :
  InTurn root m
  := by
  have preserved : ∀ {m m'}, Grounded root m ∧ InTurn root m → Next m' m →
      Grounded root m' ∧ InTurn root m' :=
    fun ⟨grounded, inTurn⟩ next => ⟨grounded.next next, inTurn.next grounded next⟩
  have initial := And.intro (grounded_start root sink input) (inTurn_start root sink input)
  apply (reaches.preserves preserved initial).2

end Machine

/-! ### The run of a tree -/

namespace Node

/-- A bound on the steps that the evaluation of a tree takes, whatever the streams hold. -/
noncomputable def stepBound (root : Node) : Nat :=
  Machine.rate (sizeOf root) root.texts.length * sizeOf root.operands

end Node

namespace Machine

theorem work_start (root : Node) (sink : Sink) (input : Input) :
  work root (start root sink input) = root.stepBound
  := by
  have all : idle root.texts [] = root.texts := by
    apply List.filter_eq_self.mpr
    exact fun _ _ => rfl
  simp only [work, start, Frame.start, workOf, Memory.empty, all, Nat.add_zero]
  rfl

/-- In the run of a well-formed tree every step is a turn of the node on top. -/
theorem Reaches.exists_turn
    {root : Node} {sink : Sink} {input : Input} {m : Machine} {frame : Frame}
    {frames : List Frame} (reaches : Reaches (start root sink input) m)
    (wellFormed : root.isWellFormed) (top : m.frames = frame :: frames) :
  ∃ turn, frame.node.turn? frame.turns = some turn
    ∧ m.step? = some (frame.take turn { m with frames := frames })
    ∧ (frame ≠ .calling frame.node → frame.again.turns = frame.turns + 1)
  := by
  have inTurn : frame.InTurn root := by
    apply reaches.inTurn
    simp [top]
  have hasArity := inTurn.within.hasArity wellFormed
  obtain ⟨turn, found, advance⟩ := inTurn.exists_turn hasArity
  refine ⟨turn, found, ?_, inTurn.turns_again⟩
  rw [step?_eq top, advance]

end Machine

namespace Program

open Machine

/-- Every tree is done after finitely many steps: a tree that is not well formed is not run,
and the run of any other one ends within a bound that the tree sets, while each step on the
way is a turn that finds the children it looks up. -/
theorem execute_ends_by_turns (root : Node) (sink : Sink) (input : Input) :
  (root.isWellFormed = false →
      execute root sink input = ⟨.error (.malformedTree root.line), sink, input⟩)
    ∧ (root.isWellFormed →
      (∃ n last result, n ≤ root.stepBound ∧ Steps n (start root sink input) last
          ∧ Ends last result ∧ execute root sink input = finish root.line result)
        ∧ ∀ m frame frames, Reaches (start root sink input) m → m.frames = frame :: frames →
          ∃ turn, frame.node.turn? frame.turns = some turn
            ∧ m.step? = some (frame.take turn { m with frames := frames })
            ∧ (frame ≠ .calling frame.node → frame.again.turns = frame.turns + 1))
  := by
  constructor
  · intro malformed
    simp only [execute, malformed, Bool.false_eq_true, ↓reduceIte]
  · intro wellFormed
    constructor
    · obtain ⟨n, last, result, steps, ends⟩ := (halts_start root sink input).exists_ends
      have bounded := (grounded_start root sink input).steps_le steps
      rw [work_start] at bounded
      refine ⟨n, last, result, by omega, steps, ends, ?_⟩
      apply execute_of_ends wellFormed ⟨n, steps⟩ ends
    · intro m frame frames reaches top
      apply reaches.exists_turn wellFormed top

/-- Two functions that call each other, and a call of the first one. -/
def callCycle : Node :=
  let definition (name callee : String) (line : Nat) : Node :=
    ⟨.definition, name, line, [.leaf .variable "x" line,
      ⟨.call, callee, line, [.leaf .variable "x" line]⟩]⟩
  ⟨.root, "", 0, [definition "F" "G" 1, definition "G" "F" 2,
    ⟨.print, "", 3, [⟨.call, "F", 3, [.leaf .number "1" 3]⟩]⟩]⟩

/-- The run of two functions that call each other ends, and a `print` of nothing is not run. -/
theorem execute_ends_callCycle :
  (callCycle.isWellFormed
      ∧ ∃ n last result, n ≤ callCycle.stepBound
        ∧ Steps n (start callCycle .unlimited (.ofBytes [])) last ∧ Ends last result
        ∧ execute callCycle .unlimited (.ofBytes []) = finish 0 result)
    ∧ execute (.leaf .print "" 4) .unlimited (.ofBytes [])
      = ⟨.error (.malformedTree 4), .unlimited, .ofBytes []⟩
  := by
  have wellFormed : callCycle.isWellFormed := by
    simp [callCycle, Node.isWellFormed, Node.allWellFormed, Node.hasArity, Node.Kind.arity?,
      Node.leaf]
  have malformed : (Node.leaf .print "" 4).isWellFormed = false := by
    simp [Node.isWellFormed, Node.allWellFormed, Node.hasArity, Node.Kind.arity?, Node.leaf]
  constructor
  · exact ⟨wellFormed, ((execute_ends_by_turns callCycle .unlimited (.ofBytes [])).2 wellFormed).1⟩
  · apply (execute_ends_by_turns (.leaf .print "" 4) .unlimited (.ofBytes [])).1 malformed

end Program

end IntScript
