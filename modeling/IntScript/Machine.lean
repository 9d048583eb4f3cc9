import IntScript.Memory
import IntScript.Number
import IntScript.Sink
import IntScript.Input

/-!
# The machine

A machine evaluates a tree with a stack of frames and a stack of values.  A frame is a node
at work: some of its operands may still be pending, or it is a call whose body is being
evaluated.  A node whose operands are all evaluated acts: it takes their values from the
stack and, if it is an expression, leaves its own value there.

`Machine.step?` is one step of a machine.  An error keeps the state in which it was met,
since what has been written and read by then stays so.
-/

namespace IntScript

/-- The children that are evaluated before a node acts.  The target of an assignment is only
named, and a definition evaluates nothing. -/
def Node.operands (node : Node) : List Node :=
  match node.kind with
  | .root | .call | .print | .operation _ => node.children
  | .assignment => node.children.drop 1
  | .variable | .number | .definition | .read => []

/-- A node at work. -/
inductive Frame where
  /-- The operands in `pending` are to be evaluated, and then the node acts. -/
  | evaluating (node : Node) (pending : List Node)
  /-- The body of a function is being evaluated for this call. -/
  | calling (call : Node)

/-- The frame of a node whose evaluation begins. -/
def Frame.start (node : Node) : Frame :=
  .evaluating node node.operands

/-- The state of a program at work.  Both stacks have their top first. -/
structure Machine where
  frames : List Frame
  values : List Value
  memory : Memory
  sink : Sink
  input : Input

/-- What changes a machine and may fail. -/
abbrev Action := EStateM RuntimeError Machine

namespace Machine

/-- The machine that is about to evaluate a tree. -/
def start (root : Node) (sink : Sink) (input : Input) : Machine :=
  ⟨[.start root], [], .empty, sink, input⟩

/-! ### Actions -/

/-- Fails with the error of a result, or yields its value. -/
def check {α : Type} : Except RuntimeError α → Action α
  | .ok a => pure a
  | .error error => throw error

/-- Puts frames on the stack, the first one topmost. -/
def pushFrames (frames : List Frame) : Action Unit :=
  modify fun m => { m with frames := frames ++ m.frames }

/-- Puts a value on the stack. -/
def pushValue (value : Value) : Action Unit :=
  modify fun m => { m with values := value :: m.values }

/-- Takes a value from the stack, for a node on the given line. -/
def popValue (line : Nat) : Action Value := fun m =>
  match m.values with
  | value :: values => .ok value { m with values := values }
  | [] => .error (.malformedTree line) m

/-- Changes the memory of a machine. -/
def onMemory {α : Type} (change : Memory.Change α) : Action α := fun m =>
  match change m.memory with
  | .ok a memory => .ok a { m with memory := memory }
  | .error error memory => .error error { m with memory := memory }

/-- Puts the value that a name stands for on the stack. -/
def pushResolved (name : String) (line : Nat) : Action Unit := do
  pushValue (← onMemory (Memory.resolve name line))

/-- Gives a variable a value. -/
def assign (name : String) (value : Value) : Action Unit :=
  modify fun m => { m with memory := m.memory.assign name value }

/-- Records a definition. -/
def define (definition : Node) : Action Unit :=
  onMemory (Memory.define definition)

/-- Activates a call, and yields the body to evaluate. -/
def enter (function : String) (argument : Value) (line : Nat) : Action Node :=
  onMemory (Memory.enter function argument line)

/-- Ends the innermost call. -/
def leave : Action Unit :=
  modify fun m => { m with memory := m.memory.leave }

/-- Writes bytes to the sink. -/
def write (bytes : List UInt8) (line : Nat) : Action Unit :=
  fun ⟨frames, values, memory, sink, input⟩ =>
    match sink.write bytes with
    | .ok () sink => .ok () ⟨frames, values, memory, sink, input⟩
    | .error cause sink => .error (.stream cause line) ⟨frames, values, memory, sink, input⟩

/-- Flushes the sink. -/
def flush (line : Nat) : Action Unit := fun m =>
  match m.sink.flush with
  | .ok () sink => .ok () { m with sink := sink }
  | .error cause sink => .error (.stream cause line) { m with sink := sink }

/-- Takes the next word of the input. -/
def nextWord (line : Nat) : Action (Option String) := fun m =>
  match m.input.nextWord with
  | .ok word? input => .ok word? { m with input := input }
  | .error cause input => .error (.stream cause line) { m with input := input }

/-- Reads a value for a variable.  What has been printed is flushed first. -/
def readValue (name : String) (line : Nat) : Action Value := do
  flush line
  match (← nextWord line) with
  | none => throw (.endOfInput name line)
  | some word => check (Number.ofWord word line)

/-! ### Steps -/

/-- What a node does once its operands are evaluated. -/
def act (node : Node) : Action Unit :=
  match node.kind with
  | .root => pure ()
  | .variable => pushResolved node.text node.line
  | .number => do pushValue (← check (Number.ofLiteral node.text node.line))
  | .operation op => do
    let right ← popValue node.line
    let left ← popValue node.line
    pushValue (← check (op.applyOn node.line left right))
  | .call => do
    let argument ← popValue node.line
    let body ← enter node.text argument node.line
    pushFrames [.start body, .calling node]
  | .definition => define node
  | .assignment => do
    let value ← popValue node.line
    match node.children with
    | target :: _ => assign target.text value
    | [] => throw (.malformedTree node.line)
  | .print => do
    let value ← popValue node.line
    write (Number.printed value) node.line
  | .read =>
    match node.children with
    | target :: _ => do assign target.text (← readValue target.text node.line)
    | [] => throw (.malformedTree node.line)

/-- What a frame does when it is taken from the top of the stack. -/
def advance : Frame → Action Unit
  | .evaluating node (operand :: pending) =>
    pushFrames [.start operand, .evaluating node pending]
  | .evaluating node [] => act node
  | .calling _ => leave

/-- One step of a machine, or `none` if no frame is left. -/
def step? (m : Machine) : Option (EStateM.Result RuntimeError Machine Unit) :=
  match m.frames with
  | [] => none
  | frame :: frames => some (advance frame { m with frames := frames })

end Machine

end IntScript
