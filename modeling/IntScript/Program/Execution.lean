import IntScript.Machine.Halting

/-!
# Execution

`Program.execute` runs the tree of a program from beginning to end.  A tree in which some
node has the wrong number of children is not run at all.  When all statements are done, what
they printed is flushed once more.  An `Outcome` is the result of a run together with the
streams as the run left them.
-/

namespace IntScript

/-- The result of a run, with the streams as the run left them. -/
structure Outcome (ε α : Type) where
  result : Except ε α
  sink : Sink
  input : Input

/-- The outcome of a run that ended in the given way. -/
def Outcome.ofResult :
    EStateM.Result RuntimeError Machine Unit → Outcome RuntimeError Memory
  | .ok () m => ⟨.ok m.memory, m.sink, m.input⟩
  | .error error m => ⟨.error error, m.sink, m.input⟩

namespace Program

/-- Runs a machine that halts, and flushes its sink for the root of the given line. -/
def runMachine (line : Nat) (m : Machine) (halts : m.Halts) :
    EStateM.Result RuntimeError Machine Unit :=
  match m.run halts with
  | .ok () m => Machine.flush line m
  | .error error m => .error error m

/-- Runs the tree of a program, and yields what the program remembers in the end. -/
def execute (root : Node) (sink : Sink) (input : Input) : Outcome RuntimeError Memory :=
  if root.isWellFormed then
    .ofResult (runMachine root.line (.start root sink input) (Machine.halts_start root sink input))
  else
    ⟨.error (.malformedTree root.line), sink, input⟩

end Program

end IntScript
