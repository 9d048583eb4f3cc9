import IntScript.Proofs.Positions
import IntScript.Proofs.Recursion

/-!
# Lines of runtime errors

Which line a running program blames when it fails.  A node fails on its own line, and all nodes
of a statement have the line of the source on which the statement stands.  While the body of a
function is evaluated the node at work lies in the definition of this function, and otherwise in
the statement that is executed; `Machine.Runs` names this code.  Main statement: an error has the
line of the code that is running, which is a line of the source that is not blank, and only the
flush after the last statement fails without a line.
-/

namespace IntScript

open Token

/-! ### Lines of statements -/

/-- All nodes of a written expression have the line of its tokens. -/
theorem Expression.Written.line_eq
    {level number : Nat} {tokens : List Token} {tree : Node} (written : Written level tokens tree)
    (onLine : ∀ token ∈ tokens, token.line = number) :
  ∀ node, tree.Within node → node.line = number
  := by
  induction written with
  | number | reference =>
    rw [List.forall_mem_singleton] at onLine
    exact Node.forall_within_iff.mpr ⟨onLine, nofun⟩
  | call _ _ _ _ ih =>
    simp only [List.cons_append, List.forall_mem_cons, List.forall_mem_append] at onLine
    rw [Node.forall_within_iff, List.forall_mem_singleton]
    exact ⟨onLine.1, ih onLine.2.2.1⟩
  | operation _ _ _ _ _ ihLeft ihRight =>
    simp only [List.forall_mem_append, List.forall_mem_cons] at onLine
    rw [Node.forall_within_iff, List.forall_mem_cons, List.forall_mem_singleton]
    exact ⟨onLine.2.1, ihLeft onLine.1, ihRight onLine.2.2⟩
  | bracketed _ _ _ ih =>
    simp only [List.cons_append, List.forall_mem_cons, List.forall_mem_append] at onLine
    apply ih onLine.2.1

/-- All nodes of a written statement have the line of its tokens. -/
theorem Statement.Written.line_eq
    {number : Nat} {tokens : List Token} {statement : Node} (written : Written tokens statement)
    (onLine : ∀ token ∈ tokens, token.line = number) :
  ∀ node, statement.Within node → node.line = number
  := by
  have leaf {token : Token} (onLine : token.line = number) :
      ∀ node, (Node.leaf .variable token.text token.line).Within node → node.line = number :=
    Node.forall_within_iff.mpr ⟨onLine, nofun⟩
  cases written with
  | assignment _ _ written =>
    simp only [List.forall_mem_cons] at onLine
    rw [Node.forall_within_iff, List.forall_mem_cons, List.forall_mem_singleton]
    exact ⟨onLine.1, leaf onLine.1, written.line_eq onLine.2.2⟩
  | definition _ _ _ _ _ written =>
    simp only [List.forall_mem_cons] at onLine
    rw [Node.forall_within_iff, List.forall_mem_cons, List.forall_mem_singleton]
    exact ⟨onLine.1, leaf onLine.2.2.1, written.line_eq onLine.2.2.2.2.2⟩
  | read =>
    simp only [List.forall_mem_cons] at onLine
    rw [Node.forall_within_iff, List.forall_mem_singleton]
    exact ⟨onLine.1, leaf onLine.2.1⟩
  | print _ written =>
    simp only [List.forall_mem_cons] at onLine
    rw [Node.forall_within_iff, List.forall_mem_singleton]
    exact ⟨onLine.1, written.line_eq onLine.2⟩

/-- A statement stands on the line of the source whose number it has: this line holds it, and it
is not blank. -/
structure Node.StandsOn (lines : List String) (statement : Node) : Prop where
  positive : 0 < statement.line
  source : ∃ text, lines[statement.line - 1]? = some text
    ∧ Statement.ofLine (scanLine statement.line text.toList) = .ok (some statement)
    ∧ ∃ c ∈ text.toList, Text.isBlank c = false

/-- A line in which a token stands is not blank. -/
theorem Token.StandsIn.exists_visible {text : List Char} {token : Token}
    (standsIn : token.StandsIn text) :
  ∃ c ∈ text, Text.isBlank c = false
  := by
  obtain ⟨before, after, rfl, -, spells⟩ := standsIn
  obtain ⟨c, mem⟩ := List.exists_mem_of_ne_nil _ spells.ne_nil
  exact ⟨c, by simp [mem], spells.isBlank_eq_false c mem⟩

namespace Program

variable {lines : List String} {root : Node}

/-- Each statement of a program stands on its line of the source, and so do all of its nodes. -/
theorem standsOn_of_mem {statement : Node} (accepted : ofTokens (scan lines) = .ok root)
    (mem : statement ∈ root.children) :
  statement.StandsOn lines ∧ ∀ node, statement.Within node → node.line = statement.line
  := by
  obtain ⟨line, memLine, allowed, written⟩ := exists_line_of_mem accepted mem
  obtain ⟨number, text, cut, positive, there⟩ := exists_source_of_mem_lines memLine
  have inLine : ∀ token ∈ line.body, token ∈ scanLine number text.toList := by
    intro token mem
    rw [← cut]
    apply List.mem_append_left _ mem
  have lineOf := written.line_eq fun token mem => line_of_mem_scanLine (inLine token mem)
  obtain rfl : statement.line = number := lineOf statement .root
  obtain ⟨first, rest, body, -⟩ := written.startsStatement
  have memFirst : first ∈ line.body := by
    rw [body]
    apply List.mem_cons_self
  have standsIn := standsIn_of_mem_scanLine (inLine first memFirst) (allowed.inside first memFirst)
  refine ⟨⟨positive, text, there, ?_, standsIn.exists_visible⟩, lineOf⟩
  rw [← cut]
  apply Statement.ofLine_of_written written allowed.ending

end Program

/-! ### Running code -/

namespace Machine

variable {root node : Node} {m m' : Machine} {sink : Sink} {input : Input} {frames : List Frame}
  {memory : Memory} {values : List Value} {error : RuntimeError}

/-- A statement is executed: its frame lies right above that of the program. -/
def Executes (root statement : Node) (frames : List Frame) : Prop :=
  ∃ done pending waiting above, root.children = done ++ statement :: pending
    ∧ frames = above ++ [.evaluating statement waiting, .evaluating root pending]

/-- The code that a machine is running: the definition of the function with the innermost
binding, or the statement that is executed if there is no binding. -/
inductive Runs (root : Node) (m : Machine) : Node → Prop where
  | statement {statement : Node} (executes : Executes root statement m.frames)
      (outside : m.memory.bindings = []) : Runs root m statement
  | body {statement definition : Node} {binding : Binding} {outer : List Binding}
      (executes : Executes root statement m.frames)
      (innermost : m.memory.bindings = binding :: outer)
      (recorded : m.memory.definition? binding.function = some definition)
      (defines : definition.defines binding.function) : Runs root m definition

/-- A statement that is executed goes on with what it visits. -/
theorem Executes.push {statement : Node} (executes : Executes root statement frames)
    (frame : Frame) :
  Executes root statement (frame :: frames)
  := by
  obtain ⟨done, pending, waiting, above, children, rfl⟩ := executes
  exact ⟨done, pending, waiting, frame :: above, children, rfl⟩

/-- Only nodes that act fail. -/
theorem exists_act_of_error (failure : m.step? = some (.error error m')) :
  ∃ node frames, m.frames = .evaluating node [] :: frames
    ∧ act node { m with frames := frames } = .error error m'
  := by
  unfold step? at failure
  split at failure
  · cases failure
  · rename_i frame frames top
    injection failure with failure
    cases frame with
    | calling call => cases failure
    | evaluating node pending =>
      cases pending with
      | cons => cases failure
      | nil => exact ⟨node, frames, top, failure⟩

/-- A node at work is the program itself, or it is at work for a statement of the program, and
lies within it unless a binding is active. -/
theorem Below.executes (below : Below (bare sink input) root node frames memory values)
    (isProgram : root.IsProgram) (sound : SoundFunctions memory.functions) :
  (node = root ∧ frames = []) ∨ ∃ statement ∈ root.children,
    (∀ waiting, Executes root statement (.evaluating node waiting :: frames))
      ∧ (memory.bindings = [] → statement.Within node)
  := by
  have operandsOfRoot : root.operands = root.children := by rw [Node.operands, isProgram.kind]
  induction below with
  | base => exact .inl ⟨rfl, rfl⟩
  | @operand node operand done pending _ _ _ _ _ operands _ ih =>
    right
    have mem : operand ∈ node.operands := by simp [operands]
    rcases ih sound with ⟨rfl, rfl⟩ | ⟨statement, memStatement, executes, within⟩
    · rw [operandsOfRoot] at mem operands
      exact ⟨operand, mem, fun waiting => ⟨done, pending, waiting, [], operands, rfl⟩,
        fun _ => .root⟩
    · refine ⟨statement, memStatement, fun _ => (executes pending).push _, ?_⟩
      intro outside
      apply (within outside).child (Node.mem_children_of_mem_operands mem)
  | @body call body binding frames _ _ _ entered ih =>
    right
    rcases ih sound with ⟨rfl, -⟩ | ⟨statement, memStatement, executes, -⟩
    · have kind := entered.kind
      rw [isProgram.kind] at kind
      cases kind
    · refine ⟨statement, memStatement, ?_, fun outside => absurd outside (List.cons_ne_nil _ _)⟩
      intro waiting
      obtain ⟨done, pending, waiting', above, children, same⟩ := executes []
      cases above with
      | nil =>
        -- The statement would be the call itself.
        cases same
        have isStatement := isProgram.operand (operandsOfRoot ▸ memStatement)
        exact absurd entered.kind isStatement.kind_ne_call
      | cons frame above =>
        cases same
        exact ⟨done, pending, waiting', .evaluating body waiting :: .calling call :: above,
          children, rfl⟩

/-- A machine in the run of a compiled program fails on the line of a node that lies in the code
that is running. -/
theorem Reaches.runs_of_error {tokens : List Token}
    (reaches : Reaches (start root sink input) m) (accepted : Program.ofTokens tokens = .ok root)
    (failure : m.step? = some (.error error m')) :
  ∃ code node, m.Runs root code ∧ code ∈ root.children ∧ code.Within node
    ∧ error.line = node.line
  := by
  have isProgram := Program.isProgram_of_ofTokens accepted
  obtain ⟨sound, atWork | finished⟩ := reaches.laid isProgram
  · obtain ⟨node, frames, top, fails⟩ := exists_act_of_error failure
    obtain ⟨_, _, _, below, -⟩ := atWork.of_evaluating top
    let m₁ : Machine := { m with frames := frames }
    have sound₁ : SoundFunctions m₁.memory.functions := sound
    have line := line_of_act sound₁ fails
    rcases below.executes isProgram sound with ⟨rfl, -⟩ | ⟨statement, mem, executes, within⟩
    · simp only [act, isProgram.kind] at fails
      cases fails
    · have executes := executes []
      rw [← top] at executes
      cases bindings : m.memory.bindings with
      | nil => exact ⟨statement, node, .statement executes bindings, mem, within bindings, line⟩
      | cons binding outer =>
        obtain ⟨-, inBody⟩ := below.isChain rfl
        obtain ⟨parameter, body, ⟨definition, recorded, children⟩, within⟩ :=
          inBody binding.function (by rw [bindings]; rfl)
        have first := (reaches.progress isProgram).definition?_eq recorded
        obtain ⟨mem, -⟩ := Program.definition?_eq_some first
        refine ⟨definition, node, .body executes bindings recorded (List.find?_some first), mem,
          ?_, line⟩
        apply within.of_mem
        simp [children]
  · rw [finished.step?_eq] at failure
    cases failure

end Machine

namespace Program

open Machine

/-- When the program on some lines fails in a step, the error has the line of the code that is
running, which stands on that line of the source.  When it fails behind the last step, the flush
of its sink has failed, and the error has line zero. -/
theorem error_has_line_of_running_code {lines : List String} {root : Node}
    (accepted : ofTokens (scan lines) = .ok root) {sink : Sink} {input : Input}
    {error : RuntimeError} (failed : (execute root sink input).result = .error error) :
  (∃ m m' code, Reaches (start root sink input) m ∧ m.step? = some (.error error m')
      ∧ m.Runs root code ∧ code ∈ root.children ∧ code.StandsOn lines ∧ error.line = code.line)
    ∨ ∃ m cause flushed, Reaches (start root sink input) m ∧ m.step? = none
      ∧ m.sink.flush = .error cause flushed ∧ error = .stream cause 0
  := by
  have isProgram := isProgram_of_ofTokens accepted
  rcases exists_failing_of_execute isProgram.isWellFormed failed with
    ⟨m, m', reaches, failure⟩ | ⟨m, cause, flushed, reaches, done, refused, same⟩
  · left
    obtain ⟨code, node, runs, mem, within, line⟩ := reaches.runs_of_error accepted failure
    obtain ⟨standsOn, lineOf⟩ := standsOn_of_mem accepted mem
    exact ⟨m, m', code, reaches, failure, runs, mem, standsOn, line.trans (lineOf node within)⟩
  · right
    obtain ⟨statements, rfl, -⟩ := isProgram
    exact ⟨m, cause, flushed, reaches, done, refused, same⟩

/-- A call on the third line fails on the first one, where the function is defined. -/
theorem error_has_line_of_running_code_quotient :
  ∃ root, ofTokens (scan ["F[x] = 1 / x", "", "print F[0]"]) = .ok root
    ∧ (execute root .unlimited (.ofBytes [])).result = .error (.divisionByZero 1)
    ∧ ∃ m m' code, Reaches (start root .unlimited (.ofBytes [])) m
      ∧ m.step? = some (.error (.divisionByZero 1) m') ∧ m.Runs root code
      ∧ code.StandsOn ["F[x] = 1 / x", "", "print F[0]"] ∧ code.line = 1
  := by
  have accepted : ofTokens (scan ["F[x] = 1 / x", "", "print F[0]"]) = .ok (ofStatements [
      Statement.definition "F" 1 (.leaf .variable "x" 1)
        ⟨.operation .divide, "", 1, [.leaf .number "1" 1, .leaf .variable "x" 1]⟩,
      Statement.print 3 ⟨.call, "F", 3, [.leaf .number "0" 3]⟩]) := rfl
  have wellFormed := (isProgram_of_ofTokens accepted).isWellFormed
  have executed := execute_of_resultWithin 20 .unlimited (.ofBytes []) wellFormed rfl
  have failed := congrArg Outcome.result executed
  obtain ⟨m, m', code, reaches, failure, runs, -, standsOn, line⟩ | ⟨_, _, _, _, _, _, same⟩ :=
    error_has_line_of_running_code accepted failed
  · exact ⟨_, accepted, failed, m, m', code, reaches, failure, runs, standsOn, line.symm⟩
  · cases same

end Program

end IntScript
