import IntScript.Proofs.Recorded
import Mathlib.Data.List.Nodup

/-!
# Recursive calls

In the run of a compiled program the active functions are a path in the call graph, each
called from the body of the one before it, and the node at work lies in the body of the last
one.  A call of an active function thus closes a cycle in the call graph.  Main statement: a
compiled program fails with a recursive call only if the call closes a cycle of at least two
functions, so that a program without cycles never fails so.
-/

namespace IntScript

/-- A function that leads back to itself through others, in the order of the calls. -/
def IsCycle (definition? : String → Option Node) (function : String) (others : List String) :
    Prop :=
  List.IsChain (Calls definition?) (function :: others ++ [function])

/-- A larger table has more cycles. -/
theorem IsCycle.mono
    {definition? definition?' : String → Option Node} {function : String} {others : List String}
    (isCycle : IsCycle definition? function others)
    (grows : ∀ name definition, definition? name = some definition →
      definition?' name = some definition) :
  IsCycle definition?' function others
  := by
  apply isCycle.imp
  intro caller callee calls
  apply calls.mono grows

/-- In a cycle every function calls some function. -/
theorem IsCycle.exists_calls
    {definition? : String → Option Node} {function : String} {others : List String}
    (isCycle : IsCycle definition? function others) :
  ∃ callee, Calls definition? function callee
  := by
  cases others with
  | nil => exact ⟨function, (List.isChain_cons_cons.mp isCycle).1⟩
  | cons callee others => exact ⟨callee, (List.isChain_cons_cons.mp isCycle).1⟩

namespace Machine

variable {m₀ m m' : Machine} {node₀ node : Node} {frames : List Frame} {memory : Memory}
  {values : List Value}

/-- The active functions call one another, and the node at work lies in the body of the
innermost one. -/
theorem Below.isChain (below : Below m₀ node₀ node frames memory values)
    (outside : m₀.memory.bindings = []) :
  (memory.bindings.map Binding.function).IsChain
      (fun callee caller => Calls memory.definition? caller callee)
    ∧ ∀ function ∈ (memory.bindings.map Binding.function).head?, ∃ parameter body,
      Records memory.definition? function parameter body ∧ body.Within node
  := by
  induction below with
  | base bindings =>
    rw [bindings, outside]
    exact ⟨.nil, nofun⟩
  | operand _ operands _ ih =>
    obtain ⟨isChain, inBody⟩ := ih
    refine ⟨isChain, ?_⟩
    intro function innermost
    obtain ⟨parameter, body, records, within⟩ := inBody function innermost
    refine ⟨parameter, body, records, within.child ?_⟩
    apply Node.mem_children_of_mem_operands
    simp [operands]
  | @body call body binding _ _ _ _ entered ih =>
    obtain ⟨isChain, inBody⟩ := ih
    obtain ⟨parameter, records, -⟩ := entered.recorded
    constructor
    · apply List.IsChain.cons isChain
      intro caller innermost
      obtain ⟨parameter', body', records', within⟩ := inBody caller innermost
      exact ⟨parameter', body', call, records', within, entered.kind, entered.function.symm⟩
    · rintro function innermost
      cases innermost
      refine ⟨parameter, body, ?_, .root⟩
      rw [entered.function]
      apply records

/-- A machine whose next step is a call that closes a cycle: the active functions from the
called one upward are a path in the call graph that ends in the caller. -/
structure ClosesCycle (m : Machine) (function : String) (line : Nat) (between : List String)
    (caller : String) : Prop where
  active : function :: between ++ [caller] <:+ (m.memory.bindings.map Binding.function).reverse
  distinct : (function :: between ++ [caller]).Nodup
  path : (function :: between ++ [caller]).IsChain (Calls m.memory.definition?)
  called : ∃ call frames parameter body, m.frames = .evaluating call [] :: frames
    ∧ call.kind = .call ∧ call.text = function ∧ call.line = line
    ∧ Records m.memory.definition? caller parameter body ∧ body.Within call

/-- A call of an active function closes a cycle, if no function calls itself. -/
theorem Below.closesCycle
    (below : Below m₀ node₀ node frames m.memory values) (outside : m₀.memory.bindings = [])
    (distinct : (m.memory.bindings.map Binding.function).Nodup)
    (noSelfCall : ∀ name, ¬ Calls m.memory.definition? name name) (call : node.kind = .call)
    (active : node.text ∈ m.memory.scope.active) (top : m.frames = .evaluating node [] :: frames) :
  ∃ between caller, m.ClosesCycle node.text node.line between caller
  := by
  obtain ⟨isChain, inBody⟩ := below.isChain outside
  have mem : node.text ∈ m.memory.bindings.map Binding.function := active
  generalize functions : m.memory.bindings.map Binding.function = names at *
  obtain ⟨inner, outer, rfl⟩ := List.append_of_mem mem
  -- The bindings are listed from the innermost, so that the path is read backward.
  cases inner with
  | nil =>
    -- The called function is the innermost one itself.
    obtain ⟨parameter, body, records, within⟩ := inBody node.text rfl
    exact absurd ⟨parameter, body, node, records, within, call, rfl⟩ (noSelfCall node.text)
  | cons caller inner =>
    obtain ⟨parameter, body, records, within⟩ := inBody caller rfl
    have split : (caller :: inner ++ node.text :: outer).reverse
        = outer.reverse ++ (node.text :: inner.reverse ++ [caller]) := by simp
    rw [← List.nodup_reverse, split] at distinct
    have path : (node.text :: inner.reverse ++ [caller]).IsChain (Calls m.memory.definition?) := by
      have reversed := List.isChain_reverse.mpr isChain
      rw [split] at reversed
      apply reversed.right_of_append
    refine ⟨inner.reverse, caller, ?_, distinct.of_append_right, path, ?_⟩
    · rw [functions, split]
      apply List.suffix_append
    · exact ⟨node, frames, parameter, body, top, call, rfl, rfl, records, within⟩

/-- The cycle that a call closes. -/
theorem ClosesCycle.isCycle
    {function caller : String} {line : Nat} {between : List String}
    (closes : m.ClosesCycle function line between caller) :
  IsCycle m.memory.definition? function (between ++ [caller])
  := by
  obtain ⟨call, frames, parameter, body, -, kind, same, -, records, within⟩ := closes.called
  rw [IsCycle, ← List.cons_append, List.isChain_append]
  refine ⟨closes.path, .singleton _, ?_⟩
  intro last isLast callee isCallee
  rw [List.getLast?_concat] at isLast
  cases isLast
  cases isCallee
  exact ⟨parameter, body, call, records, within, kind, same⟩

/-- A machine in the run of a compiled program fails with a recursive call only if the call
closes a cycle. -/
theorem Reaches.closesCycle
    {tokens : List Token} {root : Node} {sink : Sink} {input : Input} {function : String}
    {line : Nat} (reaches : Reaches (start root sink input) m)
    (accepted : Program.ofTokens tokens = .ok root)
    (failure : m.step? = some (.error (.recursiveCall function line) m')) :
  ∃ between caller, m.ClosesCycle function line between caller
  := by
  have isProgram := Program.isProgram_of_ofTokens accepted
  obtain ⟨sound, atWork | finished⟩ := reaches.laid isProgram
  · rcases atWork.of_error (.program isProgram) sound failure with regular |
      ⟨call, frames, values, below, kind, recursive, active, top⟩
    · cases regular
    · cases recursive
      have distinct := (reaches.aligned isProgram.isWellFormed).distinct
      apply below.closesCycle rfl distinct _ kind active top
      intro name calls
      apply Program.not_calls_self accepted name
      apply calls.mono fun _ _ => (reaches.progress isProgram).definition?_eq
  · rw [finished.step?_eq] at failure
    cases failure

end Machine

namespace Program

open Machine

/-- What a compiled program fails with by a recursive call has closed a cycle in its call
graph. -/
theorem exists_closesCycle_of_execute
    {tokens : List Token} {root : Node} {sink : Sink} {input : Input} {function : String}
    {line : Nat} (accepted : ofTokens tokens = .ok root)
    (error : (execute root sink input).result = .error (.recursiveCall function line)) :
  ∃ m failed between caller, Reaches (start root sink input) m
    ∧ m.step? = some (.error (.recursiveCall function line) failed)
    ∧ m.ClosesCycle function line between caller
    ∧ IsCycle (definition? root.children) function (between ++ [caller])
  := by
  have isProgram := isProgram_of_ofTokens accepted
  rcases exists_failed_of_execute isProgram.isWellFormed error with
    ⟨m, failed, reaches, failure⟩ | ⟨_, stream⟩
  · obtain ⟨between, caller, closes⟩ := reaches.closesCycle accepted failure
    refine ⟨m, failed, between, caller, reaches, failure, closes, ?_⟩
    apply closes.isCycle.mono fun _ _ => (reaches.progress isProgram).definition?_eq
  · cases stream

/-- A compiled program fails with a recursive call only if the call closes a cycle of at
least two functions in the call graph, through the functions that are active from the called
one upward.  If the call graph of the program has no cycle, it never fails so. -/
theorem recursive_call_closes_cycle
    {tokens : List Token} {root : Node} (accepted : ofTokens tokens = .ok root) (sink : Sink)
    (input : Input) :
  (∀ function line, (execute root sink input).result = .error (.recursiveCall function line) →
      ∃ m failed between caller, Reaches (start root sink input) m
        ∧ m.step? = some (.error (.recursiveCall function line) failed)
        ∧ m.ClosesCycle function line between caller
        ∧ IsCycle (definition? root.children) function (between ++ [caller]))
    ∧ ((∀ function others, ¬ IsCycle (definition? root.children) function others) →
      ∀ function line, (execute root sink input).result ≠ .error (.recursiveCall function line))
  := by
  constructor
  · intro function line error
    apply exists_closesCycle_of_execute accepted error
  · intro acyclic function line error
    obtain ⟨_, _, between, caller, -, -, -, isCycle⟩ := exists_closesCycle_of_execute accepted error
    apply acyclic function (between ++ [caller]) isCycle

/-- The tokens of the lines `F[x] = G[x]`, `G[x] = F[x]` and `print F[1]`. -/
def mutualTokens : List Token :=
  [⟨.function, "F", 1, 1⟩, ⟨.opening .square, "[", 1, 2⟩, ⟨.variable, "x", 1, 3⟩,
    ⟨.closing .square, "]", 1, 4⟩, ⟨.equals, "=", 1, 6⟩, ⟨.function, "G", 1, 8⟩,
    ⟨.opening .square, "[", 1, 9⟩, ⟨.variable, "x", 1, 10⟩, ⟨.closing .square, "]", 1, 11⟩,
    ⟨.endOfLine, "", 1, 12⟩,
    ⟨.function, "G", 2, 1⟩, ⟨.opening .square, "[", 2, 2⟩, ⟨.variable, "x", 2, 3⟩,
    ⟨.closing .square, "]", 2, 4⟩, ⟨.equals, "=", 2, 6⟩, ⟨.function, "F", 2, 8⟩,
    ⟨.opening .square, "[", 2, 9⟩, ⟨.variable, "x", 2, 10⟩, ⟨.closing .square, "]", 2, 11⟩,
    ⟨.endOfLine, "", 2, 12⟩,
    ⟨.print, "print", 3, 1⟩, ⟨.function, "F", 3, 7⟩, ⟨.opening .square, "[", 3, 8⟩,
    ⟨.number, "1", 3, 9⟩, ⟨.closing .square, "]", 3, 10⟩, ⟨.endOfLine, "", 3, 11⟩]

/-- The tokens of the lines `F[x] = x` and `print F[F[1]]`. -/
def nestedTokens : List Token :=
  [⟨.function, "F", 1, 1⟩, ⟨.opening .square, "[", 1, 2⟩, ⟨.variable, "x", 1, 3⟩,
    ⟨.closing .square, "]", 1, 4⟩, ⟨.equals, "=", 1, 6⟩, ⟨.variable, "x", 1, 8⟩,
    ⟨.endOfLine, "", 1, 9⟩,
    ⟨.print, "print", 2, 1⟩, ⟨.function, "F", 2, 7⟩, ⟨.opening .square, "[", 2, 8⟩,
    ⟨.function, "F", 2, 9⟩, ⟨.opening .square, "[", 2, 10⟩, ⟨.number, "1", 2, 11⟩,
    ⟨.closing .square, "]", 2, 12⟩, ⟨.closing .square, "]", 2, 13⟩, ⟨.endOfLine, "", 2, 14⟩]

/-- A function that is called for a value of its own. -/
def nestedCalls : Node :=
  ofStatements [
    Statement.definition "F" 1 (.leaf .variable "x" 1) (.leaf .variable "x" 1),
    Statement.print 2 ⟨.call, "F", 2, [⟨.call, "F", 2, [.leaf .number "1" 2]⟩]⟩]

/-- Two functions that call each other close a cycle, and a function that is called for its
own argument does not. -/
theorem recursive_call_closes_cycle_mutual :
  (∃ root, ofTokens mutualTokens = .ok root
      ∧ (execute root .unlimited (.ofBytes [])).result = .error (.recursiveCall "F" 2)
      ∧ ∃ between caller, IsCycle (definition? root.children) "F" (between ++ [caller]))
    ∧ ofTokens nestedTokens = .ok nestedCalls
    ∧ (∀ function others, ¬ IsCycle (definition? nestedCalls.children) function others)
    ∧ ∀ function line,
      (execute nestedCalls .unlimited (.ofBytes [])).result ≠ .error (.recursiveCall function line)
  := by
  constructor
  · have accepted : ofTokens mutualTokens = .ok (ofStatements [
      Statement.definition "F" 1 (.leaf .variable "x" 1)
        ⟨.call, "G", 1, [.leaf .variable "x" 1]⟩,
      Statement.definition "G" 2 (.leaf .variable "x" 2)
        ⟨.call, "F", 2, [.leaf .variable "x" 2]⟩,
      Statement.print 3 ⟨.call, "F", 3, [.leaf .number "1" 3]⟩]) := rfl
    have wellFormed := (isProgram_of_ofTokens accepted).isWellFormed
    have executed := execute_of_resultWithin 20 .unlimited (.ofBytes []) wellFormed rfl
    have failed := congrArg Outcome.result executed
    obtain ⟨closes, -⟩ := recursive_call_closes_cycle accepted .unlimited (.ofBytes [])
    obtain ⟨_, _, between, caller, -, -, -, isCycle⟩ := closes "F" 2 failed
    exact ⟨_, accepted, failed, between, caller, isCycle⟩
  · have accepted : ofTokens nestedTokens = .ok nestedCalls := rfl
    have acyclic : ∀ function others,
        ¬ IsCycle (definition? nestedCalls.children) function others := by
      intro function others isCycle
      obtain ⟨callee, parameter, body, call, ⟨definition, found, children⟩, within, kind, -⟩ :=
        isCycle.exists_calls
      obtain ⟨mem, isDefinition, -⟩ := definition?_eq_some found
      rcases List.mem_cons.mp mem with rfl | mem
      · cases children
        rcases within.eq_or_below with rfl | ⟨child, mem, -⟩
        · cases kind
        · cases mem
      · rw [List.mem_singleton.mp mem] at isDefinition
        cases isDefinition
    obtain ⟨-, never⟩ := recursive_call_closes_cycle accepted .unlimited (.ofBytes [])
    exact ⟨accepted, acyclic, never acyclic⟩

end Program

end IntScript
