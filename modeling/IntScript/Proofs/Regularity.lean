import IntScript.Proofs.Failures
import IntScript.Proofs.Layout

/-!
# Regular actions

Some errors are due to the structure of a program: a node lacks what it looks for, or a
function is called that is active.  An action is regular if it does not fail for such a
reason.  In a compiled program a node whose operands are finished finds their values and its
children where it looks for them, so it is only by a call that its action may not be regular.
-/

namespace IntScript

/-- The errors that are due to the structure of a program. -/
def RuntimeError.isStructural : RuntimeError → Bool
  | .malformedTree _ | .recursiveCall _ _ => true
  | _ => false

namespace Machine

variable {m₀ m m' : Machine} {node₀ node : Node} {frames : List Frame} {memory : Memory}
  {values : List Value}

/-- An action is regular if it does not fail for the structure of a program. -/
def Regular {α : Type} (x : Action α) : Prop :=
  FailsWith (fun error => error.isStructural = false) x

theorem regular_pushResolved (name : String) (line : Nat) :
  Regular (pushResolved name line)
  :=
  failsWith_pushResolved rfl

theorem regular_define (definition : Node) :
  Regular (define definition)
  :=
  failsWith_define rfl

theorem regular_write (bytes : List UInt8) (line : Nat) :
  Regular (write bytes line)
  :=
  failsWith_write fun _ => rfl

theorem regular_readValue (name : String) (line : Nat) :
  Regular (readValue name line)
  :=
  failsWith_readValue (fun _ => rfl) rfl fun _ => rfl

theorem regular_ofLiteral (text : String) (line : Nat) :
  Regular (check (Number.ofLiteral text line))
  :=
  failsWith_ofLiteral rfl

theorem regular_applyOn (op : Operator) (line : Nat) (left right : Value) :
  Regular (check (op.applyOn line left right))
  := by
  apply failsWith_applyOn
  intro cause
  cases cause <;> rfl

/-- A part of a program whose operands are finished fails for the structure of the program
only if it is a call of an active function. -/
theorem act_of_error
    (m : Machine) {results : List Value} {error : RuntimeError} (isPart : node.IsPart)
    (sound : SoundFunctions m.memory.functions)
    (leaveAll : Node.LeaveAll m.memory.scope node.operands results)
    (fails : act node { m with values := results ++ m.values } = .error error m') :
  error.isStructural = false ∨ node.kind = .call ∧ error = .recursiveCall node.text node.line
    ∧ node.text ∈ m.memory.scope.active
  := by
  cases isPart with
  | program isProgram =>
    simp only [act, isProgram.kind] at fails
    cases fails
  | statement isStatement =>
    left
    cases isStatement with
    | assignment name line isValue =>
      obtain ⟨value, rfl, -⟩ := Node.leaveAll_singleton isValue leaveAll
      cases fails
    | definition => apply regular_define _ fails
    | read => apply failsWith_bind (regular_readValue _ _) (fun _ => failsWith_modify _) fails
    | print line isValue =>
      obtain ⟨value, rfl, -⟩ := Node.leaveAll_singleton isValue leaveAll
      have fails : write (Number.printed value) line m = .error error m' := fails
      apply regular_write _ _ fails
  | expression isExpression =>
    cases isExpression with
    | number text line =>
      left
      apply failsWith_bind (regular_ofLiteral text line) (fun _ => failsWith_modify _) fails
    | reference name line =>
      left
      apply regular_pushResolved name line fails
    | call name line isArgument =>
      obtain ⟨value, rfl, -⟩ := Node.leaveAll_singleton isArgument leaveAll
      change act _ (m.hold value) = _ at fails
      rw [act_call_eq] at fails
      split at fails <;> cases fails
      rename_i refused
      rcases Memory.enter_eq_error sound refused with rfl | ⟨recursive, active⟩
      · exact .inl rfl
      · exact .inr ⟨rfl, recursive, active⟩
    | operation op line isLeft isRight =>
      left
      obtain ⟨leftValue, rightValue, rfl, -, -⟩ := Node.leaveAll_pair isLeft isRight leaveAll
      apply failsWith_bind (regular_applyOn op line leftValue rightValue)
        (fun _ => failsWith_modify _) fails

/-- A machine at work fails for the structure of the program only by a call of an active
function. -/
theorem AtWork.of_error {error : RuntimeError} (atWork : AtWork m₀ node₀ m)
    (isPart₀ : node₀.IsPart) (sound : SoundFunctions m.memory.functions)
    (failure : m.step? = some (.error error m')) :
  error.isStructural = false ∨ ∃ call frames values, Below m₀ node₀ call frames m.memory values
    ∧ call.kind = .call ∧ error = .recursiveCall call.text call.line
    ∧ call.text ∈ m.memory.scope.active ∧ m.frames = .evaluating call [] :: frames
  := by
  cases atWork with
  | calling _ _ _ top =>
    rw [step?_eq top] at failure
    cases failure
  | @evaluating node done pending frames values results below top operands leaveAll held =>
    rw [step?_eq top] at failure
    injection failure with failure
    cases pending with
    | cons => cases failure
    | nil =>
      rw [List.append_nil] at operands
      rw [← operands] at leaveAll
      rw [held] at failure
      rcases act_of_error { m with frames := frames, values := values }
        (below.isPart isPart₀ sound) sound leaveAll failure with
        regular | ⟨call, recursive, active⟩
      · exact .inl regular
      · exact .inr ⟨node, frames, values, below, call, recursive, active, top⟩

end Machine

end IntScript
