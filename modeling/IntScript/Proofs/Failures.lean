import IntScript.Proofs.Simulation

/-!
# Failures of actions

What actions fail with.  `Machine.FailsWith P x` says that every error of the action `x`
satisfies `P`; each action that machines are made of has a lemma that asks for `P` of the few
errors which this action has.  Main statement: a node fails on its own line, whatever it does
(`line_of_act`).
-/

namespace IntScript

/-- A function with a sound definition is not refused for the children of its definition. -/
theorem Memory.enter_eq_error
    {memory memory' : Memory} {name : String} {value : Value} {line : Nat} {error : RuntimeError}
    (sound : SoundFunctions memory.functions)
    (h : memory.enter name value line = .error error memory') :
  error = .undefinedFunction name line
    ∨ error = .recursiveCall name line ∧ name ∈ memory.scope.active
  := by
  rw [enter_eq] at h
  split at h
  · cases h
    exact .inl rfl
  · rename_i lookup
    obtain ⟨-, parameter, body, children, -⟩ := sound _ _ lookup
    split at h
    · rename_i active
      cases h
      exact .inr ⟨rfl, (memory.isActive_iff name).mp active⟩
    · rw [children] at h
      cases h

namespace Machine

variable {P : RuntimeError → Prop} {line : Nat} {name text : String}

/-- The errors of an action satisfy a property. -/
def FailsWith {α : Type} (P : RuntimeError → Prop) (x : Action α) : Prop :=
  ∀ ⦃m m' : Machine⦄ ⦃error : RuntimeError⦄, x m = .error error m' → P error

/-- An action in two parts fails in the first or in the second one. -/
theorem bind_eq_error
    {α β : Type} {x : Action α} {f : α → Action β} {m m'' : Machine} {error : RuntimeError}
    (h : (x >>= f) m = .error error m'') :
  x m = .error error m'' ∨ ∃ a m', x m = .ok a m' ∧ f a m' = .error error m''
  := by
  change EStateM.bind x f m = _ at h
  unfold EStateM.bind at h
  cases first : x m with
  | ok a m' =>
    rw [first] at h
    exact .inr ⟨a, m', rfl, h⟩
  | error =>
    rw [first] at h
    cases h
    exact .inl rfl

theorem failsWith_bind
    {α β : Type} {x : Action α} {f : α → Action β} (hx : FailsWith P x)
    (hf : ∀ a, FailsWith P (f a)) :
  FailsWith P (x >>= f)
  := by
  intro m m'' error h
  rcases bind_eq_error h with h | ⟨a, m', -, h⟩
  · apply hx h
  · apply hf a h

theorem failsWith_pure {α : Type} (a : α) :
  FailsWith P (pure a)
  := by
  intro m m' error h
  cases h

theorem failsWith_throw {α : Type} {error : RuntimeError} (h : P error) :
  FailsWith P (throw error : Action α)
  := by
  intro m m' error' fails
  cases fails
  apply h

theorem failsWith_check {α : Type} {result : Except RuntimeError α}
    (h : ∀ error, result = .error error → P error) :
  FailsWith P (check result)
  := by
  cases result with
  | ok a => apply failsWith_pure
  | error error => apply failsWith_throw (h error rfl)

/-- What only changes the machine does not fail. -/
theorem failsWith_modify (f : Machine → Machine) :
  FailsWith P (modify f)
  := by
  intro m m' error h
  cases h

/-- A change of the memory fails in a machine with an error that it has in the memory. -/
theorem exists_of_onMemory_eq_error
    {α : Type} {change : Memory.Change α} {m m' : Machine} {error : RuntimeError}
    (h : onMemory change m = .error error m') :
  ∃ memory, change m.memory = .error error memory
  := by
  unfold onMemory at h
  split at h <;> cases h
  exact ⟨_, ‹_›⟩

theorem failsWith_onMemory {α : Type} {change : Memory.Change α}
    (h : ∀ memory memory' error, change memory = .error error memory' → P error) :
  FailsWith P (onMemory change)
  := by
  intro m m' error fails
  obtain ⟨memory, failed⟩ := exists_of_onMemory_eq_error fails
  apply h _ _ _ failed

theorem failsWith_popValue (missing : P (.malformedTree line)) :
  FailsWith P (popValue line)
  := by
  intro m m' error h
  unfold popValue at h
  split at h <;> cases h
  apply missing

theorem failsWith_pushResolved (undefined : P (.undefinedVariable name line)) :
  FailsWith P (pushResolved name line)
  := by
  refine failsWith_bind (failsWith_onMemory ?_) fun _ => failsWith_modify _
  intro memory memory' error h
  rw [Memory.resolve_eq] at h
  split at h <;> cases h
  apply undefined

theorem failsWith_define {definition : Node}
    (duplicate : P (.duplicateFunction definition.text definition.line)) :
  FailsWith P (define definition)
  := by
  apply failsWith_onMemory
  intro memory memory' error h
  rw [Memory.define_eq] at h
  split at h <;> cases h
  apply duplicate

theorem failsWith_write {bytes : List UInt8} (stream : ∀ cause, P (.stream cause line)) :
  FailsWith P (write bytes line)
  := by
  intro m m' error h
  unfold write at h
  split at h
  split at h <;> cases h
  apply stream

theorem failsWith_flush (stream : ∀ cause, P (.stream cause line)) :
  FailsWith P (flush line)
  := by
  intro m m' error h
  unfold flush at h
  split at h <;> cases h
  apply stream

theorem failsWith_nextWord (stream : ∀ cause, P (.stream cause line)) :
  FailsWith P (nextWord line)
  := by
  intro m m' error h
  unfold nextWord at h
  split at h <;> cases h
  apply stream

theorem failsWith_readValue (stream : ∀ cause, P (.stream cause line))
    (ended : P (.endOfInput name line)) (invalid : ∀ word, P (.invalidNumber word line)) :
  FailsWith P (readValue name line)
  := by
  apply failsWith_bind (failsWith_flush stream)
  intro _
  apply failsWith_bind (failsWith_nextWord stream)
  intro word?
  cases word? with
  | none => apply failsWith_throw ended
  | some word =>
    apply failsWith_check
    intro error h
    unfold Number.ofWord at h
    split at h <;> cases h
    apply invalid

theorem failsWith_ofLiteral (invalid : P (.invalidNumber text line)) :
  FailsWith P (check (Number.ofLiteral text line))
  := by
  apply failsWith_check
  intro error h
  unfold Number.ofLiteral at h
  split at h <;> cases h
  apply invalid

theorem failsWith_applyOn {op : Operator} {left right : Value}
    (arithmetic : ∀ cause, P (ArithmeticError.on line cause)) :
  FailsWith P (check (op.applyOn line left right))
  := by
  apply failsWith_check
  intro error h
  unfold Operator.applyOn at h
  cases applied : op.apply left right with
  | ok =>
    rw [applied] at h
    cases h
  | error cause =>
    rw [applied] at h
    cases h
    apply arithmetic

/-! ### Lines of failures -/

variable {m m' : Machine} {node : Node} {error : RuntimeError}

/-- If all functions are sound, a call fails on its own line. -/
theorem line_of_act_call (sound : SoundFunctions m.memory.functions) (kind : node.kind = .call)
    (fails : act node m = .error error m') :
  error.line = node.line
  := by
  simp only [act, kind] at fails
  rcases bind_eq_error fails with fails | ⟨argument, m₁, popped, fails⟩
  · have missing : FailsWith (fun error => error.line = node.line) (popValue node.line) :=
      failsWith_popValue rfl
    apply missing fails
  · rw [← (quiet_popValue _ popped).functions] at sound
    rcases bind_eq_error fails with fails | ⟨body, m₂, -, fails⟩
    · obtain ⟨memory, refused⟩ := exists_of_onMemory_eq_error fails
      rcases Memory.enter_eq_error sound refused with rfl | ⟨rfl, -⟩ <;> rfl
    · cases fails

/-- A node that is no call fails on its own line. -/
theorem failsWith_act (call : node.kind ≠ .call) :
  FailsWith (fun error => error.line = node.line) (act node)
  := by
  have popped : FailsWith (fun error => error.line = node.line) (popValue node.line) :=
    failsWith_popValue rfl
  have read (name : String) :
      FailsWith (fun error => error.line = node.line) (readValue name node.line) :=
    failsWith_readValue (fun _ => rfl) rfl fun _ => rfl
  unfold act
  split
  case h_1 => apply failsWith_pure
  case h_2 => exact failsWith_pushResolved rfl
  case h_3 => exact failsWith_bind (failsWith_ofLiteral rfl) fun _ => failsWith_modify _
  case h_4 =>
    apply failsWith_bind popped
    intro right
    apply failsWith_bind popped
    intro left
    refine failsWith_bind (failsWith_applyOn ?_) fun _ => failsWith_modify _
    intro cause
    cases cause <;> rfl
  case h_5 => contradiction
  case h_6 => exact failsWith_define rfl
  case h_7 =>
    apply failsWith_bind popped
    intro value
    split
    · apply failsWith_modify
    · exact failsWith_throw rfl
  case h_8 => exact failsWith_bind popped fun _ => failsWith_write fun _ => rfl
  case h_9 =>
    split
    · exact failsWith_bind (read _) fun _ => failsWith_modify _
    · exact failsWith_throw rfl

/-- If all functions are sound, a node fails on its own line. -/
theorem line_of_act (sound : SoundFunctions m.memory.functions)
    (fails : act node m = .error error m') :
  error.line = node.line
  := by
  by_cases call : node.kind = .call
  · apply line_of_act_call sound call fails
  · apply failsWith_act call fails

end Machine

end IntScript
