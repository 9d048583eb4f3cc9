import IntScript.Program.Execution

/-!
# Counted steps

The steps that lead from one machine to another are counted by `Machine.Steps`, and
`Machine.Reaches` forgets the count.  A machine `Ends` with a result if it has no frame left
or if its next step fails.  Main statements: a machine that halts takes some number of steps
and ends, a machine that is grounded in a tree takes no more steps than its work, and a run
only depends on how the machines that it reaches end.
-/

namespace IntScript

namespace Machine

/-- A machine takes the given number of steps to another one. -/
inductive Steps : Nat → Machine → Machine → Prop where
  | zero (m : Machine) : Steps 0 m m
  | succ {n : Nat} {m m' m'' : Machine} (next : Next m' m) (steps : Steps n m' m'') :
      Steps (n + 1) m m''

/-- A machine takes some number of steps to another one. -/
def Reaches (m m' : Machine) : Prop :=
  ∃ n, Steps n m m'

/-- How a machine that takes no further step ends. -/
inductive Ends : Machine → EStateM.Result RuntimeError Machine Unit → Prop where
  | done {m : Machine} (done : m.step? = none) : Ends m (.ok () m)
  | failed {m m' : Machine} {error : RuntimeError} (failure : m.step? = some (.error error m')) :
      Ends m (.error error m')

/-- A machine takes no step only if it has no frame left. -/
theorem frames_eq_nil {m : Machine} (done : m.step? = none) :
  m.frames = []
  := by
  unfold step? at done
  split at done
  · assumption
  · cases done

/-! ### Sequences of steps -/

theorem Steps.trans {n n' : Nat} {m m' m'' : Machine} (steps : Steps n m m')
    (steps' : Steps n' m' m'') :
  Steps (n + n') m m''
  := by
  induction steps with
  | zero =>
    rw [Nat.zero_add]
    apply steps'
  | succ next _ ih =>
    rw [Nat.add_right_comm]
    apply Steps.succ next (ih steps')

theorem Reaches.refl (m : Machine) :
  Reaches m m
  :=
  ⟨0, .zero m⟩

theorem Reaches.head {m m' m'' : Machine} (next : Next m' m) (reaches : Reaches m' m'') :
  Reaches m m''
  := by
  obtain ⟨n, steps⟩ := reaches
  exact ⟨n + 1, .succ next steps⟩

theorem Reaches.single {m m' : Machine} (next : Next m' m) :
  Reaches m m'
  :=
  .head next (.refl m')

theorem Reaches.trans {m m' m'' : Machine} (reaches : Reaches m m') (reaches' : Reaches m' m'') :
  Reaches m m''
  := by
  obtain ⟨n, steps⟩ := reaches
  obtain ⟨n', steps'⟩ := reaches'
  exact ⟨n + n', steps.trans steps'⟩

/-- What every step preserves holds of all machines that are reached. -/
theorem Reaches.preserves {P : Machine → Prop} (preserved : ∀ {m m'}, P m → Next m' m → P m')
    {m m' : Machine} (reaches : Reaches m m') (holds : P m) :
  P m'
  := by
  obtain ⟨n, steps⟩ := reaches
  induction steps with
  | zero => apply holds
  | succ next _ ih => apply ih (preserved holds next)

/-- A machine that is grounded in a tree takes no more steps than the work that it has. -/
theorem Grounded.steps_le {root : Node} {n : Nat} {m m' : Machine} (grounded : Grounded root m)
    (steps : Steps n m m') :
  n + work root m' ≤ work root m
  := by
  induction steps with
  | zero m => simp
  | succ next _ ih =>
    have rest := ih (grounded.next next)
    have less := grounded.work_lt next
    omega

/-! ### How runs end -/

/-- A machine that halts takes some number of steps and ends. -/
theorem Halts.exists_ends {m : Machine} (halts : m.Halts) :
  ∃ n last result, Steps n m last ∧ Ends last result
  := by
  induction halts with
  | intro m _ ih =>
    match step : m.step? with
    | none => exact ⟨0, m, .ok () m, .zero m, .done step⟩
    | some (.error error m') => exact ⟨0, m, .error error m', .zero m, .failed step⟩
    | some (.ok () m') =>
      obtain ⟨n, last, result, steps, ends⟩ := ih m' step
      exact ⟨n + 1, last, result, .succ step steps, ends⟩

/-- A run yields the result with which some machine that it reaches ends. -/
theorem run_of_ends {m last : Machine} {result : EStateM.Result RuntimeError Machine Unit}
    (halts : m.Halts) (reaches : Reaches m last) (ends : Ends last result) :
  m.run halts = result
  := by
  obtain ⟨n, steps⟩ := reaches
  induction steps with
  | zero =>
    cases ends with
    | done done => apply run_of_done halts done
    | failed failure => apply run_of_error halts failure
  | succ next _ ih =>
    rw [run_of_next halts next]
    apply ih _ ends

/-- The machine after the given number of steps, if another one takes them all. -/
def afterSteps : Nat → Machine → Option Machine
  | 0, m => some m
  | n + 1, m =>
    match m.step? with
    | some (.ok () m') => afterSteps n m'
    | _ => none

/-- The machine after some steps is reached. -/
theorem reaches_of_afterSteps {n : Nat} {m m' : Machine} (after : afterSteps n m = some m') :
  Reaches m m'
  := by
  induction n generalizing m with
  | zero =>
    cases after
    apply Reaches.refl
  | succ n ih =>
    unfold afterSteps at after
    split at after
    · rename_i next
      exact .head next (ih after)
    · cases after

/-- The result of a machine that ends within the given number of steps. -/
def resultWithin : Nat → Machine → Option (EStateM.Result RuntimeError Machine Unit)
  | 0, _ => none
  | n + 1, m =>
    match m.step? with
    | none => some (.ok () m)
    | some (.error error m') => some (.error error m')
    | some (.ok () m') => resultWithin n m'

/-- A machine that ends within a number of steps reaches its end. -/
theorem exists_ends_of_resultWithin
    {n : Nat} {m : Machine} {result : EStateM.Result RuntimeError Machine Unit}
    (within : resultWithin n m = some result) :
  ∃ last, Reaches m last ∧ Ends last result
  := by
  induction n generalizing m with
  | zero => cases within
  | succ n ih =>
    unfold resultWithin at within
    split at within
    · rename_i done
      cases within
      exact ⟨m, .refl m, .done done⟩
    · rename_i failure
      cases within
      exact ⟨m, .refl m, .failed failure⟩
    · rename_i m' next
      obtain ⟨last, reaches, ends⟩ := ih within
      exact ⟨last, .head next reaches, ends⟩

end Machine

namespace Program

/-- What becomes of the result of a run: if it is no error, what was printed is flushed. -/
def finish (line : Nat) : EStateM.Result RuntimeError Machine Unit → Outcome RuntimeError Memory
  | .ok () m => .ofResult (Machine.flush line m)
  | .error error m => .ofResult (.error error m)

/-- The outcome of a well-formed tree is that of any end which its machine reaches. -/
theorem execute_of_ends
    {root : Node} {sink : Sink} {input : Input} {last : Machine}
    {result : EStateM.Result RuntimeError Machine Unit} (wellFormed : root.isWellFormed)
    (reaches : Machine.Reaches (.start root sink input) last) (ends : Machine.Ends last result) :
  execute root sink input = finish root.line result
  := by
  rw [execute, if_pos wellFormed, runMachine, Machine.run_of_ends _ reaches ends]
  cases result <;> rfl

/-- The outcome of a well-formed tree whose machine ends within some number of steps. -/
theorem execute_of_resultWithin
    {root : Node} (n : Nat) (sink : Sink) (input : Input)
    {result : EStateM.Result RuntimeError Machine Unit} (wellFormed : root.isWellFormed)
    (within : Machine.resultWithin n (.start root sink input) = some result) :
  execute root sink input = finish root.line result
  := by
  obtain ⟨last, reaches, ends⟩ := Machine.exists_ends_of_resultWithin within
  apply execute_of_ends wellFormed reaches ends

/-- The outcome of a well-formed tree is that of the end which its machine reaches. -/
theorem exists_ends_of_isWellFormed {root : Node} (wellFormed : root.isWellFormed) (sink : Sink)
    (input : Input) :
  ∃ last result, Machine.Reaches (.start root sink input) last ∧ Machine.Ends last result
    ∧ execute root sink input = finish root.line result
  := by
  obtain ⟨n, last, result, steps, ends⟩ := (Machine.halts_start root sink input).exists_ends
  exact ⟨last, result, ⟨n, steps⟩, ends, execute_of_ends wellFormed ⟨n, steps⟩ ends⟩

/-- What becomes of a machine that is done is up to its sink. -/
theorem finish_done (line : Nat) (m : Machine) :
  finish line (.ok () m) =
    match m.sink.flush with
    | .ok () sink => ⟨.ok m.memory, sink, m.input⟩
    | .error cause sink => ⟨.error (.stream cause line), sink, m.input⟩
  := by
  simp only [finish, Machine.flush]
  cases m.sink.flush <;> rfl

/-- Only a well-formed tree is executed without an error. -/
theorem isWellFormed_of_execute {root : Node} {sink : Sink} {input : Input} {memory : Memory}
    (succeeded : (execute root sink input).result = .ok memory) :
  root.isWellFormed
  := by
  unfold execute at succeeded
  split at succeeded
  · assumption
  · cases succeeded

/-- What is remembered in the end is what a machine remembers that is done. -/
theorem exists_done_of_execute {root : Node} {sink : Sink} {input : Input} {memory : Memory}
    (succeeded : (execute root sink input).result = .ok memory) :
  ∃ last, Machine.Reaches (.start root sink input) last ∧ last.step? = none
    ∧ last.memory = memory
  := by
  obtain ⟨last, result, reaches, ends, same⟩ :=
    exists_ends_of_isWellFormed (isWellFormed_of_execute succeeded) sink input
  rw [same] at succeeded
  cases ends with
  | failed => cases succeeded
  | done done =>
    refine ⟨last, reaches, done, ?_⟩
    rw [finish_done] at succeeded
    split at succeeded <;> cases succeeded
    rfl

/-- An error of a well-formed tree is met by a step, or by the flush behind the last one. -/
theorem exists_failing_of_execute
    {root : Node} {sink : Sink} {input : Input} {error : RuntimeError}
    (wellFormed : root.isWellFormed) (failed : (execute root sink input).result = .error error) :
  (∃ last m, Machine.Reaches (.start root sink input) last
      ∧ last.step? = some (.error error m))
    ∨ ∃ last cause flushed, Machine.Reaches (.start root sink input) last ∧ last.step? = none
      ∧ last.sink.flush = .error cause flushed ∧ error = .stream cause root.line
  := by
  obtain ⟨last, result, reaches, ends, same⟩ := exists_ends_of_isWellFormed wellFormed sink input
  rw [same] at failed
  cases ends with
  | failed failure =>
    cases failed
    exact .inl ⟨last, _, reaches, failure⟩
  | done done =>
    right
    rw [finish_done] at failed
    split at failed <;> cases failed
    rename_i refused
    exact ⟨last, _, _, reaches, done, refused, rfl⟩

/-- An error of a well-formed tree is met by a step, or it is an error of its sink. -/
theorem exists_failed_of_execute
    {root : Node} {sink : Sink} {input : Input} {error : RuntimeError}
    (wellFormed : root.isWellFormed) (failed : (execute root sink input).result = .error error) :
  (∃ last m, Machine.Reaches (.start root sink input) last
      ∧ last.step? = some (.error error m))
    ∨ ∃ cause, error = .stream cause root.line
  := by
  rcases exists_failing_of_execute wellFormed failed with failing | ⟨_, cause, _, -, -, -, same⟩
  · exact .inl failing
  · exact .inr ⟨cause, same⟩

end Program

end IntScript
