import IntScript.Proofs.Regularity

/-!
# The stack of values

Main statement: all machines in the run of an accepted program are laid out as
`Machine.AtWork` and `Machine.Finished` say, an expression leaves exactly one value when it
is done and a statement none, and no step misses a value or a child.
-/

namespace IntScript

namespace Machine

variable {m₀ m m' : Machine} {node₀ node : Node} {frames : List Frame} {memory : Memory}
  {values : List Value}

/-! ### The layout in a run -/

/-- No operand of a node at work is a root. -/
theorem Below.eq_base (below : Below m₀ node₀ node frames memory values) (isPart₀ : node₀.IsPart)
    (sound : SoundFunctions memory.functions) (kind : node.kind = .root) :
  values = m₀.values
  := by
  cases below with
  | base => rfl
  | @operand parent _ _ _ _ _ _ _ below operands =>
    have mem : node ∈ parent.operands := by simp [operands]
    rcases (below.isPart isPart₀ sound).operand mem with ⟨-, isStatement⟩ | isExpression
    · exact absurd kind isStatement.kind.2
    · exact absurd kind isExpression.kind_ne_root
  | body _ entered => exact absurd kind (entered.isExpression sound).kind_ne_root

/-- At work on a root, a machine holds no values of its own. -/
theorem AtWork.values_eq_of_root {frame : Frame} (atWork : AtWork m₀ node₀ m)
    (isPart₀ : node₀.IsPart) (sound : SoundFunctions m.memory.functions)
    (top : m.frames = frame :: frames) (kind : frame.node.kind = .root) :
  m.values = m₀.values
  := by
  cases frame with
  | evaluating node pending =>
    obtain ⟨done, results, values, below, operands, leaveAll, held⟩ := atWork.of_evaluating top
    obtain rfl := below.eq_base isPart₀ sound kind
    have isProgram := (below.isPart isPart₀ sound).isProgram kind
    obtain rfl := (isProgram.leaveAll_iff operands).mp leaveAll
    apply held
  | calling call =>
    obtain ⟨memory, binding, body, result, values, below, entered, -⟩ := atWork.of_calling top
    have isCall : call.kind = .root := kind
    rw [entered.kind] at isCall
    cases isCall

/-- The frames of a machine at work lie above those that were there before. -/
theorem Below.length_le (below : Below m₀ node₀ node frames memory values) :
  m₀.frames.length ≤ frames.length
  := by
  induction below with
  | base => apply Nat.le_refl
  | operand _ _ _ ih => apply Nat.le_succ_of_le ih
  | body _ _ ih => apply Nat.le_succ_of_le ih

theorem AtWork.length_lt (atWork : AtWork m₀ node₀ m) :
  m₀.frames.length < m.frames.length
  := by
  cases atWork with
  | evaluating below top | calling below _ _ top =>
    rw [top]
    apply Nat.lt_succ_of_le below.length_le

/-- A machine at work only adds sound functions. -/
theorem AtWork.sound_next (atWork : AtWork m₀ node₀ m) (isPart₀ : node₀.IsPart)
    (sound : SoundFunctions m.memory.functions) (next : Next m' m) :
  SoundFunctions m'.memory.functions
  := by
  rcases next.cases with ⟨_, _, _, _, _, rfl⟩ | ⟨_, _, _, rfl⟩ | ⟨node, frames, top, acts⟩
  · apply sound
  · apply sound
  · by_cases call : node.kind = .call
    · obtain ⟨-, -, -, -, -, -, -, -, functions, -⟩ := act_call call acts
      rw [functions]
      apply sound
    · by_cases definition : node.kind = .definition
      · obtain ⟨-, -, functions⟩ := act_definition definition acts
        obtain ⟨_, _, _, below, -⟩ := atWork.of_evaluating top
        obtain ⟨parameter, body, children, isBody⟩ :=
          (below.isPart isPart₀ sound).children_of_definition definition
        rw [functions]
        apply sound.insert children isBody
      · rw [(quiet_act call definition acts).functions]
        apply sound

/-- What is reached from a machine at work is at work, or was reached from a machine that had
finished. -/
theorem AtWork.reaches (atWork : AtWork m₀ node₀ m) (isPart₀ : node₀.IsPart)
    (sound : ∀ m'', Reaches m m'' → SoundFunctions m''.memory.functions) (reaches : Reaches m m') :
  AtWork m₀ node₀ m' ∨ ∃ m₁, Finished m₀ node₀ m₁ ∧ Reaches m m₁ ∧ Reaches m₁ m'
  := by
  obtain ⟨n, steps⟩ := reaches
  induction steps with
  | zero => exact .inl atWork
  | @succ n m m₁ m' next steps ih =>
    rcases atWork.next isPart₀ (sound m (.refl m)) next with atWork | finished
    · rcases ih atWork (fun m'' reaches => sound m'' (.head next reaches)) with atWork |
        ⟨m₂, finished, reaches, later⟩
      · exact .inl atWork
      · exact .inr ⟨m₂, finished, .head next reaches, later⟩
    · exact .inr ⟨m₁, finished, .single next, n, steps⟩

/-- A machine that holds nothing yet. -/
def bare (sink : Sink) (input : Input) : Machine :=
  ⟨[], [], .empty, sink, input⟩

/-- A machine that has finished takes no step. -/
theorem Finished.step?_eq {sink : Sink} {input : Input}
    (finished : Finished (bare sink input) node₀ m) :
  m.step? = none
  := by
  rw [step?, finished.frames]
  rfl

/-- A machine in the run of a program knows sound functions, and it is at work on the program
or has finished it. -/
theorem Reaches.laid {root : Node} {sink : Sink} {input : Input}
    (reaches : Reaches (start root sink input) m) (isProgram : root.IsProgram) :
  SoundFunctions m.memory.functions
    ∧ (AtWork (bare sink input) root m ∨ Finished (bare sink input) root m)
  := by
  have isPart := Node.IsPart.program isProgram
  have preserved : ∀ {m m'}, SoundFunctions m.memory.functions
        ∧ (AtWork (bare sink input) root m ∨ Finished (bare sink input) root m) →
      Next m' m → SoundFunctions m'.memory.functions
        ∧ (AtWork (bare sink input) root m' ∨ Finished (bare sink input) root m') := by
    rintro m m' ⟨sound, atWork | finished⟩ next
    · exact ⟨atWork.sound_next isPart sound next, atWork.next isPart sound next⟩
    · rw [Next, finished.step?_eq] at next
      cases next
  have none : SoundFunctions (start root sink input).memory.functions := by
    intro name definition lookup
    simp [start, Memory.empty] at lookup
  apply reaches.preserves preserved ⟨none, .inl (atWork_start (bare sink input) root)⟩

/-- In the run of a program no value is held when the program itself is on top. -/
theorem Reaches.values_eq_nil {root : Node} {sink : Sink} {input : Input}
    (reaches : Reaches (start root sink input) m) (isProgram : root.IsProgram)
    (atRoot : ∀ frame ∈ m.frames.head?, frame.node.kind = .root) :
  m.values = []
  := by
  obtain ⟨sound, atWork | finished⟩ := reaches.laid isProgram
  · obtain ⟨frame, frames, top⟩ := List.exists_cons_of_length_pos atWork.length_lt
    have kind := atRoot frame (by rw [top]; rfl)
    apply atWork.values_eq_of_root (.program isProgram) sound top kind
  · obtain ⟨result, leaves, held⟩ := finished.held
    obtain rfl := isProgram.leaves leaves
    apply held

/-- When a node is done that was visited in the run of a program, what it leaves lies on top
of the values that were there before. -/
theorem Reaches.held_of_done {root : Node} {sink : Sink} {input : Input}
    (reaches : Reaches (start root sink input) m) (isProgram : root.IsProgram)
    (top : m.frames = .start node :: frames) (later : Reaches m m') (done : m'.frames = frames) :
  ∃ result, node.Leaves m.memory.scope result ∧ m'.values = result ++ m.values
  := by
  obtain ⟨sound, atWork | finished⟩ := reaches.laid isProgram
  · obtain ⟨_, _, _, below, -⟩ := atWork.of_evaluating top
    have isPart := below.isPart (.program isProgram) sound
    let m₀ : Machine := { m with frames := frames }
    have visited : m = m₀.visit node := by
      obtain ⟨_, _, _, _, _⟩ := m
      cases top
      rfl
    have started : AtWork m₀ node m := by
      rw [visited]
      apply atWork_start
    rcases started.reaches isPart (fun m'' reaches' => ((reaches.trans reaches').laid isProgram).1)
      later with atWork' | ⟨m₁, finished, reaches₁, later₁⟩
    · have longer := atWork'.length_lt
      rw [done] at longer
      exact absurd longer (Nat.lt_irrefl _)
    · have same : m' = m₁ := (reaches.trans reaches₁).eq_of_frames_eq isProgram.isWellFormed
        later₁ (done.trans finished.frames.symm)
      rw [same]
      apply finished.held
  · rw [finished.frames] at top
    cases top

end Machine

/-! ### Programs -/

namespace Program

open Machine

/-- The run of a compiled program keeps to the layout of the stacks: its tree is well formed,
every machine on the way holds the results of the operands that are finished and nothing
else, and no value when the program itself is on top, every node that is done has added its
value or nothing, and no run fails for the shape of the tree. -/
theorem values_laid_out {tokens : List Token} {root : Node} (accepted : ofTokens tokens = .ok root)
    (sink : Sink) (input : Input) :
  root.isWellFormed
    ∧ (∀ m, Reaches (start root sink input) m →
      (AtWork (bare sink input) root m ∨ Finished (bare sink input) root m)
        ∧ ((∀ frame ∈ m.frames.head?, frame.node.kind = .root) → m.values = []))
    ∧ (∀ m node frames m', Reaches (start root sink input) m → m.frames = .start node :: frames →
      Reaches m m' → m'.frames = frames →
        ∃ result, node.Leaves m.memory.scope result ∧ m'.values = result ++ m.values)
    ∧ ∀ line, (execute root sink input).result ≠ .error (.malformedTree line)
  := by
  have isProgram := isProgram_of_ofTokens accepted
  refine ⟨isProgram.isWellFormed, ?_, ?_, ?_⟩
  · intro m reaches
    constructor
    · apply (reaches.laid isProgram).2
    · apply reaches.values_eq_nil isProgram
  · intro m node frames m' reaches top later done
    apply reaches.held_of_done isProgram top later done
  · intro line failed
    rcases exists_failed_of_execute isProgram.isWellFormed failed with
      ⟨last, m, reaches, failure⟩ | ⟨cause, same⟩
    · obtain ⟨sound, atWork | finished⟩ := reaches.laid isProgram
      · rcases atWork.of_error (.program isProgram) sound failure with regular |
          ⟨_, _, _, _, _, recursive, _⟩
        · cases regular
        · cases recursive
      · rw [finished.step?_eq] at failure
        cases failure
    · cases same

/-- The stacks are laid out so in the run of `F[x] = x % y`, `read y` and `print F[7]`.  When `%`
acts the values are `5` for `y` on top of `7` for `x`, and the call that is visited with no value
below it leaves `2`. -/
theorem values_laid_out_remainder :
  ∃ root, ofTokens remainderTokens = .ok root ∧ root.isWellFormed
    ∧ (∀ m, Reaches (start root .unlimited (.ofBytes [53, 10])) m →
      AtWork (bare .unlimited (.ofBytes [53, 10])) root m
        ∨ Finished (bare .unlimited (.ofBytes [53, 10])) root m)
    ∧ (∃ m remainder frames, Reaches (start root .unlimited (.ofBytes [53, 10])) m
      ∧ m.frames = .evaluating remainder [] :: frames ∧ remainder.kind = .operation .modulo
      ∧ m.values = [5, 7])
    ∧ (∃ m call frames m', Reaches (start root .unlimited (.ofBytes [53, 10])) m
      ∧ m.frames = .start call :: frames ∧ call.kind = .call ∧ m.values = []
      ∧ Reaches m m' ∧ m'.frames = frames ∧ m'.values = [2]
      ∧ call.Leaves m.memory.scope [2])
    ∧ ∀ line, (execute root .unlimited (.ofBytes [53, 10])).result ≠ .error (.malformedTree line)
  := by
  have accepted : ofTokens remainderTokens = .ok remainderTree := rfl
  obtain ⟨wellFormed, laid, adds, regular⟩ :=
    values_laid_out accepted .unlimited (.ofBytes [53, 10])
  refine ⟨_, accepted, wellFormed, fun m reaches => (laid m reaches).1, ?_, ?_, regular⟩
  · exact ⟨_, _, _, reaches_of_afterSteps (n := 13) rfl, rfl, rfl, rfl⟩
  · obtain ⟨m, call, frames, m', visits, top, kind, none, leaves, done, held⟩ :
        ∃ m call frames m',
          afterSteps 6 (start remainderTree .unlimited (.ofBytes [53, 10])) = some m
            ∧ m.frames = .start call :: frames ∧ call.kind = .call ∧ m.values = []
            ∧ afterSteps 9 m = some m' ∧ m'.frames = frames ∧ m'.values = [2] :=
      ⟨_, _, _, _, rfl, rfl, rfl, rfl, rfl, rfl, rfl⟩
    have visits := reaches_of_afterSteps visits
    have leaves := reaches_of_afterSteps leaves
    obtain ⟨result, isResult, added⟩ := adds _ _ _ _ visits top leaves done
    rw [none, held, List.append_nil] at added
    rw [← added] at isResult
    exact ⟨m, call, frames, m', visits, top, kind, none, leaves, done, held, isResult⟩

end Program

end IntScript
