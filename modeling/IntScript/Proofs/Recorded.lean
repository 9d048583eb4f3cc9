import IntScript.Proofs.CallGraph
import IntScript.Proofs.ValueStack

/-!
# Recorded definitions

How far the run of a compiled program has come, and which definitions it has recorded.  At
any time some statements are finished, and at most one more is at work.  Main statement: the
definitions that are recorded are the first ones of their names among the finished
statements (`Reaches.progress`).
-/

namespace IntScript

namespace Program

/-- A further definition is recorded if its name is new. -/
theorem definition?_append_definition
    {done : List Node} {definition : Node} (kind : definition.kind = .definition)
    (new : definition? done definition.text = none) (name : String) :
  definition? (done ++ [definition]) name
    = if definition.text = name then some definition else definition? done name
  := by
  rw [definition?, List.find?_append, ← definition?]
  by_cases same : definition.text = name
  · rw [← same, new]
    simp [Node.defines, kind]
  · simp [Node.defines, kind, same]

/-- A statement that is no definition records nothing. -/
theorem definition?_append_of_ne
    {done : List Node} {statement : Node} (kind : statement.kind ≠ .definition) (name : String) :
  definition? (done ++ [statement]) name = definition? done name
  := by
  rw [definition?, List.find?_append, ← definition?]
  simp [Node.defines, kind]

/-- What some statements record is recorded by all statements that begin with them. -/
theorem definition?_append_of_some
    {done : List Node} {name : String} {definition : Node}
    (recorded : definition? done name = some definition) (pending : List Node) :
  definition? (done ++ pending) name = some definition
  := by
  rw [definition?, List.find?_append, ← definition?, recorded]
  rfl

end Program

/-- No statement is a call. -/
theorem Node.IsStatement.kind_ne_call {node : Node} (isStatement : node.IsStatement) :
  node.kind ≠ .call
  := by
  cases isStatement <;> exact nofun

namespace Machine

open Program

variable {root node : Node} {m m' : Machine} {sink : Sink} {input : Input} {frames : List Frame}
  {memory : Memory} {values : List Value}

/-- In the run of a program a statement is at work above the program alone, and an
expression above some statement. -/
theorem Below.frames_eq (below : Below (bare sink input) root node frames memory values)
    (isProgram : root.IsProgram) (sound : SoundFunctions memory.functions) :
  (node = root ∧ frames = [])
    ∨ (node.IsStatement ∧ ∃ done pending, root.children = done ++ node :: pending
      ∧ frames = [.evaluating root pending])
    ∨ node.IsExpression ∧ 1 < frames.length
  := by
  induction below with
  | base => exact .inl ⟨rfl, rfl⟩
  | @operand node operand done pending _ _ _ _ below operands _ ih =>
    have mem : operand ∈ node.operands := by simp [operands]
    rcases ih sound with ⟨rfl, rfl⟩ | ⟨isStatement, _, _, _, rfl⟩ | ⟨isExpression, long⟩
    · obtain ⟨statements, rfl, all⟩ := isProgram
      exact .inr (.inl ⟨all operand mem, done, pending, operands, rfl⟩)
    · exact .inr (.inr ⟨isStatement.operand mem, Nat.le_refl _⟩)
    · exact .inr (.inr ⟨isExpression.operand mem, Nat.le_succ_of_le long⟩)
  | body below entered ih =>
    have isBody := entered.isExpression sound
    rcases ih sound with ⟨rfl, -⟩ | ⟨isStatement, -⟩ | ⟨-, long⟩
    · have call := entered.kind
      rw [isProgram.kind] at call
      cases call
    · exact absurd entered.kind isStatement.kind_ne_call
    · exact .inr (.inr ⟨isBody, Nat.le_succ_of_le long⟩)

/-- How far the run of a program has come, and what it has recorded so far. -/
inductive Progress (root : Node) (m : Machine) : Prop where
  /-- Some statements are finished, and none is at work. -/
  | between {done pending : List Node} (children : root.children = done ++ pending)
      (frames : m.frames = [.evaluating root pending])
      (recorded : m.memory.definition? = definition? done)
  /-- The statement behind those that are finished is at work. -/
  | inside {done pending : List Node} {statement : Node}
      (children : root.children = done ++ statement :: pending)
      (below : [.evaluating root pending] <:+ m.frames) (atWork : 1 < m.frames.length)
      (recorded : m.memory.definition? = definition? done)
  /-- All statements are finished. -/
  | ended (frames : m.frames = []) (recorded : m.memory.definition? = definition? root.children)

/-- All that is recorded is a first definition of the program. -/
theorem Progress.definition?_eq {name : String} {definition : Node} (progress : Progress root m)
    (recorded : m.memory.definition? name = some definition) :
  Program.definition? root.children name = some definition
  := by
  cases progress with
  | between children _ same | inside children _ _ same =>
    rw [same] at recorded
    rw [children]
    apply definition?_append_of_some recorded
  | ended _ same => rw [← same, recorded]

/-- What is recorded when a statement has acted. -/
theorem definition?_eq_of_act
    {done : List Node} (isStatement : node.IsStatement)
    (recorded : m.memory.definition? = definition? done) (acts : act node m = .ok () m') :
  m'.memory.definition? = definition? (done ++ [node])
  := by
  have call := isStatement.kind_ne_call
  funext name
  by_cases kind : node.kind = .definition
  · have new := not_mem_of_act_definition kind acts
    obtain ⟨-, -, functions⟩ := act_definition kind acts
    have unknown : definition? done node.text = none := by
      rw [← recorded, Memory.definition?, getElem?_eq_none_iff]
      apply new
    rw [definition?_append_definition kind unknown, ← recorded, Memory.definition?, functions,
      Std.ExtTreeMap.getElem?_insert]
    simp [Memory.definition?]
  · rw [definition?_append_of_ne kind, ← recorded, Memory.definition?,
      (quiet_act call kind acts).functions]
    rfl

/-- A node that is no call and has acted leaves the frames below it as they are. -/
theorem frames_eq_of_act (call : node.kind ≠ .call) (acts : act node m = .ok () m') :
  m'.frames = m.frames
  := by
  by_cases kind : node.kind = .definition
  · apply (act_definition kind acts).1
  · apply (quiet_act call kind acts).frames

/-- When a node has acted, the frames that were there before it are still there, and an
expression has recorded nothing. -/
theorem act_of_isExpression (isExpression : node.IsExpression) (acts : act node m = .ok () m') :
  m.frames <:+ m'.frames ∧ m'.memory.definition? = m.memory.definition?
  := by
  unfold Memory.definition?
  by_cases call : node.kind = .call
  · obtain ⟨-, -, body, -, -, -, -, frames, functions, -⟩ := act_call call acts
    rw [frames, functions]
    exact ⟨⟨[_, _], rfl⟩, rfl⟩
  · have kind : node.kind ≠ .definition := by
      intro kind
      have expression := isExpression.kind
      rw [kind] at expression
      cases expression
    have keeps := quiet_act call kind acts
    rw [keeps.frames, keeps.functions]
    exact ⟨List.suffix_rfl, rfl⟩

/-- What stands on top tells whether a statement is at work below it. -/
theorem Progress.of_top {frame : Frame} (progress : Progress root m)
    (top : m.frames = frame :: frames) :
  (frames = [] ∧ ∃ done pending, frame = .evaluating root pending
      ∧ root.children = done ++ pending ∧ m.memory.definition? = definition? done)
    ∨ ∃ done pending statement, root.children = done ++ statement :: pending
      ∧ [.evaluating root pending] <:+ frames ∧ m.memory.definition? = definition? done
  := by
  cases progress with
  | between children topmost recorded =>
    rw [top] at topmost
    cases topmost
    exact .inl ⟨rfl, _, _, rfl, children, recorded⟩
  | inside children below atWork recorded =>
    rw [top] at below atWork
    rcases List.suffix_cons_iff.mp below with only | below
    · cases only
      contradiction
    · exact .inr ⟨_, _, _, children, below, recorded⟩
  | ended topmost =>
    rw [top] at topmost
    cases topmost

/-- While anything is at work above the statement, so is the statement. -/
theorem Progress.of_suffix
    {frame : Frame} (progress : Progress root m) (top : m.frames = frame :: frames)
    (nonempty : frames ≠ []) (suffix : frames <:+ m'.frames) (long : 1 < m'.frames.length)
    (same : m'.memory.definition? = m.memory.definition?) :
  Progress root m'
  := by
  rcases progress.of_top top with ⟨empty, -⟩ | ⟨_, _, _, children, below, recorded⟩
  · contradiction
  · exact .inside children (below.trans suffix) long (same.trans recorded)

/-- A node that is visited is at work on a statement, or it is a statement itself. -/
theorem Progress.visit
    {operand : Node} {pending : List Node} (progress : Progress root m)
    (top : m.frames = .evaluating node (operand :: pending) :: frames) :
  Progress root { m with frames := .start operand :: .evaluating node pending :: frames }
  := by
  have long : 1 < (Frame.start operand :: .evaluating node pending :: frames).length := by simp
  rcases progress.of_top top with ⟨rfl, _, _, isRoot, children, recorded⟩ |
    ⟨_, _, _, children, below, recorded⟩
  · cases isRoot
    exact .inside children (List.suffix_cons _ _) long recorded
  · exact .inside children (below.trans ⟨[_, _], rfl⟩) long recorded

/-- When a statement has acted, it is finished. -/
theorem Progress.of_statement
    {pending done : List Node} (progress : Progress root m) (isStatement : node.IsStatement)
    (top : m.frames = [.evaluating node [], .evaluating root pending])
    (children : root.children = done ++ node :: pending)
    (acts : act node { m with frames := [.evaluating root pending] } = .ok () m') :
  Progress root m'
  := by
  rcases progress.of_top top with ⟨empty, -⟩ | ⟨done', pending', _, children', below, recorded⟩
  · cases empty
  · -- The same statements are pending, so the same ones are finished.
    obtain rfl : pending' = pending := by simpa [List.suffix_cons_iff] using below
    obtain ⟨rfl, same⟩ := List.append_inj' (children'.symm.trans children) rfl
    cases same
    let m₁ : Machine := { m with frames := [.evaluating root pending'] }
    have recorded₁ : m₁.memory.definition? = definition? done' := recorded
    refine .between ?_ (frames_eq_of_act isStatement.kind_ne_call acts)
      (definition?_eq_of_act isStatement recorded₁ acts)
    rw [children, List.append_assoc]
    rfl

/-- When the program itself has acted, all its statements are finished. -/
theorem Progress.of_root
    (progress : Progress root m) (kind : root.kind = .root) (top : m.frames = [.evaluating root []])
    (acts : act root { m with frames := [] } = .ok () m') :
  Progress root m'
  := by
  simp only [act, kind] at acts
  cases acts
  rcases progress.of_top top with ⟨-, done, pending, isRoot, children, recorded⟩ |
    ⟨_, _, _, _, below, -⟩
  · cases isRoot
    rw [List.append_nil] at children
    exact .ended rfl (children ▸ recorded)
  · cases List.suffix_nil.mp below

/-- A step of a machine at work on a program keeps count of its progress. -/
theorem Progress.next
    (progress : Progress root m) (isProgram : root.IsProgram)
    (atWork : AtWork (bare sink input) root m) (sound : SoundFunctions m.memory.functions)
    (next : Next m' m) :
  Progress root m'
  := by
  rcases next.cases with ⟨node, operand, pending, frames, top, rfl⟩ | ⟨call, frames, top, rfl⟩ |
    ⟨node, frames, top, acts⟩
  · apply progress.visit top
  · obtain ⟨memory, _, _, _, _, below, entered, same, -⟩ := atWork.of_calling top
    rw [same] at sound
    rcases below.frames_eq isProgram sound with ⟨rfl, -⟩ | ⟨isStatement, -⟩ | ⟨-, long⟩
    · have call := entered.kind
      rw [isProgram.kind] at call
      cases call
    · exact absurd entered.kind isStatement.kind_ne_call
    · exact progress.of_suffix top (List.ne_nil_of_length_pos (Nat.lt_of_succ_lt long))
        List.suffix_rfl long rfl
  · obtain ⟨_, _, _, below, -⟩ := atWork.of_evaluating top
    rcases below.frames_eq isProgram sound with ⟨rfl, rfl⟩ |
      ⟨isStatement, done, pending, children, rfl⟩ | ⟨isExpression, long⟩
    · apply progress.of_root isProgram.kind top acts
    · apply progress.of_statement isStatement top children acts
    · obtain ⟨suffix, same⟩ := act_of_isExpression isExpression acts
      apply progress.of_suffix top (List.ne_nil_of_length_pos (Nat.lt_of_succ_lt long)) suffix
        (Nat.lt_of_lt_of_le long suffix.length_le) same

/-- In the run of a program the first definitions of the statements that are finished are
recorded, and nothing else. -/
theorem Reaches.progress {root : Node} {sink : Sink} {input : Input}
    (reaches : Reaches (start root sink input) m) (isProgram : root.IsProgram) :
  Progress root m
  := by
  have preserved : ∀ {m m'}, Reaches (start root sink input) m ∧ Progress root m → Next m' m →
      Reaches (start root sink input) m' ∧ Progress root m' := by
    rintro m m' ⟨reaches, progress⟩ next
    refine ⟨reaches.trans (.single next), ?_⟩
    obtain ⟨sound, atWork | finished⟩ := reaches.laid isProgram
    · apply progress.next isProgram atWork sound next
    · rw [Next, finished.step?_eq] at next
      cases next
  have isRoot : root.operands = root.children := by rw [Node.operands, isProgram.kind]
  have started : Progress root (start root sink input) := by
    refine .between (List.nil_append _).symm ?_ ?_
    · rw [start, Frame.start, isRoot]
    · funext name
      simp [start, Memory.empty, Memory.definition?, definition?]
  exact (reaches.preserves preserved ⟨.refl _, started⟩).2

end Machine

end IntScript
