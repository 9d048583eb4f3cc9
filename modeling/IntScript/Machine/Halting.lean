import IntScript.Machine.Run

/-!
# Halting

Every machine that starts to evaluate a tree halts.  A call evaluates a body, which may be
larger than the call and need not lie below it in the tree, but while it does so one more
function is active, and all functions that can ever be called are defined by nodes of the
tree.  `Machine.work` bounds the steps a machine can still take: each pending operand
counts by its size, at a rate that depends on how many functions are not active yet.
-/

namespace IntScript

namespace Node

/-- A node lies within a tree if it is the root or a descendant of it. -/
inductive Within (root : Node) : Node → Prop where
  | root : Within root root
  | child {node child : Node} (within : Within root node) (mem : child ∈ node.children) :
      Within root child

mutual
/-- The texts of all nodes of a tree. -/
def texts : Node → List String
  | ⟨_, text, _, children⟩ => text :: textsOfAll children

/-- The texts of all nodes of the trees in a list. -/
def textsOfAll : List Node → List String
  | [] => []
  | node :: nodes => node.texts ++ textsOfAll nodes
end

/-- The texts of a tree are that of its root and those of the trees below it. -/
theorem texts_eq (node : Node) :
  node.texts = node.text :: textsOfAll node.children
  := by
  cases node
  rw [texts]

theorem texts_subset_of_mem {node : Node} {nodes : List Node} (mem : node ∈ nodes) :
  node.texts ⊆ textsOfAll nodes
  := by
  induction nodes with
  | nil => cases mem
  | cons head tail ih =>
    simp only [textsOfAll]
    rcases List.mem_cons.mp mem with rfl | mem
    · apply List.subset_append_left
    · apply List.subset_append_of_subset_right
      apply ih mem

/-- A node within a tree has its texts among those of the tree. -/
theorem Within.texts_subset {root node : Node} (within : Within root node) :
  node.texts ⊆ root.texts
  := by
  induction within with
  | root => exact fun _ => id
  | @child node _ _ mem ih =>
    apply List.Subset.trans _ ih
    apply List.Subset.trans (texts_subset_of_mem mem)
    rw [texts_eq]
    apply List.subset_cons_self

/-- The text of a node within a tree is a text of the tree. -/
theorem Within.text_mem {root node : Node} (within : Within root node) :
  node.text ∈ root.texts
  := by
  apply within.texts_subset
  rw [texts_eq]
  apply List.mem_cons_self

theorem sizeOf_lt_of_mem {node child : Node} (mem : child ∈ node.children) :
  sizeOf child < sizeOf node
  := by
  have := List.sizeOf_lt_of_mem mem
  cases node
  simp at *
  omega

/-- A node within a tree is no larger than the tree. -/
theorem Within.sizeOf_le {root node : Node} (within : Within root node) :
  sizeOf node ≤ sizeOf root
  := by
  induction within with
  | root => exact Nat.le_refl _
  | child _ mem ih =>
    have := sizeOf_lt_of_mem mem
    omega

theorem mem_children_of_mem_operands {node operand : Node} (mem : operand ∈ node.operands) :
  operand ∈ node.children
  := by
  unfold operands at mem
  split at mem
  all_goals first
    | exact mem
    | exact List.mem_of_mem_drop mem
    | cases mem

theorem sizeOf_operands_lt (node : Node) :
  sizeOf node.operands < sizeOf node
  := by
  obtain ⟨kind, text, line, children⟩ := node
  have drop : sizeOf (children.drop 1) ≤ sizeOf children := by
    cases children <;> simp
  unfold operands
  split
  all_goals
    simp only [List.nil.sizeOf_spec, mk.sizeOf_spec]
    have : 0 < sizeOf children := by
      cases children <;> simp only [List.nil.sizeOf_spec, List.cons.sizeOf_spec] <;> omega
    omega

end Node

namespace Machine

/-! ### Quiet actions -/

/-- Nothing but the values, the variables, the sink and the input differ between two
machines. -/
structure Keeps (m m' : Machine) : Prop where
  frames : m'.frames = m.frames
  functions : m'.memory.functions = m.memory.functions
  bindings : m'.memory.bindings = m.memory.bindings

theorem Keeps.refl (m : Machine) :
  Keeps m m
  :=
  ⟨rfl, rfl, rfl⟩

theorem Keeps.trans {m m' m'' : Machine} (h : Keeps m m') (h' : Keeps m' m'') :
  Keeps m m''
  :=
  ⟨h'.frames.trans h.frames, h'.functions.trans h.functions, h'.bindings.trans h.bindings⟩

/-- An action that succeeds in two parts succeeds in each. -/
theorem bind_eq_ok
    {ε σ α β : Type} {x : EStateM ε σ α} {f : α → EStateM ε σ β} {m m'' : σ} {b : β} :
  (x >>= f) m = .ok b m'' ↔ ∃ a m', x m = .ok a m' ∧ f a m' = .ok b m''
  := by
  change EStateM.bind x f m = _ ↔ _
  unfold EStateM.bind
  cases x m with
  | ok a m' =>
    constructor
    · intro h
      exact ⟨a, m', rfl, h⟩
    · rintro ⟨_, _, h, h'⟩
      cases h
      exact h'
  | error =>
    constructor
    · intro h
      cases h
    · rintro ⟨_, _, h, _⟩
      cases h

/-- A change of the memory succeeds in a machine as it does in the memory. -/
theorem onMemory_eq_ok {α : Type} {change : Memory.Change α} {m m' : Machine} {a : α} :
  onMemory change m = .ok a m'
    ↔ ∃ memory, change m.memory = .ok a memory ∧ m' = { m with memory := memory }
  := by
  unfold onMemory
  cases change m.memory with
  | ok a memory =>
    constructor
    · rintro ⟨⟩
      exact ⟨memory, rfl, rfl⟩
    · rintro ⟨_, ⟨⟩, rfl⟩
      rfl
  | error =>
    constructor
    · rintro ⟨⟩
    · rintro ⟨_, ⟨⟩, _⟩

/-- An action is quiet if it leaves the frames, the functions and the bindings as they
are. -/
def Quiet {α : Type} (x : Action α) : Prop :=
  ∀ ⦃m m' : Machine⦄ ⦃a : α⦄, x m = .ok a m' → Keeps m m'

theorem quiet_bind
    {α β : Type} {x : Action α} {f : α → Action β} (hx : Quiet x) (hf : ∀ a, Quiet (f a)) :
  Quiet (x >>= f)
  := by
  intro m m'' b h
  obtain ⟨a, m', h, h'⟩ := bind_eq_ok.mp h
  apply (hx h).trans (hf a h')

theorem quiet_pure {α : Type} (a : α) :
  Quiet (pure a)
  := by
  intro m m' b h
  injection h with _ h
  rw [← h]
  apply Keeps.refl

theorem quiet_throw {α : Type} (error : RuntimeError) :
  Quiet (throw error : Action α)
  := by
  intro m m' b h
  cases h

theorem quiet_check {α : Type} (result : Except RuntimeError α) :
  Quiet (check result)
  := by
  cases result
  · apply quiet_throw
  · apply quiet_pure

theorem quiet_pushValue (value : Value) :
  Quiet (pushValue value)
  := by
  intro m m' b h
  cases h
  exact ⟨rfl, rfl, rfl⟩

theorem quiet_popValue (line : Nat) :
  Quiet (popValue line)
  := by
  intro m m' b h
  unfold popValue at h
  split at h <;> cases h
  exact ⟨rfl, rfl, rfl⟩

/-- A look-up changes nothing. -/
theorem quiet_resolve (name : String) (line : Nat) :
  Quiet (onMemory (Memory.resolve name line))
  := by
  intro m m' value h
  obtain ⟨memory, resolved, rfl⟩ := onMemory_eq_ok.mp h
  rw [Memory.resolve_eq] at resolved
  split at resolved <;> cases resolved
  exact ⟨rfl, rfl, rfl⟩

theorem quiet_pushResolved (name : String) (line : Nat) :
  Quiet (pushResolved name line)
  := by
  apply quiet_bind (quiet_resolve name line) quiet_pushValue

theorem quiet_assign (name : String) (value : Value) :
  Quiet (assign name value)
  := by
  intro m m' b h
  cases h
  exact ⟨rfl, rfl, rfl⟩

theorem quiet_write (bytes : List UInt8) (line : Nat) :
  Quiet (write bytes line)
  := by
  intro m m' b h
  unfold write at h
  split at h
  split at h <;> cases h
  exact ⟨rfl, rfl, rfl⟩

theorem quiet_flush (line : Nat) :
  Quiet (flush line)
  := by
  intro m m' b h
  unfold flush at h
  split at h <;> cases h
  exact ⟨rfl, rfl, rfl⟩

theorem quiet_nextWord (line : Nat) :
  Quiet (nextWord line)
  := by
  intro m m' b h
  unfold nextWord at h
  split at h <;> cases h
  exact ⟨rfl, rfl, rfl⟩

theorem quiet_readValue (name : String) (line : Nat) :
  Quiet (readValue name line)
  := by
  apply quiet_bind (quiet_flush line)
  intro _
  apply quiet_bind (quiet_nextWord line)
  intro word?
  cases word?
  · apply quiet_throw
  · apply quiet_check

/-- A node that is neither a call nor a definition acts quietly. -/
theorem quiet_act {node : Node} (call : node.kind ≠ .call) (definition : node.kind ≠ .definition) :
  Quiet (act node)
  := by
  unfold act
  split
  case h_1 => apply quiet_pure
  case h_2 => apply quiet_pushResolved
  case h_3 =>
    apply quiet_bind (quiet_check _) quiet_pushValue
  case h_4 =>
    apply quiet_bind (quiet_popValue _)
    intro right
    apply quiet_bind (quiet_popValue _)
    intro left
    apply quiet_bind (quiet_check _) quiet_pushValue
  case h_5 => contradiction
  case h_6 => contradiction
  case h_7 =>
    apply quiet_bind (quiet_popValue _)
    intro value
    split
    · apply quiet_assign
    · apply quiet_throw
  case h_8 =>
    apply quiet_bind (quiet_popValue _)
    intro value
    apply quiet_write
  case h_9 =>
    split
    · apply quiet_bind (quiet_readValue _ _)
      intro value
      apply quiet_assign
    · apply quiet_throw

/-- A definition that acts adds itself to the functions. -/
theorem act_definition
    {node : Node} {m m' : Machine} (kind : node.kind = .definition)
    (h : act node m = .ok () m') :
  m'.frames = m.frames ∧ m'.memory.bindings = m.memory.bindings
    ∧ m'.memory.functions = m.memory.functions.insert node.text node
  := by
  simp only [act, kind] at h
  obtain ⟨memory, defined, rfl⟩ := onMemory_eq_ok.mp h
  rw [Memory.define_eq] at defined
  split at defined <;> cases defined
  exact ⟨rfl, rfl, rfl⟩

/-- A call that acts activates a function that is defined and was not active. -/
theorem act_call
    {node : Node} {m m' : Machine} (kind : node.kind = .call) (h : act node m = .ok () m') :
  ∃ definition parameter body argument,
    m.memory.functions[node.text]? = some definition
      ∧ definition.children = [parameter, body]
      ∧ m.memory.isActive node.text = false
      ∧ m'.frames = .start body :: .calling node :: m.frames
      ∧ m'.memory.functions = m.memory.functions
      ∧ m'.memory.bindings
        = ⟨definition.text, parameter.text, argument⟩ :: m.memory.bindings
  := by
  simp only [act, kind] at h
  obtain ⟨argument, m₁, hpop, h⟩ := bind_eq_ok.mp h
  obtain ⟨frames, functions, bindings⟩ := quiet_popValue _ hpop
  obtain ⟨body, m₂, henter, h⟩ := bind_eq_ok.mp h
  cases h
  obtain ⟨memory, entered, rfl⟩ := onMemory_eq_ok.mp henter
  rw [Memory.enter_eq] at entered
  split at entered
  case h_1 => cases entered
  case h_2 definition lookup =>
    split at entered
    case isTrue => cases entered
    case isFalse inactive =>
      split at entered
      case h_2 => cases entered
      case h_1 parameter _ children =>
        cases entered
        rw [functions] at lookup
        rw [Memory.isActive, bindings] at inactive
        refine ⟨definition, parameter, body, argument, lookup, children, ?_, ?_, functions, ?_⟩
        · simpa [Memory.isActive] using inactive
        · simp [frames]
        · simp [Memory.bind, bindings]

/-- A step evaluates an operand, ends a call or lets a node act. -/
theorem Next.cases {m m' : Machine} (next : Next m' m) :
  (∃ node operand pending frames,
      m.frames = .evaluating node (operand :: pending) :: frames
        ∧ m' = { m with frames := .start operand :: .evaluating node pending :: frames })
    ∨ (∃ call frames,
      m.frames = .calling call :: frames
        ∧ m' = { m with frames := frames, memory := m.memory.leave })
    ∨ ∃ node frames,
      m.frames = .evaluating node [] :: frames
        ∧ act node { m with frames := frames } = .ok () m'
  := by
  unfold Next step? at next
  split at next
  case h_1 => cases next
  case h_2 frame frames top =>
    injection next with next
    match frame with
    | .evaluating node (operand :: pending) =>
      cases next
      exact .inl ⟨node, operand, pending, frames, top, rfl⟩
    | .calling call =>
      cases next
      exact .inr (.inl ⟨call, frames, top, rfl⟩)
    | .evaluating node [] => exact .inr (.inr ⟨node, frames, top, next⟩)

/-! ### Grounded machines -/

/-- A frame is within a tree if the nodes that it has to evaluate are. -/
def FrameWithin (root : Node) : Frame → Prop
  | .evaluating node pending => root.Within node ∧ ∀ operand ∈ pending, root.Within operand
  | .calling _ => True

/-- A machine is grounded in a tree if all that it has to evaluate is within the tree, and
so are the functions that it knows, under the names of their definitions. -/
structure Grounded (root : Node) (m : Machine) : Prop where
  frames : ∀ frame ∈ m.frames, FrameWithin root frame
  functions : ∀ name definition, m.memory.functions[name]? = some definition →
    definition.text = name ∧ root.Within definition

theorem frameWithin_start {root node : Node} (within : root.Within node) :
  FrameWithin root (.start node)
  :=
  ⟨within, fun _ mem => within.child (Node.mem_children_of_mem_operands mem)⟩

/-- A machine that starts is grounded in its tree. -/
theorem grounded_start (root : Node) (sink : Sink) (input : Input) :
  Grounded root (start root sink input)
  where
  frames := by
    intro frame mem
    rw [List.mem_singleton.mp mem]
    apply frameWithin_start .root
  functions := by
    intro name definition h
    simp [start, Memory.empty] at h

/-- A grounded machine stays grounded. -/
theorem Grounded.next {root : Node} {m m' : Machine} (grounded : Grounded root m)
    (next : Next m' m) :
  Grounded root m'
  := by
  obtain ⟨framesWithin, functions⟩ := grounded
  rcases next.cases with ⟨node, operand, pending, frames, top, rfl⟩ | ⟨call, frames, top, rfl⟩ |
    ⟨node, frames, top, acts⟩
  all_goals rw [top, List.forall_mem_cons] at framesWithin
  · obtain ⟨⟨nodeWithin, pendingWithin⟩, framesWithin⟩ := framesWithin
    rw [List.forall_mem_cons] at pendingWithin
    refine ⟨?_, functions⟩
    simp only [List.forall_mem_cons]
    exact ⟨frameWithin_start pendingWithin.1, ⟨nodeWithin, pendingWithin.2⟩, framesWithin⟩
  · exact ⟨framesWithin.2, functions⟩
  · obtain ⟨⟨nodeWithin, -⟩, framesWithin⟩ := framesWithin
    by_cases call : node.kind = .call
    · obtain ⟨definition, parameter, body, argument, lookup, children, -, frames', functions', -⟩ :=
        act_call call acts
      refine ⟨?_, by rw [functions']; exact functions⟩
      rw [frames']
      simp only [List.forall_mem_cons]
      refine ⟨frameWithin_start ?_, trivial, framesWithin⟩
      apply (functions _ _ lookup).2.child
      simp [children]
    · by_cases definition : node.kind = .definition
      · obtain ⟨frames', -, functions'⟩ := act_definition definition acts
        refine ⟨by rw [frames']; exact framesWithin, ?_⟩
        intro name definition h
        rw [functions', Std.ExtTreeMap.getElem?_insert] at h
        split at h
        case isTrue same =>
          cases h
          exact ⟨Std.LawfulEqCmp.eq_of_compare same, nodeWithin⟩
        case isFalse => exact functions _ _ h
      · have keeps := quiet_act call definition acts
        exact ⟨by rw [keeps.frames]; exact framesWithin, by rw [keeps.functions]; exact functions⟩

/-! ### The work that is left -/

/-- The names that no binding has active. -/
def idle (names : List String) (bindings : List Binding) : List String :=
  names.filter fun name => !bindings.any fun binding => binding.function == name

/-- One name fewer is idle when a call of it becomes active. -/
theorem length_idle_lt {names : List String} (binding : Binding) (bindings : List Binding)
    (mem : binding.function ∈ names)
    (inactive : (bindings.any fun other => other.function == binding.function) = false) :
  (idle names (binding :: bindings)).length < (idle names bindings).length
  := by
  have split : idle names (binding :: bindings)
      = (idle names bindings).filter fun name => binding.function != name := by
    simp only [idle, List.filter_filter, List.any_cons, Bool.not_or]
    rfl
  rw [split, List.length_filter_lt_length_iff_exists]
  refine ⟨binding.function, ?_, by simp⟩
  simp only [idle, List.mem_filter]
  exact ⟨mem, by rw [inactive]; rfl⟩

/-- How many steps each unit of a pending operand can lead to in a tree of the given size
when the given number of functions is idle. -/
def rate (size idle : Nat) : Nat :=
  Nat.pow (size + 2) (idle + 1)

theorem rate_pos (size idle : Nat) :
  0 < rate size idle
  :=
  Nat.pow_pos (Nat.succ_pos _)

/-- With more idle functions a call can be paid for. -/
theorem rate_lt (size : Nat) {idle idle' : Nat} (h : idle < idle') :
  rate size idle * size + 1 < rate size idle'
  := by
  have step : rate size idle * (size + 2) = rate size (idle + 1) := (Nat.pow_succ ..).symm
  have mono : rate size (idle + 1) ≤ rate size idle' :=
    Nat.pow_le_pow_right (Nat.succ_pos _) (Nat.succ_le_succ h)
  have := rate_pos size idle
  rw [Nat.mul_add] at step
  omega

/-- A bound on the steps that frames lead to while bindings are active. -/
noncomputable def workOf (root : Node) : List Frame → List Binding → Nat
  | [], _ => 0
  | .evaluating _ pending :: frames, bindings =>
    rate (sizeOf root) (idle root.texts bindings).length * sizeOf pending
      + workOf root frames bindings
  | .calling _ :: frames, bindings => 1 + workOf root frames bindings.tail

/-- A bound on the steps that a machine grounded in a tree can take. -/
noncomputable def work (root : Node) (m : Machine) : Nat :=
  workOf root m.frames m.memory.bindings

/-- A step of a grounded machine leaves it less work. -/
theorem Grounded.work_lt {root : Node} {m m' : Machine} (grounded : Grounded root m)
    (next : Next m' m) :
  work root m' < work root m
  := by
  unfold work
  rcases next.cases with ⟨node, operand, pending, frames, top, rfl⟩ | ⟨call, frames, top, rfl⟩ |
    ⟨node, frames, top, acts⟩
  all_goals rw [top]
  · have pos := rate_pos (sizeOf root) (idle root.texts m.memory.bindings).length
    have smaller := Nat.mul_le_mul_left
      (rate (sizeOf root) (idle root.texts m.memory.bindings).length)
      (Nat.le_of_lt operand.sizeOf_operands_lt)
    simp only [Frame.start, workOf, List.cons.sizeOf_spec, Nat.mul_add]
    omega
  · simp only [workOf, Memory.leave]
    omega
  · have pos := rate_pos (sizeOf root) (idle root.texts m.memory.bindings).length
    simp only [workOf, List.nil.sizeOf_spec]
    by_cases call : node.kind = .call
    · obtain ⟨definition, parameter, body, argument, lookup, children, inactive, frames', -,
        bindings'⟩ := act_call call acts
      obtain ⟨same, within⟩ := grounded.functions _ _ lookup
      have bodyWithin : root.Within body := within.child (by simp [children])
      have fewer := length_idle_lt ⟨definition.text, parameter.text, argument⟩
        m.memory.bindings within.text_mem (by rw [same]; exact inactive)
      have paid := rate_lt (sizeOf root) fewer
      have smaller := Nat.mul_le_mul_left (rate (sizeOf root) (idle root.texts
        (⟨definition.text, parameter.text, argument⟩ :: m.memory.bindings)).length)
        (Nat.le_trans (Nat.le_of_lt body.sizeOf_operands_lt) bodyWithin.sizeOf_le)
      rw [frames', bindings']
      simp only [Frame.start, workOf, List.tail_cons]
      omega
    · by_cases definition : node.kind = .definition
      · obtain ⟨frames', bindings', -⟩ := act_definition definition acts
        rw [frames', bindings']
        simp only
        omega
      · have keeps := quiet_act call definition acts
        rw [keeps.frames, keeps.bindings]
        simp only
        omega

/-- A grounded machine halts. -/
theorem Grounded.halts {root : Node} {m : Machine} (grounded : Grounded root m) :
  m.Halts
  := by
  generalize bound : work root m = n
  induction n using Nat.strongRecOn generalizing m with
  | ind n ih =>
    constructor
    intro m' next
    apply ih _ _ (grounded.next next) rfl
    rw [← bound]
    apply grounded.work_lt next

/-- Every machine that starts to evaluate a tree halts. -/
theorem halts_start (root : Node) (sink : Sink) (input : Input) :
  (start root sink input).Halts
  :=
  (grounded_start root sink input).halts

end Machine

end IntScript
