import IntScript.Machine.Halting
import IntScript.Proofs.Shape

/-!
# The arity of nodes

A tree is well formed if all nodes within it have as many children as their kinds ask for,
and `Node.allWellFormed` decides this for the trees in a list.  The trees of compiled
programs are well formed.
-/

namespace IntScript

namespace Node

/-- What a kind asks for is what a node of the right arity has. -/
theorem length_children {node : Node} {arity : Nat} (hasArity : node.hasArity)
    (kind : node.kind.arity? = some arity) :
  node.children.length = arity
  := by
  simpa only [Node.hasArity, kind, beq_iff_eq] using hasArity

/-- A node whose kind asks for one child has one. -/
theorem exists_child {node : Node} (hasArity : node.hasArity) (kind : node.kind.arity? = some 1) :
  ∃ child, node.children = [child]
  := by
  apply List.length_eq_one_iff.mp (length_children hasArity kind)

/-- A node whose kind asks for two children has two. -/
theorem exists_children {node : Node} (hasArity : node.hasArity)
    (kind : node.kind.arity? = some 2) :
  ∃ first second, node.children = [first, second]
  := by
  have length := length_children hasArity kind
  generalize node.children = children at length
  match children with
  | [first, second] => exact ⟨first, second, rfl⟩

/-! ### Nodes within trees -/

/-- A node within a tree is the root or within a tree below it. -/
theorem Within.eq_or_below {root node : Node} (within : root.Within node) :
  node = root ∨ ∃ child ∈ root.children, child.Within node
  := by
  induction within with
  | root => exact .inl rfl
  | @child node child _ mem ih =>
    right
    rcases ih with rfl | ⟨top, topMem, below⟩
    · exact ⟨child, mem, .root⟩
    · exact ⟨top, topMem, below.child mem⟩

/-- What is within a tree below the root is within the whole tree. -/
theorem Within.of_mem {root child node : Node} (mem : child ∈ root.children)
    (below : child.Within node) :
  root.Within node
  := by
  induction below with
  | root => exact .child .root mem
  | child _ nodeMem ih => apply ih.child nodeMem

/-- All nodes within a tree have a property if the root has it and so have all nodes within
the trees below it. -/
theorem forall_within_iff {P : Node → Prop} {root : Node} :
  (∀ node, root.Within node → P node)
    ↔ P root ∧ ∀ child ∈ root.children, ∀ node, child.Within node → P node
  := by
  constructor
  · intro all
    exact ⟨all root .root, fun child mem node below => all node (below.of_mem mem)⟩
  · rintro ⟨top, others⟩ node within
    rcases within.eq_or_below with rfl | ⟨child, mem, below⟩
    · apply top
    · apply others child mem node below

/-- The trees in a list pass the check if all nodes within them have the right arity. -/
theorem allWellFormed_iff {nodes : List Node} :
  allWellFormed nodes ↔ ∀ root ∈ nodes, ∀ node, root.Within node → node.hasArity
  := by
  induction nodes using allWellFormed.induct with
  | case1 => simp [allWellFormed]
  | case2 waiting kind text line children ih =>
    rw [allWellFormed, Bool.and_eq_true, ih, List.forall_mem_append, List.forall_mem_cons,
      forall_within_iff, and_assoc]

/-- A node within a well-formed tree has the right arity. -/
theorem Within.hasArity {root node : Node} (within : root.Within node)
    (wellFormed : root.isWellFormed) :
  node.hasArity
  := by
  apply allWellFormed_iff.mp wellFormed root (List.mem_singleton_self root) node within

/-! ### Compiled programs -/

/-- All nodes within an expression have the right arity. -/
theorem IsExpression.hasArity {expression : Node} (isExpression : expression.IsExpression) :
  ∀ node, expression.Within node → node.hasArity
  := by
  induction isExpression with
  | number | reference => exact forall_within_iff.mpr ⟨rfl, fun _ mem => nomatch mem⟩
  | call name line _ ih =>
    exact forall_within_iff.mpr ⟨rfl, List.forall_mem_singleton.mpr ih⟩
  | operation op line _ _ ihLeft ihRight =>
    exact forall_within_iff.mpr ⟨rfl, List.forall_mem_cons.mpr
      ⟨ihLeft, List.forall_mem_singleton.mpr ihRight⟩⟩

/-- The trees of expressions are well formed. -/
theorem IsExpression.isWellFormed {expression : Node} (isExpression : expression.IsExpression) :
  expression.isWellFormed
  := by
  apply allWellFormed_iff.mpr
  rw [List.forall_mem_singleton]
  exact isExpression.hasArity

/-- All nodes within a statement have the right arity. -/
theorem IsStatement.hasArity {statement : Node} (isStatement : statement.IsStatement) :
  ∀ node, statement.Within node → node.hasArity
  := by
  have target (name : String) (line : Nat) := (IsExpression.reference name line).hasArity
  cases isStatement with
  | assignment name line isValue =>
    exact forall_within_iff.mpr ⟨rfl, List.forall_mem_cons.mpr
      ⟨target name line, List.forall_mem_singleton.mpr isValue.hasArity⟩⟩
  | definition name parameter line parameterLine isBody =>
    exact forall_within_iff.mpr ⟨rfl, List.forall_mem_cons.mpr
      ⟨target parameter parameterLine, List.forall_mem_singleton.mpr isBody.hasArity⟩⟩
  | read name line nameLine =>
    exact forall_within_iff.mpr ⟨rfl, List.forall_mem_singleton.mpr (target name nameLine)⟩
  | print line isValue =>
    exact forall_within_iff.mpr ⟨rfl, List.forall_mem_singleton.mpr isValue.hasArity⟩

/-- The trees of programs are well formed. -/
theorem IsProgram.isWellFormed {root : Node} (isProgram : root.IsProgram) :
  root.isWellFormed
  := by
  obtain ⟨statements, rfl, all⟩ := isProgram
  apply allWellFormed_iff.mpr
  intro root mem
  rw [List.mem_singleton.mp mem]
  exact forall_within_iff.mpr ⟨rfl, fun statement mem => (all statement mem).hasArity⟩

end Node

end IntScript
