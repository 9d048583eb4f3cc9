import IntScript.Proofs.Arity

/-!
# The check of arities

`Node.isWellFormed` keeps a list of the trees that wait to be checked, so that it does not have to
go down into a tree.  `Node.keepsArity` is the same check by recursion on the tree.  A `Node.Turn`
takes any of the waiting trees, and a check `Stops` when no tree waits or when the tree that it
takes has the wrong number of children.  Main statement: both checks give the same answer, which
is whether all nodes have the right arity; and in whatever order the trees are taken, the check
stops with this answer after at most one turn for each node.
-/

namespace IntScript.Node

/-! ### Recursion on the tree -/

mutual
/-- Whether a node and all nodes below it have as many children as they should. -/
def keepsArity : Node → Bool
  | ⟨kind, text, line, children⟩ =>
    (⟨kind, text, line, children⟩ : Node).hasArity && allKeepArity children

/-- Whether all nodes of the trees in a list have as many children as they should. -/
def allKeepArity : List Node → Bool
  | [] => true
  | node :: nodes => node.keepsArity && allKeepArity nodes
end

mutual
/-- How many nodes a tree has. -/
def count : Node → Nat
  | ⟨_, _, _, children⟩ => countOfAll children + 1

/-- How many nodes the trees in a list have. -/
def countOfAll : List Node → Nat
  | [] => 0
  | node :: nodes => node.count + countOfAll nodes
end

theorem count_eq (node : Node) :
  node.count = countOfAll node.children + 1
  := by
  cases node
  rw [count]

theorem countOfAll_append (nodes nodes' : List Node) :
  countOfAll (nodes ++ nodes') = countOfAll nodes + countOfAll nodes'
  := by
  induction nodes with
  | nil => rw [List.nil_append, countOfAll, Nat.zero_add]
  | cons node nodes ih => rw [List.cons_append, countOfAll, ih, countOfAll, Nat.add_assoc]

theorem countOfAll_perm {nodes nodes' : List Node} (perm : nodes.Perm nodes') :
  countOfAll nodes = countOfAll nodes'
  := by
  induction perm with
  | nil => rfl
  | cons node _ ih => rw [countOfAll, countOfAll, ih]
  | swap node node' nodes =>
    simp only [countOfAll]
    apply Nat.add_left_comm
  | trans _ _ ih ih' => rw [ih, ih']

theorem allKeepArity_append (nodes nodes' : List Node) :
  allKeepArity (nodes ++ nodes') = (allKeepArity nodes && allKeepArity nodes')
  := by
  induction nodes with
  | nil => rfl
  | cons node nodes ih =>
    rw [List.cons_append, allKeepArity, ih, allKeepArity, Bool.and_assoc]

/-- The trees in a list pass the check with a list just if they pass the one by recursion. -/
theorem allWellFormed_eq_allKeepArity (nodes : List Node) :
  allWellFormed nodes = allKeepArity nodes
  := by
  -- The children of a node join the list, where the recursion goes down to them first.
  induction nodes using allWellFormed.induct with
  | case1 => rw [allWellFormed, allKeepArity]
  | case2 waiting kind text line children ih =>
    rw [allWellFormed, ih, allKeepArity_append, allKeepArity, keepsArity, Bool.and_assoc]

/-! ### Turns of the check -/

/-- One turn of the check.  Any of the trees that wait is taken, and since its root has as many
children as it should, these wait now, at any places in the list. -/
inductive Turn : List Node → List Node → Prop where
  | take {node : Node} {waiting others waiting' : List Node}
      (taken : waiting.Perm (node :: others)) (hasArity : node.hasArity)
      (joined : waiting'.Perm (node.children ++ others)) : Turn waiting waiting'

/-- The given number of turns. -/
inductive Turns : Nat → List Node → List Node → Prop where
  | zero (waiting : List Node) : Turns 0 waiting waiting
  | succ {n : Nat} {waiting waiting' waiting'' : List Node} (turn : Turn waiting waiting')
      (turns : Turns n waiting' waiting'') : Turns (n + 1) waiting waiting''

/-- The check stops with an answer: no tree waits, or the root of the tree that is taken has the
wrong number of children. -/
inductive Stops : List Node → Bool → Prop where
  | passed : Stops [] true
  | refused {node : Node} {waiting others : List Node} (taken : waiting.Perm (node :: others))
      (wrong : node.hasArity = false) : Stops waiting false

variable {n : Nat} {waiting waiting' : List Node}

theorem allWellFormed_cons (node : Node) (waiting : List Node) :
  allWellFormed (node :: waiting) = (node.hasArity && allWellFormed (node.children ++ waiting))
  := by
  cases node
  rw [allWellFormed]

/-- The order of the trees does not matter. -/
theorem allWellFormed_perm (perm : waiting.Perm waiting') :
  allWellFormed waiting = allWellFormed waiting'
  := by
  rw [Bool.eq_iff_iff, allWellFormed_iff, allWellFormed_iff]
  simp only [perm.mem_iff]

/-- A turn does not change the answer. -/
theorem Turn.allWellFormed_eq (turn : Turn waiting waiting') :
  allWellFormed waiting = allWellFormed waiting'
  := by
  obtain ⟨taken, hasArity, joined⟩ := turn
  rw [allWellFormed_perm taken, allWellFormed_cons, hasArity, Bool.true_and,
    allWellFormed_perm joined]

/-- A turn is done with one node. -/
theorem Turn.count_eq (turn : Turn waiting waiting') :
  countOfAll waiting = countOfAll waiting' + 1
  := by
  obtain ⟨taken, -, joined⟩ := turn
  rw [countOfAll_perm taken, countOfAll_perm joined, countOfAll_append, countOfAll, Node.count_eq,
    Nat.add_right_comm]

theorem Turns.allWellFormed_eq (turns : Turns n waiting waiting') :
  allWellFormed waiting = allWellFormed waiting'
  := by
  induction turns with
  | zero => rfl
  | succ turn _ ih => rw [turn.allWellFormed_eq, ih]

/-- Every turn is done with one node, and the others still wait. -/
theorem Turns.count_eq (turns : Turns n waiting waiting') :
  n + countOfAll waiting' = countOfAll waiting
  := by
  induction turns with
  | zero => apply Nat.zero_add
  | succ turn _ ih => rw [turn.count_eq, ← ih, Nat.add_right_comm]

/-- When the check stops, its answer is right for the trees that wait. -/
theorem Stops.eq_allWellFormed {answer : Bool} (stops : Stops waiting answer) :
  answer = allWellFormed waiting
  := by
  cases stops with
  | passed => rw [allWellFormed]
  | refused taken wrong => rw [allWellFormed_perm taken, allWellFormed_cons, wrong, Bool.false_and]

/-- The check stops or takes another turn. -/
theorem stops_or_turn (waiting : List Node) :
  (∃ answer, Stops waiting answer) ∨ ∃ waiting', Turn waiting waiting'
  := by
  cases waiting with
  | nil => exact .inl ⟨true, .passed⟩
  | cons node others =>
    cases arity : node.hasArity with
    | true => exact .inr ⟨node.children ++ others, .take (.refl _) arity (.refl _)⟩
    | false => exact .inl ⟨false, .refused (.refl _) arity⟩

/-- A node has as many children as it should if its kind asks for that number or for none. -/
theorem hasArity_iff (node : Node) :
  node.hasArity ↔ ∀ arity, node.kind.arity? = some arity → node.children.length = arity
  := by
  constructor
  · intro hasArity arity kind
    apply length_children hasArity kind
  · intro length
    rw [hasArity]
    split
    case h_1 arity kind =>
      apply beq_iff_eq.mpr
      apply length arity kind
    case h_2 => rfl

/-- A tree is well formed if the check by recursion on it says so, that is if each of its nodes has
as many children as its kind asks for.  A check that takes the waiting trees in any order is done
with one node in every turn, and it goes on until it stops with the same answer. -/
theorem isWellFormed_in_any_order (root : Node) :
  root.isWellFormed = root.keepsArity
    ∧ (root.isWellFormed ↔ ∀ node, root.Within node →
      ∀ arity, node.kind.arity? = some arity → node.children.length = arity)
    ∧ ∀ n waiting, Turns n [root] waiting →
      n + countOfAll waiting = root.count
        ∧ ((∃ answer, Stops waiting answer) ∨ ∃ waiting', Turn waiting waiting')
        ∧ ∀ answer, Stops waiting answer → answer = root.isWellFormed
  := by
  refine ⟨?_, ?_, ?_⟩
  · rw [isWellFormed, allWellFormed_eq_allKeepArity, allKeepArity, allKeepArity, Bool.and_true]
  · rw [isWellFormed, allWellFormed_iff, List.forall_mem_singleton]
    simp only [hasArity_iff]
  · intro n waiting turns
    refine ⟨?_, stops_or_turn waiting, ?_⟩
    · rw [turns.count_eq, countOfAll, countOfAll, Nat.add_zero]
    · intro answer stops
      rw [stops.eq_allWellFormed, isWellFormed, turns.allWellFormed_eq]

/-- A statement that prints a number, and an assignment without children. -/
def unassigned : Node :=
  ⟨.root, "", 0, [⟨.print, "", 1, [.leaf .number "7" 1]⟩, .leaf .assignment "" 2]⟩

/-- If the last of the waiting trees is taken first, the check stops after one turn, and three of
four nodes still wait. -/
theorem isWellFormed_in_any_order_unassigned :
  Turns 1 [unassigned] unassigned.children ∧ Stops unassigned.children false
    ∧ unassigned.isWellFormed = false
    ∧ 1 + countOfAll unassigned.children = unassigned.count
  := by
  have turns : Turns 1 [unassigned] unassigned.children :=
    .succ (.take (.refl _) rfl (by rw [List.append_nil])) (.zero _)
  have stops : Stops unassigned.children false := .refused (List.Perm.swap _ _ _) rfl
  obtain ⟨-, -, walk⟩ := isWellFormed_in_any_order unassigned
  obtain ⟨count, -, answers⟩ := walk 1 unassigned.children turns
  exact ⟨turns, stops, (answers false stops).symm, count⟩

end IntScript.Node
