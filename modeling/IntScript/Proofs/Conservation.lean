import IntScript.Proofs.Arity
import IntScript.Proofs.Mismatch

/-!
# Nothing lost and nothing made up

What becomes of the tokens from which an expression is built, whether they are an expression or
not.  The fringe of the trees on the stack, that is the row of their leaves, are the operands among
the tokens in their order, and every function or operator among them either waits or is an inner
node of one of the trees.  Main statement: this holds after every token that the stacks take, and a
tree with which they end is made of all the tokens but the brackets, which are well nested.
-/

namespace IntScript

/-! ### Leaves and inner nodes -/

/-- What a node has besides its children. -/
structure Node.Label where
  kind : Node.Kind
  text : String
  line : Nat
deriving DecidableEq, Repr

namespace Node

mutual
/-- The leaves of a tree from left to right. -/
def fringe : Node → List Label
  | ⟨kind, text, line, children⟩ =>
    if children.isEmpty then [⟨kind, text, line⟩] else fringeOfAll children

/-- The leaves of the trees in a list from left to right. -/
def fringeOfAll : List Node → List Label
  | [] => []
  | node :: nodes => node.fringe ++ fringeOfAll nodes
end

mutual
/-- The nodes of a tree that have children. -/
def inner : Node → List Label
  | ⟨kind, text, line, children⟩ =>
    if children.isEmpty then [] else ⟨kind, text, line⟩ :: innerOfAll children

/-- The nodes of the trees in a list that have children. -/
def innerOfAll : List Node → List Label
  | [] => []
  | node :: nodes => node.inner ++ innerOfAll nodes
end

end Node

/-- The leaf that a token stands for, if it is a name or a number. -/
def Token.leaf? (token : Token) : Option Node.Label :=
  match token.kind with
  | .variable => some ⟨.variable, token.text, token.line⟩
  | .number => some ⟨.number, token.text, token.line⟩
  | _ => none

/-- The inner node that a token stands for, if it is a function or an operator. -/
def Token.inner? (token : Token) : Option Node.Label :=
  match token.kind with
  | .function => some ⟨.call, token.text, token.line⟩
  | .operator op => some ⟨.operation op, "", token.line⟩
  | _ => none

namespace Expression

/-- The inner node that something makes when it has taken its operands. -/
def Waiting.inner? : Waiting → Option Node.Label
  | .call name line => some ⟨.call, name, line⟩
  | .operation op line => some ⟨.operation op, "", line⟩
  | .opening _ => none

/-- What a token lets wait: functions, operators and opening brackets wait. -/
def Waiting.ofToken? (token : Token) : Option Waiting :=
  match token.kind with
  | .function => some (.call token.text token.line)
  | .operator op => some (.operation op token.line)
  | .opening bracket => some (.opening bracket)
  | _ => none

namespace Stacks

/-- The stacks hold what they took.  The leaves of their trees, from the lowest tree on, are the
operands among the tokens in their order.  The inner nodes of the trees and what waits to become
one are the functions and operators.  All that waits are functions, operators and opening brackets
in the order of the tokens. -/
structure Conserves (tokens : List Token) (state : Stacks) : Prop where
  fringe : state.operands.reverse.flatMap Node.fringe = tokens.filterMap Token.leaf?
  inner : (state.operands.flatMap Node.inner ++ state.waiting.filterMap Waiting.inner?).Perm
    (tokens.filterMap Token.inner?)
  waiting : state.waiting.reverse.Sublist (tokens.filterMap Waiting.ofToken?)

variable {tokens : List Token} {waiting below : List Waiting} {operands operands' : List Node}
  {top : Waiting}

theorem filterMap_inner?_cons (top : Waiting) (below : List Waiting) :
  (top :: below).filterMap Waiting.inner?
    = top.inner?.toList ++ below.filterMap Waiting.inner?
  := by
  simp only [List.filterMap_eq_flatMap_toList, List.flatMap_cons]

/-! ### Settling -/

/-- What settles makes its operands the children of a node, and their leaves stay. -/
theorem fringe_of_settles (settles : top.Settles operands operands') :
  operands'.reverse.flatMap Node.fringe = operands.reverse.flatMap Node.fringe
  := by
  cases settles with
  | call name line argument operands =>
    simp [Node.fringe, Node.fringeOfAll]
  | operation op line left right operands =>
    simp [Node.fringe, Node.fringeOfAll]

/-- What settles becomes an inner node. -/
theorem inner_of_settles (settles : top.Settles operands operands') :
  (operands'.flatMap Node.inner).Perm (top.inner?.toList ++ operands.flatMap Node.inner)
  := by
  cases settles with
  | call name line argument operands =>
    simp [Node.inner, Node.innerOfAll, Waiting.inner?]
  | operation op line left right operands =>
    simp [Node.inner, Node.innerOfAll, Waiting.inner?, List.perm_append_comm_assoc]

theorem Conserves.settles (conserves : Conserves tokens ⟨top :: below, operands⟩)
    (settles : top.Settles operands operands') :
  Conserves tokens ⟨below, operands'⟩
  where
  fringe := (fringe_of_settles settles).trans conserves.fringe
  inner := by
    have inner := conserves.inner
    rw [filterMap_inner?_cons] at inner
    apply List.Perm.trans _ inner
    apply ((inner_of_settles settles).append_right _).trans
    rw [List.append_assoc]
    apply List.perm_append_comm_assoc
  waiting := by
    apply List.Sublist.trans _ conserves.waiting
    simp

/-- However much settles, nothing is lost. -/
theorem Conserves.settleWhile {leaves : Waiting → Bool} {line : Nat} {state : Stacks}
    (conserves : Conserves tokens ⟨waiting, operands⟩)
    (settled : settleWhile leaves line waiting operands = .ok () state) :
  Conserves tokens state
  := by
  induction waiting generalizing operands with
  | nil =>
    cases settled
    exact conserves
  | cons top below ih =>
    rw [Stacks.settleWhile] at settled
    split at settled
    · split at settled
      · rename_i operands' settles
        exact ih (conserves.settles (Waiting.settles_of_settle? settles)) settled
      · cases settled
    · cases settled
      exact conserves

/-! ### Feeding tokens -/

theorem Conserves.addOperand {token : Token} {kind : Node.Kind}
    (conserves : Conserves tokens ⟨waiting, operands⟩)
    (leaf : token.leaf? = some ⟨kind, token.text, token.line⟩) :
  Conserves (tokens ++ [token]) ⟨waiting, .leaf kind token.text token.line :: operands⟩
  := by
  have others : token.inner? = none ∧ Waiting.ofToken? token = none := by
    unfold Token.leaf? at leaf
    unfold Token.inner? Waiting.ofToken?
    split at leaf <;> simp_all
  constructor
  · rw [List.filterMap_append, ← conserves.fringe]
    simp [Node.leaf, Node.fringe, leaf]
  · rw [List.filterMap_append]
    simpa [Node.leaf, Node.inner, others] using conserves.inner
  · rw [List.filterMap_append]
    simpa [others] using conserves.waiting

theorem Conserves.addWaiting {token : Token} (conserves : Conserves tokens ⟨waiting, operands⟩)
    (waits : Waiting.ofToken? token = some top) :
  Conserves (tokens ++ [token]) ⟨top :: waiting, operands⟩
  := by
  have others : token.leaf? = none ∧ token.inner? = top.inner? := by
    unfold Waiting.ofToken? at waits
    unfold Token.leaf? Token.inner?
    split at waits <;> cases waits <;> simp_all [Waiting.inner?]
  constructor
  · rw [List.filterMap_append, ← conserves.fringe]
    simp [others]
  · have inner : [token].filterMap Token.inner? = top.inner?.toList := by
      simp [List.filterMap_eq_flatMap_toList, others]
    rw [List.filterMap_append, filterMap_inner?_cons, inner]
    apply (List.perm_append_comm.append_left _).trans
    rw [← List.append_assoc]
    apply conserves.inner.append_right
  · rw [List.filterMap_append, List.reverse_cons]
    apply List.Sublist.append conserves.waiting
    simp [waits]

/-- A pair of brackets leaves no trace. -/
theorem Conserves.closeBracket {token : Token} {bracket partner : Bracket}
    (conserves : Conserves tokens ⟨.opening partner :: below, operands⟩)
    (kind : token.kind = .closing bracket) :
  Conserves (tokens ++ [token]) ⟨below, operands⟩
  where
  fringe := by
    simpa [Token.leaf?, kind] using conserves.fringe
  inner := by
    have inner := conserves.inner
    rw [filterMap_inner?_cons] at inner
    simpa [Token.inner?, Waiting.inner?, kind] using inner
  waiting := by
    have waiting := conserves.waiting
    rw [List.reverse_cons] at waiting
    simpa [Waiting.ofToken?, kind] using (List.sublist_append_left _ _).trans waiting

/-- Stacks that take a token conserve it with the tokens before. -/
theorem Conserves.feed {token : Token} {state state' : Stacks} (conserves : Conserves tokens state)
    (fed : feed token state = .ok () state') :
  Conserves (tokens ++ [token]) state'
  := by
  cases kind : token.kind with
  | «variable» =>
    rw [feed_variable kind] at fed
    cases fed
    apply conserves.addOperand
    rw [Token.leaf?, kind]
  | number =>
    rw [feed_number kind] at fed
    cases fed
    apply conserves.addOperand
    rw [Token.leaf?, kind]
  | function =>
    rw [feed_function kind] at fed
    cases fed
    apply conserves.addWaiting
    rw [Waiting.ofToken?, kind]
  | opening bracket =>
    rw [feed_opening kind] at fed
    cases fed
    apply conserves.addWaiting
    rw [Waiting.ofToken?, kind]
  | operator op =>
    rw [feed_operator kind] at fed
    split at fed <;> cases fed
    rename_i settled
    apply (conserves.settleWhile settled).addWaiting
    rw [Waiting.ofToken?, kind]
  | closing bracket =>
    rw [feed_closing kind] at fed
    split at fed
    · rename_i settled
      split at fed <;> cases fed
      apply (conserves.settleWhile settled).closeBracket kind
    · cases fed
    · cases fed
  | undefined | equals | print | read | endOfLine =>
    simp only [Stacks.feed, kind] at fed
    cases fed

/-! ### Runs -/

/-- Stacks that take some tokens took the first of them before. -/
theorem exists_forM_feed_of_append {before after : List Token} {state state' : Stacks}
    (fed : (before ++ after).forM feed state = .ok () state') :
  ∃ middle, before.forM feed state = .ok () middle ∧ after.forM feed middle = .ok () state'
  := by
  rw [forM_feed_append] at fed
  split at fed
  · rename_i middle fedBefore
    exact ⟨middle, fedBefore, fed⟩
  · cases fed

/-- What holds of empty stacks and is kept with every token that is taken holds in the end. -/
theorem forM_feed_induction {P : List Token → Stacks → Prop} (start : P [] empty)
    (step : ∀ tokens token state state', P tokens state → feed token state = .ok () state' →
      P (tokens ++ [token]) state')
    {state : Stacks} (fed : tokens.forM feed empty = .ok () state) :
  P tokens state
  := by
  induction tokens using List.reverseRecOn generalizing state with
  | nil =>
    cases fed
    exact start
  | append_singleton tokens token ih =>
    obtain ⟨middle, fedTokens, fedToken⟩ := exists_forM_feed_of_append fed
    rw [forM_feed_cons] at fedToken
    split at fedToken <;> cases fedToken
    rename_i fedToken
    exact step tokens token middle state (ih fedTokens) fedToken

theorem conserves_of_forM_feed {state : Stacks} (fed : tokens.forM feed empty = .ok () state) :
  Conserves tokens state
  := by
  apply forM_feed_induction _ _ fed
  · exact ⟨rfl, List.Perm.refl _, List.Sublist.refl _⟩
  · intro _ _ _ _ conserves fedToken
    exact conserves.feed fedToken

theorem allExpressions_of_forM_feed {state : Stacks}
    (fed : tokens.forM feed empty = .ok () state) :
  state.AllExpressions
  := by
  apply forM_feed_induction (P := fun _ state => state.AllExpressions) _ _ fed
  · exact fun _ mem => nomatch mem
  · intro _ token state state' all fedToken
    have kept := preserves_feed token state all
    rwa [fedToken] at kept

/-- The brackets that wait are those which are open after the tokens. -/
theorem unclosed?_of_forM_feed {state : Stacks} (fed : tokens.forM feed empty = .ok () state) :
  unclosed? (Token.brackets tokens) = some (openings state.waiting)
  := by
  apply forM_feed_induction (P := fun tokens state =>
    unclosed? (Token.brackets tokens) = some (openings state.waiting)) _ _ fed
  · rfl
  · intro tokens token state state' met fedToken
    have meets := feed_meets token state
    rw [fedToken] at meets
    cases meets with
    | taken _ metToken => rw [unclosed?_brackets_concat, met, Option.bind_some, metToken]

/-- Let the stacks take any tokens, one by one.  After each of them they conserve the tokens so far,
and their trees are well formed.  A tree with which they end is well formed and has the operands
among the tokens as its leaves, in their order, and the functions and operators as its inner nodes,
and the brackets among the tokens are well nested. -/
theorem feed_conserves {state : Stacks} (fed : tokens.forM feed empty = .ok () state) :
  (∀ before after, tokens = before ++ after →
      ∃ state', before.forM feed empty = .ok () state' ∧ Conserves before state'
        ∧ ∀ tree ∈ state'.operands, tree.isWellFormed)
    ∧ ∀ line tree state', conclude line state = .ok tree state' →
      tree.fringe = tokens.filterMap Token.leaf?
        ∧ tree.inner.Perm (tokens.filterMap Token.inner?)
        ∧ tree.isWellFormed ∧ WellNested (Token.brackets tokens)
  := by
  constructor
  · rintro before after rfl
    obtain ⟨state', fedBefore, -⟩ := exists_forM_feed_of_append fed
    refine ⟨state', fedBefore, conserves_of_forM_feed fedBefore, ?_⟩
    intro tree mem
    apply (allExpressions_of_forM_feed fedBefore tree mem).isWellFormed
  · intro line tree state' concluded
    obtain ⟨settled, -⟩ := settled_of_conclude concluded
    have conserves := (conserves_of_forM_feed fed).settleWhile settled
    have fringe := conserves.fringe
    have inner := conserves.inner
    refine ⟨by simpa using fringe, by simpa using inner, ?_, ?_⟩
    · apply (isExpression_of_conclude (allExpressions_of_forM_feed fed) concluded).isWellFormed
    · rw [wellNested_iff Token.isBracket_of_mem_brackets, unclosed?_of_forM_feed fed,
        openings_eq_nil_of_conclude concluded]

/-- The tokens of `1 2 + F ()`, which stand in no order in which a program may have them. -/
def postfixTokens : List Token :=
  [⟨.number, "1", 1, 1⟩, ⟨.number, "2", 1, 3⟩, ⟨.operator .add, "+", 1, 5⟩,
    ⟨.function, "F", 1, 7⟩, ⟨.opening .round, "(", 1, 9⟩, ⟨.closing .round, ")", 1, 10⟩]

/-- Even these tokens make a tree, and nothing of them is lost. -/
theorem feed_conserves_postfix :
  ∃ state tree state', postfixTokens.forM feed empty = .ok () state
    ∧ conclude 1 state = .ok tree state'
    ∧ tree.fringe = [⟨.number, "1", 1⟩, ⟨.number, "2", 1⟩]
    ∧ tree.inner.Perm [⟨.operation .add, "", 1⟩, ⟨.call, "F", 1⟩]
    ∧ WellNested (Token.brackets postfixTokens)
  := by
  obtain ⟨state, fed⟩ : ∃ state, postfixTokens.forM feed empty = .ok () state := ⟨_, rfl⟩
  have concluded : ∃ tree state', conclude 1 state = .ok tree state' := by
    cases fed
    exact ⟨_, _, rfl⟩
  obtain ⟨tree, state', concluded⟩ := concluded
  obtain ⟨fringe, inner, -, wellNested⟩ := (feed_conserves fed).2 1 tree state' concluded
  exact ⟨state, tree, state', fed, concluded, fringe, inner, wellNested⟩

end Stacks

end Expression

end IntScript
