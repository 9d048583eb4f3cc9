import IntScript.Proofs.Infix
import IntScript.Token.Adjacency

/-!
# Reading an expression

The stacks in the middle of an expression whose tokens may stand next to each other.
`Awaits` says what the stacks hold when an operand has to come next: each operator that
waits has its left operand, and binds more tightly than the operators below it in the same
brackets.  `Reading` adds the moments behind a function and behind an operand.  Main
statements: a token that may come next keeps the stacks reading or is no part of the
expression, and the end of an expression yields a tree that the tokens write, unless a
bracket has no partner.
-/

namespace IntScript

/-! ### What may come next -/

namespace Token

/-- What an expression goes on with. -/
inductive Phase where
  | operand
  /-- The bracket in front of an argument. -/
  | argument
  /-- Anything behind an operand. -/
  | operator
deriving DecidableEq, Repr

namespace Phase

/-- The kinds of tokens with which an expression may go on. -/
def admits : Phase → Kind → Bool
  | .operand, kind => kind.startsValue
  | .argument, kind => kind == .opening .square
  | .operator, kind => kind.mayFollowOperand

/-- What an expression goes on with behind a token. -/
def behind : Kind → Phase
  | .function => .argument
  | .variable | .number | .closing _ => .operator
  | _ => .operand

/-- A token that stands rightly behind another one is with what the expression may go on. -/
theorem admits_behind
    {startsLine : Bool} {kind next : Kind} (h : kind.mayPrecede startsLine next)
    (inside : kind ≠ .endOfLine) :
  (behind kind).admits next
  := by
  cases kind with
  | closing bracket => cases bracket <;> simp_all [Kind.mayPrecede, behind, admits]
  | read =>
    simp only [Kind.mayPrecede, beq_iff_eq] at h
    rw [h]
    rfl
  | _ => simp_all [Kind.mayPrecede, behind, admits]

end Phase

end Token

namespace Expression

/-! ### The stacks while an expression is read -/

namespace Stacks

/-- The tokens have left these stacks, and an operand has to come next. -/
inductive Awaits : List Token → List Waiting → List Node → Prop where
  | start : Awaits [] [] []
  | operator {tokens lefts : List Token} {waiting : List Waiting} {operands : List Node}
      {op : Operator} {token : Token} {left : Node} (awaits : Awaits tokens waiting operands)
      (isOpen : Open op.precedence waiting) (written : Written op.precedence lefts left)
      (kind : token.kind = .operator op) :
      Awaits (tokens ++ lefts ++ [token]) (.operation op token.line :: waiting) (left :: operands)
  | round {tokens : List Token} {waiting : List Waiting} {operands : List Node} {opening : Token}
      (awaits : Awaits tokens waiting operands) (kind : opening.kind = .opening .round) :
      Awaits (tokens ++ [opening]) (.opening .round :: waiting) operands
  | square {tokens : List Token} {waiting : List Waiting} {operands : List Node}
      {function opening : Token} (awaits : Awaits tokens waiting operands)
      (functionKind : function.kind = .function) (kind : opening.kind = .opening .square) :
      Awaits (tokens ++ [function, opening])
        (.opening .square :: .call function.text function.line :: waiting) operands

/-- The tokens have left these stacks in the middle of an expression. -/
inductive Reading : List Token → Token.Phase → Stacks → Prop where
  | operand {tokens : List Token} {waiting : List Waiting} {operands : List Node}
      (awaits : Awaits tokens waiting operands) : Reading tokens .operand ⟨waiting, operands⟩
  | argument {tokens : List Token} {waiting : List Waiting} {operands : List Node}
      {function : Token} (awaits : Awaits tokens waiting operands)
      (kind : function.kind = .function) :
      Reading (tokens ++ [function]) .argument
        ⟨.call function.text function.line :: waiting, operands⟩
  | operator {tokens rights : List Token} {waiting : List Waiting} {operands : List Node}
      {tree : Node} {state : Stacks} (awaits : Awaits tokens waiting operands)
      (written : Written 0 rights tree) (holds : Holds 0 tree waiting operands state) :
      Reading (tokens ++ rights) .operator state

/-- Whatever waits for an operand lets the operand end first. -/
theorem Awaits.isOpen_zero
    {tokens : List Token} {waiting : List Waiting} {operands : List Node}
    (awaits : Awaits tokens waiting operands) :
  Open 0 waiting
  := by
  cases awaits with
  | start =>
    intro top mem
    cases mem
  | @operator _ _ _ _ op _ _ _ _ _ _ =>
    intro top mem binds
    cases mem
    cases op <;> cases binds
  | round => apply open_opening
  | square => apply open_opening

/-- The tokens have left these stacks with a tree on top, and only opening brackets and
operators that bind more loosely than `limit` wait for it directly. -/
def Settled (limit : Nat) (tokens : List Token)
    (result : EStateM.Result SyntaxError Stacks Unit) : Prop :=
  ∃ (before rights : List Token) (waiting : List Waiting) (operands : List Node) (tree : Node),
    tokens = before ++ rights ∧ Awaits before waiting operands ∧ Open limit waiting
      ∧ Written limit rights tree ∧ result = .ok () ⟨waiting, tree :: operands⟩

/-- Nothing has to settle if only what binds more loosely waits. -/
theorem Awaits.settled_of_open
    {tokens rights : List Token} {waiting : List Waiting} {operands : List Node} {tree : Node}
    (awaits : Awaits tokens waiting operands) {limit : Nat} (isOpen : Open limit waiting)
    (written : Written limit rights tree) {leaves : Waiting → Bool}
    (leaves_iff : ∀ top, leaves top ↔ top.BindsWithin limit) (line : Nat) :
  Settled limit (tokens ++ rights) (settleWhile leaves line waiting (tree :: operands))
  := by
  refine ⟨tokens, rights, waiting, operands, tree, rfl, awaits, isOpen, written, ?_⟩
  apply settleWhile_of_stays
  intro top mem
  rw [Bool.eq_false_iff]
  intro leavesTop
  apply isOpen top mem
  apply (leaves_iff top).mp leavesTop

/-- When an operand is there, what waits settles as far as it has to: up to an opening
bracket or to an operator that binds more loosely than `limit`. -/
theorem Awaits.settled
    {tokens rights : List Token} {waiting : List Waiting} {operands : List Node} {tree : Node}
    (awaits : Awaits tokens waiting operands) {level limit : Nat} (isOpen : Open level waiting)
    (written : Written level rights tree) (le : level ≤ limit) {leaves : Waiting → Bool}
    (leaves_iff : ∀ top, leaves top ↔ top.BindsWithin limit) (line : Nat) :
  Settled limit (tokens ++ rights) (settleWhile leaves line waiting (tree :: operands))
  := by
  induction awaits generalizing level rights tree with
  | start =>
    apply Awaits.start.settled_of_open _ (written.mono le) leaves_iff
    intro top mem
    cases mem
  | @operator tokens lefts waiting operands op token left awaits isOpenBelow writtenLeft kind ih =>
    have tighter : level < op.precedence := by
      apply Nat.lt_of_not_le
      apply isOpen (.operation op token.line) rfl
    by_cases within : op.precedence ≤ limit
    · have leavesTop := (leaves_iff (.operation op token.line)).mpr within
      have settled := ih isOpenBelow
        (.operation kind (Nat.le_refl _) tighter writtenLeft written) within
      simp only [settleWhile, leavesTop, if_true, Waiting.settle?]
      simpa using settled
    · apply (Awaits.operator awaits isOpenBelow writtenLeft kind).settled_of_open _
        (written.mono le) leaves_iff
      intro top mem binds
      cases mem
      apply within binds
  | round awaits kind =>
    apply (Awaits.round awaits kind).settled_of_open (open_opening _ _ _) (written.mono le)
      leaves_iff
  | square awaits functionKind kind =>
    apply (Awaits.square awaits functionKind kind).settled_of_open (open_opening _ _ _)
      (written.mono le) leaves_iff

/-- No operator binds more loosely than sums, so that only brackets do not settle. -/
theorem not_isOpening_iff (top : Waiting) :
  (!top.isOpening) = true ↔ top.BindsWithin 2
  := by
  cases top with
  | call => simp [Waiting.isOpening, Waiting.BindsWithin]
  | operation op => cases op <;> simp [Waiting.isOpening, Waiting.BindsWithin, Operator.precedence]
  | opening => simp [Waiting.isOpening, Waiting.BindsWithin]

/-- Behind an operand, what waits settles from the top. -/
theorem Reading.settled
    {tokens : List Token} {state : Stacks} (reading : Reading tokens .operator state)
    {limit : Nat} {leaves : Waiting → Bool}
    (leaves_iff : ∀ top, leaves top ↔ top.BindsWithin limit) (line : Nat) :
  Settled limit tokens (settleWhile leaves line state.waiting state.operands)
  := by
  cases reading with
  | operator awaits written holds =>
    rw [holds leaves line]
    · apply awaits.settled awaits.isOpen_zero written (Nat.zero_le _) leaves_iff
    · intro top binds
      apply (leaves_iff top).mpr
      cases top with
      | call => trivial
      | operation => apply Nat.le_trans binds (Nat.zero_le _)
      | opening => contradiction

/-! ### Going on and ending -/

/-- Feeding a token that may come next keeps the stacks reading, unless it is a closing
bracket without a partner or no token of an expression. -/
def GoesOn (tokens : List Token) (token : Token) (result : EStateM.Result SyntaxError Stacks Unit) :
    Prop :=
  match result with
  | .ok () state => Reading (tokens ++ [token]) (.behind token.kind) state
  | .error error _ => error = .mismatchedBracket token.line ∨ error = .unexpected token

/-- An operator takes what stands before it as its left operand. -/
theorem Reading.feed_operator
    {tokens : List Token} {state : Stacks} {token : Token} {op : Operator}
    (reading : Reading tokens .operator state) (kind : token.kind = .operator op) :
  GoesOn tokens token (feed token state)
  := by
  obtain ⟨before, lefts, waiting, operands, left, rfl, awaits, isOpen, written, settled⟩ :=
    reading.settled (fun top => top.yieldsTo_iff op) token.line
  rw [Stacks.feed_operator kind, settled]
  simp only [GoesOn, kind]
  exact .operand (.operator awaits isOpen written kind)

/-- A closing bracket ends what stands between it and its partner. -/
theorem Reading.feed_closing
    {tokens : List Token} {state : Stacks} {token : Token} {bracket : Bracket}
    (reading : Reading tokens .operator state) (kind : token.kind = .closing bracket) :
  GoesOn tokens token (feed token state)
  := by
  obtain ⟨before, rights, waiting, operands, tree, rfl, awaits, isOpen, written, settled⟩ :=
    reading.settled not_isOpening_iff token.line
  rw [Stacks.feed_closing kind, settled]
  simp only [GoesOn, kind]
  cases awaits with
  | start => exact .inl rfl
  | @operator _ _ _ _ op token' _ _ _ _ _ =>
    have within := (not_isOpening_iff (.operation op token'.line)).mp rfl
    exact absurd within (isOpen _ rfl)
  | @round before waiting _ opening awaits openingKind =>
    cases bracket with
    | square => exact .inl rfl
    | round =>
      have reading : Reading (before ++ (opening :: rights ++ [token])) .operator
          ⟨waiting, tree :: operands⟩ :=
        .operator awaits (.bracketed openingKind kind written) (fun _ _ _ => rfl)
      simpa [Token.Phase.behind] using reading
  | @square before waiting _ function opening awaits functionKind openingKind =>
    cases bracket with
    | round => exact .inl rfl
    | square =>
      have reading : Reading (before ++ (function :: opening :: rights ++ [token])) .operator
          ⟨.call function.text function.line :: waiting, tree :: operands⟩ :=
        .operator awaits (.call functionKind openingKind kind written) (holds_call _ _ _ _ _ _)
      simpa [Token.Phase.behind] using reading

/-- A token with which the expression may go on keeps the stacks reading. -/
theorem Reading.feed
    {tokens : List Token} {phase : Token.Phase} {state : Stacks} {token : Token}
    (reading : Reading tokens phase state) (admits : phase.admits token.kind) :
  GoesOn tokens token (Stacks.feed token state)
  := by
  cases reading with
  | operand awaits =>
    match kind : token.kind with
    | .number =>
      rw [feed_number kind]
      simp only [GoesOn, kind]
      exact .operator awaits (.number kind) (fun _ _ _ => rfl)
    | .variable =>
      rw [feed_variable kind]
      simp only [GoesOn, kind]
      exact .operator awaits (.reference kind) (fun _ _ _ => rfl)
    | .function =>
      rw [feed_function kind]
      simp only [GoesOn, kind]
      exact .argument awaits kind
    | .opening .round =>
      rw [feed_opening kind]
      simp only [GoesOn, kind]
      exact .operand (.round awaits kind)
    | .undefined | .equals | .operator _ | .opening .square | .closing _ | .print | .read
    | .endOfLine =>
      rw [kind] at admits
      contradiction
  | argument awaits functionKind =>
    have kind : token.kind = .opening .square := by
      simpa [Token.Phase.admits] using admits
    rw [feed_opening kind]
    simp only [GoesOn, kind, List.append_assoc]
    exact .operand (.square awaits functionKind kind)
  | operator awaits written holds =>
    have reading := Reading.operator awaits written holds
    match kind : token.kind with
    | .operator _ => apply reading.feed_operator kind
    | .closing _ => apply reading.feed_closing kind
    | .undefined | .equals | .endOfLine =>
      simp only [Stacks.feed, kind]
      exact .inr rfl
    | .number | .variable | .function | .opening _ | .print | .read =>
      rw [kind] at admits
      contradiction

/-- The end of an expression yields a tree that its tokens write, unless an opening bracket
has no partner. -/
theorem Reading.conclude
    {tokens : List Token} {state : Stacks} (reading : Reading tokens .operator state)
    (line : Nat) :
  (∃ tree, Stacks.conclude line state = .ok tree empty ∧ Written 2 tokens tree)
    ∨ ∃ state', Stacks.conclude line state = .error (.mismatchedBracket line) state'
  := by
  obtain ⟨before, rights, waiting, operands, tree, rfl, awaits, isOpen, written, settled⟩ :=
    reading.settled not_isOpening_iff line
  rw [conclude_eq, settled]
  cases awaits with
  | start => exact .inl ⟨tree, rfl, written⟩
  | @operator _ _ _ _ op token _ _ _ _ _ =>
    have within := (not_isOpening_iff (.operation op token.line)).mp rfl
    exact absurd within (isOpen _ rfl)
  | round => exact .inr ⟨_, rfl⟩
  | square => exact .inr ⟨_, rfl⟩

end Stacks

end Expression

end IntScript
