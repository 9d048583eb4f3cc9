import IntScript.Proofs.Shape

/-!
# Infix

How the tokens of a line write an expression.  `Written level tokens tree` says that the
tokens write the tree, and that no operator stands outside of brackets that binds more
loosely than `level`.  So the left operand of an operator needs brackets if it binds more
loosely than the operator, the right one also if it binds equally, and any other brackets
are free to stand.  Main statement: tokens that write a tree build that tree.
-/

namespace IntScript.Expression

/-! ### What the operations on the stacks do -/

/-- What waits takes its operands from the stack and puts back the node that they make. -/
inductive Waiting.Settles : Waiting → List Node → List Node → Prop where
  | call (name : String) (line : Nat) (argument : Node) (operands : List Node) :
      Settles (.call name line) (argument :: operands)
        (⟨.call, name, line, [argument]⟩ :: operands)
  | operation (op : Operator) (line : Nat) (left right : Node) (operands : List Node) :
      Settles (.operation op line) (right :: left :: operands)
        (⟨.operation op, "", line, [left, right]⟩ :: operands)

theorem Waiting.settles_of_settle? {top : Waiting} {operands operands' : List Node}
    (settled : top.settle? operands = some operands') :
  top.Settles operands operands'
  := by
  unfold settle? at settled
  split at settled
  · cases settled
    apply Settles.call
  · cases settled
    apply Settles.operation
  · cases settled

namespace Stacks

theorem feed_number {token : Token} (kind : token.kind = .number) (state : Stacks) :
  feed token state
    = .ok () ⟨state.waiting, .leaf .number token.text token.line :: state.operands⟩
  := by
  simp only [feed, kind]
  rfl

theorem feed_variable {token : Token} (kind : token.kind = .variable) (state : Stacks) :
  feed token state
    = .ok () ⟨state.waiting, .leaf .variable token.text token.line :: state.operands⟩
  := by
  simp only [feed, kind]
  rfl

theorem feed_function {token : Token} (kind : token.kind = .function) (state : Stacks) :
  feed token state = .ok () ⟨.call token.text token.line :: state.waiting, state.operands⟩
  := by
  simp only [feed, kind]
  rfl

theorem feed_opening {token : Token} {bracket : Bracket} (kind : token.kind = .opening bracket)
    (state : Stacks) :
  feed token state = .ok () ⟨.opening bracket :: state.waiting, state.operands⟩
  := by
  simp only [feed, kind]
  rfl

/-- An operator waits on top once all that has to yield to it has settled. -/
theorem feed_operator {token : Token} {op : Operator} (kind : token.kind = .operator op)
    (state : Stacks) :
  feed token state =
    match settleWhile (Waiting.yieldsTo op) token.line state.waiting state.operands with
    | .ok () ⟨waiting, operands⟩ => .ok () ⟨.operation op token.line :: waiting, operands⟩
    | .error error state => .error error state
  := by
  simp only [feed, kind]
  change EStateM.bind (settle _ _) _ state = _
  simp only [EStateM.bind, settle]
  generalize settleWhile (Waiting.yieldsTo op) token.line state.waiting state.operands = result
  cases result <;> rfl

/-- A closing bracket takes away its partner once all that waits behind the partner has
settled. -/
theorem feed_closing {token : Token} {bracket : Bracket} (kind : token.kind = .closing bracket)
    (state : Stacks) :
  feed token state =
    match settleWhile (fun top => !top.isOpening) token.line state.waiting state.operands with
    | .ok () ⟨.opening partner :: below, operands⟩ =>
      if partner = bracket then .ok () ⟨below, operands⟩
      else .error (.mismatchedBracket token.line) ⟨.opening partner :: below, operands⟩
    | .ok () state => .error (.mismatchedBracket token.line) state
    | .error error state => .error error state
  := by
  simp only [feed, kind]
  change EStateM.bind (settle _ _) _ state = _
  simp only [EStateM.bind, settle]
  generalize settleWhile (fun top => !top.isOpening) token.line state.waiting state.operands
    = result
  match result with
  | .error error state => rfl
  | .ok () ⟨[], operands⟩ => rfl
  | .ok () ⟨.call _ _ :: _, operands⟩ => rfl
  | .ok () ⟨.operation _ _ :: _, operands⟩ => rfl
  | .ok () ⟨.opening partner :: below, operands⟩ =>
    by_cases h : partner = bracket
    · simp only [if_pos h]
      change (if partner = bracket then set (⟨below, operands⟩ : Stacks)
        else throw (.mismatchedBracket token.line) : Build PUnit) _ = _
      rw [if_pos h]
      rfl
    · simp only [if_neg h]
      change (if partner = bracket then set (⟨below, operands⟩ : Stacks)
        else throw (.mismatchedBracket token.line) : Build PUnit) _ = _
      rw [if_neg h]
      rfl

/-- A single tree that is left with nothing waiting is the result. -/
theorem conclude_eq (line : Nat) (state : Stacks) :
  conclude line state =
    match settleWhile (fun top => !top.isOpening) line state.waiting state.operands with
    | .ok () ⟨[], [node]⟩ => .ok node empty
    | .ok () ⟨[], _⟩ => .error (.invalidExpression line) empty
    | .ok () state => .error (.mismatchedBracket line) state
    | .error error state => .error error state
  := by
  change EStateM.bind (settle _ _) _ state = _
  simp only [EStateM.bind, settle]
  generalize settleWhile (fun top => !top.isOpening) line state.waiting state.operands
    = result
  match result with
  | .error error state => rfl
  | .ok () ⟨[], []⟩ => rfl
  | .ok () ⟨[], [_]⟩ => rfl
  | .ok () ⟨[], _ :: _ :: _⟩ => rfl
  | .ok () ⟨_ :: _, _⟩ => rfl

/-- An expression ends with a tree if all that waits settles and leaves this tree. -/
theorem settled_of_conclude
    {line : Nat} {state state' : Stacks} {tree : Node}
    (concluded : conclude line state = .ok tree state') :
  settleWhile (fun top => !top.isOpening) line state.waiting state.operands
      = .ok () ⟨[], [tree]⟩
    ∧ state' = empty
  := by
  rw [conclude_eq] at concluded
  split at concluded <;> cases concluded
  rename_i settled
  exact ⟨settled, rfl⟩

theorem forM_feed_cons (token : Token) (tokens : List Token) (state : Stacks) :
  (token :: tokens).forM feed state =
    match feed token state with
    | .ok () state' => tokens.forM feed state'
    | .error error state' => .error error state'
  := by
  change EStateM.bind _ _ state = _
  unfold EStateM.bind
  cases feed token state <;> rfl

theorem forM_feed_append (tokens tokens' : List Token) (state : Stacks) :
  (tokens ++ tokens').forM feed state =
    match tokens.forM feed state with
    | .ok () state' => tokens'.forM feed state'
    | .error error state' => .error error state'
  := by
  rw [List.forM_eq_forM, List.forM_append]
  change EStateM.bind _ _ state = _
  unfold EStateM.bind
  cases forM tokens feed state <;> rfl

end Stacks

/-! ### Written expressions -/

/-- The tokens write the tree, where only operators of precedence up to `level` stand
outside of brackets. -/
inductive Written : Nat → List Token → Node → Prop where
  | number {level : Nat} {token : Token} (kind : token.kind = .number) :
      Written level [token] (.leaf .number token.text token.line)
  | reference {level : Nat} {token : Token} (kind : token.kind = .variable) :
      Written level [token] (.leaf .variable token.text token.line)
  | call {level inner : Nat} {function opening closing : Token} {tokens : List Token}
      {argument : Node} (functionKind : function.kind = .function)
      (openingKind : opening.kind = .opening .square)
      (closingKind : closing.kind = .closing .square) (written : Written inner tokens argument) :
      Written level (function :: opening :: tokens ++ [closing])
        ⟨.call, function.text, function.line, [argument]⟩
  | operation {level below : Nat} {op : Operator} {token : Token} {lefts rights : List Token}
      {left right : Node} (kind : token.kind = .operator op) (bare : op.precedence ≤ level)
      (tighter : below < op.precedence) (writtenLeft : Written op.precedence lefts left)
      (writtenRight : Written below rights right) :
      Written level (lefts ++ token :: rights) ⟨.operation op, "", token.line, [left, right]⟩
  | bracketed {level inner : Nat} {opening closing : Token} {tokens : List Token} {tree : Node}
      (openingKind : opening.kind = .opening .round) (closingKind : closing.kind = .closing .round)
      (written : Written inner tokens tree) :
      Written level (opening :: tokens ++ [closing]) tree

/-- What may stand where only tighter operators may can stand where looser ones may too. -/
theorem Written.mono
    {level level' : Nat} {tokens : List Token} {tree : Node} (written : Written level tokens tree)
    (le : level ≤ level') :
  Written level' tokens tree
  := by
  cases written with
  | number kind => exact .number kind
  | reference kind => exact .reference kind
  | call functionKind openingKind closingKind written =>
    exact .call functionKind openingKind closingKind written
  | operation kind bare tighter writtenLeft writtenRight =>
    exact .operation kind (Nat.le_trans bare le) tighter writtenLeft writtenRight
  | bracketed openingKind closingKind written => exact .bracketed openingKind closingKind written

/-- Every expression can be written, with brackets around every operation. -/
theorem exists_written {tree : Node} (h : tree.IsExpression) :
  ∃ tokens, Written 0 tokens tree
  := by
  induction h with
  | number text line =>
    have written : Written 0 [⟨.number, text, line, 0⟩] (.leaf .number text line) := .number rfl
    exact ⟨_, written⟩
  | reference name line =>
    have written : Written 0 [⟨.variable, name, line, 0⟩] (.leaf .variable name line) :=
      .reference rfl
    exact ⟨_, written⟩
  | @call argument name line _ ih =>
    obtain ⟨tokens, writtenArgument⟩ := ih
    have written : Written 0
        (⟨.function, name, line, 0⟩ :: ⟨.opening .square, "[", line, 0⟩ :: tokens
          ++ [⟨.closing .square, "]", line, 0⟩])
        ⟨.call, name, line, [argument]⟩ :=
      .call rfl rfl rfl writtenArgument
    exact ⟨_, written⟩
  | @operation left right op line _ _ ihLeft ihRight =>
    obtain ⟨lefts, writtenLeft⟩ := ihLeft
    obtain ⟨rights, writtenRight⟩ := ihRight
    have pos : 0 < op.precedence := by
      cases op <;> decide
    have bare : Written op.precedence (lefts ++ ⟨.operator op, "", line, 0⟩ :: rights)
        ⟨.operation op, "", line, [left, right]⟩ :=
      .operation rfl (Nat.le_refl _) pos (writtenLeft.mono (Nat.zero_le _)) writtenRight
    have written : Written 0
        (⟨.opening .round, "(", line, 0⟩ :: (lefts ++ ⟨.operator op, "", line, 0⟩ :: rights)
          ++ [⟨.closing .round, ")", line, 0⟩])
        ⟨.operation op, "", line, [left, right]⟩ :=
      .bracketed rfl rfl bare
    exact ⟨_, written⟩

/-! ### Building what is written -/

/-- What has to take its operands before an operator of precedence `level` comes in. -/
def Waiting.BindsWithin (level : Nat) : Waiting → Prop
  | .call _ _ => True
  | .operation op _ => op.precedence ≤ level
  | .opening _ => False

theorem Waiting.yieldsTo_iff (op : Operator) (top : Waiting) :
  top.yieldsTo op ↔ top.BindsWithin op.precedence
  := by
  cases top <;> simp [yieldsTo, BindsWithin]

theorem Waiting.not_isOpening_of_bindsWithin
    {level : Nat} {top : Waiting} (h : top.BindsWithin level) :
  (!top.isOpening) = true
  := by
  cases top with
  | opening => contradiction
  | call | operation => rfl

namespace Stacks

/-- Nothing on top of the stack has to take its operands before an operator of precedence
`level` comes in. -/
def Open (level : Nat) (waiting : List Waiting) : Prop :=
  ∀ top ∈ waiting.head?, ¬ top.BindsWithin level

/-- As soon as an operator of precedence `level` comes in or a bracket or the line ends, the
stacks turn into the given ones with a tree on top. -/
def Holds (level : Nat) (tree : Node) (waiting : List Waiting) (operands : List Node)
    (state : Stacks) : Prop :=
  ∀ (leaves : Waiting → Bool) (line : Nat), (∀ top, top.BindsWithin level → leaves top) →
    settleWhile leaves line state.waiting state.operands
      = settleWhile leaves line waiting (tree :: operands)

/-- Nothing settles when the top stays. -/
theorem settleWhile_of_stays
    {leaves : Waiting → Bool} {waiting : List Waiting} (line : Nat) (operands : List Node)
    (stays : ∀ top ∈ waiting.head?, leaves top = false) :
  settleWhile leaves line waiting operands = .ok () ⟨waiting, operands⟩
  := by
  cases waiting with
  | nil => rfl
  | cons top below =>
    have := stays top rfl
    simp [settleWhile, this]

theorem open_opening (level : Nat) (bracket : Bracket) (waiting : List Waiting) :
  Open level (.opening bracket :: waiting)
  := by
  intro top mem
  cases mem
  exact id

theorem Open.mono {level level' : Nat} {waiting : List Waiting} (h : Open level' waiting)
    (le : level ≤ level') :
  Open level waiting
  := by
  intro top mem binds
  apply h top mem
  cases top with
  | call => trivial
  | operation => apply Nat.le_trans binds le
  | opening => contradiction

/-- A closing bracket behind a tree takes its partner away and leaves the tree. -/
theorem feed_closing_of_holds
    {token : Token} {bracket : Bracket} (kind : token.kind = .closing bracket) {level : Nat}
    {tree : Node} {waiting : List Waiting} {operands : List Node} {state : Stacks}
    (holds : Holds level tree (.opening bracket :: waiting) operands state) :
  feed token state = .ok () ⟨waiting, tree :: operands⟩
  := by
  rw [feed_closing kind, holds _ _ fun _ => Waiting.not_isOpening_of_bindsWithin,
    settleWhile_of_stays]
  · simp
  · intro top mem
    cases mem
    rfl

/-- An operator behind a tree that binds no more loosely waits above the stacks that hold
the tree. -/
theorem feed_operator_of_holds
    {token : Token} {op : Operator} (kind : token.kind = .operator op) {tree : Node}
    {waiting : List Waiting} {operands : List Node} {state : Stacks}
    (holds : Holds op.precedence tree waiting operands state)
    (isOpen : Open op.precedence waiting) :
  feed token state = .ok () ⟨.operation op token.line :: waiting, tree :: operands⟩
  := by
  rw [feed_operator kind, holds _ _ fun top => (top.yieldsTo_iff op).mpr, settleWhile_of_stays]
  intro top mem
  rw [Bool.eq_false_iff]
  intro yields
  apply isOpen top mem
  apply (top.yieldsTo_iff op).mp yields

/-- A function that waits above its argument is as good as the call. -/
theorem holds_call
    (level : Nat) (name : String) (line : Nat) (argument : Node) (waiting : List Waiting)
    (operands : List Node) :
  Holds level ⟨.call, name, line, [argument]⟩ waiting operands
    ⟨.call name line :: waiting, argument :: operands⟩
  := by
  intro leaves _ binds
  simp [settleWhile, binds (.call name line) trivial, Waiting.settle?]

/-- Tokens that write a tree are taken one by one, and the stacks hold the tree then. -/
theorem forM_feed_of_written
    {level : Nat} {tokens : List Token} {tree : Node} (written : Written level tokens tree)
    {waiting : List Waiting} {operands : List Node} (isOpen : Open level waiting) :
  ∃ state, tokens.forM feed ⟨waiting, operands⟩ = .ok () state
    ∧ Holds level tree waiting operands state
  := by
  induction written generalizing waiting operands with
  | @number level token kind =>
    refine ⟨⟨waiting, .leaf .number token.text token.line :: operands⟩, ?_, fun _ _ _ => rfl⟩
    rw [forM_feed_cons, feed_number kind]
    rfl
  | @reference level token kind =>
    refine ⟨⟨waiting, .leaf .variable token.text token.line :: operands⟩, ?_, fun _ _ _ => rfl⟩
    rw [forM_feed_cons, feed_variable kind]
    rfl
  | @call level inner function opening closing tokens argument functionKind openingKind closingKind
      written ih =>
    obtain ⟨state, fed, holds⟩ := @ih _ operands
      (open_opening inner .square (.call function.text function.line :: waiting))
    refine ⟨⟨.call function.text function.line :: waiting, argument :: operands⟩, ?_,
      holds_call level _ _ argument waiting operands⟩
    simp only [List.cons_append, forM_feed_cons, forM_feed_append, feed_function functionKind,
      feed_opening openingKind, fed, feed_closing_of_holds closingKind holds]
    rfl
  | @operation level below op token lefts rights left right kind bare tighter writtenLeft
      writtenRight ihLeft ihRight =>
    have openLeft := isOpen.mono bare
    obtain ⟨stateLeft, fedLeft, holdsLeft⟩ := @ihLeft _ operands openLeft
    have openRight : Open below (.operation op token.line :: waiting) := by
      intro top mem binds
      cases mem
      apply Nat.not_le_of_lt tighter binds
    obtain ⟨state, fedRight, holdsRight⟩ := @ihRight _ (left :: operands) openRight
    refine ⟨state, ?_, ?_⟩
    · simp only [forM_feed_append, forM_feed_cons, fedLeft,
        feed_operator_of_holds kind holdsLeft openLeft, fedRight]
    · intro leaves line binds
      rw [holdsRight leaves line]
      · simp [settleWhile, binds (.operation op token.line) bare, Waiting.settle?]
      · intro top within
        apply binds
        cases top with
        | call => trivial
        | operation => apply Nat.le_trans within (Nat.le_trans (Nat.le_of_lt tighter) bare)
        | opening => contradiction
  | @bracketed level inner opening closing tokens tree openingKind closingKind written ih =>
    obtain ⟨state, fed, holds⟩ := @ih _ operands (open_opening inner .round waiting)
    refine ⟨⟨waiting, tree :: operands⟩, ?_, fun _ _ _ => rfl⟩
    simp only [List.cons_append, forM_feed_cons, forM_feed_append, feed_opening openingKind,
      fed, feed_closing_of_holds closingKind holds]
    rfl

/-- A tree that the stacks hold with nothing below it is the result, and leaves no trace. -/
theorem conclude_of_holds
    {level : Nat} {tree : Node} {state : Stacks} (holds : Holds level tree [] [] state)
    (line : Nat) :
  conclude line state = .ok tree empty
  := by
  rw [conclude_eq, holds _ _ fun _ => Waiting.not_isOpening_of_bindsWithin]
  rfl

end Stacks

/-- Tokens that write a tree in infix, with any brackets that are needed and any that are
not, are taken one by one by empty stacks, which yield the tree and are empty again. -/
theorem conclude_forM_feed_of_written
    {level : Nat} {tokens : List Token} {tree : Node} (written : Written level tokens tree)
    (line : Nat) :
  ∃ state, tokens.forM Stacks.feed .empty = .ok () state
    ∧ Stacks.conclude line state = .ok tree .empty
  := by
  have isOpen : Stacks.Open level [] := by
    intro top mem
    cases mem
  obtain ⟨state, fed, holds⟩ := @Stacks.forM_feed_of_written level tokens tree written [] [] isOpen
  exact ⟨state, fed, Stacks.conclude_of_holds holds line⟩

/-- The difference `9 - F[x] * 2 - (1)` groups to the left, and the bracket leaves no trace. -/
theorem conclude_forM_feed_difference :
  ∃ (tokens : List Token) (state : Stacks),
    tokens.map Token.text = ["9", "-", "F", "[", "x", "]", "*", "2", "-", "(", "1", ")"]
      ∧ Written 2 tokens
        ⟨.operation .subtract, "", 1,
          [⟨.operation .subtract, "", 1,
            [.leaf .number "9" 1,
              ⟨.operation .multiply, "", 1,
                [⟨.call, "F", 1, [.leaf .variable "x" 1]⟩, .leaf .number "2" 1]⟩]⟩,
            .leaf .number "1" 1]⟩
      ∧ tokens.forM Stacks.feed .empty = .ok () state
      ∧ Stacks.conclude 1 state = .ok
        ⟨.operation .subtract, "", 1,
          [⟨.operation .subtract, "", 1,
            [.leaf .number "9" 1,
              ⟨.operation .multiply, "", 1,
                [⟨.call, "F", 1, [.leaf .variable "x" 1]⟩, .leaf .number "2" 1]⟩]⟩,
            .leaf .number "1" 1]⟩ .empty
  := by
  have call : Written 1 [⟨.function, "F", 1, 5⟩, ⟨.opening .square, "[", 1, 6⟩,
      ⟨.variable, "x", 1, 7⟩, ⟨.closing .square, "]", 1, 8⟩]
      ⟨.call, "F", 1, [.leaf .variable "x" 1]⟩ :=
    @Written.call 1 0 _ _ _ [_] _ rfl rfl rfl (.reference rfl)
  have product : Written 1 _ _ := @Written.operation 1 0 .multiply ⟨.operator .multiply, "*", 1, 10⟩
    _ [⟨.number, "2", 1, 12⟩] _ _ rfl (by decide) (by decide) call (.number rfl)
  have difference : Written 2 _ _ := @Written.operation 2 1 .subtract
    ⟨.operator .subtract, "-", 1, 3⟩ [⟨.number, "9", 1, 1⟩] _ _ _ rfl (by decide) (by decide)
    (.number rfl) product
  have bracket : Written 0 [⟨.opening .round, "(", 1, 16⟩, ⟨.number, "1", 1, 17⟩,
      ⟨.closing .round, ")", 1, 18⟩] (.leaf .number "1" 1) :=
    @Written.bracketed 0 0 _ _ [_] _ rfl rfl (.number rfl)
  have written : Written 2 _ _ := @Written.operation 2 0 .subtract
    ⟨.operator .subtract, "-", 1, 14⟩ _ _ _ _ rfl (by decide) (by decide) difference bracket
  obtain ⟨state, fed, concluded⟩ := conclude_forM_feed_of_written written 1
  exact ⟨_, state, rfl, written, fed, concluded⟩

end IntScript.Expression
