import IntScript.Proofs.Mismatch

/-!
# Using the stacks again

The stacks on which expressions are built may be used again after the end of an expression, and
then they should be as good as new.  `Stacks.Fresh` says that they answer like empty stacks,
whatever they are asked for later.  Main statement: after the end of an expression the stacks are
fresh exactly if they are empty.  So they are after a tree, but not after the end met an open
bracket, and after a missing operand only if nothing waits below.
-/

namespace IntScript.Expression

/-- Operations take two operands, where a call takes one. -/
def Waiting.isOperation : Waiting → Bool
  | .operation _ _ => true
  | _ => false

/-! ### Requests -/

/-- What stacks can be asked for: to take a token, or to end the expression at a token. -/
inductive Request where
  | feed (token : Token)
  | conclude (ending : Token)

namespace Stacks

/-- The action that a request stands for.  It yields a tree if it ends an expression. -/
def serve : Request → Build (Option Node)
  | .feed token => do
    feed token
    return none
  | .conclude ending => do
    return some (← conclude ending.line)

/-- What an action on the stacks yields, or the error with which it fails. -/
def answer {α : Type} : EStateM.Result SyntaxError Stacks α → Except SyntaxError α
  | .ok a _ => .ok a
  | .error error _ => .error error

/-- The stacks after requests that are made one after the other, whether they fail or not. -/
def after (requests : List Request) (state : Stacks) : Stacks :=
  requests.foldl (fun state request => left (serve request state)) state

/-- The answers to requests that are made one after the other, whether they fail or not. -/
def answers : List Request → Stacks → List (Except SyntaxError (Option Node))
  | [], _ => []
  | request :: requests, state =>
    answer (serve request state) :: answers requests (left (serve request state))

/-- Stacks are fresh if they answer all requests like empty ones. -/
def Fresh (state : Stacks) : Prop :=
  ∀ requests, answers requests state = answers requests empty

theorem serve_conclude (ending : Token) (state : Stacks) :
  serve (.conclude ending) state = match conclude ending.line state with
    | .ok tree state => .ok (some tree) state
    | .error error state => .error error state
  := by
  change EStateM.bind _ _ state = _
  unfold EStateM.bind
  cases conclude ending.line state <;> rfl

/-! ### Telling stacks apart -/

/-- Nothing settles, or a node with children comes to the top of the operands. -/
theorem settleWhile_eq_or_children
    {leaves : Waiting → Bool} {line : Nat} {waiting : List Waiting} {operands : List Node}
    {state : Stacks} (settled : settleWhile leaves line waiting operands = .ok () state) :
  state = ⟨waiting, operands⟩ ∨ ∃ node ∈ state.operands.head?, node.children ≠ []
  := by
  induction waiting generalizing operands with
  | nil =>
    cases settled
    exact .inl rfl
  | cons top below ih =>
    rw [settleWhile] at settled
    split at settled
    · split at settled
      · rename_i operands' settles
        right
        rcases ih settled with rfl | made
        · have settles := Waiting.settles_of_settle? settles
          cases settles with
          | call => exact ⟨_, rfl, List.cons_ne_nil _ _⟩
          | operation => exact ⟨_, rfl, List.cons_ne_nil _ _⟩
        · exact made
      · cases settled
    · cases settled
      exact .inl rfl

/-- Behind a leaf nothing else makes an expression, so that only empty stacks make one of it. -/
theorem eq_empty_of_conclude
    {line : Nat} {state state' : Stacks} {leaf : Node} (isLeaf : leaf.children = [])
    (concluded : conclude line ⟨state.waiting, leaf :: state.operands⟩ = .ok leaf state') :
  state = empty
  := by
  obtain ⟨settled, -⟩ := settled_of_conclude concluded
  rcases settleWhile_eq_or_children settled with same | ⟨node, top, children⟩
  · obtain ⟨waiting, operands⟩ := state
    cases same
    rfl
  · cases top
    exact absurd isLeaf children

/-- Only empty stacks are fresh: for no others a number is an expression by itself. -/
theorem fresh_iff {state : Stacks} :
  state.Fresh ↔ state = empty
  := by
  constructor
  · intro fresh
    let number : Token := ⟨.number, "0", 1, 1⟩
    have same := fresh [.feed number, .conclude number]
    have fed (state : Stacks) : answers [.feed number, .conclude number] state
        = [.ok none, answer (serve (.conclude number)
          ⟨state.waiting, .leaf .number "0" 1 :: state.operands⟩)] := rfl
    rw [fed, fed, serve_conclude] at same
    cases concluded : conclude 1 ⟨state.waiting, .leaf .number "0" 1 :: state.operands⟩ with
    | error error state' =>
      rw [concluded] at same
      cases same
    | ok tree state' =>
      rw [concluded] at same
      cases same
      apply eq_empty_of_conclude rfl concluded
  · rintro rfl requests
    rfl

/-! ### What the end of an expression leaves -/

/-- What comes of the end of an expression: all that waits settles, to a single tree or not, or it
settles up to an open bracket, which stays with all below it, or up to what misses an operand, and
what lies below that stays. -/
inductive Concludes (state : Stacks) (line : Nat) :
    EStateM.Result SyntaxError Stacks Node → Prop where
  | tree (tree : Node) : Concludes state line (.ok tree empty)
  | leftover : Concludes state line (.error (.invalidExpression line) empty)
  | unclosed {partner : Bracket} {below : List Waiting}
      (suffix : .opening partner :: below <:+ state.waiting) (operands : List Node) :
      Concludes state line (.error (.mismatchedBracket line) ⟨.opening partner :: below, operands⟩)
  | missing {top : Waiting} {below : List Waiting} (suffix : top :: below <:+ state.waiting)
      (notOpening : top.isOpening = false) :
      Concludes state line (.error (.invalidExpression line) ⟨below, []⟩)

/-- No bracket waits, and all that waits above the lowest finds its operands.  An operation takes
two of them and leaves one, so that there have to be more operands than operations. -/
structure Restorable (state : Stacks) : Prop where
  closed : ∀ top ∈ state.waiting, top.isOpening = false
  settles : state.waiting.dropLast = [] ∨
    state.waiting.dropLast.countP Waiting.isOperation < state.operands.length

/-- What waits on top counts as soon as something lies below it. -/
theorem restorable_cons_iff {top : Waiting} {below : List Waiting} {operands : List Node} :
  Restorable ⟨top :: below, operands⟩
    ↔ top.isOpening = false ∧ (∀ top ∈ below, top.isOpening = false)
      ∧ (below = [] ∨ (top :: below.dropLast).countP Waiting.isOperation < operands.length)
  := by
  have settles : ((top :: below).dropLast = []
        ∨ (top :: below).dropLast.countP Waiting.isOperation < operands.length)
      ↔ (below = [] ∨ (top :: below.dropLast).countP Waiting.isOperation < operands.length) := by
    cases below <;> simp [List.dropLast]
  constructor
  · rintro ⟨closed, settled⟩
    rw [List.forall_mem_cons] at closed
    exact ⟨closed.1, closed.2, settles.mp settled⟩
  · rintro ⟨notOpening, closed, settled⟩
    exact ⟨List.forall_mem_cons.mpr ⟨notOpening, closed⟩, settles.mpr settled⟩

theorem restorable_cons_of_settles {top : Waiting} {below : List Waiting}
    {operands operands' : List Node} (settles : top.Settles operands operands') :
  Restorable ⟨top :: below, operands⟩ ↔ Restorable ⟨below, operands'⟩
  := by
  have length : operands.length
      = operands'.length + [top].countP Waiting.isOperation ∧ 0 < operands'.length := by
    cases settles with
    | call => exact ⟨rfl, Nat.succ_pos _⟩
    | operation => exact ⟨rfl, Nat.succ_pos _⟩
  have notOpening : top.isOpening = false := by cases settles <;> rfl
  rw [restorable_cons_iff, ← List.singleton_append, List.countP_append, length.1]
  constructor
  · rintro ⟨-, closed, rfl | fewer⟩
    · exact ⟨closed, .inl rfl⟩
    · have fewer : below.dropLast.countP Waiting.isOperation < operands'.length := by omega
      exact ⟨closed, .inr fewer⟩
  · rintro ⟨closed, settled⟩
    have fewer : below.dropLast.countP Waiting.isOperation < operands'.length := by
      rcases settled with nil | fewer
      · change below.dropLast = [] at nil
        rw [nil]
        exact length.2
      · exact fewer
    exact ⟨notOpening, closed, .inr (by omega)⟩

theorem restorable_cons_of_missing {top : Waiting} {below : List Waiting} {operands : List Node}
    (notOpening : top.isOpening = false) (missing : top.settle? operands = none) :
  Restorable ⟨top :: below, operands⟩ ↔ below = []
  := by
  have few : operands.length ≤ [top].countP Waiting.isOperation := by
    match top, operands with
    | .call _ _, [] => exact Nat.zero_le _
    | .operation _ _, [] => exact Nat.zero_le _
    | .operation _ _, [_] => exact Nat.le_refl _
  rw [restorable_cons_iff, ← List.singleton_append, List.countP_append]
  constructor
  · rintro ⟨-, -, nil | fewer⟩
    · exact nil
    · omega
  · rintro rfl
    exact ⟨notOpening, nofun, .inl rfl⟩

/-- Nothing waits any more once all that can has settled exactly if the stacks are restorable. -/
theorem left_settleWhile_waiting_eq_nil_iff (line : Nat) (waiting : List Waiting)
    (operands : List Node) :
  (left (settleWhile (fun top => !top.isOpening) line waiting operands)).waiting = []
    ↔ Restorable ⟨waiting, operands⟩
  := by
  induction waiting generalizing operands with
  | nil => exact ⟨fun _ => ⟨nofun, .inl rfl⟩, fun _ => rfl⟩
  | cons top below ih =>
    rw [settleWhile]
    cases isOpening : top.isOpening with
    | true =>
      rw [restorable_cons_iff, isOpening]
      simp [left]
    | false =>
      cases settled : top.settle? operands with
      | none =>
        rw [restorable_cons_of_missing isOpening settled]
        rfl
      | some operands' =>
        rw [restorable_cons_of_settles (Waiting.settles_of_settle? settled), ← ih]
        rfl

/-- What comes of settling all that can: nothing waits any more, or an open bracket is met, or
something misses an operand and is lost with those it found. -/
inductive Drains (line : Nat) (waiting : List Waiting) :
    EStateM.Result SyntaxError Stacks Unit → Prop where
  | all (operands : List Node) : Drains line waiting (.ok () ⟨[], operands⟩)
  | unclosed {partner : Bracket} {below : List Waiting}
      (suffix : .opening partner :: below <:+ waiting) (operands : List Node) :
      Drains line waiting (.ok () ⟨.opening partner :: below, operands⟩)
  | missing {top : Waiting} {below : List Waiting} (suffix : top :: below <:+ waiting)
      (notOpening : top.isOpening = false) :
      Drains line waiting (.error (.invalidExpression line) ⟨below, []⟩)

theorem Drains.cons {line : Nat} {below : List Waiting}
    {result : EStateM.Result SyntaxError Stacks Unit} (drains : Drains line below result)
    (top : Waiting) :
  Drains line (top :: below) result
  := by
  cases drains with
  | all operands => exact .all operands
  | unclosed suffix operands => exact .unclosed (suffix.trans (List.suffix_cons _ _)) operands
  | missing suffix notOpening => exact .missing (suffix.trans (List.suffix_cons _ _)) notOpening

theorem drains (line : Nat) (waiting : List Waiting) (operands : List Node) :
  Drains line waiting (settleWhile (fun top => !top.isOpening) line waiting operands)
  := by
  induction waiting generalizing operands with
  | nil => exact .all operands
  | cons top below ih =>
    rw [settleWhile]
    cases isOpening : top.isOpening with
    | true =>
      cases top with
      | opening partner => exact .unclosed (List.suffix_refl _) operands
      | call | operation => cases isOpening
    | false =>
      cases top.settle? operands with
      | none => exact .missing (List.suffix_refl _) isOpening
      | some operands' => exact (ih operands').cons top

theorem concludes (state : Stacks) (line : Nat) :
  Concludes state line (conclude line state)
  := by
  have drains := drains line state.waiting state.operands
  rw [conclude_eq]
  generalize settleWhile _ line state.waiting state.operands = result at drains
  cases drains with
  | all operands =>
    match operands with
    | [tree] => exact .tree tree
    | [] | _ :: _ :: _ => exact .leftover
  | unclosed suffix operands => exact .unclosed suffix operands
  | missing suffix notOpening => exact .missing suffix notOpening

/-- The stacks are empty after the end of an expression exactly if they were restorable. -/
theorem left_conclude_eq_empty_iff (state : Stacks) (line : Nat) :
  left (conclude line state) = empty ↔ state.Restorable
  := by
  have drains := drains line state.waiting state.operands
  rw [← left_settleWhile_waiting_eq_nil_iff line, conclude_eq]
  generalize settleWhile _ line state.waiting state.operands = result at drains
  cases drains with
  | all operands =>
    match operands with
    | [_] | [] | _ :: _ :: _ => exact ⟨fun _ => rfl, fun _ => rfl⟩
  | unclosed => exact ⟨nofun, nofun⟩
  | @missing top below _ _ =>
    constructor
    · exact congrArg Stacks.waiting
    · rintro (rfl : below = [])
      rfl

/-- Whatever the stacks hold, they are empty after the end of an expression exactly if they were
restorable, and otherwise a later request tells them from empty ones: what is left then still waits
for a bracket, or lies below what missed an operand. -/
theorem conclude_restores_iff (state : Stacks) (ending : Token) :
  Concludes state ending.line (conclude ending.line state)
    ∧ (left (conclude ending.line state) = empty ↔ state.Restorable)
    ∧ (Fresh (left (conclude ending.line state)) ↔ state.Restorable)
  := by
  have restores := left_conclude_eq_empty_iff state ending.line
  exact ⟨concludes state ending.line, restores, fresh_iff.trans restores⟩

/-- The end of an expression may leave a bracket behind that was open. -/
theorem not_restores_always :
  ¬ ∀ (tokens : List Token) (ending : Token),
    left (conclude ending.line (after (tokens.map .feed) empty)) = empty
      ∧ Fresh (left (conclude ending.line (after (tokens.map .feed) empty)))
  := by
  intro restores
  obtain ⟨isEmpty, -⟩ := restores [⟨.opening .round, "(", 1, 1⟩] ⟨.endOfLine, "", 1, 2⟩
  cases congrArg Stacks.waiting isEmpty

end Stacks

end IntScript.Expression
