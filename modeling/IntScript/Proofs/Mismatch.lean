import IntScript.Proofs.Brackets
import IntScript.Proofs.Rejection

/-!
# Mismatched brackets

The opening brackets that wait while an expression is built are those which are still open in
the word of brackets read so far.  An operand is never missed if the tokens may stand next to
each other, so that only a bracket can keep an expression from being built.  Main statement: the
expression of a statement is built if and only if its brackets are well nested, and otherwise
the first token is blamed behind which they cannot be any more.
-/

namespace IntScript

open Token

namespace Expression

/-! ### Brackets that wait -/

/-- The bracket that waits for its partner, if it is one that waits. -/
def Waiting.bracket? : Waiting → Option Bracket
  | .opening bracket => some bracket
  | _ => none

/-- The brackets among what waits. -/
def openings (waiting : List Waiting) : List Bracket :=
  waiting.filterMap Waiting.bracket?

theorem openings_cons_of_not_isOpening {top : Waiting} (h : top.isOpening = false)
    (below : List Waiting) :
  openings (top :: below) = openings below
  := by
  cases top with
  | opening => cases h
  | call | operation => rfl

namespace Stacks

/-- What waits misses an operand, or settles up to something that stays; and the brackets, which
stay, are still there. -/
theorem settleWhile_cases
    {leaves : Waiting → Bool} (stay : ∀ top, top.isOpening → leaves top = false) (line : Nat)
    (waiting : List Waiting) (operands : List Node) :
  (∃ state, settleWhile leaves line waiting operands = .error (.invalidExpression line) state)
    ∨ ∃ state, settleWhile leaves line waiting operands = .ok () state
      ∧ openings state.waiting = openings waiting
      ∧ ∀ top ∈ state.waiting.head?, leaves top = false
  := by
  induction waiting generalizing operands with
  | nil => exact .inr ⟨_, rfl, rfl, by simp⟩
  | cons top below ih =>
    rw [settleWhile]
    cases leavesTop : leaves top with
    | false => exact .inr ⟨_, rfl, rfl, by simpa using leavesTop⟩
    | true =>
      have notOpening : top.isOpening = false := by
        rw [Bool.eq_false_iff]
        intro isOpening
        rw [stay top isOpening] at leavesTop
        cases leavesTop
      rw [openings_cons_of_not_isOpening notOpening]
      cases top.settle? operands with
      | none => exact .inl ⟨_, rfl⟩
      | some operands' => apply ih operands'

/-- Before a closing bracket or the end, all that waits settles up to an opening bracket. -/
theorem settleWhile_not_isOpening_cases
    (line : Nat) (waiting : List Waiting) (operands : List Node) :
  (∃ state, settleWhile (fun top => !top.isOpening) line waiting operands
      = .error (.invalidExpression line) state)
    ∨ ∃ waiting' operands', settleWhile (fun top => !top.isOpening) line waiting operands
        = .ok () ⟨waiting', operands'⟩
      ∧ openings waiting' = openings waiting
      ∧ (waiting' = [] ∨ ∃ partner below, waiting' = .opening partner :: below)
  := by
  have stay : ∀ top : Waiting, top.isOpening → (!top.isOpening) = false := by
    simp
  rcases settleWhile_cases stay line waiting operands with
    missing | ⟨⟨waiting', operands'⟩, settled, same, stays⟩
  · exact .inl missing
  · refine .inr ⟨waiting', operands', settled, same, ?_⟩
    cases waiting' with
    | nil => exact .inl rfl
    | cons top below =>
      have isOpening := stays top rfl
      cases top with
      | opening partner => exact .inr ⟨partner, below, rfl⟩
      | call | operation => cases isOpening

end Stacks

end Expression

/-- The kinds of tokens that expressions consist of. -/
def Token.Kind.isOfExpression : Kind → Bool
  | .variable | .function | .number | .operator _ | .opening _ | .closing _ => true
  | _ => false

namespace Expression.Stacks

/-! ### Feeding a bracket -/

/-- What a token does to the brackets that wait: the stacks take it and meet its bracket, or
they refuse it for an operand, for a bracket that they do not meet or for its kind. -/
inductive Meets (token : Token) (state : Stacks) :
    EStateM.Result SyntaxError Stacks Unit → Prop where
  | taken (state' : Stacks)
      (met : meet? (openings state.waiting) token.kind = some (openings state'.waiting)) :
      Meets token state (.ok () state')
  | missing (state' : Stacks) : Meets token state (.error (.invalidExpression token.line) state')
  | unmet {bracket : Bracket} (kind : token.kind = .closing bracket) (state' : Stacks)
      (unmet : meet? (openings state.waiting) token.kind = none) :
      Meets token state (.error (.mismatchedBracket token.line) state')
  | unexpected (kind : token.kind.isOfExpression = false) :
      Meets token state (.error (.unexpected token) state)

theorem feed_operator_meets {token : Token} {op : Operator} (kind : token.kind = .operator op)
    (state : Stacks) :
  Meets token state (feed token state)
  := by
  have stay : ∀ top : Waiting, top.isOpening → top.yieldsTo op = false := by
    intro top isOpening
    cases top with
    | opening => rfl
    | call | operation => cases isOpening
  rw [feed_operator kind]
  rcases settleWhile_cases stay token.line state.waiting state.operands with
    ⟨state', missing⟩ | ⟨state', settled, same, -⟩
  · rw [missing]
    apply Meets.missing
  · rw [settled]
    apply Meets.taken
    rw [kind, meet?_of_not_isBracket rfl, ← same]
    rfl

theorem feed_closing_meets {token : Token} {bracket : Bracket}
    (kind : token.kind = .closing bracket) (state : Stacks) :
  Meets token state (feed token state)
  := by
  rw [feed_closing kind]
  rcases settleWhile_not_isOpening_cases token.line state.waiting state.operands with
    ⟨state', missing⟩ | ⟨waiting, operands, settled, same, rfl | ⟨partner, below, rfl⟩⟩
  · rw [missing]
    apply Meets.missing
  · rw [settled]
    apply Meets.unmet kind
    rw [kind, ← same]
    rfl
  · rw [settled]
    by_cases partners : partner = bracket
    · simp only [partners, if_true]
      apply Meets.taken
      rw [kind, ← same, partners]
      apply meet?_closing_self
    · simp only [partners, if_false]
      apply Meets.unmet kind
      rw [kind, ← same]
      exact if_neg partners

/-- Every token meets the brackets that wait. -/
theorem feed_meets (token : Token) (state : Stacks) :
  Meets token state (feed token state)
  := by
  cases kind : token.kind with
  | number =>
    rw [feed_number kind]
    exact .taken _ (by rw [kind, meet?_of_not_isBracket rfl])
  | «variable» =>
    rw [feed_variable kind]
    exact .taken _ (by rw [kind, meet?_of_not_isBracket rfl])
  | function =>
    rw [feed_function kind]
    exact .taken _ (by rw [kind, meet?_of_not_isBracket rfl]; rfl)
  | opening bracket =>
    rw [feed_opening kind]
    exact .taken _ (by rw [kind, meet?_opening]; rfl)
  | operator op => apply feed_operator_meets kind
  | closing bracket => apply feed_closing_meets kind
  | undefined | equals | print | read | endOfLine =>
    simp only [feed, kind]
    apply Meets.unexpected
    rw [kind]
    rfl

/-- An expression ends only when no bracket waits. -/
theorem openings_eq_nil_of_conclude
    {line : Nat} {state state' : Stacks} {tree : Node}
    (concluded : conclude line state = .ok tree state') :
  openings state.waiting = []
  := by
  rw [conclude_eq] at concluded
  rcases settleWhile_not_isOpening_cases line state.waiting state.operands with
    ⟨state', missing⟩ | ⟨waiting, operands, settled, same, rfl | ⟨partner, below, rfl⟩⟩
  · rw [missing] at concluded
    cases concluded
  · apply same.symm
  · rw [settled] at concluded
    cases concluded

/-- A bracket waits if the end of an expression is blamed for one. -/
theorem openings_ne_nil_of_conclude
    {line : Nat} {state state' : Stacks}
    (failed : conclude line state = .error (.mismatchedBracket line) state') :
  openings state.waiting ≠ []
  := by
  rw [conclude_eq] at failed
  rcases settleWhile_not_isOpening_cases line state.waiting state.operands with
    ⟨state', missing⟩ | ⟨waiting, operands, settled, same, rfl | ⟨partner, below, rfl⟩⟩
  · rw [missing] at failed
    cases failed
  · rw [settled] at failed
    cases operands with
    | nil => cases failed
    | cons _ operands => cases operands <;> cases failed
  · rw [← same]
    simp [openings, Waiting.bracket?]

/-! ### Building an expression -/

/-- Feeds the tokens of an expression and ends it on the given line. -/
def build (tokens : List Token) (line : Nat) : Build Node := do
  tokens.forM feed
  conclude line

theorem build_cons_of_ok
    {token : Token} {state state' : Stacks} (fed : feed token state = .ok () state')
    (tokens : List Token) (line : Nat) :
  build (token :: tokens) line state = build tokens line state'
  := by
  change EStateM.bind _ _ state = EStateM.bind _ _ state'
  unfold EStateM.bind
  rw [forM_feed_cons, fed]

theorem build_cons_of_error
    {token : Token} {state state' : Stacks} {error : SyntaxError}
    (failed : feed token state = .error error state') (tokens : List Token) (line : Nat) :
  build (token :: tokens) line state = .error error state'
  := by
  change EStateM.bind _ _ state = _
  unfold EStateM.bind
  rw [forM_feed_cons, failed]

end Expression.Stacks

/-- The token of a line at which the brackets of its expression are known not to match: a
closing bracket that cannot be repaired by what follows it, or the end of the line, if a bracket
is still open there. -/
inductive FirstMismatch (expression : List Token) (ending : Token) : Token → Prop where
  | closing {before after : List Token} {token : Token} {bracket : Bracket}
      (split : expression = before ++ token :: after) (kind : token.kind = .closing bracket)
      (closable : Closable (brackets before))
      (unclosable : ¬ Closable (brackets (before ++ [token]))) :
      FirstMismatch expression ending token
  | ending (closable : Closable (brackets expression))
      (unclosed : ¬ WellNested (brackets expression)) :
      FirstMismatch expression ending ending

theorem FirstMismatch.not_wellNested
    {expression : List Token} {ending token : Token}
    (mismatch : FirstMismatch expression ending token) :
  ¬ WellNested (brackets expression)
  := by
  cases mismatch with
  | ending _ unclosed => apply unclosed
  | @closing before after token bracket split _ _ unclosable =>
    intro wellNested
    apply unclosable
    refine ⟨brackets after, ?_⟩
    rw [← brackets_append, List.append_assoc, List.singleton_append, ← split]
    apply wellNested

/-- A token with which an expression may go on is part of it, unless it is one of three. -/
theorem Token.Phase.isOfExpression_of_admits
    {phase : Phase} {kind : Kind} (admits : phase.admits kind) (known : kind ≠ .undefined)
    (notEquals : kind ≠ .equals) (inside : kind ≠ .endOfLine) :
  kind.isOfExpression
  := by
  cases kind with
  | undefined | equals | endOfLine => contradiction
  | print | read => cases phase <;> cases admits
  | _ => rfl

/-- Each of the tokens may stand before the one behind it. -/
theorem Token.exists_mayStand_of_checkAdjacencyFrom
    {startsLine : Bool} {tokens rest : List Token} {token : Token}
    (checked : checkAdjacencyFrom startsLine (tokens ++ token :: rest) = .ok ()) :
  ∃ startsLine', MayStand startsLine' token rest.head?
  := by
  induction tokens generalizing startsLine with
  | nil => exact ⟨startsLine, ((checkAdjacencyFrom_cons _ _ _).mp checked).1⟩
  | cons first tokens ih => apply ih ((checkAdjacencyFrom_cons _ _ _).mp checked).2

theorem Token.MayStand.ne_undefined
    {startsLine : Bool} {token : Token} {next? : Option Token}
    (mayStand : MayStand startsLine token next?) :
  token.kind ≠ .undefined
  := by
  intro undefined
  cases next? with
  | none => apply mayStand.1 undefined
  | some next =>
    rw [MayStand, undefined] at mayStand
    cases mayStand

namespace Expression.Stacks

/-- What is built from the tokens of an expression: a tree if the brackets are well nested, and
else the token is blamed at which they are known not to be. -/
inductive Builds (expression : List Token) (ending : Token) :
    EStateM.Result SyntaxError Stacks Node → Prop where
  | tree (tree : Node) (wellNested : WellNested (brackets expression)) :
      Builds expression ending (.ok tree empty)
  | mismatched {token : Token} (state : Stacks)
      (mismatch : FirstMismatch expression ending token) :
      Builds expression ending (.error (.mismatchedBracket token.line) state)

/-- In the middle of an expression, its end yields a tree or finds an open bracket. -/
theorem Reading.builds_nil
    {before : List Token} {state : Stacks} (reading : Reading before .operator state)
    (met : unclosed? (brackets before) = some (openings state.waiting)) (ending : Token) :
  Builds before ending (build [] ending.line state)
  := by
  change Builds before ending (Stacks.conclude ending.line state)
  have isBracket := @isBracket_of_mem_brackets before
  rcases reading.conclude ending.line with ⟨tree, concluded, -⟩ | ⟨state', failed⟩
  · rw [concluded]
    apply Builds.tree
    rw [wellNested_iff isBracket, met, openings_eq_nil_of_conclude concluded]
  · rw [failed]
    apply Builds.mismatched
    apply FirstMismatch.ending
    · apply (closable_iff isBracket).mpr ⟨_, met⟩
    · rw [wellNested_iff isBracket, met, Option.some_inj]
      apply openings_ne_nil_of_conclude failed

/-- In the middle of an expression whose tokens may stand next to each other, only a bracket can
be missing. -/
theorem Reading.builds
    {before tokens : List Token} {phase : Phase} {state : Stacks} {ending : Token}
    (reading : Reading before phase state)
    (met : unclosed? (brackets before) = some (openings state.waiting))
    (admits : ∀ next ∈ (tokens ++ [ending]).head?, phase.admits next.kind = true)
    (checked : checkAdjacencyFrom false (tokens ++ [ending]) = .ok ())
    (inside : ∀ token ∈ tokens, token.kind ≠ .endOfLine ∧ token.kind ≠ .equals)
    (ends : ending.kind = .endOfLine) :
  Builds (before ++ tokens) ending (build tokens ending.line state)
  := by
  induction tokens generalizing before phase state with
  | nil =>
    have admitsEnd := admits ending rfl
    rw [ends] at admitsEnd
    rw [List.append_nil]
    cases phase with
    | operand | argument => cases admitsEnd
    | operator => apply reading.builds_nil met
  | cons token tokens ih =>
    rw [List.forall_mem_cons] at inside
    obtain ⟨⟨inLine, notEquals⟩, inside⟩ := inside
    rw [List.cons_append, checkAdjacencyFrom_cons, beq_eq_false_iff_ne.mpr inLine] at checked
    have admitsToken := admits token rfl
    have goesOn := reading.feed admitsToken
    have meets := feed_meets token state
    have metNext := unclosed?_brackets_concat before token
    rw [met, Option.bind_some] at metNext
    cases result : Stacks.feed token state with
    | ok _ next =>
      rw [result] at goesOn meets
      cases meets with
      | taken _ metToken =>
        rw [build_cons_of_ok result, List.append_cons]
        rw [metToken] at metNext
        apply ih goesOn metNext (checked.1.admits inLine) checked.2 inside
    | error error next =>
      rw [result] at goesOn meets
      rw [build_cons_of_error result]
      cases meets with
      | missing =>
        -- The stacks are reading, and then a refused token is to blame itself.
        have ofStatement : (SyntaxError.invalidExpression token.line).ofStatement := by
          rcases goesOn with same | same
          · cases same
          · rw [same]
            apply SyntaxError.ofStatement_unexpected
        cases ofStatement
      | unexpected kind =>
        rw [Phase.isOfExpression_of_admits admitsToken checked.1.ne_undefined notEquals inLine]
          at kind
        cases kind
      | unmet kind _ unmet =>
        apply Builds.mismatched
        apply FirstMismatch.closing rfl kind
        · apply (closable_iff isBracket_of_mem_brackets).mpr ⟨_, met⟩
        · rw [closable_iff isBracket_of_mem_brackets, metNext, unmet]
          simp

end Expression.Stacks

/-! ### Statements with an expression -/

namespace Statement

/-- The tokens in front of the expression of a statement. -/
inductive Opens : List Token → Prop where
  | assignment {name equals : Token} (nameKind : name.kind = .variable)
      (equalsKind : equals.kind = .equals) : Opens [name, equals]
  | definition {function opening parameter closing equals : Token}
      (functionKind : function.kind = .function) (openingKind : opening.kind = .opening .square)
      (parameterKind : parameter.kind = .variable) (closingKind : closing.kind = .closing .square)
      (equalsKind : equals.kind = .equals) :
      Opens [function, opening, parameter, closing, equals]
  | print {keyword : Token} (kind : keyword.kind = .print) : Opens [keyword]

/-- An equality sign or the word `print` stands right before the expression. -/
theorem Opens.exists_concat {header : List Token} (opens : Opens header) :
  ∃ front last, header = front ++ [last] ∧ (last.kind = .equals ∨ last.kind = .print)
  := by
  cases opens with
  | @assignment name equals nameKind equalsKind => exact ⟨[name], equals, rfl, .inl equalsKind⟩
  | @definition function opening parameter closing equals _ _ _ _ equalsKind =>
    exact ⟨[function, opening, parameter, closing], equals, rfl, .inl equalsKind⟩
  | @print keyword kind => exact ⟨[], keyword, rfl, .inr kind⟩

/-- The expression of a statement whose tokens may stand next to each other misses at most a
bracket. -/
theorem Opens.builds
    {header expression : List Token} {ending : Token} (opens : Opens header)
    (ends : ending.kind = .endOfLine)
    (inside : ∀ token ∈ expression, token.kind ≠ .endOfLine ∧ token.kind ≠ .equals)
    (checked : checkAdjacency (header ++ expression ++ [ending]) = .ok ()) :
  Expression.Stacks.Builds expression ending
    (Expression.Stacks.build expression ending.line .empty)
  := by
  obtain ⟨front, last, rfl, kind⟩ := opens.exists_concat
  have inLine : last.kind ≠ .endOfLine := by
    rcases kind with kind | kind <;> simp [kind]
  rw [List.append_assoc, List.append_assoc] at checked
  have checkedBehind := checkAdjacencyFrom_behind checked
  obtain ⟨startsLine, mayStand⟩ := exists_mayStand_of_checkAdjacencyFrom checked
  rw [beq_eq_false_iff_ne.mpr inLine] at checkedBehind
  apply Expression.Stacks.Reading.builds (.operand .start) rfl (mayStand.admits_operand kind)
    checkedBehind inside ends

end Statement

namespace Program

/-- No list of tokens is rejected for an expression without its operands.  Moreover, let the
tokens of a line that assigns, defines or prints be such that they may stand next to each other,
with no further equality sign.  Its expression can be built if and only if its brackets are
well nested, and otherwise the token is blamed at which they are first known not to be. -/
theorem expressions_fail_only_on_brackets :
  (∀ (tokens : List Token) (line : Nat), ofTokens tokens ≠ .error (.invalidExpression line))
    ∧ ∀ (header expression : List Token) (ending : Token), Statement.Opens header →
      ending.kind = .endOfLine →
      (∀ token ∈ expression, token.kind ≠ .endOfLine ∧ token.kind ≠ .equals) →
      checkAdjacency (header ++ expression ++ [ending]) = .ok () →
      ((∃ tree state, Expression.Stacks.build expression ending.line .empty = .ok tree state)
          ↔ WellNested (brackets expression))
        ∧ (¬ WellNested (brackets expression) →
          ∃ token state, FirstMismatch expression ending token
            ∧ Expression.Stacks.build expression ending.line .empty
              = .error (.mismatchedBracket token.line) state)
  := by
  constructor
  · intro tokens line rejected
    rcases ofStatement_of_ofTokens rejected with ofStatement | selfCall
    · cases ofStatement
    · obtain ⟨call, same⟩ := exists_call_of_checkSelfCalls selfCall
      cases same
  · intro header expression ending opens ends inside checked
    have builds := opens.builds ends inside checked
    generalize Expression.Stacks.build expression ending.line .empty = result at builds
    cases builds with
    | tree tree wellNested =>
      exact ⟨⟨fun _ => wellNested, fun _ => ⟨tree, _, rfl⟩⟩, fun unclosed =>
        absurd wellNested unclosed⟩
    | @mismatched token state mismatch =>
      refine ⟨⟨?_, ?_⟩, fun _ => ⟨token, state, mismatch, rfl⟩⟩
      · rintro ⟨tree, state', built⟩
        cases built
      · intro wellNested
        exact absurd wellNested mismatch.not_wellNested

/-- The tokens of the expression `(F[1)]`. -/
def crossedTokens : List Token :=
  [⟨.opening .round, "(", 1, 5⟩, ⟨.function, "F", 1, 6⟩, ⟨.opening .square, "[", 1, 7⟩,
    ⟨.number, "1", 1, 8⟩, ⟨.closing .round, ")", 1, 9⟩, ⟨.closing .square, "]", 1, 10⟩]

/-- In `x = (F[1)]` the brackets are not well nested, and one of them is blamed. -/
theorem expressions_fail_only_on_brackets_crossed :
  ¬ WellNested (brackets crossedTokens)
    ∧ ∃ token state, FirstMismatch crossedTokens ⟨.endOfLine, "", 1, 11⟩ token
      ∧ Expression.Stacks.build crossedTokens 1 .empty
        = .error (.mismatchedBracket token.line) state
  := by
  have unclosed : ¬ WellNested (brackets crossedTokens) := by
    rw [wellNested_iff isBracket_of_mem_brackets]
    decide
  obtain ⟨-, lines⟩ := expressions_fail_only_on_brackets
  obtain ⟨-, mismatch⟩ := lines [⟨.variable, "x", 1, 1⟩, ⟨.equals, "=", 1, 3⟩] crossedTokens
    ⟨.endOfLine, "", 1, 11⟩ (.assignment rfl rfl) rfl (by decide) rfl
  exact ⟨unclosed, mismatch unclosed⟩

end Program

end IntScript
