import IntScript.Proofs.Acceptance

/-!
# Rejection

For what a program is rejected.  Tokens that may not stand next to each other and definitions
that call themselves are found before a statement is looked at.  What is left to be wrong with
a statement then is where its tokens stand in the line, or a bracket without a partner; an
expression always has the operands that its operators need.  Main statement: a rejected list of
tokens is rejected for one of these causes.
-/

namespace IntScript

open Token

/-! ### Causes -/

namespace SyntaxError

/-- The causes other than missing operands for which a statement is rejected by itself. -/
def ofStatement : SyntaxError → Bool
  | unexpectedSymbol _ _ _ | unexpectedToken _ _ _ | unexpectedEndOfLine _ | expectedEquals _ _
  | invalidDefinition _ | invalidRead _ | mismatchedBracket _ => true
  | invalidExpression _ | recursiveDefinition _ _ _ => false

theorem ofStatement_unexpected (token : Token) :
  (unexpected token).ofStatement
  := by
  unfold unexpected
  split <;> rfl

end SyntaxError

/-- Neighbours are rejected for a token or because one is missing. -/
theorem Token.ofStatement_of_checkAdjacencyFrom
    {startsLine : Bool} {tokens : List Token} {error : SyntaxError}
    (failed : checkAdjacencyFrom startsLine tokens = .error error) :
  error.ofStatement
  := by
  induction tokens generalizing startsLine with
  | nil => cases failed
  | cons token rest ih =>
    rw [checkAdjacencyFrom] at failed
    cases checked : checkNext startsLine token rest.head? with
    | ok =>
      rw [checked] at failed
      apply ih failed
    | error error' =>
      rw [checked] at failed
      cases failed
      unfold checkNext at checked
      split at checked
      · cases checked
        apply SyntaxError.ofStatement_unexpected
      · split at checked <;> split at checked <;> cases checked
        · rfl
        · apply SyntaxError.ofStatement_unexpected

/-- What is rejected as a self call names the function that starts its line. -/
theorem Token.exists_selfCall_of_checkSelfCalls
    {tokens : List Token} {error : SyntaxError} (failed : checkSelfCalls tokens = .error error) :
  ∃ first rest call, first :: rest ∈ Token.lines tokens ∧ call ∈ rest
    ∧ first.kind = .function ∧ call.kind = .function ∧ first.text = call.text
    ∧ error = .recursiveDefinition call.text call.line call.column
  := by
  unfold checkSelfCalls at failed
  split at failed <;> cases failed
  rename_i call found
  obtain ⟨line, mem, found⟩ := List.exists_of_findSome?_eq_some found
  unfold selfCall? at found
  split at found
  · cases found
  · split at found
    · rename_i first rest kind
      have names := List.find?_some found
      rw [Bool.and_eq_true, beq_iff_eq, beq_iff_eq] at names
      exact ⟨first, rest, call, mem, List.mem_of_find?_eq_some found, kind, names.1, names.2.symm,
        rfl⟩
    · cases found

/-- Self calls are reported as such. -/
theorem Token.exists_call_of_checkSelfCalls
    {tokens : List Token} {error : SyntaxError} (failed : checkSelfCalls tokens = .error error) :
  ∃ call : Token, error = .recursiveDefinition call.text call.line call.column
  := by
  obtain ⟨_, _, call, -, -, -, -, -, same⟩ := exists_selfCall_of_checkSelfCalls failed
  exact ⟨call, same⟩

/-! ### Statements -/

/-- An expression may go on with the token behind one of its own. -/
theorem Token.MayStand.admits
    {startsLine : Bool} {token : Token} {next? : Option Token}
    (mayStand : MayStand startsLine token next?) (inside : token.kind ≠ .endOfLine) :
  ∀ next ∈ next?, (Phase.behind token.kind).admits next.kind = true
  := by
  rintro next rfl
  apply Phase.admits_behind mayStand inside

/-- An operand has to come behind a token that begins an expression. -/
theorem Token.MayStand.admits_operand
    {startsLine : Bool} {token : Token} {next? : Option Token}
    (mayStand : MayStand startsLine token next?)
    (kind : token.kind = .equals ∨ token.kind = .print) :
  ∀ next ∈ next?, Phase.operand.admits next.kind = true
  := by
  have admits := mayStand.admits (by rcases kind with kind | kind <;> simp [kind])
  rcases kind with kind | kind <;> rwa [kind] at admits

/-- What an expression is rejected for if its tokens may stand next to each other. -/
theorem Expression.ofStatement_of_parseFrom
    {before tokens rest : List Token} {phase : Phase} {state : Stacks} {start : Nat}
    {error : SyntaxError} (reading : Stacks.Reading before phase state)
    (admits : ∀ next ∈ tokens.head?, phase.admits next.kind = true)
    (checked : checkAdjacencyFrom false (tokens ++ rest) = .ok ())
    (failed : parseFrom start state tokens = .error error) :
  error.ofStatement
  := by
  induction tokens generalizing before phase state with
  | nil =>
    cases failed
    rfl
  | cons token tokens ih =>
    have admitsToken := admits token rfl
    rw [parseFrom] at failed
    by_cases ends : token.kind = .endOfLine
    · rw [if_pos ends] at failed
      rw [ends] at admitsToken
      cases phase with
      | operand | argument => cases admitsToken
      | operator =>
        rcases reading.conclude token.line with ⟨tree, concluded, -⟩ | ⟨state', mismatched⟩
        · rw [concluded] at failed
          cases failed
        · rw [mismatched] at failed
          cases failed
          rfl
    · rw [if_neg ends] at failed
      rw [List.cons_append, checkAdjacencyFrom_cons, beq_eq_false_iff_ne.mpr ends] at checked
      have goesOn := reading.feed admitsToken
      cases result : Stacks.feed token state with
      | error error' next =>
        rw [result] at failed goesOn
        cases failed
        rcases goesOn with rfl | rfl
        · rfl
        · apply SyntaxError.ofStatement_unexpected
      | ok _ next =>
        rw [result] at failed goesOn
        apply ih goesOn _ checked.2 failed
        intro following mem
        apply checked.1.admits ends
        rw [List.head?_append, mem, Option.some_or]
        rfl

namespace Statement

/-- What a statement is rejected for behind a token that needs an operand. -/
theorem ofStatement_of_parse
    {token : Token} {tokens rest : List Token} {startsLine : Bool} {start : Nat}
    {error : SyntaxError} (kind : token.kind = .equals ∨ token.kind = .print)
    (checked : checkAdjacencyFrom startsLine (token :: tokens ++ rest) = .ok ())
    (failed : Expression.parse start tokens = .error error) :
  error.ofStatement
  := by
  have inLine : token.kind ≠ .endOfLine := by
    rcases kind with kind | kind <;> simp [kind]
  rw [List.cons_append, checkAdjacencyFrom_cons, beq_eq_false_iff_ne.mpr inLine] at checked
  apply Expression.ofStatement_of_parseFrom (.operand .start) _ checked.2 failed
  intro next mem
  apply checked.1.admits_operand kind
  rw [List.head?_append, mem, Option.some_or]
  rfl

/-- What is mapped into an error was one. -/
theorem error_of_map_eq_error
    {ε α β : Type} {result : Except ε α} {f : α → β} {error : ε}
    (h : result.map f = .error error) :
  result = .error error
  := by
  cases result with
  | error error =>
    cases h
    rfl
  | ok a => cases h

/-- What a line is rejected for if its tokens may stand next to each other. -/
theorem ofStatement_of_ofLine
    {line rest : List Token} {error : SyntaxError}
    (checked : checkAdjacencyFrom true (line ++ rest) = .ok ())
    (failed : ofLine line = .error error) :
  error.ofStatement
  := by
  unfold ofLine at failed
  split at failed
  · cases failed
  · split at failed
    · split at failed
      · apply ofStatement_of_parse (.inl rfl) ((checkAdjacencyFrom_cons _ _ _).mp checked).2
          (error_of_map_eq_error failed)
      · cases failed
        rfl
    · split at failed
      · have checkedBody := @checkAdjacencyFrom_behind true [_, _, _] _ _ checked
        apply ofStatement_of_parse (.inl rfl) checkedBody (error_of_map_eq_error failed)
      · cases failed
        rfl
    · split at failed
      · cases failed
      · cases failed
        rfl
    · rename_i kind
      apply ofStatement_of_parse (.inr kind) checked (error_of_map_eq_error failed)
    · cases failed
    · cases failed
      apply SyntaxError.ofStatement_unexpected

end Statement

/-! ### Programs -/

namespace Program

/-- What lines are rejected for if their tokens may stand next to each other. -/
theorem ofStatement_of_statementsFrom
    {lines : List Line} {done : List Node} {error : SyntaxError}
    (checked : checkAdjacencyFrom true (lines.flatMap Line.tokens) = .ok ())
    (inside : ∀ line ∈ lines, ∀ token ∈ line.body, token.kind ≠ .endOfLine)
    (failed : statementsFrom done (lines.map Line.tokens) = .error error) :
  error.ofStatement
  := by
  induction lines generalizing done with
  | nil => cases failed
  | cons line lines ih =>
    rw [List.forall_mem_cons] at inside
    rw [List.flatMap_cons] at checked
    rw [List.map_cons, statementsFrom] at failed
    cases made : Statement.ofLine line.tokens with
    | error error' =>
      rw [made] at failed
      cases failed
      apply Statement.ofStatement_of_ofLine checked made
    | ok node? =>
      have ends := line.ending_of_holds (Statement.holds_of_ofLine made) inside.1
      rw [Line.tokens, List.append_assoc] at checked
      have checkedRest := checkAdjacencyFrom_behind checked
      rw [ends] at checkedRest
      rw [made] at failed
      cases node? <;> apply ih checkedRest inside.2 failed

/-- Tokens that make up no program are rejected for a definition that calls itself, or for one
of the other causes, among which missing operands are not. -/
theorem ofStatement_of_ofTokens
    {tokens : List Token} {error : SyntaxError} (rejected : ofTokens tokens = .error error) :
  error.ofStatement ∨ checkSelfCalls tokens = .error error
  := by
  unfold ofTokens at rejected
  cases checked : checkAdjacency tokens with
  | error error' =>
    rw [checked] at rejected
    cases rejected
    exact .inl (ofStatement_of_checkAdjacencyFrom checked)
  | ok =>
    rw [checked] at rejected
    cases noSelfCalls : checkSelfCalls tokens with
    | error error' =>
      rw [noSelfCalls] at rejected
      cases rejected
      exact .inr rfl
    | ok =>
      rw [noSelfCalls] at rejected
      have failed := Statement.error_of_map_eq_error rejected
      obtain ⟨lines, cut, inside⟩ := Line.exists_lines tokens
      have same : tokens = lines.flatMap Line.tokens := by
        rw [List.flatMap_def, ← cut]
        apply (flatten_segments tokens).symm
      rw [statements, cut] at failed
      rw [same] at checked
      exact .inl (ofStatement_of_statementsFrom checked inside failed)

end Program

end IntScript
