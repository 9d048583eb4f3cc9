import IntScript.Proofs.Adjacency

/-!
# Statements on their lines

A line that writes a statement holds it, and a line that holds one writes it if its tokens
may stand next to each other.  The second half follows the stacks through the expression of
the statement with the invariant `Stacks.Reading`, and the first one with `Stacks.Holds`.
-/

namespace IntScript

namespace Expression

open Token

/-- No line ends inside of an expression. -/
theorem Written.ne_endOfLine
    {level : Nat} {tokens : List Token} {tree : Node} (written : Written level tokens tree) :
  ∀ token ∈ tokens, token.kind ≠ .endOfLine
  := by
  induction written with
  | number kind | reference kind => simp [kind]
  | call functionKind openingKind closingKind _ ih =>
    simp only [List.cons_append, List.forall_mem_cons, List.forall_mem_append, functionKind,
      openingKind, closingKind]
    exact ⟨by decide, by decide, ih, by decide⟩
  | operation kind _ _ _ _ ihLeft ihRight =>
    simp only [List.forall_mem_append, List.forall_mem_cons, kind]
    exact ⟨ihLeft, by simp, ihRight⟩
  | bracketed openingKind closingKind _ ih =>
    simp only [List.cons_append, List.forall_mem_cons, List.forall_mem_append, openingKind,
      closingKind]
    exact ⟨by decide, ih, by decide⟩

/-- Tokens that the stacks take one by one are parsed, and parsing goes on behind them. -/
theorem parseFrom_append
    {tokens rest : List Token} {state state' : Stacks} (start : Nat)
    (inside : ∀ token ∈ tokens, token.kind ≠ .endOfLine)
    (fed : tokens.forM Stacks.feed state = .ok () state') :
  parseFrom start state (tokens ++ rest) = parseFrom start state' rest
  := by
  induction tokens generalizing state with
  | nil =>
    cases fed
    rfl
  | cons token tokens ih =>
    rw [List.forall_mem_cons] at inside
    rw [Stacks.forM_feed_cons] at fed
    rw [List.cons_append, parseFrom, if_neg inside.1]
    cases result : Stacks.feed token state with
    | ok _ next =>
      rw [result] at fed
      apply ih inside.2 fed
    | error error next =>
      rw [result] at fed
      cases fed

/-- What is written up to the end of a line is parsed. -/
theorem parse_of_written
    {level : Nat} {tokens : List Token} {tree : Node} (written : Written level tokens tree)
    {ending : Token} (ends : ending.kind = .endOfLine) (start : Nat) :
  parse start (tokens ++ [ending]) = .ok tree
  := by
  have isOpen : Stacks.Open level [] := by
    intro top mem
    cases mem
  obtain ⟨state, fed, holds⟩ := @Stacks.forM_feed_of_written level tokens tree written [] [] isOpen
  rw [parse, Stacks.empty, parseFrom_append start written.ne_endOfLine fed, parseFrom, if_pos ends,
    Stacks.conclude_of_holds holds]

/-- Only the end of a line ends an expression. -/
theorem exists_endOfLine_of_parseFrom
    {start : Nat} {state : Stacks} {tokens : List Token} {tree : Node}
    (h : parseFrom start state tokens = .ok tree) :
  ∃ token ∈ tokens, token.kind = .endOfLine
  := by
  induction tokens generalizing state with
  | nil => cases h
  | cons token tokens ih =>
    rw [parseFrom] at h
    split at h
    · rename_i ends
      exact ⟨token, List.mem_cons_self, ends⟩
    · split at h
      · obtain ⟨token', mem, ends⟩ := ih h
        exact ⟨token', List.mem_cons_of_mem _ mem, ends⟩
      · cases h

/-- Tokens that may stand next to each other and are parsed write what they are parsed to. -/
theorem written_of_parseFrom
    {before tokens rest : List Token} {phase : Phase} {state : Stacks} {ending : Token}
    {start : Nat} {tree : Node} (reading : Stacks.Reading before phase state)
    (admits : ∀ next ∈ (tokens ++ [ending]).head?, phase.admits next.kind = true)
    (checked : Token.checkAdjacencyFrom false (tokens ++ ending :: rest) = .ok ())
    (inside : ∀ token ∈ tokens, token.kind ≠ .endOfLine) (ends : ending.kind = .endOfLine)
    (parsed : parseFrom start state (tokens ++ [ending]) = .ok tree) :
  Written 2 (before ++ tokens) tree
  := by
  induction tokens generalizing before phase state with
  | nil =>
    have admitsEnd := admits ending rfl
    rw [ends] at admitsEnd
    rw [List.nil_append, parseFrom, if_pos ends] at parsed
    cases phase with
    | operand | argument => cases admitsEnd
    | operator =>
      rcases reading.conclude ending.line with ⟨tree', concluded, written⟩ | ⟨state', failed⟩
      · rw [concluded] at parsed
        cases parsed
        simpa using written
      · rw [failed] at parsed
        cases parsed
  | cons token tokens ih =>
    rw [List.forall_mem_cons] at inside
    rw [List.cons_append, parseFrom, if_neg inside.1] at parsed
    have goesOn := reading.feed (admits token rfl)
    have inLine : (token.kind == .endOfLine) = false := beq_eq_false_iff_ne.mpr inside.1
    rw [List.cons_append, checkAdjacencyFrom_cons, inLine] at checked
    cases result : Stacks.feed token state with
    | error error next =>
      rw [result] at parsed
      cases parsed
    | ok _ next =>
      rw [result] at parsed goesOn
      rw [List.append_cons]
      apply ih goesOn _ checked.2 inside.2 parsed
      intro following mem
      have mayStand := checked.1
      have head : (tokens ++ ending :: rest).head? = some following := by
        cases tokens <;> simpa using mem
      rw [head] at mayStand
      apply Phase.admits_behind mayStand inside.1

end Expression

namespace Statement

open Token

/-- No line ends inside of a statement. -/
theorem Written.ne_endOfLine
    {tokens : List Token} {node : Node} (written : Written tokens node) :
  ∀ token ∈ tokens, token.kind ≠ .endOfLine
  := by
  cases written with
  | assignment nameKind equalsKind written =>
    simp only [List.forall_mem_cons, nameKind, equalsKind]
    exact ⟨by decide, by decide, written.ne_endOfLine⟩
  | definition functionKind openingKind parameterKind closingKind equalsKind written =>
    simp only [List.forall_mem_cons, functionKind, openingKind, parameterKind, closingKind,
      equalsKind]
    exact ⟨by decide, by decide, by decide, by decide, by decide, written.ne_endOfLine⟩
  | read keywordKind nameKind => simp [keywordKind, nameKind]
  | print keywordKind written =>
    simp only [List.forall_mem_cons, keywordKind]
    exact ⟨by decide, written.ne_endOfLine⟩

/-- A line that writes a statement holds it. -/
theorem ofLine_of_written
    {tokens : List Token} {node : Node} (written : Written tokens node) {ending : Token}
    (ends : ending.kind = .endOfLine) :
  ofLine (tokens ++ [ending]) = .ok (some node)
  := by
  cases written with
  | @assignment _ name equals tokens value nameKind equalsKind written =>
    obtain ⟨_, text, line, column⟩ := name
    obtain ⟨_, _, _, _⟩ := equals
    cases nameKind
    cases equalsKind
    simp only [List.cons_append, ofLine, Expression.parse_of_written written ends]
    rfl
  | @definition _ function opening parameter closing equals tokens body functionKind openingKind
      parameterKind closingKind equalsKind written =>
    obtain ⟨_, text, line, column⟩ := function
    obtain ⟨_, _, _, _⟩ := opening
    obtain ⟨_, _, _, _⟩ := parameter
    obtain ⟨_, _, _, _⟩ := closing
    obtain ⟨_, _, _, _⟩ := equals
    cases functionKind
    cases openingKind
    cases parameterKind
    cases closingKind
    cases equalsKind
    have parsed := Expression.parse_of_written written ends line
    obtain ⟨next, rest, front⟩ := List.exists_cons_of_ne_nil (List.concat_ne_nil ending tokens)
    rw [front] at parsed
    simp only [List.cons_append, ofLine, front, parsed]
    rfl
  | @read keyword name keywordKind nameKind =>
    obtain ⟨_, _, _, _⟩ := keyword
    obtain ⟨_, _, _, _⟩ := name
    obtain ⟨_, _, _, _⟩ := ending
    cases keywordKind
    cases nameKind
    cases ends
    rfl
  | @print _ keyword tokens value keywordKind written =>
    obtain ⟨_, text, line, column⟩ := keyword
    cases keywordKind
    simp only [List.cons_append, ofLine, Expression.parse_of_written written ends]
    rfl

/-- What a statement is parsed from behind a token that needs an operand writes it. -/
theorem written_of_parse
    {token : Token} {tokens rest : List Token} {startsLine : Bool} {ending : Token} {start : Nat}
    {tree : Node} (kind : token.kind = .equals ∨ token.kind = .print)
    (checked : Token.checkAdjacencyFrom startsLine (token :: tokens ++ ending :: rest) = .ok ())
    (inside : ∀ token ∈ tokens, token.kind ≠ .endOfLine) (ends : ending.kind = .endOfLine)
    (parsed : Expression.parse start (tokens ++ [ending]) = .ok tree) :
  Expression.Written 2 tokens tree
  := by
  have inLine : token.kind ≠ .endOfLine := by
    rcases kind with kind | kind <;> simp [kind]
  have behind : Phase.behind token.kind = .operand := by
    rcases kind with kind | kind <;> rw [kind] <;> rfl
  rw [List.cons_append, checkAdjacencyFrom_cons, beq_eq_false_iff_ne.mpr inLine] at checked
  apply Expression.written_of_parseFrom (.operand .start) _ checked.2 inside ends parsed
  intro next mem
  have head : (tokens ++ ending :: rest).head? = some next := by
    cases tokens <;> simpa using mem
  have mayStand := checked.1
  rw [head] at mayStand
  rw [← behind]
  apply Phase.admits_behind mayStand inLine

/-- A token that does not end the line is one of those before the end. -/
theorem eq_cons_of_append_eq_cons
    {tokens rest : List Token} {ending token : Token} (ends : ending.kind = .endOfLine)
    (same : token :: rest = tokens ++ [ending]) (inside : token.kind ≠ .endOfLine) :
  ∃ tokens', tokens = token :: tokens' ∧ rest = tokens' ++ [ending]
  := by
  cases tokens with
  | nil =>
    cases same
    contradiction
  | cons first tokens =>
    cases same
    exact ⟨tokens, rfl, rfl⟩

/-- A line whose tokens may stand next to each other writes the statement that it holds. -/
theorem Holds.written
    {line tokens rest : List Token} {node : Node} {ending : Token}
    (holds : Holds line (some node)) (same : line = tokens ++ [ending])
    (checked : Token.checkAdjacencyFrom true (tokens ++ ending :: rest) = .ok ())
    (inside : ∀ token ∈ tokens, token.kind ≠ .endOfLine) (ends : ending.kind = .endOfLine) :
  Written tokens node
  := by
  cases holds with
  | assignment nameKind equalsKind parsed =>
    obtain ⟨tokens, rfl, tail⟩ := eq_cons_of_append_eq_cons ends same (by simp [nameKind])
    obtain ⟨tokens, rfl, rfl⟩ := eq_cons_of_append_eq_cons ends tail (by simp [equalsKind])
    simp only [List.forall_mem_cons] at inside
    have checkedValue := ((checkAdjacencyFrom_cons _ _ _).mp checked).2
    have written := written_of_parse (.inl equalsKind) checkedValue inside.2.2 ends parsed
    exact .assignment nameKind equalsKind written
  | definition functionKind openingKind parameterKind closingKind equalsKind parsed =>
    obtain ⟨tokens, rfl, tail₁⟩ := eq_cons_of_append_eq_cons ends same (by simp [functionKind])
    obtain ⟨tokens, rfl, tail₂⟩ := eq_cons_of_append_eq_cons ends tail₁ (by simp [openingKind])
    obtain ⟨tokens, rfl, tail₃⟩ := eq_cons_of_append_eq_cons ends tail₂ (by simp [parameterKind])
    obtain ⟨tokens, rfl, tail₄⟩ := eq_cons_of_append_eq_cons ends tail₃ (by simp [closingKind])
    obtain ⟨tokens, rfl, rfl⟩ := eq_cons_of_append_eq_cons ends tail₄ (by simp [equalsKind])
    simp only [List.forall_mem_cons] at inside
    simp only [List.cons_append, checkAdjacencyFrom_cons] at checked
    have checkedBody := (checkAdjacencyFrom_cons _ _ _).mpr checked.2.2.2.2
    have written := written_of_parse (.inl equalsKind) checkedBody inside.2.2.2.2.2 ends parsed
    exact .definition functionKind openingKind parameterKind closingKind equalsKind written
  | read keywordKind nameKind endingKind =>
    obtain ⟨tokens, rfl, tail₁⟩ := eq_cons_of_append_eq_cons ends same (by simp [keywordKind])
    obtain ⟨tokens, rfl, tail₂⟩ := eq_cons_of_append_eq_cons ends tail₁ (by simp [nameKind])
    obtain rfl : [] = tokens := List.append_inj_left' tail₂ rfl
    exact .read keywordKind nameKind
  | print keywordKind parsed =>
    obtain ⟨tokens, rfl, rfl⟩ := eq_cons_of_append_eq_cons ends same (by simp [keywordKind])
    have written := written_of_parse (.inr keywordKind) checked
      (List.forall_mem_cons.mp inside).2 ends parsed
    exact .print keywordKind written

/-- Only an empty line holds no statement. -/
theorem Holds.eq_nil
    {line tokens : List Token} {ending : Token} (holds : Holds line none)
    (same : line = tokens ++ [ending]) (inside : ∀ token ∈ tokens, token.kind ≠ .endOfLine) :
  tokens = []
  := by
  cases tokens with
  | nil => rfl
  | cons first tokens =>
    cases holds with
    | nothing => cases same
    | empty endingKind =>
      cases same
      exact absurd endingKind (inside first List.mem_cons_self)

/-- A line that holds something has an end. -/
theorem Holds.exists_endOfLine {line : List Token} {node? : Option Node}
    (holds : Holds line node?) (nonempty : line ≠ []) :
  ∃ token ∈ line, token.kind = .endOfLine
  := by
  cases holds with
  | nothing => contradiction
  | empty endingKind => exact ⟨_, List.mem_cons_self, endingKind⟩
  | read _ _ endingKind => exact ⟨_, by simp, endingKind⟩
  | assignment _ _ parsed | definition _ _ _ _ _ parsed | print _ parsed =>
    obtain ⟨token, mem, ends⟩ := Expression.exists_endOfLine_of_parseFrom parsed
    exact ⟨token, by simp [mem], ends⟩

end Statement

end IntScript
