import IntScript.Proofs.Lines

/-!
# Acceptance

Which token lists make up a program.  The checks that are made before a program is built
look at neighbouring tokens and at the names of functions only, and the stacks on which
expressions are built would take many token lists that are no expressions.  Together they
let through exactly the lines that the grammar allows.  Main statement: a token list makes
up a program if and only if it consists of allowed lines, and then the statements of the
program are those which the lines that are not empty write.
-/

namespace IntScript

/-! ### Lines -/

namespace Token.Line

/-- The bodies of the lines that are not empty. -/
def filled (lines : List Line) : List (List Token) :=
  (lines.map body).filter fun body => !body.isEmpty

/-- What makes up a program consists of lines, of which each is cut at its end. -/
theorem exists_lines (tokens : List Token) :
  ∃ lines : List Line, Token.lines tokens = lines.map Line.tokens
    ∧ ∀ line ∈ lines, ∀ token ∈ line.body, token.kind ≠ .endOfLine
  := by
  have all : ∀ piece ∈ Token.lines tokens, ∃ line : Line, piece = line.tokens
      ∧ ∀ token ∈ line.body, token.kind ≠ .endOfLine := by
    intro piece mem
    obtain ⟨body, last, rfl, inside⟩ := exists_of_mem_segments mem
    refine ⟨⟨body, last⟩, rfl, ?_⟩
    intro token mem
    apply beq_eq_false_iff_ne.mp (inside token mem)
  generalize Token.lines tokens = pieces at all
  induction pieces with
  | nil => exact ⟨[], rfl, by simp⟩
  | cons piece pieces ih =>
    rw [List.forall_mem_cons] at all
    obtain ⟨⟨line, rfl, inside⟩, all⟩ := all
    obtain ⟨lines, rfl, insides⟩ := ih all
    exact ⟨line :: lines, rfl, List.forall_mem_cons.mpr ⟨inside, insides⟩⟩

/-- Lines that are closed are found again in their tokens. -/
theorem lines_flatMap_tokens
    {lines : List Line} (ends : ∀ line ∈ lines, line.ending.kind = .endOfLine)
    (inside : ∀ line ∈ lines, ∀ token ∈ line.body, token.kind ≠ .endOfLine) :
  Token.lines (lines.flatMap Line.tokens) = lines.map Line.tokens
  := by
  rw [List.flatMap_def]
  apply segments_flatten
  intro piece mem
  obtain ⟨line, memLine, rfl⟩ := List.mem_map.mp mem
  refine ⟨line.body, line.ending, rfl, ?_, beq_iff_eq.mpr (ends line memLine)⟩
  intro token memBody
  apply beq_eq_false_iff_ne.mpr (inside line memLine token memBody)

/-- A line that holds something ends where it is cut. -/
theorem ending_of_holds
    (line : Line) {node? : Option Node} (holds : Statement.Holds line.tokens node?)
    (inside : ∀ token ∈ line.body, token.kind ≠ .endOfLine) :
  line.ending.kind = .endOfLine
  := by
  obtain ⟨token, mem, ends⟩ := holds.exists_endOfLine (List.concat_ne_nil line.ending line.body)
  rcases List.mem_append.mp mem with mem | mem
  · exact absurd ends (inside token mem)
  · rwa [List.mem_singleton.mp mem] at ends

/-- A line passes the check for self calls if no function is named again. -/
theorem selfCall?_eq_none_iff {line : Line} (ends : line.ending.kind = .endOfLine) :
  selfCall? line.tokens = none ↔ line.NoSelfCall
  := by
  obtain ⟨body, ending⟩ := line
  cases body with
  | nil =>
    constructor
    · intro _ first rest same
      cases same
    · intro _
      simp [tokens, selfCall?]
  | cons first rest =>
    have notLast : ending.kind ≠ .function := by
      rw [ends]
      decide
    simp only [tokens, List.cons_append, selfCall?, NoSelfCall]
    split
    · rename_i kind
      rw [List.find?_eq_none]
      constructor
      · intro none first' rest' same _ token mem isFunction sameName
        cases same
        apply none token (List.mem_append_left _ mem)
        simp [isFunction, sameName]
      · intro noSelfCall token mem found
        simp only [Bool.and_eq_true, beq_iff_eq] at found
        rcases List.mem_append.mp mem with mem | mem
        · apply noSelfCall first rest rfl kind token mem found.1 found.2
        · rw [List.mem_singleton.mp mem] at found
          apply notLast found.1
    · rename_i kind
      simp only [true_iff]
      intro first' rest' same isFunction
      cases same
      contradiction

/-- A line that may stand in a program writes a statement, if it is not empty. -/
theorem Allowed.written {line : Line} (allowed : line.Allowed) :
  line.body = [] ∨ ∃ node, Statement.Written line.body node
  := by
  rcases allowed.body with empty | statement
  · exact .inl empty
  · exact .inr ((Grammar.statement_iff_exists_written _).mp statement)

/-- No line ends before its end. -/
theorem Allowed.inside {line : Line} (allowed : line.Allowed) :
  ∀ token ∈ line.body, token.kind ≠ .endOfLine
  := by
  rcases allowed.written with empty | ⟨node, written⟩
  · rw [empty]
    simp
  · apply written.ne_endOfLine

/-- What starts a line may stand behind the end of the line before. -/
theorem startsStatement_of_allowed
    {lines : List Line} (allowed : ∀ line ∈ lines, line.Allowed) :
  ∀ first ∈ (lines.flatMap Line.tokens).head?, first.kind.startsStatement = true
  := by
  cases lines with
  | nil => simp
  | cons line lines =>
    rw [List.forall_mem_cons] at allowed
    intro first mem
    rw [List.flatMap_cons, Line.tokens] at mem
    rcases allowed.1.written with empty | ⟨node, written⟩
    · rw [empty] at mem
      cases mem
      rw [allowed.1.ending]
      rfl
    · obtain ⟨first', rest, same, starts⟩ := written.startsStatement
      rw [same] at mem
      cases mem
      apply starts

/-- The tokens of allowed lines may stand next to each other. -/
theorem checkAdjacency_of_allowed
    {lines : List Line} (allowed : ∀ line ∈ lines, line.Allowed) :
  checkAdjacency (lines.flatMap Line.tokens) = .ok ()
  := by
  unfold checkAdjacency
  induction lines with
  | nil => rfl
  | cons line lines ih =>
    rw [List.forall_mem_cons] at allowed
    obtain ⟨allowed, allowedRest⟩ := allowed
    have ends := allowed.ending
    have starts := startsStatement_of_allowed allowedRest
    have checkedEnd (startsLine : Bool) :
        checkAdjacencyFrom startsLine (line.ending :: lines.flatMap Line.tokens) = .ok () := by
      rw [checkAdjacencyFrom_cons, ends]
      refine ⟨?_, ih allowedRest⟩
      cases next? : (lines.flatMap Line.tokens).head? with
      | none => simp [MayStand, ends, Kind.needsNext]
      | some next => simp [MayStand, ends, Kind.mayPrecede, starts next next?]
    rw [List.flatMap_cons, Line.tokens, List.append_assoc]
    rcases allowed.written with empty | ⟨node, written⟩
    · rw [empty]
      apply checkedEnd true
    · apply written.checkAdjacencyFrom ends (checkedEnd false)

theorem checkSelfCalls_eq_ok_iff (tokens : List Token) :
  checkSelfCalls tokens = .ok () ↔ ∀ line ∈ Token.lines tokens, selfCall? line = none
  := by
  rw [← List.findSome?_eq_none_iff, checkSelfCalls]
  cases (Token.lines tokens).findSome? selfCall? <;> simp

end Token.Line

/-! ### Programs -/

namespace Program

open Token

/-- Allowed lines hold the statements that those write which are not empty. -/
theorem exists_statementsFrom_of_allowed
    {lines : List Line} (allowed : ∀ line ∈ lines, line.Allowed) (done : List Node) :
  ∃ statements, List.Forall₂ Statement.Written (Line.filled lines) statements
    ∧ statementsFrom done (lines.map Line.tokens) = .ok (done.reverse ++ statements)
  := by
  induction lines generalizing done with
  | nil => exact ⟨[], .nil, by simp [statementsFrom]⟩
  | cons line lines ih =>
    rw [List.forall_mem_cons] at allowed
    obtain ⟨allowed, allowedRest⟩ := allowed
    rw [List.map_cons, statementsFrom]
    rcases allowed.written with empty | ⟨node, written⟩
    · have holds : Statement.ofLine line.tokens = .ok none := by
        simp only [Line.tokens, empty, List.nil_append, Statement.ofLine, allowed.ending]
      obtain ⟨statements, writes, made⟩ := ih allowedRest done
      refine ⟨statements, ?_, by rw [holds, made]⟩
      simpa [Line.filled, empty] using writes
    · have holds : Statement.ofLine line.tokens = .ok (some node) :=
        Statement.ofLine_of_written written allowed.ending
      obtain ⟨statements, writes, made⟩ := ih allowedRest (node :: done)
      refine ⟨node :: statements, ?_, by simp [holds, made]⟩
      obtain ⟨first, rest, filled, -⟩ := written.startsStatement
      have all := List.Forall₂.cons written writes
      simpa [Line.filled, filled] using all

/-- Lines that hold statements, and whose tokens may stand next to each other, are empty or
write them. -/
theorem written_of_statementsFrom
    {lines : List Line} {done statements : List Node}
    (checked : checkAdjacencyFrom true (lines.flatMap Line.tokens) = .ok ())
    (inside : ∀ line ∈ lines, ∀ token ∈ line.body, token.kind ≠ .endOfLine)
    (made : statementsFrom done (lines.map Line.tokens) = .ok statements) :
  ∀ line ∈ lines, line.ending.kind = .endOfLine
    ∧ (line.body = [] ∨ ∃ node, Statement.Written line.body node)
  := by
  induction lines generalizing done with
  | nil => simp
  | cons line lines ih =>
    rw [List.forall_mem_cons] at inside
    obtain ⟨inside, insideRest⟩ := inside
    rw [List.map_cons, statementsFrom] at made
    rw [List.flatMap_cons, Line.tokens, List.append_assoc] at checked
    rw [List.forall_mem_cons]
    cases accepted : Statement.ofLine line.tokens with
    | error error =>
      rw [accepted] at made
      cases made
    | ok node? =>
      have holds := Statement.holds_of_ofLine accepted
      have ends := line.ending_of_holds holds inside
      have checkedRest := checkAdjacencyFrom_behind checked
      rw [ends] at checkedRest
      rw [accepted] at made
      cases node? with
      | none =>
        refine ⟨⟨ends, .inl (holds.eq_nil rfl inside)⟩, ?_⟩
        apply ih checkedRest insideRest made
      | some node =>
        refine ⟨⟨ends, .inr ⟨node, holds.written rfl checked inside ends⟩⟩, ?_⟩
        apply ih checkedRest insideRest made

/-- Allowed lines make up a program, whose statements are those that the lines write. -/
theorem exists_ofTokens_of_allowed
    {lines : List Line} (allowed : ∀ line ∈ lines, line.Allowed) :
  ∃ statements, List.Forall₂ Statement.Written (Line.filled lines) statements
    ∧ ofTokens (lines.flatMap Line.tokens) = .ok (ofStatements statements)
  := by
  obtain ⟨written, writes, made⟩ := exists_statementsFrom_of_allowed allowed []
  have cut := Line.lines_flatMap_tokens (fun line mem => (allowed line mem).ending)
    (fun line mem => (allowed line mem).inside)
  have selfCalls : checkSelfCalls (lines.flatMap Line.tokens) = .ok () := by
    rw [Line.checkSelfCalls_eq_ok_iff, cut, List.forall_mem_map]
    intro line mem
    apply (Line.selfCall?_eq_none_iff (allowed line mem).ending).mpr (allowed line mem).noSelfCall
  refine ⟨written, writes, ?_⟩
  rw [ofTokens, Line.checkAdjacency_of_allowed allowed, selfCalls, statements, cut, made]
  rfl

/-- What makes up a program consists of allowed lines. -/
theorem exists_allowed_of_ofTokens
    {tokens : List Token} {root : Node} (accepted : ofTokens tokens = .ok root) :
  ∃ lines : List Line, tokens = lines.flatMap Line.tokens ∧ ∀ line ∈ lines, line.Allowed
  := by
  unfold ofTokens at accepted
  split at accepted
  · cases accepted
  rename_i checked
  split at accepted
  · cases accepted
  rename_i noSelfCalls
  obtain ⟨statements, made, -⟩ := Statement.exists_of_map_eq_ok accepted
  obtain ⟨lines, cut, inside⟩ := Line.exists_lines tokens
  have same : tokens = lines.flatMap Line.tokens := by
    rw [List.flatMap_def, ← cut]
    apply (flatten_segments tokens).symm
  rw [Program.statements, cut] at made
  rw [same] at checked
  have writes := written_of_statementsFrom checked inside made
  refine ⟨lines, same, ?_⟩
  intro line mem
  obtain ⟨ends, written⟩ := writes line mem
  refine ⟨ends, ?_, ?_⟩
  · rcases written with empty | written
    · exact .inl empty
    · exact .inr ((Grammar.statement_iff_exists_written _).mpr written)
  · apply (Line.selfCall?_eq_none_iff ends).mp
    apply (Line.checkSelfCalls_eq_ok_iff tokens).mp noSelfCalls
    rw [cut]
    apply List.mem_map_of_mem mem

/-- A token list makes up a program if and only if it consists of lines that the grammar
allows and that define no function by itself.  The program has one statement for each line
that is not empty, in order, and it is the statement that the line writes. -/
theorem ofTokens_accepts_grammar (tokens : List Token) :
  ((∃ root, ofTokens tokens = .ok root)
      ↔ ∃ lines : List Line, tokens = lines.flatMap Line.tokens ∧ ∀ line ∈ lines, line.Allowed)
    ∧ ∀ root, ofTokens tokens = .ok root → ∀ lines : List Line,
      tokens = lines.flatMap Line.tokens → (∀ line ∈ lines, line.Allowed) →
        ∃ statements, root = ⟨.root, "", 0, statements⟩
          ∧ List.Forall₂ Statement.Written (Line.filled lines) statements
  := by
  refine ⟨⟨?_, ?_⟩, ?_⟩
  · rintro ⟨root, accepted⟩
    apply exists_allowed_of_ofTokens accepted
  · rintro ⟨lines, rfl, allowed⟩
    obtain ⟨statements, -, made⟩ := exists_ofTokens_of_allowed allowed
    exact ⟨_, made⟩
  · rintro root accepted lines rfl allowed
    obtain ⟨statements, writes, made⟩ := exists_ofTokens_of_allowed allowed
    rw [made] at accepted
    cases accepted
    exact ⟨statements, rfl, writes⟩

/-- An empty line before `print F[x]` leaves one statement, which prints the call. -/
theorem ofTokens_accepts_print_call :
  ∃ root, ofTokens [⟨.endOfLine, "", 1, 1⟩, ⟨.print, "print", 2, 1⟩, ⟨.function, "F", 2, 7⟩,
        ⟨.opening .square, "[", 2, 8⟩, ⟨.variable, "x", 2, 9⟩, ⟨.closing .square, "]", 2, 10⟩,
        ⟨.endOfLine, "", 2, 11⟩] = .ok root
      ∧ ∃ node, root = ⟨.root, "", 0, [node]⟩
        ∧ Statement.Written [⟨.print, "print", 2, 1⟩, ⟨.function, "F", 2, 7⟩,
          ⟨.opening .square, "[", 2, 8⟩, ⟨.variable, "x", 2, 9⟩, ⟨.closing .square, "]", 2, 10⟩]
          node
  := by
  have printAllowed : Line.Allowed ⟨[⟨.print, "print", 2, 1⟩, ⟨.function, "F", 2, 7⟩,
      ⟨.opening .square, "[", 2, 8⟩, ⟨.variable, "x", 2, 9⟩, ⟨.closing .square, "]", 2, 10⟩],
      ⟨.endOfLine, "", 2, 11⟩⟩ := by
    refine ⟨rfl, .inr (.print (.expr (.term (.call (.expr (.term .reference)))))), ?_⟩
    intro first rest same isFunction
    cases same
    cases isFunction
  have emptyAllowed : Line.Allowed ⟨[], ⟨.endOfLine, "", 1, 1⟩⟩ := by
    refine ⟨rfl, .inl rfl, ?_⟩
    intro first rest same
    cases same
  have allowed := List.forall_mem_cons.mpr
    ⟨emptyAllowed, List.forall_mem_singleton.mpr printAllowed⟩
  obtain ⟨accepts, children⟩ := ofTokens_accepts_grammar _
  obtain ⟨root, accepted⟩ := accepts.mpr ⟨_, rfl, allowed⟩
  obtain ⟨statements, rfl, writes⟩ := children root accepted _ rfl allowed
  refine ⟨_, accepted, ?_⟩
  cases writes with
  | cons written rest =>
    cases rest
    exact ⟨_, rfl, written⟩

end Program

end IntScript
