import IntScript.Proofs.Mismatch
import IntScript.Proofs.Scanning

/-!
# Positions of syntax errors

Where the errors point for which a source is rejected.  Each pass of the compiler finds its
errors at a token that it was given: the error has the line of this token, and what it blames,
if anything, is the token itself.  As the tokens of a source are spelled in its lines, so is what
is blamed.  Main statement: an error has the number of a line of the source, what it blames is a
whole token at its column there, and a recursive definition starts that line.
-/

namespace IntScript

open Token

namespace SyntaxError

/-- The text that an error blames, with its column, if the error blames one. -/
def blamed? : SyntaxError → Option (String × Nat)
  | unexpectedSymbol symbol _ column => some (symbol, column)
  | unexpectedToken token _ column => some (token, column)
  | recursiveDefinition name _ column => some (name, column)
  | _ => none

/-- An error is found at a token: it has the line of the token and blames no other one.  The end
of a line is not blamed. -/
structure FoundAt (error : SyntaxError) (token : Token) : Prop where
  line : error.line = token.line
  blamed : ∀ text column, error.blamed? = some (text, column) →
    token.kind ≠ .endOfLine ∧ token.text = text ∧ token.column = column

/-- Where an error points in a source. -/
structure PointsInto (lines : List String) (error : SyntaxError) : Prop where
  positive : 0 < error.line
  inside : error.line ≤ lines.length
  blamed : ∀ text column, error.blamed? = some (text, column) →
    text ≠ "" ∧ ∃ source token, lines[error.line - 1]? = some source
      ∧ token ∈ scanLine error.line source.toList ∧ token.StandsIn source.toList
      ∧ token.text = text ∧ token.column = column
  definition : ∀ name line column, error = .recursiveDefinition name line column →
    ∃ source first rest, lines[line - 1]? = some source
      ∧ scanLine line source.toList = first :: rest
      ∧ first.kind = .function ∧ first.text = name ∧ first.column < column

variable {error : SyntaxError} {token : Token}

theorem FoundAt.of_line (blamesNone : error.blamed? = none) (line : error.line = token.line) :
  error.FoundAt token
  := by
  refine ⟨line, ?_⟩
  intro text column blames
  rw [blamesNone] at blames
  cases blames

/-- The error for a token is found at this token. -/
theorem foundAt_unexpected (token : Token) :
  (unexpected token).FoundAt token
  := by
  obtain ⟨kind, text, line, column⟩ := token
  refine ⟨by cases kind <;> rfl, ?_⟩
  rintro text' column' blames
  cases kind with
  | endOfLine => cases blames
  | _ =>
    cases blames
    exact ⟨nofun, rfl, rfl⟩

end SyntaxError

/-! ### Neighbours and self calls -/

namespace Token

variable {tokens : List Token} {error : SyntaxError}

theorem exists_foundAt_of_checkNext {startsLine : Bool} {token : Token} {rest : List Token}
    (failed : checkNext startsLine token rest.head? = .error error) :
  ∃ found ∈ token :: rest, error.FoundAt found
  := by
  unfold checkNext at failed
  split at failed
  · cases failed
    exact ⟨token, List.mem_cons_self, SyntaxError.foundAt_unexpected token⟩
  · split at failed <;> split at failed <;> cases failed
    · exact ⟨token, List.mem_cons_self, .of_line rfl rfl⟩
    · rename_i next same _
      have mem := List.mem_of_mem_head? same
      exact ⟨next, List.mem_cons_of_mem _ mem, SyntaxError.foundAt_unexpected next⟩

/-- Neighbours are rejected at one of them. -/
theorem exists_foundAt_of_checkAdjacencyFrom {startsLine : Bool}
    (failed : checkAdjacencyFrom startsLine tokens = .error error) :
  ∃ found ∈ tokens, error.FoundAt found
  := by
  induction tokens generalizing startsLine with
  | nil => cases failed
  | cons token rest ih =>
    rw [checkAdjacencyFrom] at failed
    cases checked : checkNext startsLine token rest.head? with
    | error error' =>
      rw [checked] at failed
      cases failed
      apply exists_foundAt_of_checkNext checked
    | ok =>
      rw [checked] at failed
      obtain ⟨found, mem, foundAt⟩ := ih failed
      exact ⟨found, List.mem_cons_of_mem _ mem, foundAt⟩

/-- The lines of a list of tokens make it up. -/
theorem flatten_lines (tokens : List Token) :
  (lines tokens).flatten = tokens
  :=
  flatten_segments tokens

/-- A self call is rejected at the call. -/
theorem exists_foundAt_of_checkSelfCalls (failed : checkSelfCalls tokens = .error error) :
  ∃ found ∈ tokens, error.FoundAt found
  := by
  obtain ⟨first, rest, call, memLine, mem, -, kind, -, rfl⟩ :=
    exists_selfCall_of_checkSelfCalls failed
  refine ⟨call, ?_, rfl, ?_⟩
  · rw [← flatten_lines tokens]
    apply List.mem_flatten_of_mem memLine (List.mem_cons_of_mem _ mem)
  · intro text column blames
    cases blames
    exact ⟨by simp [kind], rfl, rfl⟩

end Token

/-! ### Statements -/

namespace Expression

variable {state state' : Stacks} {token : Token} {error : SyntaxError}

theorem Stacks.foundAt_of_feed (failed : feed token state = .error error state') :
  error.FoundAt token
  := by
  have meets := feed_meets token state
  rw [failed] at meets
  cases meets with
  | missing => exact .of_line rfl rfl
  | unmet => exact .of_line rfl rfl
  | unexpected => apply SyntaxError.foundAt_unexpected

theorem Stacks.foundAt_of_conclude (failed : conclude token.line state = .error error state') :
  error.FoundAt token
  := by
  rw [conclude_eq] at failed
  rcases settleWhile_not_isOpening_cases token.line state.waiting state.operands with
    ⟨_, missing⟩ | ⟨_, operands, settled, -, rfl | ⟨partner, below, rfl⟩⟩
  · rw [missing] at failed
    cases failed
    exact .of_line rfl rfl
  · rw [settled] at failed
    obtain rfl : error = .invalidExpression token.line := by
      cases operands with
      | nil =>
        cases failed
        rfl
      | cons _ operands =>
        cases operands <;> cases failed
        rfl
    exact .of_line rfl rfl
  · rw [settled] at failed
    cases failed
    exact .of_line rfl rfl

/-- An expression is rejected at one of its tokens, or because its line has no end. -/
theorem exists_foundAt_of_parseFrom {start : Nat} {tokens : List Token}
    (failed : parseFrom start state tokens = .error error) :
  error = .unexpectedEndOfLine start ∨ ∃ found ∈ tokens, error.FoundAt found
  := by
  induction tokens generalizing state with
  | nil =>
    cases failed
    exact .inl rfl
  | cons token rest ih =>
    rw [parseFrom] at failed
    split at failed
    · cases concluded : state.conclude token.line with
      | ok =>
        rw [concluded] at failed
        cases failed
      | error error' =>
        rw [concluded] at failed
        cases failed
        exact .inr ⟨token, List.mem_cons_self, Stacks.foundAt_of_conclude concluded⟩
    · cases fed : state.feed token with
      | error error' =>
        rw [fed] at failed
        cases failed
        exact .inr ⟨token, List.mem_cons_self, Stacks.foundAt_of_feed fed⟩
      | ok _ next =>
        rw [fed] at failed
        rcases ih failed with noEnd | ⟨found, mem, foundAt⟩
        · exact .inl noEnd
        · exact .inr ⟨found, List.mem_cons_of_mem _ mem, foundAt⟩

end Expression

namespace Statement

variable {error : SyntaxError}

/-- The expression of a statement is rejected at a token of the line. -/
theorem exists_foundAt_of_parse {first : Token} {rest tokens : List Token} {f : Node → Option Node}
    (suffix : tokens <:+ rest)
    (failed : (Expression.parse first.line tokens).map f = .error error) :
  ∃ found ∈ first :: rest, error.FoundAt found
  := by
  rcases Expression.exists_foundAt_of_parseFrom (error_of_map_eq_error failed) with
    rfl | ⟨found, mem, foundAt⟩
  · exact ⟨first, List.mem_cons_self, .of_line rfl rfl⟩
  · exact ⟨found, List.mem_cons_of_mem _ (suffix.mem mem), foundAt⟩

/-- A line is rejected at one of its tokens. -/
theorem exists_foundAt_of_ofLine {line : List Token} (failed : ofLine line = .error error) :
  ∃ found ∈ line, error.FoundAt found
  := by
  unfold ofLine at failed
  split at failed
  · cases failed
  · rename_i first rest
    have atFirst (blamesNone : error.blamed? = none) (line : error.line = first.line) :
        ∃ found ∈ first :: rest, error.FoundAt found :=
      ⟨first, List.mem_cons_self, .of_line blamesNone line⟩
    split at failed
    · split at failed
      · apply exists_foundAt_of_parse (List.suffix_cons _ _) failed
      · cases failed
        apply atFirst rfl rfl
    · split at failed
      · rename_i next body
        apply exists_foundAt_of_parse _ failed
        exact ⟨[_, _, _, _], rfl⟩
      · cases failed
        apply atFirst rfl rfl
    · split at failed <;> cases failed
      apply atFirst rfl rfl
    · apply exists_foundAt_of_parse List.suffix_rfl failed
    · cases failed
    · cases failed
      exact ⟨first, List.mem_cons_self, SyntaxError.foundAt_unexpected first⟩

end Statement

/-! ### Programs -/

namespace Program

variable {error : SyntaxError}

theorem exists_foundAt_of_statementsFrom {lines : List (List Token)} {done : List Node}
    (failed : statementsFrom done lines = .error error) :
  ∃ found ∈ lines.flatten, error.FoundAt found
  := by
  induction lines generalizing done with
  | nil => cases failed
  | cons line lines ih =>
    rw [statementsFrom] at failed
    simp only [List.flatten_cons, List.mem_append]
    cases made : Statement.ofLine line with
    | error error' =>
      rw [made] at failed
      cases failed
      obtain ⟨found, mem, foundAt⟩ := Statement.exists_foundAt_of_ofLine made
      exact ⟨found, .inl mem, foundAt⟩
    | ok statement? =>
      rw [made] at failed
      obtain ⟨found, mem, foundAt⟩ : ∃ found ∈ lines.flatten, error.FoundAt found := by
        cases statement? <;> apply ih failed
      exact ⟨found, .inr mem, foundAt⟩

/-- Tokens that make up no program are rejected at one of them. -/
theorem exists_foundAt_of_ofTokens {tokens : List Token}
    (rejected : ofTokens tokens = .error error) :
  ∃ found ∈ tokens, error.FoundAt found
  := by
  unfold ofTokens at rejected
  cases checked : checkAdjacency tokens with
  | error error' =>
    rw [checked] at rejected
    cases rejected
    apply exists_foundAt_of_checkAdjacencyFrom checked
  | ok =>
    rw [checked] at rejected
    cases noSelfCalls : checkSelfCalls tokens with
    | error error' =>
      rw [noSelfCalls] at rejected
      cases rejected
      apply exists_foundAt_of_checkSelfCalls noSelfCalls
    | ok =>
      rw [noSelfCalls] at rejected
      have found := exists_foundAt_of_statementsFrom (Statement.error_of_map_eq_error rejected)
      rwa [flatten_lines] at found

end Program

/-! ### Sources -/

namespace Token

variable {lines : List String}

/-- The tokens of a line carry its number. -/
theorem line_of_mem_scanLine {number : Nat} {text : List Char} {token : Token}
    (mem : token ∈ scanLine number text) :
  token.line = number
  := by
  have covers := Line.covers_ofText number text
  rw [← Line.tokens_ofText] at mem
  rcases List.mem_append.mp mem with mem | mem
  · apply covers.number token mem
  · rw [List.mem_singleton.mp mem, covers.ending]

/-- The tokens between two ends of lines are those of a line of the source. -/
theorem exists_source_of_mem_lines {line : List Token} (mem : line ∈ Token.lines (scan lines)) :
  ∃ number source, line = scanLine number source.toList
    ∧ 0 < number ∧ lines[number - 1]? = some source
  := by
  rw [lines_scan, List.mem_map] at mem
  obtain ⟨⟨source, number⟩, mem, rfl⟩ := mem
  obtain ⟨positive, there⟩ := List.mk_mem_zipIdx_iff_le_and_getElem?_sub.mp mem
  exact ⟨number, source, rfl, positive, there⟩

/-- A token of a source stands on the line whose number it carries. -/
theorem exists_source_of_mem_scan {token : Token} (mem : token ∈ scan lines) :
  ∃ source, token ∈ scanLine token.line source.toList
    ∧ 0 < token.line ∧ lines[token.line - 1]? = some source
  := by
  rw [← flatten_lines (scan lines)] at mem
  obtain ⟨line, memLine, mem⟩ := List.mem_flatten.mp mem
  obtain ⟨number, source, rfl, positive, there⟩ := exists_source_of_mem_lines memLine
  rw [line_of_mem_scanLine mem]
  exact ⟨source, mem, positive, there⟩

/-- A token that does not end its line is spelled there. -/
theorem standsIn_of_mem_scanLine {number : Nat} {text : List Char} {token : Token}
    (mem : token ∈ scanLine number text) (inside : token.kind ≠ .endOfLine) :
  token.StandsIn text
  := by
  rw [← Line.tokens_ofText] at mem
  rcases List.mem_append.mp mem with mem | mem
  · apply Line.standsIn_of_mem_ofText mem
  · rw [List.mem_singleton.mp mem] at inside
    contradiction

/-- A token that stands in a line has a text. -/
theorem StandsIn.text_ne_empty {text : List Char} {token : Token} (standsIn : token.StandsIn text) :
  token.text ≠ ""
  := by
  obtain ⟨_, _, -, -, spells⟩ := standsIn
  intro empty
  apply spells.ne_nil
  rw [empty]
  rfl

/-- Tokens of a line stand one behind the other. -/
theorem column_lt_of_scanLine {number : Nat} {text : List Char} {first token : Token}
    {rest : List Token} (line : scanLine number text = first :: rest) (mem : token ∈ rest)
    (inside : token.kind ≠ .endOfLine) :
  first.column < token.column
  := by
  have covers := Line.covers_ofText number text
  rw [← Line.tokens_ofText, Line.tokens] at line
  cases body : (Line.ofText number text).body with
  | nil =>
    rw [body] at line
    cases line
    cases mem
  | cons first' rest' =>
    have apart := covers.apart
    rw [body] at line apart
    cases line
    rcases List.mem_append.mp mem with mem | mem
    · apply (List.rel_of_pairwise_cons apart mem).1
    · rw [List.mem_singleton.mp mem] at inside
      contradiction

end Token

/-- A source is rejected for an error that points into it.  It has the number of one of the
lines.  What it blames, if anything, is not empty and is a whole token of this line, spelled at
the column that the error has.  If the error is a definition that calls itself, then the line
starts with the function that is blamed, at a smaller column. -/
theorem Program.pointsInto_of_ofTokens_scan (lines : List String) (error : SyntaxError)
    (rejected : ofTokens (scan lines) = .error error) :
  error.PointsInto lines
  := by
  obtain ⟨token, mem, foundAt⟩ := exists_foundAt_of_ofTokens rejected
  obtain ⟨source, mem, positive, there⟩ := exists_source_of_mem_scan mem
  rw [← foundAt.line] at positive there mem
  have inside := (List.getElem?_eq_some_iff.mp there).1
  refine ⟨positive, by omega, ?_, ?_⟩
  · intro text column blames
    obtain ⟨inLine, rfl, rfl⟩ := foundAt.blamed text column blames
    have standsIn := standsIn_of_mem_scanLine mem inLine
    exact ⟨standsIn.text_ne_empty, source, token, there, mem, standsIn, rfl, rfl⟩
  · rintro name line column rfl
    have selfCall := (ofStatement_of_ofTokens rejected).resolve_left nofun
    obtain ⟨first, rest, call, memLine, memCall, kind, callKind, named, same⟩ :=
      exists_selfCall_of_checkSelfCalls selfCall
    cases same
    obtain ⟨number, source, cut, -, there⟩ := exists_source_of_mem_lines memLine
    have memCut : call ∈ scanLine number source.toList := by
      rw [← cut]
      apply List.mem_cons_of_mem _ memCall
    rw [line_of_mem_scanLine memCut]
    have before := column_lt_of_scanLine cut.symm memCall (by simp [callKind])
    exact ⟨source, first, rest, there, cut.symm, kind, named, before⟩

/-- The factorial of `n` is rejected where it calls itself, on the second line. -/
theorem Program.pointsInto_of_ofTokens_scan_factorial :
  ofTokens (scan ["n = 5", "F[n] = n * F[n - 1]"]) = .error (.recursiveDefinition "F" 2 12)
    ∧ (SyntaxError.recursiveDefinition "F" 2 12).PointsInto ["n = 5", "F[n] = n * F[n - 1]"]
  := by
  have rejected : ofTokens (scan ["n = 5", "F[n] = n * F[n - 1]"])
      = .error (.recursiveDefinition "F" 2 12) := rfl
  exact ⟨rejected, pointsInto_of_ofTokens_scan _ _ rejected⟩

end IntScript
