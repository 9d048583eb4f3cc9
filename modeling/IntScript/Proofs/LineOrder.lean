import IntScript.Proofs.Rejection

/-!
# The order of errors

Once the tokens of a program may stand next to each other, what is wrong with it is found in
two passes.  The first one looks for definitions that call themselves, on all lines, and only
the second one looks at the statements line by line.  So lines that are rejected are rejected
for the same cause when others follow, unless a definition among those calls itself.  Main
statement: the cause for which lines are rejected stays the same exactly if one of them is a
definition that calls itself or none of the lines behind them is.
-/

namespace IntScript

open Token

/-! ### Closed lines -/

namespace Token.Line

/-- The line ends with the token for its end, which stands nowhere else in it. -/
structure Closed (line : Line) : Prop where
  ending : line.ending.kind = .endOfLine
  inside : ∀ token ∈ line.body, token.kind ≠ .endOfLine

/-- Closed lines are found again in their tokens. -/
theorem lines_of_closed {lines : List Line} (closed : ∀ line ∈ lines, line.Closed) :
  Token.lines (lines.flatMap Line.tokens) = lines.map Line.tokens
  := by
  apply lines_flatMap_tokens
  · intro line mem
    apply (closed line mem).ending
  · intro line mem
    apply (closed line mem).inside

/-- The check for self calls is passed if no line calls the function that it defines. -/
theorem checkSelfCalls_of_closed {lines : List Line} (closed : ∀ line ∈ lines, line.Closed) :
  checkSelfCalls (lines.flatMap Line.tokens) = .ok () ↔ ∀ line ∈ lines, line.NoSelfCall
  := by
  rw [checkSelfCalls_eq_ok_iff, lines_of_closed closed, List.forall_mem_map]
  apply forall₂_congr
  intro line mem
  apply selfCall?_eq_none_iff (closed line mem).ending

/-- Self calls on the first lines are found first. -/
theorem checkSelfCalls_append_of_error
    {lines rest : List Line} (closed : ∀ line ∈ lines ++ rest, line.Closed) {error : SyntaxError}
    (failed : checkSelfCalls (lines.flatMap Line.tokens) = .error error) :
  checkSelfCalls ((lines ++ rest).flatMap Line.tokens) = .error error
  := by
  have closedFirst := (List.forall_mem_append.mp closed).1
  unfold checkSelfCalls at failed ⊢
  rw [lines_of_closed closedFirst] at failed
  rw [lines_of_closed closed, List.map_append, List.findSome?_append]
  cases found : (lines.map Line.tokens).findSome? selfCall? with
  | none =>
    rw [found] at failed
    cases failed
  | some call =>
    rw [found] at failed
    apply failed

/-- Without self calls on the first lines, those on the other lines are found. -/
theorem checkSelfCalls_append_of_ok
    {lines rest : List Line} (closed : ∀ line ∈ lines ++ rest, line.Closed)
    (passed : checkSelfCalls (lines.flatMap Line.tokens) = .ok ()) :
  checkSelfCalls ((lines ++ rest).flatMap Line.tokens)
    = checkSelfCalls (rest.flatMap Line.tokens)
  := by
  obtain ⟨closedFirst, closedRest⟩ := List.forall_mem_append.mp closed
  rw [checkSelfCalls_eq_ok_iff, lines_of_closed closedFirst, ← List.findSome?_eq_none_iff]
    at passed
  unfold checkSelfCalls
  rw [lines_of_closed closed, lines_of_closed closedRest, List.map_append,
    List.findSome?_append, passed, Option.none_or]

end Token.Line

/-- The end of a line may be the last token. -/
theorem Token.checkAdjacencyFrom_concat_endOfLine
    {startsLine : Bool} {tokens rest : List Token} {ending : Token}
    (ends : ending.kind = .endOfLine)
    (checked : checkAdjacencyFrom startsLine (tokens ++ ending :: rest) = .ok ()) :
  checkAdjacencyFrom startsLine (tokens ++ [ending]) = .ok ()
  := by
  induction tokens generalizing startsLine with
  | nil =>
    rw [List.nil_append, checkAdjacencyFrom_cons]
    simp [MayStand, ends, Kind.needsNext, checkAdjacencyFrom]
  | cons token tokens ih =>
    rw [List.cons_append, checkAdjacencyFrom_cons] at checked ⊢
    have sameNext : (tokens ++ [ending]).head? = (tokens ++ ending :: rest).head? := by
      cases tokens <;> rfl
    rw [sameNext]
    exact ⟨checked.1, ih checked.2⟩

/-- The tokens of the first lines may stand next to each other if all may. -/
theorem Token.Line.checkAdjacency_of_append
    {lines rest : List Line} (closed : ∀ line ∈ lines, line.Closed)
    (checked : checkAdjacency ((lines ++ rest).flatMap Line.tokens) = .ok ()) :
  checkAdjacency (lines.flatMap Line.tokens) = .ok ()
  := by
  rcases List.eq_nil_or_concat' lines with rfl | ⟨front, last, rfl⟩
  · rfl
  · have ends := (closed last (by simp)).ending
    have split (after : List Line) : (front ++ [last] ++ after).flatMap Line.tokens
        = (front.flatMap Line.tokens ++ last.body) ++ last.ending :: after.flatMap Line.tokens := by
      simp [Line.tokens]
    have splitFirst := split []
    rw [List.append_nil] at splitFirst
    rw [split] at checked
    rw [splitFirst]
    apply checkAdjacencyFrom_concat_endOfLine ends checked

/-! ### Rejected lines -/

namespace Program

/-- Lines that are rejected are rejected with others behind them. -/
theorem statementsFrom_append_of_error
    {pieces : List (List Token)} {done : List Node} {error : SyntaxError}
    (failed : statementsFrom done pieces = .error error) (rest : List (List Token)) :
  statementsFrom done (pieces ++ rest) = .error error
  := by
  induction pieces generalizing done with
  | nil => cases failed
  | cons piece pieces ih =>
    rw [List.cons_append, statementsFrom]
    rw [statementsFrom] at failed
    cases made : Statement.ofLine piece with
    | error error' =>
      rw [made] at failed
      apply failed
    | ok node? =>
      rw [made] at failed
      cases node? <;> apply ih failed

section

variable {lines rest : List Line} (closed : ∀ line ∈ lines ++ rest, line.Closed)
  (checked : checkAdjacency ((lines ++ rest).flatMap Line.tokens) = .ok ())

include closed checked

/-- A definition that calls itself is the cause for which lines are rejected with others behind
them. -/
theorem ofTokens_append_of_selfCall
    {error : SyntaxError} (selfCall : checkSelfCalls (lines.flatMap Line.tokens) = .error error) :
  ofTokens ((lines ++ rest).flatMap Line.tokens) = .error error
  := by
  rw [ofTokens, checked, Line.checkSelfCalls_append_of_error closed selfCall]

/-- A definition that calls itself is the cause for which lines are rejected that stand behind
others without such a definition, whatever else is wrong with these. -/
theorem ofTokens_append_of_later_selfCall
    {error : SyntaxError} (noSelfCalls : checkSelfCalls (lines.flatMap Line.tokens) = .ok ())
    (selfCall : checkSelfCalls (rest.flatMap Line.tokens) = .error error) :
  ofTokens ((lines ++ rest).flatMap Line.tokens) = .error error
  := by
  rw [ofTokens, checked, Line.checkSelfCalls_append_of_ok closed noSelfCalls, selfCall]

/-- Without self calls, the cause for which lines are rejected stays the same with others behind
them. -/
theorem ofTokens_append_of_noSelfCalls
    {error : SyntaxError} (noSelfCalls : checkSelfCalls (lines.flatMap Line.tokens) = .ok ())
    (noLaterSelfCalls : checkSelfCalls (rest.flatMap Line.tokens) = .ok ())
    (rejected : ofTokens (lines.flatMap Line.tokens) = .error error) :
  ofTokens ((lines ++ rest).flatMap Line.tokens) = .error error
  := by
  have closedFirst := (List.forall_mem_append.mp closed).1
  have checkedFirst := Line.checkAdjacency_of_append closedFirst checked
  rw [ofTokens, checkedFirst, noSelfCalls, Line.lines_of_closed closedFirst] at rejected
  have failed := Statement.error_of_map_eq_error rejected
  rw [ofTokens, checked, Line.checkSelfCalls_append_of_ok closed noSelfCalls, noLaterSelfCalls,
    Line.lines_of_closed closed, List.map_append]
  apply congrArg (Except.map ofStatements) (statementsFrom_append_of_error failed _)

/-- The cause for which lines are rejected is a definition that calls itself if there is one
among them, and never if there is none. -/
theorem checkSelfCalls_of_rejected
    {error : SyntaxError} (rejected : ofTokens (lines.flatMap Line.tokens) = .error error) :
  checkSelfCalls (lines.flatMap Line.tokens) = .error error
    ∨ checkSelfCalls (lines.flatMap Line.tokens) = .ok () ∧ error.ofStatement
  := by
  have checkedFirst := Line.checkAdjacency_of_append (List.forall_mem_append.mp closed).1 checked
  rcases ofStatement_of_ofTokens rejected with ofStatement | selfCall
  · cases noSelfCalls : checkSelfCalls (lines.flatMap Line.tokens) with
    | ok => exact .inr ⟨rfl, ofStatement⟩
    | error error' =>
      rw [ofTokens, checkedFirst, noSelfCalls] at rejected
      cases rejected
      exact .inl rfl
  · exact .inl selfCall

end

/-- Let the first of some lines be rejected, though the tokens of all of them may stand next to
each other.  All lines together are rejected for the same cause if and only if one of the first
lines is a definition that calls itself or none of the others is.  Otherwise they are rejected
for the first self call on the other lines. -/
theorem ofTokens_append_of_rejected
    {lines rest : List Line} (closed : ∀ line ∈ lines ++ rest, line.Closed)
    (checked : checkAdjacency ((lines ++ rest).flatMap Line.tokens) = .ok ())
    {error : SyntaxError} (rejected : ofTokens (lines.flatMap Line.tokens) = .error error) :
  (ofTokens ((lines ++ rest).flatMap Line.tokens) = .error error
      ↔ (∃ line ∈ lines, ¬ line.NoSelfCall) ∨ ∀ line ∈ rest, line.NoSelfCall)
    ∧ ∀ error', (∀ line ∈ lines, line.NoSelfCall) →
      checkSelfCalls (rest.flatMap Line.tokens) = .error error' →
      ofTokens ((lines ++ rest).flatMap Line.tokens) = .error error'
  := by
  obtain ⟨closedFirst, closedRest⟩ := List.forall_mem_append.mp closed
  rw [← Line.checkSelfCalls_of_closed closedFirst, ← Line.checkSelfCalls_of_closed closedRest]
  have someSelfCall : (∃ line ∈ lines, ¬ line.NoSelfCall)
      ↔ ¬ checkSelfCalls (lines.flatMap Line.tokens) = .ok () := by
    rw [Line.checkSelfCalls_of_closed closedFirst]
    simp
  rw [someSelfCall]
  refine ⟨⟨?_, ?_⟩, ?_⟩
  · intro rejectedAll
    rcases checkSelfCalls_of_rejected closed checked rejected with selfCall | ⟨passed, ofStatement⟩
    · left
      rw [selfCall]
      simp
    · right
      cases later : checkSelfCalls (rest.flatMap Line.tokens) with
      | ok => rfl
      | error error' =>
        -- Only a statement is to blame for the first lines, but a self call for all of them.
        rw [ofTokens_append_of_later_selfCall closed checked passed later] at rejectedAll
        cases rejectedAll
        obtain ⟨call, rfl⟩ := exists_call_of_checkSelfCalls later
        cases ofStatement
  · intro cause
    rcases checkSelfCalls_of_rejected closed checked rejected with selfCall | ⟨passed, -⟩
    · apply ofTokens_append_of_selfCall closed checked selfCall
    · rcases cause with selfCall | noLaterSelfCalls
      · contradiction
      · apply ofTokens_append_of_noSelfCalls closed checked passed noLaterSelfCalls rejected
  · intro error' passed later
    apply ofTokens_append_of_later_selfCall closed checked passed later

/-- The line `print (1`, which misses a bracket. -/
def unclosedLine : Line :=
  ⟨[⟨.print, "print", 1, 1⟩, ⟨.opening .round, "(", 1, 7⟩, ⟨.number, "1", 1, 8⟩],
    ⟨.endOfLine, "", 1, 9⟩⟩

/-- The line `F[x] = F[x]` behind another one. -/
def selfCallLine : Line :=
  ⟨[⟨.function, "F", 2, 1⟩, ⟨.opening .square, "[", 2, 2⟩, ⟨.variable, "x", 2, 3⟩,
      ⟨.closing .square, "]", 2, 4⟩, ⟨.equals, "=", 2, 6⟩, ⟨.function, "F", 2, 8⟩,
      ⟨.opening .square, "[", 2, 9⟩, ⟨.variable, "x", 2, 10⟩, ⟨.closing .square, "]", 2, 11⟩],
    ⟨.endOfLine, "", 2, 12⟩⟩

theorem closed_unclosedLine_selfCallLine :
  ∀ line ∈ [unclosedLine] ++ [selfCallLine], line.Closed
  := by
  rw [List.singleton_append, List.forall_mem_cons, List.forall_mem_singleton]
  exact ⟨⟨rfl, by decide⟩, ⟨rfl, by decide⟩⟩

/-- The bracket that is missed on the first line is not reported, but the self call on the
second one. -/
theorem ofTokens_append_of_rejected_unclosed :
  ofTokens ([unclosedLine].flatMap Line.tokens) = .error (.mismatchedBracket 1)
    ∧ ofTokens (([unclosedLine] ++ [selfCallLine]).flatMap Line.tokens)
      = .error (.recursiveDefinition "F" 2 8)
  := by
  have rejected : ofTokens ([unclosedLine].flatMap Line.tokens) = .error (.mismatchedBracket 1) :=
    rfl
  refine ⟨rejected, ?_⟩
  obtain ⟨-, hidden⟩ :=
    ofTokens_append_of_rejected closed_unclosedLine_selfCallLine rfl rejected
  apply hidden _ _ rfl
  rw [List.forall_mem_singleton]
  intro first rest same isFunction
  cases same
  cases isFunction

/-- The error for the shortest rejected beginning of a program need not be that of the whole
program. -/
theorem not_rejected_in_line_order :
  ¬ ∀ lines : List Line, (∀ line ∈ lines, line.Closed) →
    checkAdjacency (lines.flatMap Line.tokens) = .ok () →
    ∀ (count : Nat) (error : SyntaxError),
      ofTokens ((lines.take count).flatMap Line.tokens) = .error error →
      (∀ count' < count, ∃ root, ofTokens ((lines.take count').flatMap Line.tokens) = .ok root) →
      ofTokens (lines.flatMap Line.tokens) = .error error
  := by
  intro inLineOrder
  have rejected := inLineOrder [unclosedLine, selfCallLine] closed_unclosedLine_selfCallLine rfl 1
    (.mismatchedBracket 1) rfl
  have selfCall : ofTokens ([unclosedLine, selfCallLine].flatMap Line.tokens)
      = .error (.recursiveDefinition "F" 2 8) := rfl
  rw [selfCall] at rejected
  have shortest : ∀ count' < 1, ∃ root,
      ofTokens (([unclosedLine, selfCallLine].take count').flatMap Line.tokens) = .ok root := by
    intro count' lt
    obtain rfl := Nat.lt_one_iff.mp lt
    exact ⟨_, rfl⟩
  cases rejected shortest

end Program

end IntScript
