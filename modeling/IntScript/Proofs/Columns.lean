import IntScript.Program
import IntScript.Proofs.Segments

/-!
# Columns

Columns do not matter for compiling.  `Token.recolumn` gives tokens other columns, and each pass
of the compiler does the same to tokens before and after that, except for the columns of the
errors that it reports (`Recolumned`).  `Token.withoutColumn` forgets all columns, and
`Token.withoutEndColumn` those of the tokens for the ends of lines, which no error reports.  Main
statements: token lists that differ in columns alone make up the same program, or they are
rejected for errors that differ in columns alone; and for token lists that differ in the columns
of the ends of lines alone these errors are the same.
-/

namespace IntScript

/-- A token that is given another column. -/
def Token.recolumn (f : Token → Nat) (token : Token) : Token :=
  { token with column := f token }

/-- Two errors are the same, or they are the same but for the token that they report, which has
another column. -/
inductive SyntaxError.Recolumned (f : Token → Nat) : SyntaxError → SyntaxError → Prop where
  | same (error : SyntaxError) : Recolumned f error error
  | unexpected (token : Token) : Recolumned f (.unexpected (token.recolumn f)) (.unexpected token)
  | selfCall {call : Token} (isFunction : call.kind = .function) :
      Recolumned f (.recursiveDefinition call.text call.line (f call))
        (.recursiveDefinition call.text call.line call.column)

/-- Two results are the same, or they are errors for the same token in another column. -/
inductive Recolumned {α : Type} (f : Token → Nat) :
    Except SyntaxError α → Except SyntaxError α → Prop where
  | ok (a : α) : Recolumned f (.ok a) (.ok a)
  | error {error error' : SyntaxError} (recolumned : error.Recolumned f error') :
      Recolumned f (.error error) (.error error')

namespace Recolumned

variable {α β : Type} {f : Token → Nat} {result result' : Except SyntaxError α}

theorem refl (result : Except SyntaxError α) :
  Recolumned f result result
  := by
  cases result with
  | ok a => exact .ok a
  | error error => exact .error (.same error)

theorem map (recolumned : Recolumned f result result') (g : α → β) :
  Recolumned f (result.map g) (result'.map g)
  := by
  cases recolumned with
  | ok a => exact .ok (g a)
  | error recolumned => exact .error recolumned

theorem unexpected (token : Token) :
  Recolumned (α := α) f (.error (.unexpected (token.recolumn f))) (.error (.unexpected token))
  :=
  .error (.unexpected token)

end Recolumned

variable (f : Token → Nat)

namespace Token

/-! ### Neighbours and self calls -/

theorem checkNext_recolumn (startsLine : Bool) (token : Token) (next? : Option Token) :
  Recolumned f (checkNext startsLine (token.recolumn f) (next?.map (recolumn f)))
    (checkNext startsLine token next?)
  := by
  have kind : (token.recolumn f).kind = token.kind := rfl
  unfold checkNext
  rw [kind]
  split
  · apply Recolumned.unexpected
  · cases next? with
    | none => apply Recolumned.refl
    | some next =>
      have nextKind : (next.recolumn f).kind = next.kind := rfl
      simp only [Option.map_some, nextKind]
      split
      · apply Recolumned.refl
      · apply Recolumned.unexpected

theorem checkAdjacencyFrom_recolumn (startsLine : Bool) (tokens : List Token) :
  Recolumned f (checkAdjacencyFrom startsLine (tokens.map (recolumn f)))
    (checkAdjacencyFrom startsLine tokens)
  := by
  induction tokens generalizing startsLine with
  | nil => apply Recolumned.refl
  | cons token rest ih =>
    have first := checkNext_recolumn f startsLine token rest.head?
    rw [List.map_cons, checkAdjacencyFrom, checkAdjacencyFrom, List.head?_map]
    generalize checkNext startsLine token rest.head? = checked at first
    generalize checkNext startsLine (token.recolumn f) _ = checked' at first
    cases first with
    | ok => apply ih
    | error same => exact .error same

/-- Lines are cut at the same places. -/
theorem lines_recolumn (tokens : List Token) :
  lines (tokens.map (recolumn f)) = (lines tokens).map (List.map (recolumn f))
  := by
  apply segments_map
  intro token
  rfl

theorem selfCall?_recolumn (line : List Token) :
  selfCall? (line.map (recolumn f)) = (selfCall? line).map (recolumn f)
  := by
  cases line with
  | nil => rfl
  | cons first rest =>
    have kind : (first.recolumn f).kind = first.kind := rfl
    rw [List.map_cons, selfCall?, selfCall?, kind]
    split
    · rw [List.find?_map]
      rfl
    · rfl

/-- A self call is a function. -/
theorem kind_of_findSome?_selfCall? {lines : List (List Token)} {call : Token}
    (found : lines.findSome? selfCall? = some call) :
  call.kind = .function
  := by
  obtain ⟨line, _, found⟩ := List.exists_of_findSome?_eq_some found
  unfold selfCall? at found
  split at found
  · cases found
  · split at found
    · have isCall := List.find?_some found
      simp only [Bool.and_eq_true, beq_iff_eq] at isCall
      exact isCall.1
    · cases found

theorem checkSelfCalls_recolumn (tokens : List Token) :
  Recolumned f (checkSelfCalls (tokens.map (recolumn f))) (checkSelfCalls tokens)
  := by
  have found : (lines (tokens.map (recolumn f))).findSome? selfCall?
      = ((lines tokens).findSome? selfCall?).map (recolumn f) := by
    rw [lines_recolumn, List.findSome?_map, List.map_findSome?]
    congr 1
    funext line
    apply selfCall?_recolumn
  unfold checkSelfCalls
  rw [found]
  cases found : (lines tokens).findSome? selfCall? with
  | none => apply Recolumned.refl
  | some call =>
    apply Recolumned.error
    apply SyntaxError.Recolumned.selfCall (kind_of_findSome?_selfCall? found)

end Token

/-! ### Statements -/

open Token

namespace Expression

/-- A token changes the stacks in the same way in another column. -/
theorem Stacks.feed_recolumn (token : Token) (state : Stacks) :
  feed (token.recolumn f) state = feed token state
    ∨ feed (token.recolumn f) state = .error (.unexpected (token.recolumn f)) state
      ∧ feed token state = .error (.unexpected token) state
  := by
  obtain ⟨kind, text, line, column⟩ := token
  cases kind with
  | undefined | equals | print | read | endOfLine => exact .inr ⟨rfl, rfl⟩
  | _ => exact .inl rfl

theorem parseFrom_recolumn (start : Nat) (state : Stacks) (tokens : List Token) :
  Recolumned f (parseFrom start state (tokens.map (recolumn f))) (parseFrom start state tokens)
  := by
  induction tokens generalizing state with
  | nil => apply Recolumned.refl
  | cons token rest ih =>
    have kind : (token.recolumn f).kind = token.kind := rfl
    rw [List.map_cons, parseFrom, parseFrom, kind]
    split
    · apply Recolumned.refl
    · rcases Stacks.feed_recolumn f token state with same | ⟨failed, failed'⟩
      · rw [same]
        cases Stacks.feed token state with
        | ok _ state' => apply ih
        | error error state' => apply Recolumned.refl
      · rw [failed, failed']
        apply Recolumned.unexpected

end Expression

namespace Statement

theorem parse_recolumn (start : Nat) (tokens : List Token) (g : Node → Node) :
  Recolumned f ((Expression.parse start (tokens.map (recolumn f))).map fun node => some (g node))
    ((Expression.parse start tokens).map fun node => some (g node))
  := by
  apply (Expression.parseFrom_recolumn f start .empty tokens).map

/-- A token that is found in another column stands there in some column. -/
theorem exists_of_map_recolumn_eq_cons {f : Token → Nat}
    {kind : Kind} {text : String} {line column : Nat} {tokens rest : List Token}
    (same : tokens.map (recolumn f) = ⟨kind, text, line, column⟩ :: rest) :
  ∃ column tokens', tokens = ⟨kind, text, line, column⟩ :: tokens'
    ∧ tokens'.map (recolumn f) = rest
  := by
  obtain ⟨⟨_, _, _, column⟩, tokens', rfl, first, behind⟩ := List.map_eq_cons_iff.mp same
  cases first
  exact ⟨column, tokens', rfl, behind⟩

/-- What makes a line start like a statement are the kinds of its tokens. -/
theorem ofLine_recolumn (line : List Token) :
  Recolumned f (ofLine (line.map (recolumn f))) (ofLine line)
  := by
  fun_cases ofLine line with
  | case1 => apply Recolumned.refl
  | case2 first kind =>
    obtain ⟨_, name, line, _⟩ := first
    cases kind
    apply parse_recolumn
  | case3 first rest kind noEquals =>
    obtain ⟨_, name, line, _⟩ := first
    cases kind
    rw [List.map_cons]
    simp only [ofLine, recolumn]
    -- An equality sign that is found in another column would have been found before.
    split
    · rename_i equals
      obtain ⟨_, value, rfl, -⟩ := exists_of_map_recolumn_eq_cons equals
      exact absurd rfl (noEquals _ _ _ _)
    · apply Recolumned.refl
  | case4 first kind _ _ _ parameter parameterLine _ _ _ _ _ _ _ next body =>
    obtain ⟨_, name, line, _⟩ := first
    cases kind
    apply parse_recolumn f line (next :: body)
      (definition name line (.leaf .variable parameter parameterLine))
  | case5 first rest kind noHeader =>
    obtain ⟨_, name, line, _⟩ := first
    cases kind
    rw [List.map_cons]
    simp only [ofLine, recolumn]
    split
    · rename_i opening
      obtain ⟨_, rest, rfl, parameter⟩ := exists_of_map_recolumn_eq_cons opening
      obtain ⟨_, rest, rfl, closing⟩ := exists_of_map_recolumn_eq_cons parameter
      obtain ⟨_, rest, rfl, equals⟩ := exists_of_map_recolumn_eq_cons closing
      obtain ⟨_, rest, rfl, behind⟩ := exists_of_map_recolumn_eq_cons equals
      obtain ⟨next, body, rfl, -⟩ := List.map_eq_cons_iff.mp behind
      exact absurd rfl (noHeader _ _ _ _ _ _ _ _ _ _ _ _ _ _)
    · apply Recolumned.refl
  | case6 first kind =>
    obtain ⟨_, name, line, _⟩ := first
    cases kind
    apply Recolumned.refl
  | case7 first rest kind noName =>
    obtain ⟨_, name, line, _⟩ := first
    cases kind
    rw [List.map_cons]
    simp only [ofLine, recolumn]
    split
    · rename_i name
      obtain ⟨_, rest, rfl, ending⟩ := exists_of_map_recolumn_eq_cons name
      obtain ⟨_, rest, rfl, behind⟩ := exists_of_map_recolumn_eq_cons ending
      obtain rfl := List.map_eq_nil_iff.mp behind
      exact absurd rfl (noName _ _ _ _ _ _)
    · apply Recolumned.refl
  | case8 first rest kind =>
    obtain ⟨_, name, line, _⟩ := first
    cases kind
    apply parse_recolumn
  | case9 first rest kind =>
    obtain ⟨_, name, line, _⟩ := first
    cases kind
    apply Recolumned.refl
  | case10 first rest =>
    obtain ⟨kind, text, line, column⟩ := first
    cases kind with
    | undefined | number | equals | operator | opening | closing => apply Recolumned.unexpected
    | _ => contradiction

end Statement

namespace Program

theorem statementsFrom_recolumn (done : List Node) (lines : List (List Token)) :
  Recolumned f (statementsFrom done (lines.map (List.map (recolumn f))))
    (statementsFrom done lines)
  := by
  induction lines generalizing done with
  | nil => apply Recolumned.refl
  | cons line lines ih =>
    have first := Statement.ofLine_recolumn f line
    rw [List.map_cons, statementsFrom, statementsFrom]
    generalize Statement.ofLine line = made at first
    generalize Statement.ofLine (line.map (recolumn f)) = made' at first
    cases first with
    | ok statement? => cases statement? <;> apply ih
    | error same => exact .error same

/-- In other columns tokens make up the same program, or they are rejected for the same error in
another column. -/
theorem ofTokens_recolumn (tokens : List Token) :
  Recolumned f (ofTokens (tokens.map (recolumn f))) (ofTokens tokens)
  := by
  have neighbours := checkAdjacencyFrom_recolumn f true tokens
  have selfCalls := checkSelfCalls_recolumn f tokens
  have made := statementsFrom_recolumn f [] (lines tokens)
  unfold ofTokens checkAdjacency statements
  rw [lines_recolumn]
  generalize checkAdjacencyFrom true tokens = checked at neighbours
  generalize checkAdjacencyFrom true (tokens.map (recolumn f)) = checked' at neighbours
  generalize checkSelfCalls tokens = passed at selfCalls
  generalize checkSelfCalls (tokens.map (recolumn f)) = passed' at selfCalls
  cases neighbours with
  | error same => exact .error same
  | ok =>
    cases selfCalls with
    | error same => exact .error same
    | ok => apply made.map

end Program

/-! ### Columns that are forgotten -/

/-- A token whose column is forgotten. -/
def Token.withoutColumn (token : Token) : Token :=
  { token with column := 0 }

/-- An error whose column is forgotten, if it has one. -/
def SyntaxError.withoutColumn : SyntaxError → SyntaxError
  | unexpectedSymbol symbol line _ => unexpectedSymbol symbol line 0
  | unexpectedToken token line _ => unexpectedToken token line 0
  | recursiveDefinition name line _ => recursiveDefinition name line 0
  | error => error

/-- Two results are the same, or they are errors that differ in columns alone. -/
inductive SameButColumns {α : Type} : Except SyntaxError α → Except SyntaxError α → Prop where
  | ok (a : α) : SameButColumns (.ok a) (.ok a)
  | error {error error' : SyntaxError} (same : error.withoutColumn = error'.withoutColumn) :
      SameButColumns (.error error) (.error error')

namespace SameButColumns

variable {α : Type} {result result' result'' : Except SyntaxError α}

theorem symm (same : SameButColumns result result') :
  SameButColumns result' result
  := by
  cases same with
  | ok a => exact .ok a
  | error same => exact .error same.symm

theorem trans (same : SameButColumns result result') (same' : SameButColumns result' result'') :
  SameButColumns result result''
  := by
  cases same with
  | ok a => apply same'
  | error same =>
    cases same' with
    | error same' => exact .error (same.trans same')

end SameButColumns

/-- Without the columns results are the same. -/
theorem Recolumned.sameButColumns {α : Type} {result result' : Except SyntaxError α}
    (recolumned : Recolumned (fun _ => 0) result result') :
  SameButColumns result result'
  := by
  cases recolumned with
  | ok a => exact .ok a
  | error recolumned =>
    apply SameButColumns.error
    cases recolumned with
    | same => rfl
    | selfCall => rfl
    | unexpected token =>
      obtain ⟨kind, _, _, _⟩ := token
      cases kind <;> rfl

/-- Tokens that differ in columns alone make up the same program, or they are rejected for errors
that differ in columns alone. -/
theorem Program.ofTokens_congr {tokens tokens' : List Token}
    (same : tokens.map withoutColumn = tokens'.map withoutColumn) :
  SameButColumns (ofTokens tokens) (ofTokens tokens')
  := by
  have forgotten := (ofTokens_recolumn (fun _ => 0) tokens).sameButColumns
  have forgotten' := (ofTokens_recolumn (fun _ => 0) tokens').sameButColumns
  change SameButColumns (ofTokens (tokens.map withoutColumn)) _ at forgotten
  rw [same] at forgotten
  apply forgotten.symm.trans forgotten'

/-! ### Ends of lines -/

/-- A token whose column is forgotten if it is that of the end of a line. -/
def Token.withoutEndColumn : Token → Token :=
  recolumn fun token => if token.kind = .endOfLine then 0 else token.column

/-- The columns of the ends of lines are not reported. -/
theorem Program.ofTokens_withoutEndColumn (tokens : List Token) :
  ofTokens (tokens.map withoutEndColumn) = ofTokens tokens
  := by
  have recolumned := ofTokens_recolumn
    (fun token => if token.kind = .endOfLine then 0 else token.column) tokens
  unfold withoutEndColumn
  generalize ofTokens (tokens.map _) = result at *
  generalize ofTokens tokens = result' at *
  cases recolumned with
  | ok => rfl
  | error recolumned =>
    cases recolumned with
    | same => rfl
    | selfCall isFunction => rw [if_neg (by simp [isFunction])]
    | unexpected token =>
      obtain ⟨kind, _, _, _⟩ := token
      cases kind <;> rfl

/-- Tokens that differ in the columns of the ends of lines alone make up the same program, or they
are rejected for the same error. -/
theorem Program.ofTokens_congr_ends {tokens tokens' : List Token}
    (same : tokens.map withoutEndColumn = tokens'.map withoutEndColumn) :
  ofTokens tokens = ofTokens tokens'
  := by
  rw [← ofTokens_withoutEndColumn tokens, same, ofTokens_withoutEndColumn]

end IntScript
