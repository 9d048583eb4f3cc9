import IntScript.Proofs.Reading
import IntScript.Proofs.Segments

/-!
# The grammar

The grammar of the language, over the kinds of tokens, and the nodes that its rules stand for.
`Grammar.Derives` and `Grammar.Statement` are its rules, `Grammar.Parses` are the rules for
expressions with their trees, and `Statement.Written` says which node the tokens of a line write.
Main statements: what is written with operators up to some precedence is what the symbol for it
parses (`written_iff_parses`), and the grammar derives the kinds of exactly the tokens that write
a statement (`statement_iff_exists_written`).
-/

namespace IntScript

/-! ### The rules -/

namespace Grammar

/-- What expressions consist of. -/
inductive Symbol where
  | expr
  | term
  | factor
deriving DecidableEq, Repr

/-- The kinds of tokens that the rules for expressions derive.  A row of terms or factors is
built up from the left. -/
inductive Derives : Symbol → List Token.Kind → Prop where
  | expr {kinds : List Token.Kind} (term : Derives .term kinds) : Derives .expr kinds
  | sum {kinds kinds' : List Token.Kind} {op : Operator} (expr : Derives .expr kinds)
      (additive : op = .add ∨ op = .subtract) (term : Derives .term kinds') :
      Derives .expr (kinds ++ .operator op :: kinds')
  | term {kinds : List Token.Kind} (factor : Derives .factor kinds) : Derives .term kinds
  | product {kinds kinds' : List Token.Kind} {op : Operator} (term : Derives .term kinds)
      (multiplicative : op = .multiply ∨ op = .divide ∨ op = .modulo)
      (factor : Derives .factor kinds') : Derives .term (kinds ++ .operator op :: kinds')
  | number : Derives .factor [.number]
  | reference : Derives .factor [.variable]
  | call {kinds : List Token.Kind} (argument : Derives .expr kinds) :
      Derives .factor (.function :: .opening .square :: kinds ++ [.closing .square])
  | bracketed {kinds : List Token.Kind} (expr : Derives .expr kinds) :
      Derives .factor (.opening .round :: kinds ++ [.closing .round])

/-- The tokens that the rules for expressions derive, with the trees that the rules make of
them. -/
inductive Parses : Symbol → List Token → Node → Prop where
  | expr {tokens : List Token} {tree : Node} (term : Parses .term tokens tree) :
      Parses .expr tokens tree
  | sum {lefts rights : List Token} {left right : Node} {token : Token} {op : Operator}
      (expr : Parses .expr lefts left) (kind : token.kind = .operator op)
      (additive : op = .add ∨ op = .subtract) (term : Parses .term rights right) :
      Parses .expr (lefts ++ token :: rights) ⟨.operation op, "", token.line, [left, right]⟩
  | term {tokens : List Token} {tree : Node} (factor : Parses .factor tokens tree) :
      Parses .term tokens tree
  | product {lefts rights : List Token} {left right : Node} {token : Token} {op : Operator}
      (term : Parses .term lefts left) (kind : token.kind = .operator op)
      (multiplicative : op = .multiply ∨ op = .divide ∨ op = .modulo)
      (factor : Parses .factor rights right) :
      Parses .term (lefts ++ token :: rights) ⟨.operation op, "", token.line, [left, right]⟩
  | number {token : Token} (kind : token.kind = .number) :
      Parses .factor [token] (.leaf .number token.text token.line)
  | reference {token : Token} (kind : token.kind = .variable) :
      Parses .factor [token] (.leaf .variable token.text token.line)
  | call {function opening closing : Token} {tokens : List Token} {argument : Node}
      (functionKind : function.kind = .function) (openingKind : opening.kind = .opening .square)
      (closingKind : closing.kind = .closing .square) (expr : Parses .expr tokens argument) :
      Parses .factor (function :: opening :: tokens ++ [closing])
        ⟨.call, function.text, function.line, [argument]⟩
  | bracketed {opening closing : Token} {tokens : List Token} {tree : Node}
      (openingKind : opening.kind = .opening .round) (closingKind : closing.kind = .closing .round)
      (expr : Parses .expr tokens tree) : Parses .factor (opening :: tokens ++ [closing]) tree

/-- The kinds of tokens that the rules for statements derive. -/
inductive Statement : List Token.Kind → Prop where
  | assignment {kinds : List Token.Kind} (value : Derives .expr kinds) :
      Statement (.variable :: .equals :: kinds)
  | definition {kinds : List Token.Kind} (body : Derives .expr kinds) :
      Statement (.function :: .opening .square :: .variable :: .closing .square :: .equals :: kinds)
  | read : Statement [.read, .variable]
  | print {kinds : List Token.Kind} (value : Derives .expr kinds) : Statement (.print :: kinds)

end Grammar

/-- The tokens of a line and the token behind them. -/
structure Token.Line where
  body : List Token
  ending : Token

namespace Token.Line

/-- All tokens of a line. -/
def tokens (line : Line) : List Token :=
  line.body ++ [line.ending]

/-- A line that starts with a function does not name it again. -/
def NoSelfCall (line : Line) : Prop :=
  ∀ first rest, line.body = first :: rest → first.kind = .function →
    ∀ token ∈ rest, token.kind = .function → token.text ≠ first.text

/-- A line that may stand in a program: it ends with the token for its end, and what stands
before is nothing or a statement, which defines no function by itself. -/
structure Allowed (line : Line) : Prop where
  ending : line.ending.kind = .endOfLine
  body : line.body = [] ∨ Grammar.Statement (line.body.map Token.kind)
  noSelfCall : line.NoSelfCall

end Token.Line

/-- The tokens of a line, without the one for its end, write the node of a statement. -/
inductive Statement.Written : List Token → Node → Prop where
  | assignment {level : Nat} {name equals : Token} {tokens : List Token} {value : Node}
      (nameKind : name.kind = .variable) (equalsKind : equals.kind = .equals)
      (written : Expression.Written level tokens value) :
      Written (name :: equals :: tokens)
        ⟨.assignment, "", name.line, [.leaf .variable name.text name.line, value]⟩
  | definition {level : Nat} {function opening parameter closing equals : Token}
      {tokens : List Token} {body : Node} (functionKind : function.kind = .function)
      (openingKind : opening.kind = .opening .square) (parameterKind : parameter.kind = .variable)
      (closingKind : closing.kind = .closing .square) (equalsKind : equals.kind = .equals)
      (written : Expression.Written level tokens body) :
      Written (function :: opening :: parameter :: closing :: equals :: tokens)
        ⟨.definition, function.text, function.line,
          [.leaf .variable parameter.text parameter.line, body]⟩
  | read {keyword name : Token} (keywordKind : keyword.kind = .read)
      (nameKind : name.kind = .variable) :
      Written [keyword, name] ⟨.read, "", keyword.line, [.leaf .variable name.text name.line]⟩
  | print {level : Nat} {keyword : Token} {tokens : List Token} {value : Node}
      (keywordKind : keyword.kind = .print) (written : Expression.Written level tokens value) :
      Written (keyword :: tokens) ⟨.print, "", keyword.line, [value]⟩

namespace Grammar

/-! ### Derived and parsed expressions -/

/-- The kinds of the tokens that are parsed are derived. -/
theorem Parses.derives {symbol : Symbol} {tokens : List Token} {tree : Node}
    (parses : Parses symbol tokens tree) :
  Derives symbol (tokens.map Token.kind)
  := by
  induction parses with
  | expr _ ih => exact .expr ih
  | sum _ kind additive _ ihLeft ihRight =>
    rw [List.map_append, List.map_cons, kind]
    exact .sum ihLeft additive ihRight
  | term _ ih => exact .term ih
  | product _ kind multiplicative _ ihLeft ihRight =>
    rw [List.map_append, List.map_cons, kind]
    exact .product ihLeft multiplicative ihRight
  | number kind =>
    rw [List.map_singleton, kind]
    exact .number
  | reference kind =>
    rw [List.map_singleton, kind]
    exact .reference
  | call functionKind openingKind closingKind _ ih =>
    simp only [List.map_append, List.map_cons, List.map_nil, functionKind, openingKind,
      closingKind]
    exact .call ih
  | bracketed openingKind closingKind _ ih =>
    simp only [List.map_append, List.map_cons, List.map_nil, openingKind, closingKind]
    exact .bracketed ih

/-- Tokens whose kinds are derived are parsed. -/
theorem Derives.exists_parses
    {symbol : Symbol} {kinds : List Token.Kind} (h : Derives symbol kinds) {tokens : List Token}
    (same : tokens.map Token.kind = kinds) :
  ∃ tree, Parses symbol tokens tree
  := by
  induction h generalizing tokens with
  | expr _ ih =>
    obtain ⟨tree, parses⟩ := ih same
    exact ⟨tree, .expr parses⟩
  | sum _ additive _ ihLeft ihRight =>
    obtain ⟨lefts, rest, rfl, sameLeft, sameRest⟩ := List.map_eq_append_iff.mp same
    obtain ⟨token, rights, rfl, kind, sameRight⟩ := List.map_eq_cons_iff.mp sameRest
    obtain ⟨left, parsesLeft⟩ := ihLeft sameLeft
    obtain ⟨right, parsesRight⟩ := ihRight sameRight
    exact ⟨_, .sum parsesLeft kind additive parsesRight⟩
  | term _ ih =>
    obtain ⟨tree, parses⟩ := ih same
    exact ⟨tree, .term parses⟩
  | product _ multiplicative _ ihLeft ihRight =>
    obtain ⟨lefts, rest, rfl, sameLeft, sameRest⟩ := List.map_eq_append_iff.mp same
    obtain ⟨token, rights, rfl, kind, sameRight⟩ := List.map_eq_cons_iff.mp sameRest
    obtain ⟨left, parsesLeft⟩ := ihLeft sameLeft
    obtain ⟨right, parsesRight⟩ := ihRight sameRight
    exact ⟨_, .product parsesLeft kind multiplicative parsesRight⟩
  | number =>
    obtain ⟨token, rfl, kind⟩ := List.map_eq_singleton_iff.mp same
    exact ⟨_, .number kind⟩
  | reference =>
    obtain ⟨token, rfl, kind⟩ := List.map_eq_singleton_iff.mp same
    exact ⟨_, .reference kind⟩
  | call _ ih =>
    obtain ⟨front, rest, rfl, sameFront, sameRest⟩ := List.map_eq_append_iff.mp same
    obtain ⟨closing, rfl, closingKind⟩ := List.map_eq_singleton_iff.mp sameRest
    obtain ⟨function, rest, rfl, functionKind, sameRest⟩ := List.map_eq_cons_iff.mp sameFront
    obtain ⟨opening, arguments, rfl, openingKind, sameArgument⟩ := List.map_eq_cons_iff.mp sameRest
    obtain ⟨argument, parses⟩ := ih sameArgument
    exact ⟨_, .call functionKind openingKind closingKind parses⟩
  | bracketed _ ih =>
    obtain ⟨front, rest, rfl, sameFront, sameRest⟩ := List.map_eq_append_iff.mp same
    obtain ⟨closing, rfl, closingKind⟩ := List.map_eq_singleton_iff.mp sameRest
    obtain ⟨opening, inner, rfl, openingKind, sameInner⟩ := List.map_eq_cons_iff.mp sameFront
    obtain ⟨tree, parses⟩ := ih sameInner
    exact ⟨tree, .bracketed openingKind closingKind parses⟩

/-! ### Parsed and written expressions -/

/-- What derives the expressions in which operators of precedence up to `level` stand outside
of brackets. -/
def Symbol.ofLevel : Nat → Symbol
  | 0 => .factor
  | 1 => .term
  | _ => .expr

/-- How loosely the operators bind that stand outside of brackets in what a symbol derives. -/
def Symbol.level : Symbol → Nat
  | .factor => 0
  | .term => 1
  | .expr => 2

variable {level level' : Nat} {tokens : List Token} {tree : Node}

/-- What is parsed with tighter operators is parsed with looser ones. -/
theorem Parses.mono (h : Parses (.ofLevel level) tokens tree) (le : level ≤ level') :
  Parses (.ofLevel level') tokens tree
  := by
  match level, level' with
  | 0, 0 | 1, 1 | _ + 2, _ + 2 => apply h
  | 0, 1 => exact .term h
  | 0, _ + 2 => exact .expr (.term h)
  | 1, _ + 2 => exact .expr h

/-- A factor has no operators outside of brackets. -/
theorem Parses.ofFactor (level : Nat) (h : Parses .factor tokens tree) :
  Parses (.ofLevel level) tokens tree
  := by
  have here : Parses (.ofLevel 0) tokens tree := h
  apply here.mono (Nat.zero_le level)

/-- Whatever is parsed with some operators is an expression. -/
theorem Parses.toExpr (h : Parses (.ofLevel level) tokens tree) :
  Parses .expr tokens tree
  := by
  match level with
  | 0 => exact .expr (.term h)
  | 1 => exact .expr h
  | _ + 2 => apply h

/-- The precedences of the operators are the levels of the grammar. -/
theorem parses_of_written (written : Expression.Written level tokens tree) :
  Parses (.ofLevel level) tokens tree
  := by
  induction written with
  | number kind => exact .ofFactor _ (.number kind)
  | reference kind => exact .ofFactor _ (.reference kind)
  | call functionKind openingKind closingKind _ ih =>
    exact .ofFactor _ (.call functionKind openingKind closingKind ih.toExpr)
  | @operation _ _ op _ _ _ _ _ kind bare tighter _ _ ihLeft ihRight =>
    apply Parses.mono _ bare
    have ihRight := ihRight.mono (Nat.le_pred_of_lt tighter)
    cases op with
    | add => exact .sum ihLeft kind (.inl rfl) ihRight
    | subtract => exact .sum ihLeft kind (.inr rfl) ihRight
    | multiply => exact .product ihLeft kind (.inl rfl) ihRight
    | divide => exact .product ihLeft kind (.inr (.inl rfl)) ihRight
    | modulo => exact .product ihLeft kind (.inr (.inr rfl)) ihRight
  | bracketed openingKind closingKind _ ih =>
    exact .ofFactor _ (.bracketed openingKind closingKind ih.toExpr)

theorem Parses.written {symbol : Symbol} (parses : Parses symbol tokens tree) :
  Expression.Written symbol.level tokens tree
  := by
  induction parses with
  | expr _ ih | term _ ih => exact ih.mono (by decide)
  | sum _ kind additive _ ihLeft ihRight =>
    rcases additive with rfl | rfl
    all_goals exact .operation kind (by decide) (by decide) ihLeft ihRight
  | product _ kind multiplicative _ ihLeft ihRight =>
    rcases multiplicative with rfl | rfl | rfl
    all_goals exact .operation kind (by decide) (by decide) ihLeft ihRight
  | number kind => exact .number kind
  | reference kind => exact .reference kind
  | call functionKind openingKind closingKind _ ih =>
    exact .call functionKind openingKind closingKind ih
  | bracketed openingKind closingKind _ ih => exact .bracketed openingKind closingKind ih

/-- What is written with operators up to some precedence is what the symbol for this precedence
parses, with the same tree. -/
theorem written_iff_parses {symbol : Symbol} :
  Expression.Written symbol.level tokens tree ↔ Parses symbol tokens tree
  := by
  constructor
  · intro written
    have parses := parses_of_written written
    cases symbol <;> apply parses
  · apply Parses.written

/-- Whatever is written, its kinds are those of an expression. -/
theorem derives_of_written (written : Expression.Written level tokens tree) :
  Derives .expr (tokens.map Token.kind)
  :=
  (parses_of_written written).toExpr.derives

/-- Tokens whose kinds are derived write an expression. -/
theorem Derives.exists_written {symbol : Symbol} {kinds : List Token.Kind}
    (h : Derives symbol kinds) (same : tokens.map Token.kind = kinds) :
  ∃ tree, Expression.Written symbol.level tokens tree
  := by
  obtain ⟨tree, parses⟩ := h.exists_parses same
  exact ⟨tree, written_iff_parses.mpr parses⟩

/-- The grammar derives the kinds of exactly the tokens that write a statement. -/
theorem statement_iff_exists_written (tokens : List Token) :
  Statement (tokens.map Token.kind) ↔ ∃ node, Statement.Written tokens node
  := by
  constructor
  · intro h
    generalize same : tokens.map Token.kind = kinds at h
    cases h with
    | assignment value =>
      obtain ⟨name, rest, rfl, nameKind, sameRest⟩ := List.map_eq_cons_iff.mp same
      obtain ⟨equals, values, rfl, equalsKind, sameValue⟩ := List.map_eq_cons_iff.mp sameRest
      obtain ⟨tree, written⟩ := value.exists_written sameValue
      exact ⟨_, .assignment nameKind equalsKind written⟩
    | definition body =>
      obtain ⟨function, rest, rfl, functionKind, sameRest⟩ := List.map_eq_cons_iff.mp same
      obtain ⟨opening, rest, rfl, openingKind, sameRest⟩ := List.map_eq_cons_iff.mp sameRest
      obtain ⟨parameter, rest, rfl, parameterKind, sameRest⟩ := List.map_eq_cons_iff.mp sameRest
      obtain ⟨closing, rest, rfl, closingKind, sameRest⟩ := List.map_eq_cons_iff.mp sameRest
      obtain ⟨equals, bodies, rfl, equalsKind, sameBody⟩ := List.map_eq_cons_iff.mp sameRest
      obtain ⟨tree, written⟩ := body.exists_written sameBody
      exact ⟨_, .definition functionKind openingKind parameterKind closingKind equalsKind written⟩
    | read =>
      obtain ⟨keyword, rest, rfl, keywordKind, sameRest⟩ := List.map_eq_cons_iff.mp same
      obtain ⟨name, rfl, nameKind⟩ := List.map_eq_singleton_iff.mp sameRest
      exact ⟨_, .read keywordKind nameKind⟩
    | print value =>
      obtain ⟨keyword, values, rfl, keywordKind, sameValue⟩ := List.map_eq_cons_iff.mp same
      obtain ⟨tree, written⟩ := value.exists_written sameValue
      exact ⟨_, .print keywordKind written⟩
  · rintro ⟨node, written⟩
    cases written with
    | assignment nameKind equalsKind written =>
      rw [List.map_cons, List.map_cons, nameKind, equalsKind]
      exact .assignment (derives_of_written written)
    | definition functionKind openingKind parameterKind closingKind equalsKind written =>
      simp only [List.map_cons, functionKind, openingKind, parameterKind, closingKind, equalsKind]
      exact .definition (derives_of_written written)
    | read keywordKind nameKind =>
      rw [List.map_cons, List.map_singleton, keywordKind, nameKind]
      exact .read
    | print keywordKind written =>
      rw [List.map_cons, keywordKind]
      exact .print (derives_of_written written)

end Grammar

end IntScript
