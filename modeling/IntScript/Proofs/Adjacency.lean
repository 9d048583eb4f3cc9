import IntScript.Proofs.Grammar

/-!
# Written tokens stand next to each other

`Token.checkAdjacencyFrom` looks at a token and the one behind it.  What follows an operand
is `Token.Follows`, and what has to start with one is `Token.StartsValue`.  Main statement:
the tokens of an expression pass the check if what comes behind them passes it and can
follow an operand, and so do those of a statement in front of the end of its line.
-/

namespace IntScript

/-! ### Neighbours -/

namespace Token

/-- The token may stand with that token behind it, or with none. -/
def MayStand (startsLine : Bool) (token : Token) : Option Token → Prop
  | none => token.kind ≠ .undefined ∧ token.kind.needsNext = false
  | some next => token.kind.mayPrecede startsLine next.kind = true

theorem checkNext_eq_ok_iff (startsLine : Bool) (token : Token) (next? : Option Token) :
  checkNext startsLine token next? = .ok () ↔ MayStand startsLine token next?
  := by
  unfold checkNext MayStand
  by_cases undefined : token.kind = .undefined
  · cases next? <;> simp [undefined, Kind.mayPrecede]
  · cases next? <;> simp [undefined]

theorem checkAdjacencyFrom_cons (startsLine : Bool) (token : Token) (rest : List Token) :
  checkAdjacencyFrom startsLine (token :: rest) = .ok ()
    ↔ MayStand startsLine token rest.head?
      ∧ checkAdjacencyFrom (token.kind == .endOfLine) rest = .ok ()
  := by
  rw [← checkNext_eq_ok_iff, checkAdjacencyFrom]
  cases checkNext startsLine token rest.head? <;> simp

/-- What stands behind a token is checked on its own. -/
theorem checkAdjacencyFrom_behind
    {startsLine : Bool} {tokens rest : List Token} {token : Token}
    (h : checkAdjacencyFrom startsLine (tokens ++ token :: rest) = .ok ()) :
  checkAdjacencyFrom (token.kind == .endOfLine) rest = .ok ()
  := by
  induction tokens generalizing startsLine with
  | nil => apply ((checkAdjacencyFrom_cons _ _ _).mp h).2
  | cons first tokens ih => apply ih ((checkAdjacencyFrom_cons _ _ _).mp h).2

/-- What can stand behind an operand inside of an expression or at its end. -/
def Follows (rest : List Token) : Prop :=
  ∀ next ∈ rest.head?, next.kind.mayFollowOperand = true ∧ next.kind ≠ .equals

/-- An operand has to come first. -/
def StartsValue (rest : List Token) : Prop :=
  ∃ first, rest.head? = some first ∧ first.kind.startsValue = true

/-- The last token of an operand may stand before what follows an operand. -/
theorem mayStand_of_follows
    {token : Token} {rest : List Token} (operand : Phase.behind token.kind = .operator)
    (follows : Follows rest) :
  MayStand false token rest.head?
  := by
  cases next? : rest.head? with
  | none =>
    match kind : token.kind with
    | .variable | .number | .closing _ => simp [MayStand, kind, Kind.needsNext]
    | .undefined | .function | .equals | .operator _ | .opening _ | .print | .read
    | .endOfLine =>
      rw [kind] at operand
      cases operand
  | some next =>
    obtain ⟨mayFollow, notEquals⟩ := follows next next?
    match kind : token.kind with
    | .variable | .number | .closing .round | .closing .square =>
      simp [MayStand, kind, Kind.mayPrecede, mayFollow, notEquals]
    | .undefined | .function | .equals | .operator _ | .opening _ | .print | .read
    | .endOfLine =>
      rw [kind] at operand
      cases operand

theorem checkAdjacencyFrom_cons_of_follows
    {token : Token} {rest : List Token} (operand : Phase.behind token.kind = .operator)
    (follows : Follows rest) (checked : checkAdjacencyFrom false rest = .ok ()) :
  checkAdjacencyFrom false (token :: rest) = .ok ()
  := by
  have inside : (token.kind == .endOfLine) = false := by
    rw [beq_eq_false_iff_ne]
    intro kind
    rw [kind] at operand
    cases operand
  rw [checkAdjacencyFrom_cons, inside]
  exact ⟨mayStand_of_follows operand follows, checked⟩

/-- A closing bracket can stand behind the last operand before it. -/
theorem follows_of_closing {closing : Token} {bracket : Bracket}
    (kind : closing.kind = .closing bracket) (rest : List Token) :
  Follows (closing :: rest)
  := by
  intro next mem
  cases mem
  rw [kind]
  exact ⟨rfl, by simp⟩

/-- A closing bracket may stand before what follows an operand. -/
theorem checkAdjacencyFrom_closing {closing : Token} {rest : List Token} {bracket : Bracket}
    (kind : closing.kind = .closing bracket) (follows : Follows rest)
    (checked : checkAdjacencyFrom false rest = .ok ()) :
  checkAdjacencyFrom false (closing :: rest) = .ok ()
  := by
  apply checkAdjacencyFrom_cons_of_follows _ follows checked
  rw [kind]
  rfl

/-- A token that needs an operand may stand before one. -/
theorem checkAdjacencyFrom_cons_of_startsValue
    {token : Token} {rest : List Token} (startsLine : Bool)
    (kind : token.kind = .equals ∨ (∃ op, token.kind = .operator op)
      ∨ (∃ bracket, token.kind = .opening bracket) ∨ token.kind = .print)
    (starts : StartsValue rest) (checked : checkAdjacencyFrom false rest = .ok ()) :
  checkAdjacencyFrom startsLine (token :: rest) = .ok ()
  := by
  obtain ⟨first, head, starts⟩ := starts
  rw [checkAdjacencyFrom_cons, head]
  rcases kind with kind | ⟨op, kind⟩ | ⟨bracket, kind⟩ | kind
  all_goals
    rw [MayStand, kind]
    exact ⟨starts, checked⟩

end Token

/-! ### Expressions and statements -/

namespace Expression

open Token

/-- An expression starts with an operand. -/
theorem Written.startsValue
    {level : Nat} {tokens : List Token} {tree : Node} (written : Written level tokens tree)
    (rest : List Token) :
  StartsValue (tokens ++ rest)
  := by
  induction written generalizing rest with
  | @number _ token kind => exact ⟨token, rfl, by rw [kind]; rfl⟩
  | @reference _ token kind => exact ⟨token, rfl, by rw [kind]; rfl⟩
  | @call _ _ function _ _ _ _ functionKind => exact ⟨function, rfl, by rw [functionKind]; rfl⟩
  | operation _ _ _ _ _ ihLeft =>
    rw [List.append_assoc]
    apply ihLeft
  | @bracketed _ _ opening _ _ _ openingKind => exact ⟨opening, rfl, by rw [openingKind]; rfl⟩

/-- The tokens of an expression may stand next to each other. -/
theorem Written.checkAdjacencyFrom
    {level : Nat} {tokens : List Token} {tree : Node} (written : Written level tokens tree)
    {rest : List Token} (follows : Follows rest)
    (checked : checkAdjacencyFrom false rest = .ok ()) :
  Token.checkAdjacencyFrom false (tokens ++ rest) = .ok ()
  := by
  induction written generalizing rest with
  | number kind | reference kind =>
    apply checkAdjacencyFrom_cons_of_follows _ follows checked
    rw [kind]
    rfl
  | call functionKind openingKind closingKind written ih =>
    have argument := ih (follows_of_closing closingKind rest)
      (checkAdjacencyFrom_closing closingKind follows checked)
    have inner := checkAdjacencyFrom_cons_of_startsValue false (.inr (.inr (.inl ⟨_, openingKind⟩)))
      (written.startsValue _) argument
    rw [List.append_assoc]
    apply (checkAdjacencyFrom_cons _ _ _).mpr
    rw [functionKind]
    refine ⟨?_, inner⟩
    simp [MayStand, functionKind, openingKind, Kind.mayPrecede]
  | operation kind _ _ _ writtenRight ihLeft ihRight =>
    rw [List.append_assoc, List.cons_append]
    apply ihLeft
    · intro next mem
      cases mem
      rw [kind]
      exact ⟨rfl, by simp⟩
    · apply checkAdjacencyFrom_cons_of_startsValue false (.inr (.inl ⟨_, kind⟩))
        (writtenRight.startsValue _) (ihRight follows checked)
  | bracketed openingKind closingKind written ih =>
    have inner := ih (follows_of_closing closingKind rest)
      (checkAdjacencyFrom_closing closingKind follows checked)
    rw [List.append_assoc]
    apply checkAdjacencyFrom_cons_of_startsValue false (.inr (.inr (.inl ⟨_, openingKind⟩)))
      (written.startsValue _) inner

end Expression

namespace Statement

open Token

/-- A statement starts with a token that may start one. -/
theorem Written.startsStatement
    {tokens : List Token} {node : Node} (written : Written tokens node) :
  ∃ first rest, tokens = first :: rest ∧ first.kind.startsStatement = true
  := by
  cases written with
  | assignment kind | definition kind | read kind | print kind =>
    exact ⟨_, _, rfl, by rw [kind]; rfl⟩

/-- The tokens of a line that holds a statement may stand next to each other. -/
theorem Written.checkAdjacencyFrom
    {tokens rest : List Token} {node : Node} (written : Written tokens node) {ending : Token}
    (ends : ending.kind = .endOfLine)
    (checked : Token.checkAdjacencyFrom false (ending :: rest) = .ok ()) :
  Token.checkAdjacencyFrom true (tokens ++ ending :: rest) = .ok ()
  := by
  have follows : Follows (ending :: rest) := by
    intro next mem
    cases mem
    rw [ends]
    exact ⟨rfl, by decide⟩
  cases written with
  | assignment nameKind equalsKind written =>
    have value := checkAdjacencyFrom_cons_of_startsValue false (.inl equalsKind)
      (written.startsValue _) (written.checkAdjacencyFrom follows checked)
    rw [List.cons_append, checkAdjacencyFrom_cons, nameKind]
    refine ⟨?_, value⟩
    simp [MayStand, nameKind, equalsKind, Kind.mayPrecede, Kind.mayFollowOperand]
  | definition functionKind openingKind parameterKind closingKind equalsKind written =>
    have body := checkAdjacencyFrom_cons_of_startsValue false (.inl equalsKind)
      (written.startsValue _) (written.checkAdjacencyFrom follows checked)
    simp only [List.cons_append, checkAdjacencyFrom_cons, functionKind, openingKind,
      parameterKind, closingKind, List.head?_cons, MayStand] at body ⊢
    refine ⟨?_, ?_, ?_, ?_, body⟩
    all_goals simp [equalsKind, Kind.mayPrecede, Kind.mayFollowOperand, Kind.startsValue]
  | @read keyword name keywordKind nameKind =>
    have last : Token.checkAdjacencyFrom false (name :: ending :: rest) = .ok () := by
      apply checkAdjacencyFrom_cons_of_follows _ follows checked
      rw [nameKind]
      rfl
    rw [List.cons_append, checkAdjacencyFrom_cons, keywordKind]
    refine ⟨?_, last⟩
    simp [MayStand, keywordKind, nameKind, Kind.mayPrecede]
  | print keywordKind written =>
    apply checkAdjacencyFrom_cons_of_startsValue true (.inr (.inr (.inr keywordKind)))
      (written.startsValue _) (written.checkAdjacencyFrom follows checked)

end Statement

end IntScript
