import IntScript.Token

/-!
# Brackets

The brackets of a list of tokens form a word.  `WellNested` says that every bracket of a word
has a partner of its shape, and `Closable` that a word can be completed so that it has.  Both
are decided by one walk along the word that keeps the brackets which are still open.  Main
statements: a word is well nested if and only if the walk ends with no open bracket, and it can
be completed if and only if the walk meets no closing bracket without a partner.
-/

namespace IntScript

namespace Token

/-- The kinds of brackets. -/
def Kind.isBracket : Kind → Bool
  | .opening _ | .closing _ => true
  | _ => false

/-- The brackets of a list of tokens. -/
def brackets (tokens : List Token) : List Kind :=
  (tokens.map kind).filter Kind.isBracket

theorem brackets_append (tokens tokens' : List Token) :
  brackets (tokens ++ tokens') = brackets tokens ++ brackets tokens'
  := by
  simp [brackets]

theorem isBracket_of_mem_brackets {tokens : List Token} :
  ∀ kind ∈ brackets tokens, kind.isBracket
  := by
  intro kind mem
  apply (List.mem_filter.mp mem).2

end Token

open Token (Kind)

/-! ### Words of brackets -/

/-- Every bracket of the word has its partner: brackets of one shape enclose a word in which
every bracket has its partner, and so on behind them. -/
inductive WellNested : List Kind → Prop where
  | nil : WellNested []
  | pair (bracket : Bracket) {inner rest : List Kind} (wellNested : WellNested inner)
      (wellNestedRest : WellNested rest) :
      WellNested (.opening bracket :: inner ++ .closing bracket :: rest)

/-- More brackets can be put behind the word so that every bracket has its partner. -/
def Closable (word : List Kind) : Prop :=
  ∃ rest, WellNested (word ++ rest)

/-! ### Open brackets -/

/-- The brackets that are open, the last one first, after one more: a closing bracket takes away
its partner, which has to be the last one that was opened. -/
def meet? : List Bracket → Kind → Option (List Bracket)
  | unclosed, .opening bracket => some (bracket :: unclosed)
  | partner :: unclosed, .closing bracket => if partner = bracket then some unclosed else none
  | [], .closing _ => none
  | unclosed, _ => some unclosed

/-- The brackets of a word that are still open at its end, unless a closing bracket has no
partner. -/
def unclosed? (word : List Kind) : Option (List Bracket) :=
  word.foldlM meet? []

@[simp]
theorem meet?_opening (unclosed : List Bracket) (bracket : Bracket) :
  meet? unclosed (.opening bracket) = some (bracket :: unclosed)
  := by
  cases unclosed <;> rfl

@[simp]
theorem meet?_closing_self (bracket : Bracket) (unclosed : List Bracket) :
  meet? (bracket :: unclosed) (.closing bracket) = some unclosed
  := by
  simp [meet?]

theorem meet?_of_not_isBracket {kind : Kind} (h : kind.isBracket = false)
    (unclosed : List Bracket) :
  meet? unclosed kind = some unclosed
  := by
  cases kind with
  | opening | closing => cases h
  | _ => cases unclosed <;> rfl

theorem unclosed?_append (word rest : List Kind) :
  unclosed? (word ++ rest) = (unclosed? word).bind fun unclosed => rest.foldlM meet? unclosed
  := List.foldlM_append

/-- The open brackets of tokens are found along the kinds of all tokens. -/
theorem unclosed?_brackets_concat (tokens : List Token) (token : Token) :
  unclosed? (Token.brackets (tokens ++ [token]))
    = (unclosed? (Token.brackets tokens)).bind fun unclosed => meet? unclosed token.kind
  := by
  rw [Token.brackets_append, unclosed?_append]
  congr 1
  funext unclosed
  cases isBracket : token.kind.isBracket with
  | false => simp [Token.brackets, isBracket, meet?_of_not_isBracket isBracket]
  | true => simp [Token.brackets, isBracket]

/-- After a word in which every bracket has its partner the same brackets are open as before. -/
theorem WellNested.foldlM_meet? {word : List Kind} (wellNested : WellNested word)
    (unclosed : List Bracket) :
  word.foldlM meet? unclosed = some unclosed
  := by
  induction wellNested generalizing unclosed with
  | nil => rfl
  | pair bracket _ _ ih ihRest => simp [List.foldlM_append, ih, ihRest]

/-! ### Closing what is open -/

/-- The word closes the open brackets, from the last one on, with partners between which every
bracket has its own. -/
def Closes : List Bracket → List Kind → Prop
  | [], word => WellNested word
  | bracket :: unclosed, word =>
    ∃ inner rest, word = inner ++ .closing bracket :: rest ∧ WellNested inner
      ∧ Closes unclosed rest

/-- A pair of brackets can stand before what closes the open brackets. -/
theorem Closes.pair {unclosed : List Bracket} (bracket : Bracket) {inner rest : List Kind}
    (wellNested : WellNested inner) (closes : Closes unclosed rest) :
  Closes unclosed (.opening bracket :: inner ++ .closing bracket :: rest)
  := by
  cases unclosed with
  | nil => apply WellNested.pair bracket wellNested closes
  | cons outer unclosed =>
    obtain ⟨before, rest, rfl, wellNestedBefore, closes⟩ := closes
    refine ⟨.opening bracket :: inner ++ .closing bracket :: before, rest, by simp, ?_, closes⟩
    apply WellNested.pair bracket wellNested wellNestedBefore

/-- A word after which no bracket is open closes the brackets that were open before it. -/
theorem closes_of_foldlM_meet?
    {word : List Kind} (all : ∀ kind ∈ word, kind.isBracket) {unclosed : List Bracket}
    (met : word.foldlM meet? unclosed = some []) :
  Closes unclosed word
  := by
  induction word generalizing unclosed with
  | nil =>
    cases met
    apply WellNested.nil
  | cons kind word ih =>
    rw [List.forall_mem_cons] at all
    rw [List.foldlM_cons] at met
    cases kind with
    | opening bracket =>
      rw [meet?_opening] at met
      obtain ⟨inner, rest, rfl, wellNested, closes⟩ := ih all.2 met
      apply closes.pair bracket wellNested
    | closing bracket =>
      cases unclosed with
      | nil => cases met
      | cons partner unclosed =>
        by_cases same : partner = bracket
        · subst same
          rw [meet?_closing_self] at met
          exact ⟨[], word, rfl, .nil, ih all.2 met⟩
        · simp [meet?, same] at met
    | _ => cases all.1

/-- A word is well nested if and only if no bracket is open at its end. -/
theorem wellNested_iff {word : List Kind} (all : ∀ kind ∈ word, kind.isBracket) :
  WellNested word ↔ unclosed? word = some []
  := by
  constructor
  · intro wellNested
    apply wellNested.foldlM_meet? []
  · intro met
    apply closes_of_foldlM_meet? all met

/-- Open brackets are closed by their partners in turn. -/
theorem foldlM_meet?_closing (unclosed : List Bracket) :
  (unclosed.map Kind.closing).foldlM meet? unclosed = some []
  := by
  induction unclosed with
  | nil => rfl
  | cons bracket unclosed ih => simpa using ih

/-- A word can be completed if and only if no closing bracket misses its partner. -/
theorem closable_iff {word : List Kind} (all : ∀ kind ∈ word, kind.isBracket) :
  Closable word ↔ ∃ unclosed, unclosed? word = some unclosed
  := by
  constructor
  · rintro ⟨rest, wellNested⟩
    have met := wellNested.foldlM_meet? []
    change unclosed? (word ++ rest) = _ at met
    rw [unclosed?_append] at met
    obtain ⟨unclosed, met, -⟩ := Option.bind_eq_some_iff.mp met
    exact ⟨unclosed, met⟩
  · rintro ⟨unclosed, met⟩
    refine ⟨unclosed.map Kind.closing, (wellNested_iff ?_).mpr ?_⟩
    · rw [List.forall_mem_append]
      refine ⟨all, ?_⟩
      rw [List.forall_mem_map]
      intro bracket _
      rfl
    · rw [unclosed?_append, met]
      apply foldlM_meet?_closing

end IntScript
