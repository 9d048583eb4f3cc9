import IntScript.Proofs.Acceptance
import IntScript.Proofs.ByteOffsets
import IntScript.Proofs.Lexemes

/-!
# Scanned lines

Where the tokens of a line stand in it.  `Token.StandsIn` says that a token is spelled by the
characters at its column, and `Token.Line.Covers` that the tokens of a line are spelled so one
after the other, with nothing but blanks between them and the token for the end of the line
behind them.  Main statement: scanning covers every line of a source, and numbers the lines
from one.
-/

namespace IntScript.Token

/-- The token is spelled by the characters of the text that start at its column. -/
def StandsIn (text : List Char) (token : Token) : Prop :=
  ∃ before after, text = before ++ token.text.toList ++ after ∧ token.column = before.length + 1
    ∧ Spells before after token.text.toList token.kind

/-- The column belongs to one of the characters of a token. -/
def Spans (token : Token) (column : Nat) : Prop :=
  token.column ≤ column ∧ column < token.column + token.text.length

/-- The tokens of the line with this number and this text. -/
structure Line.Covers (number : Nat) (text : List Char) (line : Line) : Prop where
  ending : line.ending = ⟨.endOfLine, "", number, text.length + 1⟩
  inside : ∀ token ∈ line.body, token.kind ≠ .endOfLine
  number : ∀ token ∈ line.body, token.line = number
  spelled : ∀ token ∈ line.body, token.StandsIn text
  apart : line.body.Pairwise fun token next =>
    token.column < next.column ∧ token.column + token.text.length ≤ next.column
  blank : ∀ before c after, text = before ++ c :: after →
    (∀ token ∈ line.body, ¬ token.Spans (before.length + 1)) → Text.isBlank c = true

/-! ### Places of lexemes -/

/-- A lexeme starts behind all the characters of the lexemes before it. -/
theorem mem_placedFrom_iff {start column : Nat} {lexemes : List (List Char)} {lexeme : List Char} :
  (lexeme, column) ∈ placedFrom List.length start lexemes
    ↔ ∃ front back, lexemes = front ++ lexeme :: back ∧ column = start + front.flatten.length
  := by
  induction lexemes generalizing start with
  | nil => simp [placedFrom]
  | cons first lexemes ih =>
    rw [placedFrom_cons, List.mem_cons, ih]
    constructor
    · rintro (same | ⟨front, back, rfl, rfl⟩)
      · cases same
        exact ⟨[], lexemes, rfl, rfl⟩
      · exact ⟨first :: front, back, rfl, by simp [Nat.add_assoc]⟩
    · rintro ⟨front, back, same, rfl⟩
      cases front with
      | nil =>
        cases same
        exact .inl rfl
      | cons _ front =>
        cases same
        exact .inr ⟨front, back, rfl, by simp [Nat.add_assoc]⟩

/-- A lexeme ends before the next ones start. -/
theorem pairwise_placedFrom (start : Nat) (lexemes : List (List Char)) :
  (placedFrom List.length start lexemes).Pairwise fun placed next =>
    placed.2 + placed.1.length ≤ next.2
  := by
  induction lexemes generalizing start with
  | nil => exact .nil
  | cons first lexemes ih =>
    rw [placedFrom_cons, List.pairwise_cons]
    refine ⟨?_, ih _⟩
    rintro ⟨lexeme, column⟩ mem
    obtain ⟨_, _, -, rfl⟩ := mem_placedFrom_iff.mp mem
    apply Nat.le_add_right

/-- Every character belongs to some lexeme. -/
theorem exists_lexeme_of_flatten
    {lexemes : List (List Char)} {before after : List Char} {c : Char}
    (flat : lexemes.flatten = before ++ c :: after) :
  ∃ front inner outer back, lexemes = front ++ (inner ++ c :: outer) :: back
    ∧ before = front.flatten ++ inner
  := by
  rcases List.flatten_eq_append_iff.mp flat with ⟨front, rest, rfl, rfl, same⟩ |
    ⟨front, inner, d, outer, back, rfl, rfl, same⟩
  · obtain ⟨empty, outer, back, rfl, allEmpty, -⟩ := List.flatten_eq_cons_iff.mp same.symm
    refine ⟨front ++ empty, [], outer, back, by simp, ?_⟩
    simp [List.flatten_eq_nil_iff.mpr allEmpty]
  · cases same
    exact ⟨front, inner, outer, back, rfl, rfl⟩

/-! ### Lines -/

/-- The tokens that a text is scanned to if it is the line with the given number. -/
def Line.ofText (number : Nat) (text : List Char) : Line :=
  ⟨(placed (lexemes text)).filterMap (ofPlaced? number),
    ⟨.endOfLine, "", number, text.length + 1⟩⟩

namespace Line

variable {number : Nat} {text : List Char} {token : Token}

/-- A line is scanned to these tokens. -/
theorem tokens_ofText (number : Nat) (text : List Char) :
  (ofText number text).tokens = scanLine number text
  :=
  (scanLine_eq number text).symm

/-- A token of a scanned line is a lexeme at its place. -/
theorem mem_ofText_iff :
  token ∈ (ofText number text).body ↔ ∃ front lexeme back kind,
    lexemes text = front ++ lexeme :: back ∧ Kind.ofLexeme? lexeme = some kind
      ∧ token = ⟨kind, String.ofList lexeme, number, front.flatten.length + 1⟩
  := by
  have mem_placed (lexeme : List Char) (column : Nat) :
      (lexeme, column) ∈ placed (lexemes text) ↔ ∃ front back,
        lexemes text = front ++ lexeme :: back ∧ column = 1 + front.flatten.length :=
    mem_placedFrom_iff
  simp only [ofText, List.mem_filterMap, ofPlaced?, Option.map_eq_some_iff]
  constructor
  · rintro ⟨⟨lexeme, column⟩, mem, kind, becomes, rfl⟩
    obtain ⟨front, back, cut, rfl⟩ := (mem_placed lexeme column).mp mem
    exact ⟨front, lexeme, back, kind, cut, becomes, by rw [Nat.add_comm]⟩
  · rintro ⟨front, lexeme, back, kind, cut, becomes, rfl⟩
    exact ⟨(lexeme, 1 + front.flatten.length), (mem_placed _ _).mpr ⟨front, back, cut, rfl⟩,
      kind, becomes, by rw [Nat.add_comm]⟩

/-- A token of a scanned line is spelled at its column. -/
theorem standsIn_of_mem_ofText (mem : token ∈ (ofText number text).body) :
  token.StandsIn text
  := by
  obtain ⟨front, lexeme, back, kind, cut, becomes, rfl⟩ := mem_ofText_iff.mp mem
  refine ⟨front.flatten, back.flatten, ?_, rfl, ?_⟩
  · have flat : (lexemes text).flatten = text := List.flatten_splitBy _ _
    rw [cut] at flat
    simpa using flat.symm
  · rw [String.toList_ofList]
    apply spells_of_ofLexeme? cut becomes

/-- A character of a lexeme that becomes a token belongs to that token. -/
theorem spans_of_ofLexeme?
    (number : Nat) {front back : List (List Char)} {inner outer : List Char} {c : Char}
    {kind : Kind}
    (cut : lexemes text = front ++ (inner ++ c :: outer) :: back)
    (becomes : Kind.ofLexeme? (inner ++ c :: outer) = some kind) :
  ∃ token ∈ (ofText number text).body, token.Spans ((front.flatten ++ inner).length + 1)
  := by
  refine ⟨_, mem_ofText_iff.mpr ⟨front, _, back, kind, cut, becomes, rfl⟩, ?_⟩
  simp only [Spans, String.length_ofList, List.length_append, List.length_cons]
  omega

/-- Scanning covers a line. -/
theorem covers_ofText (number : Nat) (text : List Char) :
  (ofText number text).Covers number text
  where
  ending := rfl
  inside := by
    intro token mem
    obtain ⟨_, _, -, -, spells⟩ := standsIn_of_mem_ofText mem
    apply spells.ne_endOfLine
  number := by
    intro token mem
    obtain ⟨_, _, _, _, -, -, rfl⟩ := mem_ofText_iff.mp mem
    rfl
  spelled := fun token => standsIn_of_mem_ofText
  apart := by
    apply (pairwise_placedFrom 1 (lexemes text)).filterMap
    rintro ⟨lexeme, column⟩ ⟨next, nextColumn⟩ apart token becomes token' becomes'
    rw [ofPlaced?, Option.map_eq_some_iff] at becomes becomes'
    obtain ⟨kind, becomes, rfl⟩ := becomes
    obtain ⟨_, _, rfl⟩ := becomes'
    have nonempty : lexeme ≠ [] := by
      rintro rfl
      cases becomes
    have positive := List.length_pos_of_ne_nil nonempty
    rw [String.length_ofList]
    exact ⟨Nat.lt_of_lt_of_le (Nat.lt_add_of_pos_right positive) apart, apart⟩
  blank := by
    intro before c after same outside
    have flat : (lexemes text).flatten = text := List.flatten_splitBy _ _
    obtain ⟨front, inner, outer, back, cut, rfl⟩ := exists_lexeme_of_flatten (flat.trans same)
    cases becomes : Kind.ofLexeme? (inner ++ c :: outer) with
    | none =>
      apply isBlank_of_ofLexeme? cut becomes
      simp
    | some kind =>
      obtain ⟨token, mem, spans⟩ := spans_of_ofLexeme? number cut becomes
      exact absurd spans (outside token mem)

end Line

/-! ### Sources -/

/-- The lines of a source are scanned one by one. -/
theorem scan_eq (lines : List String) :
  scan lines
    = ((lines.zipIdx 1).map fun source => Line.ofText source.2 source.1.toList).flatMap Line.tokens
  := by
  rw [List.flatMap_map]
  apply List.flatMap_congr
  intro source _
  rw [Line.tokens_ofText]

/-- The tokens of a source are cut where its lines end. -/
theorem lines_scan (lines : List String) :
  Token.lines (scan lines)
    = (lines.zipIdx 1).map fun source => scanLine source.2 source.1.toList
  := by
  have closed : ∀ line ∈ (lines.zipIdx 1).map fun source => Line.ofText source.2 source.1.toList,
      line.ending.kind = .endOfLine ∧ ∀ token ∈ line.body, token.kind ≠ .endOfLine := by
    rw [List.forall_mem_map]
    intro source mem
    exact ⟨rfl, (Line.covers_ofText _ _).inside⟩
  rw [scan_eq, Line.lines_flatMap_tokens (fun line mem => (closed line mem).1)
    (fun line mem => (closed line mem).2), List.map_map]
  apply List.map_congr_left
  intro source _
  apply Line.tokens_ofText

/-- Scanning covers every line of a source by its tokens.  Those of a line carry its number,
each is spelled at its column, they do not overlap, all other characters are blank, and the
token for the end of the line stands behind them. -/
theorem scan_covers (lines : List String) :
  ∃ scanned : List Line, scan lines = scanned.flatMap Line.tokens
    ∧ List.Forall₂ (fun source line => line.Covers source.2 source.1.toList) (lines.zipIdx 1)
      scanned
  := by
  refine ⟨_, scan_eq lines, ?_⟩
  rw [List.forall₂_map_right_iff, List.forall₂_same]
  intro source mem
  apply Line.covers_ofText

/-- Columns count characters, and the longest run decides what a word is. -/
example : scan ["∑ prints"]
    = [⟨.undefined, "∑", 1, 1⟩, ⟨.variable, "prints", 1, 3⟩, ⟨.endOfLine, "", 1, 9⟩]
  := rfl

end IntScript.Token
