import IntScript.Proofs.Columns
import IntScript.Proofs.Scanning

/-!
# Spacing

The blanks of a line do not matter beyond keeping its tokens apart.  `Token.respaced` rewrites
a line as the texts of its tokens with single spaces between them.  Main statement: rewritten
lines have the same tokens as before, columns aside, so they make up the same program or are
rejected for the same error, and rewriting them again changes nothing.
-/

namespace IntScript

/-! ### Lists with separators -/

section

variable {α : Type} {separator : α} {l : List α}

theorem forall_mem_intersperse {P : α → Prop} (ofSeparator : P separator) (all : ∀ a ∈ l, P a) :
  ∀ a ∈ l.intersperse separator, P a
  := by
  induction l with
  | nil => simp
  | cons a l ih =>
    rw [List.forall_mem_cons] at all
    cases l with
    | nil => simpa using all.1
    | cons b l =>
      rw [List.intersperse_cons_cons, List.forall_mem_cons, List.forall_mem_cons]
      exact ⟨all.1, ofSeparator, ih all.2⟩

/-- Neighbours are related if all elements are related to the separator on both sides. -/
theorem isChain_intersperse {R : α → α → Prop} (before : ∀ a ∈ l, R a separator)
    (behind : ∀ a ∈ l, R separator a) :
  (l.intersperse separator).IsChain R
  := by
  induction l with
  | nil => exact .nil
  | cons a l ih =>
    rw [List.forall_mem_cons] at before behind
    cases l with
    | nil => exact .singleton a
    | cons b l =>
      have rest := ih before.2 behind.2
      rw [List.intersperse_cons_cons]
      refine .cons_cons before.1 (rest.cons ?_)
      intro next mem
      obtain rfl : b = next := by
        cases l <;> simpa using mem
      apply behind.2 b List.mem_cons_self

theorem filterMap_intersperse {β : Type} {f : α → Option β} (none : f separator = none) :
  (l.intersperse separator).filterMap f = l.filterMap f
  := by
  induction l with
  | nil => rfl
  | cons a l ih =>
    cases l with
    | nil => rfl
    | cons b l =>
      rw [List.intersperse_cons_cons, List.filterMap_cons, List.filterMap_cons_none none, ih,
        ← List.filterMap_cons]

end

namespace Token

/-- The line rewritten as the texts of its tokens, with single spaces between them.  The token
for the end of the line has no part in this. -/
def respaced (line : String) : String :=
  " ".intercalate ((scanLine 1 line.toList).dropLast.map Token.text)

/-! ### Tokens without their columns -/

/-- The token that a lexeme of the line with the given number becomes, without its column. -/
def ofLexeme? (number : Nat) (lexeme : List Char) : Option Token :=
  (Kind.ofLexeme? lexeme).map fun kind => ⟨kind, String.ofList lexeme, number, 0⟩

/-- The lexemes of a line that become tokens. -/
def visibleLexemes (line : List Char) : List (List Char) :=
  (lexemes line).filter fun lexeme => (Kind.ofLexeme? lexeme).isSome

/-- Without their columns the tokens of a line depend on nothing but its lexemes. -/
theorem map_withoutColumn_ofText (number : Nat) (text : List Char) :
  (Line.ofText number text).body.map withoutColumn
    = (visibleLexemes text).filterMap (ofLexeme? number)
  := by
  have lexemesOfPlaced : (placed (lexemes text)).map Prod.fst = lexemes text := by
    apply List.map_fst_zip
    simp
  calc
    (Line.ofText number text).body.map withoutColumn
        = (placed (lexemes text)).filterMap (ofLexeme? number ∘ Prod.fst) := by
      rw [Line.ofText, List.map_filterMap]
      apply List.filterMap_congr
      rintro ⟨lexeme, column⟩ -
      rw [ofPlaced?, Option.map_map]
      rfl
    _ = (lexemes text).filterMap (ofLexeme? number) := by
      rw [← List.filterMap_map, lexemesOfPlaced]
    _ = (visibleLexemes text).filterMap (ofLexeme? number) := by
      rw [visibleLexemes, List.filterMap_filter]
      apply List.filterMap_congr
      intro lexeme _
      cases becomes : Kind.ofLexeme? lexeme <;> simp [ofLexeme?, becomes]

/-- The texts of the tokens of a line are its visible lexemes. -/
theorem map_text_ofText (number : Nat) (text : List Char) :
  (Line.ofText number text).body.map (fun token => token.text.toList) = visibleLexemes text
  := by
  have withoutColumns : (fun token : Token => token.text.toList)
      = (fun token => token.text.toList) ∘ withoutColumn := rfl
  have texts : ∀ lexeme ∈ visibleLexemes text,
      (ofLexeme? number lexeme).map (fun token => token.text.toList) = some lexeme := by
    intro lexeme mem
    obtain ⟨kind, becomes⟩ := Option.isSome_iff_exists.mp (List.mem_filter.mp mem).2
    simp [ofLexeme?, becomes]
  rw [withoutColumns, ← List.map_map, map_withoutColumn_ofText, List.map_filterMap,
    List.filterMap_congr texts, List.filterMap_some]

/-- What a rewritten line consists of. -/
theorem toList_respaced (line : String) :
  (respaced line).toList = ((visibleLexemes line.toList).intersperse [' ']).flatten
  := by
  have body : (scanLine 1 line.toList).dropLast = (Line.ofText 1 line.toList).body := by
    rw [← Line.tokens_ofText]
    apply List.dropLast_concat
  rw [respaced, String.toList_intercalate, body, List.map_map]
  exact congrArg (List.intercalate [' ']) (map_text_ofText 1 line.toList)

/-! ### Rewritten lines -/

/-- A visible lexeme is a lexeme without blanks. -/
theorem of_mem_visibleLexemes {line lexeme : List Char} (mem : lexeme ∈ visibleLexemes line) :
  lexeme ≠ [] ∧ lexeme.IsChain (fun a b => sameLexeme a b)
    ∧ ∀ c ∈ lexeme, Text.isBlank c = false
  := by
  obtain ⟨mem, visible⟩ := List.mem_filter.mp mem
  obtain ⟨kind, becomes⟩ := Option.isSome_iff_exists.mp visible
  obtain ⟨front, back, cut⟩ := List.append_of_mem mem
  have spells := spells_of_ofLexeme? cut becomes
  exact ⟨spells.ne_nil, isChain_of_lexemes cut, spells.isBlank_eq_false⟩

/-- A space belongs to no lexeme with a character that is not blank. -/
theorem sameLexeme_space {c : Char} (visible : Text.isBlank c = false) :
  sameLexeme c ' ' = false ∧ sameLexeme ' ' c = false
  := by
  have differs : CharClass.of c ≠ CharClass.of ' ' := by
    intro same
    have blank : Text.isBlank c := CharClass.of_eq_iff.mp same
    rw [visible] at blank
    contradiction
  simp only [← Bool.not_eq_true, sameLexeme_iff]
  exact ⟨fun same => differs same.1, fun same => differs same.1.symm⟩

/-- The lexemes of a rewritten line are the visible ones of the line, and the blanks between
them. -/
theorem lexemes_respaced (line : String) :
  lexemes (respaced line).toList = (visibleLexemes line.toList).intersperse [' ']
  := by
  have pieces : ∀ lexeme ∈ (visibleLexemes line.toList).intersperse [' '],
      lexeme ≠ [] ∧ lexeme.IsChain fun a b => sameLexeme a b := by
    refine forall_mem_intersperse ⟨by simp, .singleton ' '⟩ ?_
    intro lexeme mem
    obtain ⟨nonempty, isChain, -⟩ := of_mem_visibleLexemes mem
    exact ⟨nonempty, isChain⟩
  rw [toList_respaced]
  apply List.splitBy_flatten
  · intro mem
    apply (pieces [] mem).1 rfl
  · exact fun lexeme mem => (pieces lexeme mem).2
  · apply isChain_intersperse
    · intro lexeme mem
      obtain ⟨nonempty, -, visible⟩ := of_mem_visibleLexemes mem
      exact ⟨nonempty, by simp, (sameLexeme_space (visible _ (List.getLast_mem _))).1⟩
    · intro lexeme mem
      obtain ⟨nonempty, -, visible⟩ := of_mem_visibleLexemes mem
      exact ⟨by simp, nonempty, (sameLexeme_space (visible _ (List.head_mem _))).2⟩

/-- The blanks between the lexemes become no tokens. -/
theorem visibleLexemes_respaced (line : String) :
  visibleLexemes (respaced line).toList = visibleLexemes line.toList
  := by
  have visible : ∀ lexeme ∈ visibleLexemes line.toList, (Kind.ofLexeme? lexeme).isSome :=
    fun lexeme => List.of_mem_filter
  calc
    visibleLexemes (respaced line).toList
        = ((visibleLexemes line.toList).intersperse [' ']).filter
            fun lexeme => (Kind.ofLexeme? lexeme).isSome := by
      rw [← lexemes_respaced, visibleLexemes]
    _ = (visibleLexemes line.toList).filter fun lexeme => (Kind.ofLexeme? lexeme).isSome := by
      rw [← List.filterMap_eq_filter, filterMap_intersperse rfl]
    _ = visibleLexemes line.toList := List.filter_eq_self.mpr visible

/-- Rewriting a line twice is rewriting it once. -/
theorem respaced_respaced (line : String) :
  respaced (respaced line) = respaced line
  := by
  apply String.toList_injective
  rw [toList_respaced, visibleLexemes_respaced, toList_respaced]

/-- A rewritten line has the same tokens, columns aside. -/
theorem scanLine_respaced (number : Nat) (line : String) :
  (scanLine number (respaced line).toList).map withoutColumn
    = (scanLine number line.toList).map withoutColumn
  := by
  have split (text : List Char) : (scanLine number text).map withoutColumn
      = (Line.ofText number text).body.map withoutColumn ++ [⟨.endOfLine, "", number, 0⟩] := by
    rw [← Line.tokens_ofText]
    apply List.map_append
  rw [split, split, map_withoutColumn_ofText, map_withoutColumn_ofText, visibleLexemes_respaced]

theorem scan_respaced (lines : List String) :
  (scan (lines.map respaced)).map withoutColumn = (scan lines).map withoutColumn
  := by
  rw [scan, scan, List.map_flatMap, List.map_flatMap, List.zipIdx_map, List.flatMap_map]
  apply List.flatMap_congr
  rintro ⟨line, number⟩ -
  apply scanLine_respaced

end Token

/-- Rewritten lines have the same tokens as before, columns aside, and rewriting them again
changes nothing.  They make up the same program, or they are rejected for the same error,
columns aside. -/
theorem Program.ofTokens_scan_respaced (lines : List String) :
  (Token.scan (lines.map Token.respaced)).map Token.withoutColumn
      = (Token.scan lines).map Token.withoutColumn
    ∧ (lines.map Token.respaced).map Token.respaced = lines.map Token.respaced
    ∧ SameButColumns (ofTokens (Token.scan lines))
        (ofTokens (Token.scan (lines.map Token.respaced)))
  := by
  refine ⟨Token.scan_respaced lines, ?_, ?_⟩
  · rw [List.map_map]
    apply List.map_congr_left
    intro line _
    apply Token.respaced_respaced
  · apply ofTokens_congr (Token.scan_respaced lines).symm

/-- Runs that stood next to each other are taken apart. -/
example : Token.respaced "  printF[x1]" = "print F [ x 1 ]"
  := rfl

end IntScript
