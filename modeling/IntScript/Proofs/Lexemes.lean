import IntScript.Proofs.Segments
import IntScript.Token.Scan

/-!
# Lexemes

What the lexemes of a line are, said without cutting the line.  `MaximalRun` is a run of
characters of one sort that is as long as it can be where it stands, and `Token.Spells` says
which characters spell a token of which kind between those before and those behind them.
Main statement: a lexeme that becomes a token of some kind spells one of that kind, and all
characters of the other lexemes are blank.
-/

namespace IntScript

/-- A run of characters of some sort, as long as it can be between the characters before and
those behind it. -/
structure MaximalRun (sort : Char → Bool) (before run after : List Char) : Prop where
  nonempty : run ≠ []
  all : ∀ c ∈ run, sort c = true
  starts : ∀ c ∈ before.getLast?, sort c = false
  ends : ∀ c ∈ after.head?, sort c = false

namespace Token

/-- The characters that are tokens by themselves, with the kinds of these tokens. -/
def punctuation : List (Char × Kind) :=
  [('=', .equals), ('+', .operator .add), ('-', .operator .subtract), ('*', .operator .multiply),
    ('/', .operator .divide), ('%', .operator .modulo), ('[', .opening .square),
    (']', .closing .square), ('(', .opening .round), (')', .closing .round)]

/-- The characters spell a token of the kind, between the characters before and those behind
them.  The sorts `Char.isLower`, `Char.isUpper` and `Char.isDigit` are those of the letters
and digits of ASCII. -/
inductive Spells (before after : List Char) : List Char → Kind → Prop where
  | print (run : MaximalRun Char.isLower before ['p', 'r', 'i', 'n', 't'] after) :
      Spells before after ['p', 'r', 'i', 'n', 't'] .print
  | read (run : MaximalRun Char.isLower before ['r', 'e', 'a', 'd'] after) :
      Spells before after ['r', 'e', 'a', 'd'] .read
  | name {name : List Char} (run : MaximalRun Char.isLower before name after)
      (notPrint : name ≠ ['p', 'r', 'i', 'n', 't']) (notRead : name ≠ ['r', 'e', 'a', 'd']) :
      Spells before after name .variable
  | function {name : List Char} (run : MaximalRun Char.isUpper before name after) :
      Spells before after name .function
  | number {digits : List Char} (run : MaximalRun Char.isDigit before digits after) :
      Spells before after digits .number
  | punctuation {c : Char} {kind : Kind} (mem : (c, kind) ∈ punctuation) :
      Spells before after [c] kind
  | undefined {c : Char} (notLetter : c.isAlpha = false) (notDigit : c.isDigit = false)
      (notPunctuation : ∀ kind, (c, kind) ∉ punctuation) (visible : Text.isBlank c = false) :
      Spells before after [c] .undefined

/-! ### Classes of characters -/

namespace CharClass

/-- Whether a character belongs to a class, said without the classes before it. -/
def holds : CharClass → Char → Bool
  | .small => Char.isLower
  | .capital => Char.isUpper
  | .digit => Char.isDigit
  | .blank => Text.isBlank
  | .solitary => fun c => !c.isAlpha && !c.isDigit && !Text.isBlank c

theorem isLower_iff (c : Char) :
  c.isLower ↔ 97 ≤ c.toNat ∧ c.toNat ≤ 122
  := by
  change (decide (97 ≤ c.val) && decide (c.val ≤ 122)) = true ↔ _
  simp [UInt32.le_iff_toNat_le]

theorem isUpper_iff (c : Char) :
  c.isUpper ↔ 65 ≤ c.toNat ∧ c.toNat ≤ 90
  := by
  change decide (65 ≤ c.val ∧ c.val ≤ 90) = true ↔ _
  simp [UInt32.le_iff_toNat_le]

theorem isAlpha_eq (c : Char) :
  c.isAlpha = (c.isUpper || c.isLower)
  :=
  rfl

theorem isDigit_iff (c : Char) :
  c.isDigit ↔ 48 ≤ c.toNat ∧ c.toNat ≤ 57
  := by
  simp [Char.isDigit, UInt32.le_iff_toNat_le]

theorem isUpper_eq_false_of_isLower {c : Char} (small : c.isLower) :
  c.isUpper = false
  := by
  rw [isLower_iff] at small
  rw [← Bool.not_eq_true, isUpper_iff]
  omega

theorem isDigit_eq_false_of_isAlpha {c : Char} (letter : c.isAlpha) :
  c.isDigit = false
  := by
  rw [isAlpha_eq, Bool.or_eq_true, isLower_iff, isUpper_iff] at letter
  rw [← Bool.not_eq_true, isDigit_iff]
  omega

/-- Neither letters nor digits are blank. -/
theorem isBlank_eq_false_of_isAlphanum {c : Char} (letterOrDigit : c.isAlphanum) :
  Text.isBlank c = false
  := by
  rw [Char.isAlphanum, isAlpha_eq, Bool.or_eq_true, Bool.or_eq_true, isLower_iff, isUpper_iff,
    isDigit_iff] at letterOrDigit
  rw [← Bool.not_eq_true]
  simp only [Text.isBlank, Bool.or_eq_true, Bool.and_eq_true, decide_eq_true_eq, beq_iff_eq]
  omega

/-- The classes do not overlap, so that a character has the class to which it belongs. -/
theorem of_eq_iff {c : Char} {charClass : CharClass} :
  of c = charClass ↔ charClass.holds c
  := by
  have small := @isUpper_eq_false_of_isLower c
  have letter := @isDigit_eq_false_of_isAlpha c
  have letterOrDigit := @isBlank_eq_false_of_isAlphanum c
  unfold Char.isAlphanum at letterOrDigit
  simp only [isAlpha_eq] at *
  unfold of
  cases charClass <;> simp only [holds, isAlpha_eq] <;> grind

end CharClass

/-! ### Lexemes in their lines -/

theorem sameLexeme_iff {a b : Char} :
  sameLexeme a b ↔ CharClass.of a = CharClass.of b ∧ CharClass.of a ≠ .solitary
  := by
  simp [sameLexeme]

variable {line lexeme : List Char} {front back : List (List Char)} {c : Char}

/-- The characters of a lexeme are of the same class, and of a class that forms runs if there
are several. -/
theorem class_eq_of_isChain {rest : List Char}
    (isChain : (c :: rest).IsChain fun a b => sameLexeme a b) :
  ∀ d ∈ rest, CharClass.of d = CharClass.of c ∧ CharClass.of c ≠ .solitary
  := by
  induction rest generalizing c with
  | nil => simp
  | cons d rest ih =>
    rw [List.isChain_cons_cons, sameLexeme_iff] at isChain
    obtain ⟨⟨same, runs⟩, isChain⟩ := isChain
    rw [List.forall_mem_cons]
    refine ⟨⟨same.symm, runs⟩, ?_⟩
    intro e mem
    rw [same] at runs ⊢
    exact ⟨(ih isChain e mem).1, runs⟩

theorem isChain_of_lexemes (cut : lexemes line = front ++ lexeme :: back) :
  lexeme.IsChain fun a b => sameLexeme a b
  := by
  apply List.isChain_of_mem_splitBy (l := line)
  rw [← lexemes, cut]
  simp

/-- All characters of a lexeme are of the class of its first one. -/
theorem holds_of_lexemes {rest : List Char} (cut : lexemes line = front ++ (c :: rest) :: back) :
  ∀ d ∈ c :: rest, CharClass.of d = CharClass.of c
  := by
  rw [List.forall_mem_cons]
  exact ⟨rfl, fun d mem => (class_eq_of_isChain (isChain_of_lexemes cut) d mem).1⟩

/-- A lexeme of a class that forms no runs is a single character. -/
theorem eq_nil_of_solitary {rest : List Char} (cut : lexemes line = front ++ (c :: rest) :: back)
    (solitary : CharClass.of c = .solitary) :
  rest = []
  := by
  rw [List.eq_nil_iff_forall_not_mem]
  intro d mem
  apply (class_eq_of_isChain (isChain_of_lexemes cut) d mem).2 solitary

/-- The character in front of a lexeme would not belong to it. -/
theorem sameLexeme_before (cut : lexemes line = front ++ lexeme :: back) (nonempty : lexeme ≠ []) :
  ∀ a ∈ front.flatten.getLast?, sameLexeme a (lexeme.head nonempty) = false
  := by
  have isChain := List.isChain_getLast_head_splitBy sameLexeme line
  rw [← lexemes, cut, List.isChain_append] at isChain
  obtain ⟨-, -, meets⟩ := isChain
  rcases List.eq_nil_or_concat' front with rfl | ⟨front, last, rfl⟩
  · simp
  · obtain ⟨lastNonempty, _, differs⟩ := meets last (by simp) lexeme (by simp)
    intro a mem
    rw [List.flatten_append, List.flatten_singleton, List.getLast?_append_of_ne_nil _ lastNonempty,
      List.getLast?_eq_getLast_of_ne_nil lastNonempty] at mem
    cases mem
    apply differs

/-- The character behind a lexeme would not belong to it. -/
theorem sameLexeme_behind (cut : lexemes line = front ++ lexeme :: back) (nonempty : lexeme ≠ []) :
  ∀ b ∈ back.flatten.head?, sameLexeme (lexeme.getLast nonempty) b = false
  := by
  have isChain := List.isChain_getLast_head_splitBy sameLexeme line
  rw [← lexemes, cut, List.isChain_append] at isChain
  obtain ⟨-, isChain, -⟩ := isChain
  cases back with
  | nil => simp
  | cons next back =>
    rw [List.isChain_cons_cons] at isChain
    obtain ⟨⟨_, nextNonempty, differs⟩, -⟩ := isChain
    intro b mem
    rw [List.flatten_cons, List.head?_append_of_ne_nil _ nextNonempty,
      List.head?_eq_some_head nextNonempty] at mem
    cases mem
    apply differs

/-- A lexeme of a class that forms runs is a longest run of this class. -/
theorem maximalRun_of_lexemes {rest : List Char} {charClass : CharClass}
    (cut : lexemes line = front ++ (c :: rest) :: back) (ofClass : CharClass.of c = charClass)
    (runs : charClass ≠ .solitary) :
  MaximalRun charClass.holds front.flatten (c :: rest) back.flatten
  := by
  have all := holds_of_lexemes cut
  have differs {d : Char} (h : CharClass.of d ≠ charClass) : charClass.holds d = false := by
    rwa [← Bool.not_eq_true, ← CharClass.of_eq_iff]
  rw [ofClass] at all
  refine ⟨by simp, fun d mem => CharClass.of_eq_iff.mp (all d mem), ?_, ?_⟩
  · intro a mem
    have apart := sameLexeme_before cut (by simp) a mem
    apply differs
    intro same
    rw [List.head_cons, ← Bool.not_eq_true, sameLexeme_iff, same, ofClass] at apart
    exact apart ⟨rfl, runs⟩
  · intro b mem
    have apart := sameLexeme_behind cut (by simp) b mem
    apply differs
    intro same
    rw [← Bool.not_eq_true, sameLexeme_iff, all _ (List.getLast_mem _), same] at apart
    exact apart ⟨rfl, runs⟩

/-! ### Kinds of lexemes -/

/-- A character by itself that is neither a letter nor a digit spells what it stands for. -/
theorem spells_ofSymbol (before after : List Char) (solitary : CharClass.of c = .solitary) :
  Spells before after [c] (.ofSymbol c)
  := by
  have apart := CharClass.of_eq_iff.mp solitary
  simp only [CharClass.holds, Bool.and_eq_true, Bool.not_eq_true'] at apart
  unfold Kind.ofSymbol
  split
  case h_11 =>
    apply Spells.undefined apart.1.1 apart.1.2 _ apart.2
    intro kind mem
    simp only [punctuation, List.mem_cons, Prod.mk.injEq, List.not_mem_nil, or_false] at mem
    grind
  all_goals
    apply Spells.punctuation
    decide

/-- A longest run of small letters spells a keyword or the name of a variable. -/
theorem spells_ofWord {before after word : List Char}
    (run : MaximalRun Char.isLower before word after) :
  Spells before after word (.ofWord word)
  := by
  unfold Kind.ofWord
  split
  · rename_i same
    rw [same] at run ⊢
    exact .print run
  · split
    · rename_i same
      rw [same] at run ⊢
      exact .read run
    · rename_i notPrint notRead
      exact .name run notPrint notRead

/-- A lexeme that becomes a token spells a token of this kind. -/
theorem spells_of_ofLexeme? {kind : Kind} (cut : lexemes line = front ++ lexeme :: back)
    (becomes : Kind.ofLexeme? lexeme = some kind) :
  Spells front.flatten back.flatten lexeme kind
  := by
  cases lexeme with
  | nil => cases becomes
  | cons c rest =>
    rw [Kind.ofLexeme?] at becomes
    split at becomes
    all_goals
      rename_i ofClass
      cases becomes
    · apply spells_ofWord (maximalRun_of_lexemes cut ofClass (by decide))
    · exact .function (maximalRun_of_lexemes cut ofClass (by decide))
    · exact .number (maximalRun_of_lexemes cut ofClass (by decide))
    · rw [eq_nil_of_solitary cut ofClass]
      apply spells_ofSymbol _ _ ofClass

/-- A token is spelled by at least one character. -/
theorem Spells.ne_nil {before after text : List Char} {kind : Kind}
    (spells : Spells before after text kind) :
  text ≠ []
  := by
  cases spells with
  | print | read | punctuation | undefined => simp
  | name run | function run | number run => apply run.nonempty

/-- No characters spell the end of a line. -/
theorem Spells.ne_endOfLine {before after text : List Char} {kind : Kind}
    (spells : Spells before after text kind) :
  kind ≠ .endOfLine
  := by
  cases spells with
  | @punctuation c kind mem =>
    have noneEnds : ∀ symbol ∈ Token.punctuation, symbol.2 ≠ .endOfLine := by decide
    apply noneEnds _ mem
  | _ => exact nofun

/-- No character that spells a token is blank. -/
theorem Spells.isBlank_eq_false {before after text : List Char} {kind : Kind}
    (spells : Spells before after text kind) :
  ∀ d ∈ text, Text.isBlank d = false
  := by
  cases spells with
  | print run | read run | name run | function run | number run =>
    intro d mem
    apply CharClass.isBlank_eq_false_of_isAlphanum
    simp [Char.isAlphanum, CharClass.isAlpha_eq, run.all d mem]
  | @punctuation c kind mem =>
    have noneBlank : ∀ symbol ∈ Token.punctuation, Text.isBlank symbol.1 = false := by decide
    rw [List.forall_mem_singleton]
    apply noneBlank _ mem
  | undefined _ _ _ visible =>
    rw [List.forall_mem_singleton]
    apply visible

/-- A lexeme that becomes no token is blank. -/
theorem isBlank_of_ofLexeme? (cut : lexemes line = front ++ lexeme :: back)
    (becomes : Kind.ofLexeme? lexeme = none) :
  ∀ d ∈ lexeme, Text.isBlank d = true
  := by
  cases lexeme with
  | nil => simp
  | cons c rest =>
    rw [Kind.ofLexeme?] at becomes
    split at becomes
    all_goals cases becomes
    rename_i blank
    apply (maximalRun_of_lexemes cut blank (by decide)).all

end Token

end IntScript
