import IntScript.Proofs.Columns
import IntScript.Proofs.Encoding
import IntScript.Proofs.Scanning
import IntScript.SourceFile

/-!
# Ends of lines

The lines of a text do not depend on how the text is stored, and hardly on how its lines end.
`Text.HasLines` says which lines a text has, without cutting it.  Main statements: the file that
holds the bytes of a text has the lines of the text; and a carriage return in front of every
newline adds at most a blank at the end of a line, which moves nothing but the token for this end.
-/

namespace IntScript

namespace Text

/-! ### Lines of texts -/

/-- The text consists of the lines, each with its end: a newline, or a carriage return and a
newline.  The last line may do without, unless it is empty. -/
inductive HasLines : List (List Char) → List Char → Prop where
  | nil : HasLines [] []
  | last {line : List Char} (nonempty : line ≠ []) (noNewline : '\n' ∉ line) :
      HasLines [line] line
  | newline {line text : List Char} {lines : List (List Char)} (noNewline : '\n' ∉ line)
      (noReturn : line.getLast? ≠ some '\r') (rest : HasLines lines text) :
      HasLines (line :: lines) (line ++ '\n' :: text)
  | returned {line text : List Char} {lines : List (List Char)} (noNewline : '\n' ∉ line)
      (rest : HasLines lines text) : HasLines (line :: lines) (line ++ '\r' :: '\n' :: text)

variable {line text : List Char}

theorem withoutTerminator_newline (noReturn : line.getLast? ≠ some '\r') :
  withoutTerminator (line ++ ['\n']) = line
  := by
  unfold withoutTerminator
  rw [List.reverse_concat]
  split
  · rename_i body same
    have reversed : line = body.reverse ++ ['\r'] := by
      rw [← List.reverse_cons, ← List.reverse_eq_iff]
      exact (List.cons.inj same).2
    simp [reversed] at noReturn
  · rename_i same
    rw [← (List.cons.inj same).2, List.reverse_reverse]
  · rename_i other
    exact absurd rfl (other line.reverse)

theorem withoutTerminator_returned (line : List Char) :
  withoutTerminator (line ++ ['\r', '\n']) = line
  := by
  simp [withoutTerminator]

theorem withoutTerminator_of_not_mem (noNewline : '\n' ∉ line) :
  withoutTerminator line = line
  := by
  unfold withoutTerminator
  rw [← List.mem_reverse] at noNewline
  split
  · rename_i same
    simp [same] at noNewline
  · rename_i same
    simp [same] at noNewline
  · rfl

theorem forall_ne_newline_iff :
  (∀ c ∈ line, (c == '\n') = false) ↔ '\n' ∉ line
  := by
  constructor
  · intro all mem
    cases all '\n' mem
  · intro noNewline c mem
    rw [beq_eq_false_iff_ne]
    rintro rfl
    contradiction

/-- The first line of a text goes up to the first newline. -/
theorem lines_append_cons (noNewline : '\n' ∉ line) (text : List Char) :
  lines (line ++ '\n' :: text) = withoutTerminator (line ++ ['\n']) :: lines text
  := by
  rw [lines, segments_append_cons text (forall_ne_newline_iff.mpr noNewline) (beq_self_eq_true _),
    List.map_cons, ← lines]

/-- A text has no other lines than those into which it is cut. -/
theorem HasLines.eq_lines {lines : List (List Char)} (hasLines : HasLines lines text) :
  lines = Text.lines text
  := by
  induction hasLines with
  | nil => rfl
  | last nonempty noNewline =>
    rw [Text.lines, segments_of_forall nonempty (forall_ne_newline_iff.mpr noNewline),
      List.map_singleton, withoutTerminator_of_not_mem noNewline]
  | newline noNewline noReturn _ ih =>
    rw [lines_append_cons noNewline, withoutTerminator_newline noReturn, ih]
  | @returned line text lines noNewline _ ih =>
    have noNewline' : '\n' ∉ line ++ ['\r'] := by simpa using noNewline
    rw [List.append_cons, lines_append_cons noNewline', List.append_assoc,
      List.singleton_append, withoutTerminator_returned, ih]

/-- A text has the lines into which it is cut. -/
theorem hasLines_lines (text : List Char) :
  HasLines (lines text) text
  := by
  induction text using segments_induction (· == '\n') with
  | opened text all =>
    by_cases empty : text = []
    · subst empty
      exact .nil
    · rw [lines, segments_of_forall empty all, List.map_singleton,
        withoutTerminator_of_not_mem (forall_ne_newline_iff.mp all)]
      exact .last empty (forall_ne_newline_iff.mp all)
  | closed body last rest all closes ih =>
    obtain rfl := beq_iff_eq.mp closes
    have noNewline := forall_ne_newline_iff.mp all
    rw [lines_append_cons noNewline]
    by_cases ending : body.getLast? = some '\r'
    · obtain ⟨line, rfl⟩ := List.getLast?_eq_some_iff.mp ending
      rw [List.append_assoc, List.singleton_append, withoutTerminator_returned, ← List.append_cons]
      exact .returned (fun mem => noNewline (List.mem_append_left _ mem)) ih
    · rw [withoutTerminator_newline ending]
      exact .newline noNewline ending ih

theorem hasLines_iff {lines : List (List Char)} :
  HasLines lines text ↔ lines = Text.lines text
  := by
  constructor
  · apply HasLines.eq_lines
  · rintro rfl
    apply hasLines_lines

/-- There is one list of lines that a text has. -/
theorem hasLines_map_iff (text : List Char) (lines : List String) :
  HasLines (lines.map String.toList) text ↔ lines = (Text.lines text).map String.ofList
  := by
  have ofList_toList : String.ofList ∘ String.toList = id := funext fun _ => String.ofList_toList
  have toList_ofList : String.toList ∘ String.ofList = id := funext fun _ => String.toList_ofList
  rw [hasLines_iff]
  constructor
  · intro same
    rw [← same, List.map_map, ofList_toList, List.map_id]
  · rintro rfl
    rw [List.map_map, toList_ofList, List.map_id]

/-! ### Carriage returns -/

/-- The text with a carriage return in front of every newline. -/
def withReturns (text : List Char) : List Char :=
  text.flatMap fun c => if c = '\n' then ['\r', '\n'] else [c]

theorem withReturns_of_not_mem (noNewline : '\n' ∉ line) :
  withReturns line = line
  := by
  have single : ∀ c ∈ line, (if c = '\n' then ['\r', '\n'] else [c]) = [c] := by
    intro c mem
    rw [if_neg]
    rintro rfl
    contradiction
  rw [withReturns, List.flatMap_congr single, List.flatMap_singleton']

theorem withReturns_append_cons (noNewline : '\n' ∉ line) (text : List Char) :
  withReturns (line ++ '\n' :: text) = line ++ '\r' :: '\n' :: withReturns text
  := by
  have first := withReturns_of_not_mem noNewline
  unfold withReturns at *
  rw [List.flatMap_append, first]
  rfl

/-- The line is the same, or it ends with one more carriage return. -/
def SameButReturn (line line' : List Char) : Prop :=
  line' = line ∨ line' = line ++ ['\r']

/-- Carriage returns in front of the newlines belong to the ends of the lines, except for those
behind another one. -/
theorem HasLines.withReturns {lines : List (List Char)} (hasLines : HasLines lines text) :
  ∃ lines', HasLines lines' (withReturns text) ∧ List.Forall₂ SameButReturn lines lines'
  := by
  induction hasLines with
  | nil => exact ⟨[], .nil, .nil⟩
  | @last line nonempty noNewline =>
    rw [withReturns_of_not_mem noNewline]
    exact ⟨[line], .last nonempty noNewline, .cons (.inl rfl) .nil⟩
  | @newline line text lines noNewline noReturn _ ih =>
    obtain ⟨lines', hasLines, same⟩ := ih
    rw [withReturns_append_cons noNewline]
    exact ⟨line :: lines', .returned noNewline hasLines, .cons (.inl rfl) same⟩
  | @returned line text lines noNewline _ ih =>
    obtain ⟨lines', hasLines, same⟩ := ih
    have noNewline' : '\n' ∉ line ++ ['\r'] := by simpa using noNewline
    rw [List.append_cons, withReturns_append_cons noNewline']
    exact ⟨(line ++ ['\r']) :: lines', .returned noNewline' hasLines, .cons (.inr rfl) same⟩

end Text

/-- The file that holds the bytes of a text has the lines of the text. -/
theorem SourceFile.lines?_encode (text : List Char) :
  lines? (Text.encode text) = some ((Text.lines text).map String.ofList)
  := by
  have decoded (line : List Char) :
      line? (Text.encode line) = some (String.ofList (Text.withoutTerminator line)) := by
    rw [line?, Text.decode?_encode, Option.map_some]
  rw [lines?, Text.segments_encode, Text.lines, List.map_map]
  generalize segments (· == '\n') text = lines
  induction lines with
  | nil => rfl
  | cons line lines ih =>
    rw [List.map_cons, List.mapM_cons, decoded, ih]
    rfl

/-! ### Blanks at the ends of lines -/

namespace Token

theorem placedFrom_append (start : Nat) (front back : List (List Char)) :
  placedFrom List.length start (front ++ back)
    = placedFrom List.length start front
      ++ placedFrom List.length (start + front.flatten.length) back
  := by
  induction front generalizing start with
  | nil => rfl
  | cons lexeme front ih =>
    rw [List.cons_append, placedFrom_cons, placedFrom_cons, ih, List.cons_append,
      List.flatten_cons, List.length_append, Nat.add_assoc]

/-- A lexeme of blanks becomes no token. -/
theorem ofLexeme?_eq_none {lexeme : List Char} (blank : ∀ c ∈ lexeme, Text.isBlank c = true) :
  Kind.ofLexeme? lexeme = none
  := by
  cases lexeme with
  | nil => rfl
  | cons c rest =>
    have ofClass : CharClass.of c = .blank :=
      CharClass.of_eq_iff.mpr (blank c List.mem_cons_self)
    rw [Kind.ofLexeme?, ofClass]

variable {text blanks : List Char}

/-- Blanks behind another character are lexemes of their own. -/
theorem lexemes_append_blanks (visible : ∀ c ∈ text.getLast?, Text.isBlank c = false)
    (blank : ∀ c ∈ blanks, Text.isBlank c = true) :
  lexemes (text ++ blanks) = lexemes text ++ lexemes blanks
  := by
  apply List.splitBy_append
  intro a memA b memB
  rw [← Bool.not_eq_true, sameLexeme_iff]
  rintro ⟨same, -⟩
  have ofClass : CharClass.of b = .blank :=
    CharClass.of_eq_iff.mpr (blank b (List.mem_of_mem_head? memB))
  rw [ofClass] at same
  have blankA : Text.isBlank a = true := CharClass.of_eq_iff.mp same
  rw [visible a memA] at blankA
  contradiction

/-- Blanks behind another character become no tokens. -/
theorem body_ofText_append_of_visible (number : Nat)
    (visible : ∀ c ∈ text.getLast?, Text.isBlank c = false)
    (blank : ∀ c ∈ blanks, Text.isBlank c = true) :
  (Line.ofText number (text ++ blanks)).body = (Line.ofText number text).body
  := by
  have flat : (lexemes blanks).flatten = blanks := List.flatten_splitBy _ _
  simp only [Line.ofText]
  rw [lexemes_append_blanks visible blank]
  rw [placed, placed, placedFrom_append, List.filterMap_append, List.append_right_eq_self,
    List.filterMap_eq_nil_iff]
  rintro ⟨lexeme, column⟩ mem
  obtain ⟨front, back, cut, -⟩ := mem_placedFrom_iff.mp mem
  rw [ofPlaced?, Option.map_eq_none_iff]
  apply ofLexeme?_eq_none
  intro c memC
  apply blank
  rw [← flat, cut]
  simp [memC]

/-- Blanks behind a text become no tokens. -/
theorem body_ofText_append_blanks (number : Nat) (blank : ∀ c ∈ blanks, Text.isBlank c = true) :
  (Line.ofText number (text ++ blanks)).body = (Line.ofText number text).body
  := by
  -- Blanks at the end of the text belong to the same lexeme as those behind it.
  induction text using List.reverseRecOn generalizing blanks with
  | nil => apply body_ofText_append_of_visible number (by simp) blank
  | append_singleton text c ih =>
    by_cases blank' : Text.isBlank c = true
    · have blanks' : ∀ b ∈ c :: blanks, Text.isBlank b = true :=
        List.forall_mem_cons.mpr ⟨blank', blank⟩
      rw [← List.append_cons, ih blanks', ih (by simpa using blank')]
    · apply body_ofText_append_of_visible number _ blank
      simpa using blank'

/-- Lines that differ in a carriage return at their end differ in the column of this end. -/
theorem scanLine_withoutEndColumn {line line' : List Char} (number : Nat)
    (same : Text.SameButReturn line line') :
  (scanLine number line').map withoutEndColumn = (scanLine number line).map withoutEndColumn
  := by
  rcases same with rfl | rfl
  · rfl
  · have split (text : List Char) : (scanLine number text).map withoutEndColumn
        = (Line.ofText number text).body.map withoutEndColumn
          ++ [⟨.endOfLine, "", number, 0⟩] := by
      rw [← Line.tokens_ofText]
      apply List.map_append
    have blank : ∀ c ∈ ['\r'], Text.isBlank c = true :=
      List.forall_mem_singleton.mpr (by decide)
    rw [split, split, body_ofText_append_blanks number blank]

/-- Lines that differ in carriage returns at their ends make up the same program, or they are
rejected for the same error. -/
theorem ofTokens_scan_congr {lines lines' : List (List Char)}
    (same : List.Forall₂ Text.SameButReturn lines lines') :
  Program.ofTokens (scan (lines'.map String.ofList))
    = Program.ofTokens (scan (lines.map String.ofList))
  := by
  apply Program.ofTokens_congr_ends
  unfold scan
  generalize 1 = number
  induction same generalizing number with
  | nil => rfl
  | cons first _ ih =>
    simp only [List.map_cons, List.zipIdx_cons, List.flatMap_cons, List.map_append,
      String.toList_ofList, scanLine_withoutEndColumn number first, ih]

end Token

end IntScript
