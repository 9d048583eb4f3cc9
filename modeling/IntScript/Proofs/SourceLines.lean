import IntScript.Proofs.LineEnds

/-!
# Lines of source files

A source file is decoded line by line, and it is read exactly if its bytes as a whole encode a text:
what is read from it are the lines that the text has.  `Text.written` writes lines one after the
other, each with an end of its own.  Main statement: no other files are read, and whatever the ends,
the lines are read back as they were written, with or without the end of the last one unless this
line is empty.
-/

namespace IntScript

namespace Text

/-! ### Written lines -/

/-- How a line can end. -/
inductive Terminator where
  | newline
  /-- A carriage return and a newline. -/
  | returned
deriving DecidableEq, Repr

/-- The characters that end a line. -/
def Terminator.spelled : Terminator → List Char
  | newline => ['\n']
  | returned => ['\r', '\n']

/-- A text that can be told from the end behind it. -/
structure IsLine (line : List Char) : Prop where
  noNewline : '\n' ∉ line
  noReturn : line.getLast? ≠ some '\r'

/-- The text that consists of the given lines, each with the end that stands beside it. -/
def written (rows : List (String × Terminator)) : List Char :=
  rows.flatMap fun (line, terminator) => line.toList ++ terminator.spelled

theorem written_cons (line : String) (terminator : Terminator) (rows : List (String × Terminator)) :
  written ((line, terminator) :: rows) = line.toList ++ (terminator.spelled ++ written rows)
  := by
  rw [written, List.flatMap_cons, List.append_assoc, ← written]

variable {rows : List (String × Terminator)} {lines : List (List Char)} {text : List Char}

/-- Lines that are written in front of a text stand in front of the lines of the text. -/
theorem HasLines.written_append (isLine : ∀ row ∈ rows, IsLine row.1.toList)
    (rest : HasLines lines text) :
  HasLines ((rows.map Prod.fst).map String.toList ++ lines) (written rows ++ text)
  := by
  induction rows with
  | nil => exact rest
  | cons row rows ih =>
    obtain ⟨line, terminator⟩ := row
    obtain ⟨first, others⟩ := List.forall_mem_cons.mp isLine
    rw [written_cons, List.append_assoc, List.append_assoc]
    cases terminator with
    | newline => exact .newline first.noNewline first.noReturn (ih others)
    | returned => exact .returned first.noNewline (ih others)

/-- A text has the lines that it is written from. -/
theorem hasLines_written (isLine : ∀ row ∈ rows, IsLine row.1.toList) :
  HasLines ((rows.map Prod.fst).map String.toList) (written rows)
  := by
  have hasLines := HasLines.written_append isLine .nil
  rwa [List.append_nil, List.append_nil] at hasLines

/-- A last line without an end is a line of the text, unless it is empty. -/
theorem hasLines_written_append {last : String} (isLine : ∀ row ∈ rows, IsLine row.1.toList)
    (noNewline : '\n' ∉ last.toList) :
  HasLines ((rows.map Prod.fst ++ if last = "" then [] else [last]).map String.toList)
    (written rows ++ last.toList)
  := by
  rw [List.map_append]
  apply HasLines.written_append isLine
  split
  case isTrue empty =>
    subst empty
    exact .nil
  case isFalse nonempty =>
    exact .last (fun nil => nonempty (String.toList_eq_nil_iff.mp nil)) noNewline

end Text

namespace SourceFile

open Text

variable {content : List UInt8} {found : List String}

/-! ### Readable files -/

/-- Lines of bytes that encode texts encode one text together. -/
theorem exists_encode_of_mapM {pieces : List (List UInt8)} (read : pieces.mapM line? = some found) :
  ∃ text, pieces.flatten = encode text
  := by
  induction pieces generalizing found with
  | nil => exact ⟨[], rfl⟩
  | cons piece pieces ih =>
    simp only [List.mapM_cons, Option.bind_eq_bind, Option.bind_eq_some_iff] at read
    obtain ⟨line, readPiece, _, readPieces, -⟩ := read
    obtain ⟨first, decoded, -⟩ := Option.map_eq_some_iff.mp readPiece
    obtain ⟨rest, encoded⟩ := ih readPieces
    refine ⟨first ++ rest, ?_⟩
    rw [List.flatten_cons, encoded, decode?_eq_some_iff.mp decoded, encode, encode, encode,
      List.flatMap_append]

/-- The lines that are read from a file are those of the text that its bytes encode. -/
theorem lines?_eq_some_iff :
  lines? content = some found
    ↔ ∃ text, content = encode text ∧ HasLines (found.map String.toList) text
  := by
  constructor
  · intro read
    -- The lines are decoded one by one, so the text has to be put together from theirs.
    obtain ⟨text, encoded⟩ := exists_encode_of_mapM read
    rw [flatten_segments] at encoded
    subst encoded
    rw [lines?_encode, Option.some_inj] at read
    exact ⟨text, rfl, (hasLines_map_iff text found).mpr read.symm⟩
  · rintro ⟨text, rfl, hasLines⟩
    rw [lines?_encode, (hasLines_map_iff text found).mp hasLines]

theorem lines_ok (content : List UInt8) :
  lines (.ok content) = (lines? content).elim (.error .invalidText) .ok
  := by
  rw [lines]
  cases lines? content <;> rfl

theorem lines_eq_ok_iff :
  lines (.ok content) = .ok found ↔ lines? content = some found
  := by
  rw [lines_ok]
  cases lines? content <;> simp

/-- A file is read if and only if its bytes as a whole encode a text. -/
theorem exists_lines?_iff :
  (∃ found, lines? content = some found) ↔ content.toByteArray.IsValidUTF8
  := by
  rw [isValidUTF8_iff]
  constructor
  · rintro ⟨found, read⟩
    obtain ⟨text, encoded, -⟩ := lines?_eq_some_iff.mp read
    exact ⟨text, encoded⟩
  · rintro ⟨text, rfl⟩
    exact ⟨_, lines?_encode text⟩

/-- A file whose bytes encode no text is refused. -/
theorem lines_of_invalid (invalid : ¬ content.toByteArray.IsValidUTF8) :
  lines (.ok content) = .error .invalidText
  := by
  have unread : lines? content = none := by
    rw [Option.eq_none_iff_forall_ne_some]
    intro found read
    apply invalid (exists_lines?_iff.mp ⟨found, read⟩)
  rw [lines_ok, unread]
  rfl

/-- The file that holds the bytes of a text is read as the lines that the text has. -/
theorem lines_encode_of_hasLines {text : List Char}
    (hasLines : HasLines (found.map String.toList) text) :
  lines (.ok (encode text)) = .ok found
  := by
  apply lines_eq_ok_iff.mpr
  apply lines?_eq_some_iff.mpr ⟨text, rfl, hasLines⟩

/-- Files are read if their bytes encode a text, and refused otherwise.  Lines without newlines in
them and without carriage returns at their ends are read back from the text that they are written
to, whichever ends they are written with.  The end of the last line can be left out just if this
line is not empty. -/
theorem lines_read_back :
  (∀ content : List UInt8,
    ((∃ found, lines (.ok content) = .ok found) ↔ content.toByteArray.IsValidUTF8)
      ∧ (¬ content.toByteArray.IsValidUTF8 → lines (.ok content) = .error .invalidText))
    ∧ ∀ rows : List (String × Terminator), (∀ row ∈ rows, IsLine row.1.toList) →
      lines (.ok (encode (written rows))) = .ok (rows.map Prod.fst)
        ∧ ∀ front last terminator, rows = front ++ [(last, terminator)] →
          (lines (.ok (encode (written front ++ last.toList))) = .ok (rows.map Prod.fst)
            ↔ last ≠ "")
  := by
  refine ⟨?_, ?_⟩
  · intro content
    constructor
    · simp only [lines_eq_ok_iff, exists_lines?_iff]
    · apply lines_of_invalid
  · intro rows isLine
    refine ⟨lines_encode_of_hasLines (hasLines_written isLine), ?_⟩
    rintro front last terminator rfl
    obtain ⟨frontIsLine, lastIsLine⟩ := List.forall_mem_append.mp isLine
    have noNewline : '\n' ∉ last.toList :=
      (lastIsLine (last, terminator) List.mem_cons_self).noNewline
    rw [lines_encode_of_hasLines (hasLines_written_append frontIsLine noNewline)]
    by_cases empty : last = ""
    · simp [empty]
    · simp [empty]

/-- Three lines, the first with a carriage return inside, are read back from both kinds of ends and
without the last one.  A file in which a newline tears the bytes of a character apart is refused. -/
theorem lines_read_back_mixed :
  (∀ row ∈ [("a\rb", Terminator.returned), ("", .newline), ("é", .returned)],
      IsLine row.1.toList)
    ∧ lines (.ok (encode "a\rb\r\n\né\r\n".toList)) = .ok ["a\rb", "", "é"]
    ∧ lines (.ok (encode "a\rb\r\n\né".toList)) = .ok ["a\rb", "", "é"]
    ∧ lines (.ok [0xC3, 0x0A, 0xA9]) = .error .invalidText
  := by
  have isLine : ∀ row ∈ [("a\rb", Terminator.returned), ("", .newline), ("é", .returned)],
      IsLine row.1.toList := by
    simp only [List.forall_mem_cons, List.not_mem_nil, false_implies, implies_true, and_true]
    exact ⟨⟨by decide, by decide⟩, ⟨by decide, by decide⟩, ⟨by decide, by decide⟩⟩
  have invalid : ¬ (List.toByteArray [0xC3, 0x0A, 0xA9]).IsValidUTF8 := by decide
  obtain ⟨readable, back⟩ := lines_read_back
  obtain ⟨all, withoutLast⟩ := back _ isLine
  have last := (withoutLast [("a\rb", .returned), ("", .newline)] "é" .returned rfl).mpr (by decide)
  exact ⟨isLine, all, last, (readable _).2 invalid⟩

end SourceFile

end IntScript
