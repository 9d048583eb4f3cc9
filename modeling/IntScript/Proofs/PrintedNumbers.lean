import IntScript.Proofs.Decimals
import IntScript.Proofs.Sequence
import IntScript.Proofs.WordStream
import IntScript.Statement

/-!
# Reading printed numbers

What a program prints can be the input of a program.  `Text.Spaced` says that a text consists of
some words with blanks between them, and `Input.ReadsAs` that the words of an input are numbers of
some values.  Main statement: what is printed for values, one after the other, is read as these
values, and so are the decimal texts of the values with any blanks between them.
-/

namespace IntScript

namespace Text

/-! ### Words and blanks -/

/-- The text consists of the words in order, with one or more blanks between any two of them and
any blanks around them. -/
inductive Spaced : List (List Char) → List Char → Prop where
  | nil : Spaced [] []
  | blank {words : List (List Char)} {c : Char} {text : List Char} (blank : isBlank c = true)
      (spaced : Spaced words text) : Spaced words (c :: text)
  | word {words : List (List Char)} {text : List Char} (word : List Char)
      (behind : ∀ c ∈ text.head?, isBlank c = true) (spaced : Spaced words text) :
      Spaced (word :: words) (word ++ text)

/-- A blank separates a word from the text behind it. -/
theorem Spaced.word_cons {words : List (List Char)} {c : Char} {text : List Char}
    (word : List Char) (blank : isBlank c = true) (spaced : Spaced words text) :
  Spaced (word :: words) (word ++ c :: text)
  := by
  apply Spaced.word word _ (.blank blank spaced)
  simpa using blank

/-- A text of other characters than blanks is a single word. -/
theorem words_of_visible {word : List Char} (nonempty : word ≠ [])
    (visible : ∀ c ∈ word, isBlank c = false) :
  words word = [word]
  := by
  have isChain : word.IsChain fun a b => sameBlankness a b := by
    apply List.Pairwise.isChain
    apply List.pairwise_of_forall_mem_list
    intro a memA b memB
    simp [sameBlankness, visible a memA, visible b memB]
  rw [words, List.splitBy_of_isChain nonempty isChain]
  simpa using visible

/-- The words of a text are those that it consists of. -/
theorem Spaced.words_eq {words : List (List Char)} {text : List Char} (spaced : Spaced words text)
    (nonempty : ∀ word ∈ words, word ≠ [])
    (visible : ∀ word ∈ words, ∀ c ∈ word, isBlank c = false) :
  Text.words text = words
  := by
  induction spaced with
  | nil => rfl
  | blank blank _ ih =>
    rw [words_cons blank]
    apply ih nonempty visible
  | word word behind _ ih =>
    rw [List.forall_mem_cons] at nonempty visible
    rw [words_append, words_of_visible nonempty.1 visible.1, ih nonempty.2 visible.2,
      List.singleton_append]
    intro a memA b memB
    rw [visible.1 a (List.mem_of_getLast? memA), behind b memB]
    decide

/-- Texts that are encoded one after the other are encoded together. -/
theorem flatMap_encode {α : Type} (l : List α) (f : α → List Char) :
  l.flatMap (fun a => encode (f a)) = encode (l.flatMap f)
  := by
  unfold encode
  rw [List.flatMap_assoc]

end Text

/-! ### Printing -/

/-- Bytes that a sink accepts one after the other are accepted together. -/
theorem Sink.accepting_append (sink : Sink) (bytes bytes' : List UInt8) :
  sink.accepting (bytes ++ bytes') = (sink.accepting bytes).accepting bytes'
  := by
  simp [accepting, ← Array.toList_inj]

namespace Machine

/-- Prints values one after the other, as a statement does with the value of its operand. -/
def printAll (statement : Node) : List Value → Action Unit
  | [] => pure ()
  | value :: values => do
    pushValue value
    act statement
    printAll statement values

variable {statement : Node} {m : Machine}

/-- A statement that prints takes a value from the stack and writes its decimal text. -/
theorem act_print (isPrint : statement.kind = .print) (unlimited : m.sink.Unlimited)
    (value : Value) :
  act statement { m with values := value :: m.values }
    = .ok () { m with sink := m.sink.accepting (Number.printed value) }
  := by
  have popped : popValue statement.line { m with values := value :: m.values } = .ok value m := rfl
  rw [act, isPrint]
  simp only [bind_of_ok popped, write, unlimited.write_eq]

/-- With an unlimited sink the values are printed one behind the other, and nothing else
happens. -/
theorem printAll_eq (isPrint : statement.kind = .print) (values : List Value)
    (unlimited : m.sink.Unlimited) :
  printAll statement values m
    = .ok () { m with sink := m.sink.accepting (values.flatMap Number.printed) }
  := by
  induction values generalizing m with
  | nil => simp [printAll, Sink.accepting, pure, EStateM.pure]
  | cons value values ih =>
    have pushed : pushValue value m = .ok () { m with values := value :: m.values } := rfl
    have rest := ih (m := { m with sink := m.sink.accepting (Number.printed value) })
      ⟨unlimited.writeLimit, unlimited.flushLimit⟩
    rw [printAll, bind_of_ok pushed, bind_of_ok (act_print isPrint unlimited value)]
    rw [List.flatMap_cons, Sink.accepting_append]
    exact rest

end Machine

/-! ### Reading -/

namespace Input

/-- The input has one word for each value, which is read as this value, and then no other. -/
def ReadsAs (bytes : List UInt8) (values : List Value) : Prop :=
  ∃ words : List (List Char),
    List.Forall₂ (fun word value => ∀ line, Number.ofWord (String.ofList word) line = .ok value)
      words values
      ∧ ∀ count, (calls count (ofBytes bytes)).map Call.reply
        = (words.map replyOfWord ++ List.replicate count (Except.ok none)).take count

/-- The decimal texts of values are read as the values, whatever blanks are between them. -/
theorem readsAs_of_spaced {values : List Value} {text : List Char}
    (spaced : Text.Spaced (values.map Decimal.ofValue) text) :
  ReadsAs (Text.encode text) values
  := by
  refine ⟨values.map Decimal.ofValue, ?_, ?_⟩
  · rw [List.forall₂_map_left_iff, List.forall₂_same]
    intro value _ line
    rw [Number.ofWord, Decimal.signed?_ofValue]
  · intro count
    rw [map_reply_calls (Text.decode?_encode text), spaced.words_eq]
    all_goals rw [List.forall_mem_map]
    · exact fun value _ => Decimal.ofValue_ne_nil value
    · exact fun value _ => Decimal.isBlank_of_mem_ofValue value

/-- What is printed for values consists of their decimal texts. -/
theorem spaced_printed (values : List Value) :
  Text.Spaced (values.map Decimal.ofValue)
    (values.flatMap fun value => Decimal.ofValue value ++ ['\n'])
  := by
  induction values with
  | nil => exact .nil
  | cons value values ih =>
    rw [List.map_cons, List.flatMap_cons, List.append_assoc]
    apply Text.Spaced.word_cons _ _ ih
    decide

/-- What is printed for values one after the other is read as these values.  So are the decimal
texts of the values with other blanks between them, and the text of a value that is not negative
is a literal of this value. -/
theorem readsAs_printed (values : List Value) :
  (∀ (statement : Node) (m : Machine), statement.kind = .print → m.sink.Unlimited →
      Machine.printAll statement values m
        = .ok () { m with sink := m.sink.accepting (values.flatMap Number.printed) })
    ∧ ReadsAs (values.flatMap Number.printed) values
    ∧ (∀ text, Text.Spaced (values.map Decimal.ofValue) text → ReadsAs (Text.encode text) values)
    ∧ ∀ value ∈ values, 0 ≤ value.toInt → ∀ line,
      Number.ofLiteral (String.ofList (Decimal.ofValue value)) line = .ok value
  := by
  refine ⟨fun statement m isPrint => Machine.printAll_eq isPrint values, ?_, ?_, ?_⟩
  · unfold Number.printed
    rw [Text.flatMap_encode]
    apply readsAs_of_spaced (spaced_printed values)
  · intro text spaced
    apply readsAs_of_spaced spaced
  · intro value _ nonneg line
    rw [Number.ofLiteral, Decimal.literal?_ofValue nonneg]

/-- The smallest value can be read back, and the blanks around it may be other ones than those of
ASCII. -/
theorem readsAs_printed_smallest :
  let text := '\t' :: (Decimal.ofValue Int64.minValue ++ '\u2003' :: (Decimal.ofValue 7 ++ ['\r']))
  Text.Spaced ([Int64.minValue, 7].map Decimal.ofValue) text
    ∧ ReadsAs (Text.encode text) [Int64.minValue, 7]
    ∧ ReadsAs ([Int64.minValue, 7].flatMap Number.printed) [Int64.minValue, 7]
    ∧ Number.ofLiteral (String.ofList (Decimal.ofValue 7)) 1 = .ok 7
  := by
  intro text
  have spaced : Text.Spaced ([Int64.minValue, 7].map Decimal.ofValue) text :=
    .blank (by decide) (.word_cons _ (by decide) (.word_cons _ (by decide) .nil))
  obtain ⟨-, printed, read, literal⟩ := readsAs_printed [Int64.minValue, 7]
  exact ⟨spaced, read text spaced, printed, literal 7 (by simp) (by decide) 1⟩

/-- The smallest value is written with a sign, although no value has its digits without it. -/
example : Decimal.ofValue Int64.minValue = "-9223372036854775808".toList := by decide

end Input

end IntScript
