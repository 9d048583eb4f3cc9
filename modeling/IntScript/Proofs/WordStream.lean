import IntScript.Input
import IntScript.Proofs.Encoding

/-!
# The words of an input

What the calls for the next word of an input answer, one after the other.  `Input.callsOfLines`
lists the answers that lines give: each line answers with its words in order, or with one error
if it encodes no text.  Main statement: the calls are answered by the lines of the input in
order, each call takes no line behind the one that answers it, and when no line is left there is
no word for ever; if the whole input encodes a text, the answers are the words of this text.
-/

namespace IntScript

namespace Text

/-! ### Words of concatenated texts -/

variable {text text' : List Char} {c : Char}

@[simp]
theorem words_nil :
  words [] = []
  :=
  rfl

/-- Texts that meet between a blank and another character have their words apart. -/
theorem words_append (meet : ∀ a ∈ text.getLast?, ∀ b ∈ text'.head?, isBlank a ≠ isBlank b) :
  words (text ++ text') = words text ++ words text'
  := by
  unfold words
  rw [List.splitBy_append, List.filter_append]
  intro a memA b memB
  simpa [sameBlankness] using meet a memA b memB

/-- A text of blanks has no words. -/
theorem words_eq_nil (blank : ∀ c ∈ text, isBlank c = true) :
  words text = []
  := by
  unfold words
  rw [List.filter_eq_nil_iff]
  intro run mem
  obtain ⟨c, memRun⟩ := List.exists_mem_of_ne_nil run (List.ne_nil_of_mem_splitBy mem)
  have memText : c ∈ text := by
    rw [← List.flatten_splitBy sameBlankness text]
    apply List.mem_flatten_of_mem mem memRun
  simp only [Bool.not_eq_true', Bool.not_eq_false, List.any_eq_true]
  exact ⟨c, memRun, blank c memText⟩

/-- Blanks in front of a text are not part of its words. -/
theorem words_dropWhile (text : List Char) :
  words (text.dropWhile isBlank) = words text
  := by
  have blank : ∀ c ∈ text.takeWhile isBlank, isBlank c = true :=
    List.all_eq_true.mp List.all_takeWhile
  have visible := List.head?_dropWhile_not isBlank text
  conv_rhs => rw [← List.takeWhile_append_dropWhile (p := isBlank) (l := text)]
  rw [words_append, words_eq_nil blank, List.nil_append]
  intro a memA b memB
  rw [Option.mem_def] at memB
  rw [memB] at visible
  simp only [blank a (List.mem_of_getLast? memA), visible]
  decide

/-- A blank in front of a text is not part of its words. -/
theorem words_cons (blank : isBlank c = true) (text : List Char) :
  words (c :: text) = words text
  := by
  rw [← words_dropWhile (c :: text), List.dropWhile_cons_of_pos blank, words_dropWhile]

/-- The words before and behind a blank are apart. -/
theorem words_append_cons (blank : isBlank c = true) (text text' : List Char) :
  words (text ++ c :: text') = words text ++ words text'
  := by
  induction text using List.reverseRecOn generalizing c text' with
  | nil => apply words_cons blank
  | append_singleton text b ih =>
    by_cases blank' : isBlank b
    · rw [← List.append_cons, ih blank', words_cons blank, ih blank', words_nil, List.append_nil]
    · rw [words_append, words_cons blank]
      simp [blank, blank']

/-- The words of a text are those of its lines. -/
theorem flatMap_words_segments (text : List Char) :
  (segments (· == '\n') text).flatMap words = words text
  := by
  induction text using segments_induction (· == '\n') with
  | opened text all =>
    by_cases empty : text = []
    · subst empty
      rfl
    · rw [segments_of_forall empty all, List.flatMap_singleton]
  | closed body last rest all closes ih =>
    have blank : isBlank last = true := by
      rw [beq_iff_eq.mp closes]
      decide
    rw [segments_append_cons rest all closes, List.flatMap_cons, ih, words_append_cons blank,
      words_append_cons blank, words_nil, List.append_nil]

end Text

namespace Input

/-! ### Calls and their answers -/

/-- What a call for the next word answers: a word, that there is none, or an error. -/
abbrev Reply := Except StreamError (Option String)

/-- An answered call: the reply, how many bytes of the input have been consumed when it is given,
and which bytes have not. -/
structure Call where
  reply : Reply
  consumed : Nat
  unread : List UInt8

/-- A call that leaves an input behind. -/
def callLeaving (input : Input) (reply : Reply) : Call :=
  ⟨reply, input.consumed, input.lines.flatten⟩

/-- The given number of calls for the next word, each on what the one before has left. -/
def calls : Nat → Input → List Call
  | 0, _ => []
  | count + 1, input =>
    match input.nextWord with
    | .ok word? left => left.callLeaving (.ok word?) :: calls count left
    | .error cause left => left.callLeaving (.error cause) :: calls count left

/-- The reply that a word is. -/
def replyOfWord (word : List Char) : Reply :=
  .ok (some (String.ofList word))

/-- The replies that a line gives: its words in order, or one error if it encodes no text. -/
def repliesOfLine (line : List UInt8) : List Reply :=
  match Text.decode? line with
  | some text => (Text.words text).map replyOfWord
  | none => [.error .invalidText]

/-- The calls that lines answer when the given number of bytes in front of them is consumed.  A
call that a line answers has consumed this line and none behind it. -/
def callsOfLines (consumed : Nat) : List (List UInt8) → List Call
  | [] => []
  | line :: lines =>
    (repliesOfLine line).map (fun reply => ⟨reply, consumed + line.length, lines.flatten⟩)
      ++ callsOfLines (consumed + line.length) lines

/-- The calls that an input still answers: its pending words come before its lines. -/
def answerable (input : Input) : List Call :=
  (input.pending.map fun word => input.callLeaving (.ok (some word)))
    ++ callsOfLines input.consumed input.lines

/-- How many bytes an input has, consumed or not. -/
def size (input : Input) : Nat :=
  input.consumed + input.lines.flatten.length

/-- The call that is answered by silence, when all bytes of an input have been consumed. -/
def silence (size : Nat) : Call :=
  ⟨.ok none, size, []⟩

/-- How an input answers a call: with the first of the calls that it still answers, or with
silence if there is none. -/
inductive Answers (input : Input) : EStateM.Result StreamError Input (Option String) → Prop where
  | word {word : String} {left : Input}
      (first : input.answerable = left.callLeaving (.ok (some word)) :: left.answerable)
      (size : left.size = input.size) : Answers input (.ok (some word) left)
  | lost {cause : StreamError} {left : Input}
      (first : input.answerable = left.callLeaving (.error cause) :: left.answerable)
      (size : left.size = input.size) : Answers input (.error cause left)
  | silence {left : Input} (before : input.answerable = []) (after : left.answerable = [])
      (silent : left.callLeaving (.ok none) = silence left.size) (size : left.size = input.size) :
      Answers input (.ok none left)

/-- How an input answers depends on the calls that it still answers and on its size. -/
theorem Answers.congr
    {input input' : Input} {result : EStateM.Result StreamError Input (Option String)}
    (same : input'.answerable = input.answerable) (sameSize : input'.size = input.size)
    (answers : Answers input result) :
  Answers input' result
  := by
  cases answers with
  | word first size => apply Answers.word (same.trans first) (size.trans sameSize.symm)
  | lost first size => apply Answers.lost (same.trans first) (size.trans sameSize.symm)
  | silence before after silent size =>
    apply Answers.silence (same.trans before) after silent (size.trans sameSize.symm)

theorem repliesOfLine_eq (line : List UInt8) :
  repliesOfLine line =
    match wordsOfLine? line with
    | some words => words.map fun word => .ok (some word)
    | none => [.error .invalidText]
  := by
  unfold repliesOfLine wordsOfLine?
  cases Text.decode? line with
  | none => rfl
  | some text => simp [replyOfWord]

/-- The size of an input stays when a line of it is taken. -/
theorem size_take (consumed : Nat) (line : List UInt8) (lines : List (List UInt8))
    (words : List String) :
  (Input.mk lines words (consumed + line.length)).size
    = (Input.mk (line :: lines) [] consumed).size
  := by
  simp [Input.size, Nat.add_assoc]

/-- When lines are taken, the first one that gives a reply answers. -/
theorem answers_takeLines (consumed : Nat) (lines : List (List UInt8)) :
  Answers ⟨lines, [], consumed⟩ (takeLines consumed lines)
  := by
  fun_induction takeLines consumed lines with
  | case1 consumed => exact .silence rfl rfl rfl rfl
  | case2 consumed line lines invalid =>
    apply Answers.lost _ (size_take ..)
    simp only [answerable, callsOfLines, repliesOfLine_eq, invalid]
    rfl
  | case3 consumed line lines blank ih =>
    apply ih.congr _ (size_take ..).symm
    simp only [answerable, callsOfLines, repliesOfLine_eq, blank]
    rfl
  | case4 consumed line lines word pending spelled =>
    apply Answers.word _ (size_take ..)
    simp only [answerable, callsOfLines, repliesOfLine_eq, spelled]
    simp [callLeaving]

/-- An input answers every call. -/
theorem answers_nextWord (input : Input) :
  Answers input input.nextWord
  := by
  obtain ⟨lines, pending, consumed⟩ := input
  cases pending with
  | nil => apply answers_takeLines
  | cons word pending => exact .word rfl rfl

/-- Calls are answered in order, and by silence when all that an input answers has been given. -/
theorem calls_eq (count : Nat) (input : Input) :
  calls count input = (input.answerable ++ List.replicate count (silence input.size)).take count
  := by
  induction count generalizing input with
  | zero => rfl
  | succ count ih =>
    -- The last silence is not needed for one call fewer.
    have fewer (left : Input) :
        calls count left
          = (left.answerable ++ List.replicate (count + 1) (silence left.size)).take count := by
      have enough : count
          ≤ (left.answerable ++ List.replicate count (silence left.size)).length := by
        simp
      rw [ih, List.replicate_succ', ← List.append_assoc, List.take_append_of_le_length enough]
    have answers := input.answers_nextWord
    unfold calls
    generalize input.nextWord = result at answers ⊢
    cases answers with
    | word first size | lost first size =>
      rw [first, ← size, List.cons_append, List.take_succ_cons, ← fewer]
    | @silence left before after silent size =>
      have rest := ih left
      rw [after, List.nil_append] at rest
      rw [before, List.nil_append, ← size, List.replicate_succ, List.take_succ_cons, ← rest,
        ← silent]

/-- All bytes of an input are to be consumed. -/
theorem size_ofBytes (bytes : List UInt8) :
  (ofBytes bytes).size = bytes.length
  := by
  simp only [size, ofBytes, flatten_segments, Nat.zero_add]

/-- The replies that lines give do not depend on what has been consumed in front of them. -/
theorem map_reply_callsOfLines (consumed : Nat) (lines : List (List UInt8)) :
  (callsOfLines consumed lines).map Call.reply = lines.flatMap repliesOfLine
  := by
  induction lines generalizing consumed with
  | nil => rfl
  | cons line lines ih => simp [callsOfLines, ih, Function.comp_def]

/-- The lines of a text give its words. -/
theorem flatMap_repliesOfLine {bytes : List UInt8} {text : List Char}
    (decoded : Text.decode? bytes = some text) :
  (segments (· == 0x0A) bytes).flatMap repliesOfLine = (Text.words text).map replyOfWord
  := by
  obtain rfl := Text.decode?_eq_some_iff.mp decoded
  rw [Text.segments_encode, List.flatMap_map, ← Text.flatMap_words_segments, List.map_flatMap]
  simp only [repliesOfLine, Text.decode?_encode]

/-- An input that encodes a text replies with the words of this text, and then that there is no
word. -/
theorem map_reply_calls {bytes : List UInt8} {text : List Char}
    (decoded : Text.decode? bytes = some text) (count : Nat) :
  (calls count (ofBytes bytes)).map Call.reply
    = ((Text.words text).map replyOfWord ++ List.replicate count (Except.ok none)).take count
  := by
  have answerable : ((ofBytes bytes).answerable).map Call.reply
      = (Text.words text).map replyOfWord := by
    rw [← flatMap_repliesOfLine decoded]
    apply map_reply_callsOfLines
  rw [calls_eq, List.map_take, List.map_append, answerable, List.map_replicate]
  rfl

/-- The calls for the next word of an input are answered by its lines in order, and then by
silence for ever.  A line answers with its words, or with one error if it encodes no text, and
while it answers the lines up to it are consumed and those behind it are not.  If the input
encodes a text, the replies are the words of this text. -/
theorem calls_answered_by_lines (bytes : List UInt8) (count : Nat) :
  Cut (· == 0x0A) bytes (segments (· == 0x0A) bytes)
    ∧ calls count (ofBytes bytes)
      = (callsOfLines 0 (segments (· == 0x0A) bytes)
        ++ List.replicate count (silence bytes.length)).take count
    ∧ ∀ text, Text.decode? bytes = some text →
      (calls count (ofBytes bytes)).map Call.reply
        = ((Text.words text).map replyOfWord ++ List.replicate count (Except.ok none)).take count
  := by
  have answered : calls count (ofBytes bytes)
      = (callsOfLines 0 (segments (· == 0x0A) bytes)
        ++ List.replicate count (silence bytes.length)).take count := by
    rw [calls_eq, size_ofBytes]
    rfl
  refine ⟨cut_segments bytes, answered, ?_⟩
  intro text decoded
  rw [answered, List.map_take, List.map_append, map_reply_callsOfLines,
    flatMap_repliesOfLine decoded, List.map_replicate]
  rfl

/-- The second of three lines encodes no text: it costs one call, and the words before and behind it
are not lost. -/
theorem calls_answered_by_lines_invalid :
  calls 5 (ofBytes [0x37, 0x20, 0x38, 0x0A, 0xFF, 0x0A, 0x39])
    = [⟨.ok (some "7"), 4, [0xFF, 0x0A, 0x39]⟩, ⟨.ok (some "8"), 4, [0xFF, 0x0A, 0x39]⟩,
      ⟨.error .invalidText, 6, [0x39]⟩, ⟨.ok (some "9"), 7, []⟩, ⟨.ok none, 7, []⟩]
  := by
  obtain ⟨-, answered, -⟩ :=
    calls_answered_by_lines [0x37, 0x20, 0x38, 0x0A, 0xFF, 0x0A, 0x39] 5
  rw [answered]
  rfl

end Input

end IntScript
