import IntScript.Number
import IntScript.Proofs.Arithmetic
import IntScript.Proofs.Decimals
import Mathlib.Data.Nat.Digits.Defs
import Mathlib.Data.Set.List

/-!
# Numerals

Which texts denote which numbers, said without reading them.  A numeral is a row of one or more
decimal digits, each of which counts ten times as much as the one behind it, and a signed numeral
is a numeral behind at most one sign.  Main statement: the literals of a program are the numerals
of values and the words of its input the signed numerals of values, each is read as the value that
it denotes, and any other text is refused.
-/

namespace IntScript

namespace Decimal

/-! ### Numerals -/

/-- The character of a digit. -/
def digitChar (digit : Fin 10) : Char :=
  Nat.digitChar digit

/-- The text is the row of one or more digits that denotes the number in decimal. -/
def IsNumeral (text : List Char) (n : Nat) : Prop :=
  ∃ row : List (Fin 10), row ≠ [] ∧ text = row.map digitChar
    ∧ n = Nat.ofDigits 10 (row.reverse.map Fin.val)

/-- The text is a numeral with at most one sign in front of it, and denotes the integer. -/
inductive IsSignedNumeral : List Char → Int → Prop where
  | unsigned {text : List Char} {n : Nat} (numeral : IsNumeral text n) : IsSignedNumeral text n
  | plus {text : List Char} {n : Nat} (numeral : IsNumeral text n) :
      IsSignedNumeral ('+' :: text) n
  | minus {text : List Char} {n : Nat} (numeral : IsNumeral text n) :
      IsSignedNumeral ('-' :: text) (-n)

/-- The digits among the characters are those of the decimal digits. -/
theorem isDigit_iff {c : Char} :
  c.isDigit ↔ ∃ digit : Fin 10, c = digitChar digit
  := by
  constructor
  · intro isDigit
    rw [Char.isDigit, Bool.and_eq_true, decide_eq_true_eq, decide_eq_true_eq] at isDigit
    obtain ⟨least, greatest⟩ := isDigit
    rw [ge_iff_le, UInt32.le_iff_toNat_le] at least
    rw [UInt32.le_iff_toNat_le] at greatest
    have chars : ∀ digit : Fin 10, Char.ofNat (digit + 48) = digitChar digit := by decide
    change 48 ≤ c.toNat at least
    change c.toNat ≤ 57 at greatest
    refine ⟨⟨c.toNat - 48, by omega⟩, ?_⟩
    rw [← chars, Nat.sub_add_cancel least, Char.ofNat_toNat]
  · rintro ⟨digit, rfl⟩
    revert digit
    decide

/-- A row of digits is read digit by digit as the number that it denotes. -/
theorem numeral_row (row : List (Fin 10)) :
  numeral 0 (row.map digitChar) = Nat.ofDigits 10 (row.reverse.map Fin.val)
  := by
  have worth : ∀ digit : Fin 10, (digitChar digit).toNat - '0'.toNat = digit := by decide
  induction row using List.reverseRecOn with
  | nil => rfl
  | append_singleton row digit ih =>
    rw [numeral] at ih ⊢
    rw [List.map_append, List.foldl_append, ih, List.reverse_append, List.map_append]
    simp only [List.map_singleton, List.foldl_cons, List.foldl_nil, List.reverse_singleton,
      List.singleton_append, Nat.ofDigits_cons, worth]
    apply Nat.add_comm

/-- What is read as a number are the numerals. -/
theorem natural?_eq_some_iff {text : List Char} {n : Nat} :
  natural? text = some n ↔ IsNumeral text n
  := by
  unfold natural?
  constructor
  · intro read
    split at read <;> cases read
    rename_i digits
    obtain ⟨nonempty, digits⟩ := digits
    have spelled : text ∈ Set.range (List.map digitChar) := by
      rw [Set.range_list_map]
      intro c mem
      obtain ⟨digit, rfl⟩ := isDigit_iff.mp (List.all_eq_true.mp digits c mem)
      exact ⟨digit, rfl⟩
    obtain ⟨row, rfl⟩ := spelled
    exact ⟨row, by simpa using nonempty, rfl, numeral_row row⟩
  · rintro ⟨row, nonempty, rfl, rfl⟩
    have digits : (row.map digitChar).all Char.isDigit := by
      rw [List.all_map, List.all_eq_true]
      intro digit _
      apply isDigit_iff.mpr ⟨digit, rfl⟩
    rw [if_pos ⟨by simpa using nonempty, digits⟩, numeral_row]

/-- A numeral has no sign in front of it. -/
theorem IsNumeral.unsigned {text : List Char} {n : Nat} (numeral : IsNumeral text n) :
  ∀ c ∈ text.head?, c ≠ '-' ∧ c ≠ '+'
  := by
  have signs : ∀ digit : Fin 10, digitChar digit ≠ '-' ∧ digitChar digit ≠ '+' := by decide
  obtain ⟨row, -, rfl, -⟩ := numeral
  cases row with
  | nil => exact fun _ mem => nomatch mem
  | cons digit row => simpa using signs digit

/-! ### Signs -/

variable {text : List Char} {z : Int}

theorem isSignedNumeral_minus_iff :
  IsSignedNumeral ('-' :: text) z ↔ ∃ n : Nat, z = -n ∧ IsNumeral text n
  := by
  constructor
  · intro signed
    cases signed with
    | unsigned numeral => exact absurd rfl (numeral.unsigned '-' rfl).1
    | minus numeral => exact ⟨_, rfl, numeral⟩
  · rintro ⟨n, rfl, numeral⟩
    exact .minus numeral

theorem isSignedNumeral_plus_iff :
  IsSignedNumeral ('+' :: text) z ↔ ∃ n : Nat, z = n ∧ IsNumeral text n
  := by
  constructor
  · intro signed
    cases signed with
    | unsigned numeral => exact absurd rfl (numeral.unsigned '+' rfl).2
    | plus numeral => exact ⟨_, rfl, numeral⟩
  · rintro ⟨n, rfl, numeral⟩
    exact .plus numeral

/-- Without a sign in front a signed numeral is a numeral. -/
theorem isSignedNumeral_iff_of_unsigned (unsigned : ∀ c ∈ text.head?, c ≠ '-' ∧ c ≠ '+') :
  IsSignedNumeral text z ↔ ∃ n : Nat, z = n ∧ IsNumeral text n
  := by
  constructor
  · intro signed
    cases signed with
    | unsigned numeral => exact ⟨_, rfl, numeral⟩
    | plus => exact absurd rfl (unsigned '+' rfl).2
    | minus => exact absurd rfl (unsigned '-' rfl).1
  · rintro ⟨n, rfl, numeral⟩
    exact .unsigned numeral

/-! ### Values of numerals -/

variable {value : Value}

/-- The value that is made of a number belongs to the numerals of that number. -/
theorem bind_natural?_eq_some_iff {f : Nat → Int} :
  ((natural? text).bind fun n => Value.ofInt? (f n)) = some value
    ↔ ∃ n : Nat, value.toInt = f n ∧ IsNumeral text n
  := by
  simp only [Option.bind_eq_some_iff, natural?_eq_some_iff, Value.ofInt?_eq_some_iff, and_comm]

/-- The literals of a value are the numerals of its integer. -/
theorem literal?_eq_some_iff {text : String} :
  literal? text = some value ↔ ∃ n : Nat, value.toInt = n ∧ IsNumeral text.toList n
  :=
  bind_natural?_eq_some_iff (f := fun n => n)

/-- The words for a value are the signed numerals of its integer. -/
theorem signed?_eq_some_iff {text : String} :
  signed? text = some value ↔ IsSignedNumeral text.toList value.toInt
  := by
  unfold signed?
  split
  · rename_i digits minus
    rw [minus, isSignedNumeral_minus_iff]
    apply bind_natural?_eq_some_iff (f := fun n => -n)
  · rename_i digits plus
    rw [plus, isSignedNumeral_plus_iff]
    apply bind_natural?_eq_some_iff (f := fun n => n)
  · rename_i notMinus notPlus
    rw [isSignedNumeral_iff_of_unsigned]
    · apply bind_natural?_eq_some_iff (f := fun n => n)
    · intro c first
      obtain ⟨rest, text_eq⟩ := List.head?_eq_some_iff.mp first
      constructor
      · rintro rfl
        apply notMinus _ text_eq
      · rintro rfl
        apply notPlus _ text_eq

end Decimal

namespace Number

open Decimal

/-- What is read from a text on a line is a value if the text denotes an integer in the range of
values, and then the value of that integer.  Otherwise the text is refused, and the error names
the text and the line. -/
structure ReadsExactly (denotes : Int → Prop) (text : String) (line : Nat)
    (result : Except RuntimeError Value) : Prop where
  value : ∀ value : Value, result = .ok value ↔ denotes value.toInt
  accepts : (∃ value, result = .ok value) ↔ ∃ n : Int, denotes n ∧ -2 ^ 63 ≤ n ∧ n ≤ 2 ^ 63 - 1
  refuses : (¬ ∃ n : Int, denotes n ∧ -2 ^ 63 ≤ n ∧ n ≤ 2 ^ 63 - 1) →
    result = .error (.invalidNumber text line)

theorem ofLiteral_eq (text : String) (line : Nat) :
  ofLiteral text line = (literal? text).elim (.error (.invalidNumber text line)) .ok
  := by
  unfold ofLiteral
  cases literal? text <;> rfl

theorem ofWord_eq (word : String) (line : Nat) :
  ofWord word line = (signed? word).elim (.error (.invalidNumber word line)) .ok
  := by
  unfold ofWord
  cases signed? word <;> rfl

/-- A reader that finds the value of exactly what denotes it reads exactly. -/
theorem readsExactly_of_eq_some_iff {denotes : Int → Prop} {value? : Option Value}
    (found : ∀ value, value? = some value ↔ denotes value.toInt) (text : String) (line : Nat) :
  ReadsExactly denotes text line (value?.elim (.error (.invalidNumber text line)) .ok)
  := by
  cases value? with
  | some value =>
    have denoted : ∃ n : Int, denotes n ∧ -2 ^ 63 ≤ n ∧ n ≤ 2 ^ 63 - 1 :=
      ⟨value.toInt, (found value).mp rfl, value.inRange_toInt⟩
    refine ⟨fun value' => ?_, ⟨fun _ => denoted, fun _ => ⟨value, rfl⟩⟩, absurd denoted⟩
    rw [← found, Option.some_inj]
    exact ⟨Except.ok.inj, congrArg Except.ok⟩
  | none =>
    have undenoted : ¬ ∃ n : Int, denotes n ∧ -2 ^ 63 ≤ n ∧ n ≤ 2 ^ 63 - 1 := by
      rintro ⟨n, denoted, inRange⟩
      obtain ⟨value, rfl⟩ := Value.exists_toInt_eq inRange
      cases (found value).mpr denoted
    refine ⟨fun value => ?_, ⟨nofun, fun denoted => absurd denoted undenoted⟩, fun _ => rfl⟩
    rw [← found]
    simp

/-- Literals are read exactly as numerals, and words exactly as signed numerals; both refuse
everything else.  They are read alike if there is no sign in front. -/
theorem numerals_read_exactly (text : String) (line : Nat) :
  ReadsExactly (fun z => ∃ n : Nat, z = n ∧ IsNumeral text.toList n) text line
      (ofLiteral text line)
    ∧ ReadsExactly (IsSignedNumeral text.toList) text line (ofWord text line)
    ∧ ((∀ c ∈ text.toList.head?, c ≠ '-' ∧ c ≠ '+') → ofLiteral text line = ofWord text line)
  := by
  refine ⟨?_, ?_, ?_⟩
  · rw [ofLiteral_eq]
    apply readsExactly_of_eq_some_iff
    intro value
    apply literal?_eq_some_iff
  · rw [ofWord_eq]
    apply readsExactly_of_eq_some_iff
    intro value
    apply signed?_eq_some_iff
  · intro unsigned
    rw [ofLiteral, ofWord, signed?_eq_literal? unsigned]

/-- The smallest value may be written with leading zeros.  The number behind the greatest one is
refused, and where there is no sign a word is read like a literal. -/
theorem numerals_read_exactly_bounds :
  IsSignedNumeral "-0009223372036854775808".toList Int64.minValue.toInt
    ∧ ofWord "-0009223372036854775808" 1 = .ok Int64.minValue
    ∧ ofLiteral "9223372036854775808" 1 = .error (.invalidNumber "9223372036854775808" 1)
    ∧ ofLiteral "007" 1 = ofWord "007" 1
  := by
  have spelled : "-0009223372036854775808".toList = '-' ::
      List.map digitChar [0, 0, 0, 9, 2, 2, 3, 3, 7, 2, 0, 3, 6, 8, 5, 4, 7, 7, 5, 8, 0, 8] := by
    decide
  have smallest : IsSignedNumeral "-0009223372036854775808".toList Int64.minValue.toInt := by
    rw [spelled]
    exact .minus ⟨_, by decide, rfl, rfl⟩
  have beyond : ¬ ∃ z : Int, (∃ n : Nat, z = n ∧ IsNumeral "9223372036854775808".toList n)
      ∧ -2 ^ 63 ≤ z ∧ z ≤ 2 ^ 63 - 1 := by
    rintro ⟨_, ⟨n, rfl, numeral⟩, -, le⟩
    cases natural?_eq_some_iff.mpr numeral
    revert le
    decide
  obtain ⟨-, words, -⟩ := numerals_read_exactly "-0009223372036854775808" 1
  obtain ⟨literals, -, -⟩ := numerals_read_exactly "9223372036854775808" 1
  obtain ⟨-, -, alike⟩ := numerals_read_exactly "007" 1
  have unsigned : ∀ c ∈ "007".toList.head?, c ≠ '-' ∧ c ≠ '+' := by
    rintro c ⟨⟩
    decide
  exact ⟨smallest, (words.value _).mpr smallest, literals.refuses beyond, alike unsigned⟩

end Number

end IntScript
