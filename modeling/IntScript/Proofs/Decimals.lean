import IntScript.Decimal
import IntScript.Proofs.Lexemes

/-!
# Decimal texts

The decimal text of a value is a word of digits, behind a minus sign if the value is negative,
and it is read as that value.  A text without a sign is read as a literal and as a signed number
alike.
-/

namespace IntScript.Decimal

/-! ### Rows of digits -/

theorem isDigit_of_mem_toDigits {n : Nat} :
  ∀ c ∈ Nat.toDigits 10 n, c.isDigit = true
  := by
  intro c mem
  apply Nat.isDigit_of_mem_toDigits _ _ mem <;> decide

/-- The digits of a number denote it. -/
theorem natural?_toDigits (n : Nat) :
  natural? (Nat.toDigits 10 n) = some n
  := by
  unfold natural? numeral
  rw [if_pos ⟨Nat.toDigits_ne_nil, List.all_eq_true.mpr isDigit_of_mem_toDigits⟩,
    ← Nat.ofDigitChars_eq_foldl, Nat.ofDigitChars_ten_toDigits]

/-- A text that does not start with a sign is read like a literal. -/
theorem signed?_eq_literal? {text : String}
    (unsigned : ∀ c ∈ text.toList.head?, c ≠ '-' ∧ c ≠ '+') :
  signed? text = literal? text
  := by
  unfold signed?
  split
  · rename_i minus
    simp [minus] at unsigned
  · rename_i plus
    simp [plus] at unsigned
  · rfl

/-! ### Texts of values -/

variable {value : Value}

theorem ofValue_of_nonneg (nonneg : 0 ≤ value.toInt) :
  ofValue value = Nat.toDigits 10 value.toInt.natAbs
  := by
  rw [ofValue, ofInt, if_neg (Int.not_lt.mpr nonneg)]

theorem ofValue_of_neg (neg : value.toInt < 0) :
  ofValue value = '-' :: Nat.toDigits 10 value.toInt.natAbs
  := by
  rw [ofValue, ofInt, if_pos neg]

theorem ofValue_ne_nil (value : Value) :
  ofValue value ≠ []
  := by
  rcases Int.lt_or_le value.toInt 0 with neg | nonneg
  · simp [ofValue_of_neg neg]
  · rw [ofValue_of_nonneg nonneg]
    apply Nat.toDigits_ne_nil

/-- There is no blank in the text of a value. -/
theorem isBlank_of_mem_ofValue (value : Value) :
  ∀ c ∈ ofValue value, Text.isBlank c = false
  := by
  have digits : ∀ c ∈ Nat.toDigits 10 value.toInt.natAbs, Text.isBlank c = false := by
    intro c mem
    apply Token.CharClass.isBlank_eq_false_of_isAlphanum
    simp [Char.isAlphanum, isDigit_of_mem_toDigits c mem]
  rcases Int.lt_or_le value.toInt 0 with neg | nonneg
  · rw [ofValue_of_neg neg, List.forall_mem_cons]
    exact ⟨by decide, digits⟩
  · rwa [ofValue_of_nonneg nonneg]

/-- The text of a value that is not negative is a literal of that value. -/
theorem literal?_ofValue (nonneg : 0 ≤ value.toInt) :
  literal? (String.ofList (ofValue value)) = some value
  := by
  rw [literal?, String.toList_ofList, ofValue_of_nonneg nonneg, natural?_toDigits]
  change Value.ofInt? value.toInt.natAbs = some value
  rw [Value.ofInt?_eq_some_iff]
  omega

/-- The text of a value is read as that value. -/
theorem signed?_ofValue (value : Value) :
  signed? (String.ofList (ofValue value)) = some value
  := by
  rcases Int.lt_or_le value.toInt 0 with neg | nonneg
  · rw [ofValue_of_neg neg, signed?, String.toList_ofList]
    simp only [natural?_toDigits]
    change Value.ofInt? (-value.toInt.natAbs) = some value
    rw [Value.ofInt?_eq_some_iff]
    omega
  · rw [signed?_eq_literal?, literal?_ofValue nonneg]
    rw [String.toList_ofList, ofValue_of_nonneg nonneg]
    intro c first
    have digit := isDigit_of_mem_toDigits c (List.mem_of_mem_head? first)
    constructor
    all_goals
      rintro rfl
      cases digit

end IntScript.Decimal
