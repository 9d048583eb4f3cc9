import IntScript.RuntimeError

/-!
# Arithmetic

When an operator has a result, and how quotients and remainders belong together.
`IsDivision` is the division that truncates toward zero, and `Operator.IsResult` says what the
exact result of an operator on integers is, by the laws of the operators.  Main statements: an
operator succeeds with its exact result if that is a value, except for the remainder of the
smallest value by minus one, whose quotient is no value; and a quotient and a remainder, which
fail together, give the dividend back by a product and a sum that do not overflow.
-/

namespace IntScript

/-- The division of an integer by another one that truncates toward zero: the remainder is
smaller than the divisor, and it has the sign of the dividend unless it is zero. -/
structure IsDivision (dividend divisor quotient remainder : Int) : Prop where
  dividend_eq : quotient * divisor + remainder = dividend
  small : remainder.natAbs < divisor.natAbs
  sign : remainder = 0 ∨ remainder.sign = dividend.sign

namespace IsDivision

variable {m n quotient remainder : Int}

/-- Every integer can be divided by every other one but zero. -/
theorem of_ne_zero (m : Int) (nonzero : n ≠ 0) :
  IsDivision m n (m.tdiv n) (m.tmod n)
  where
  dividend_eq := Int.tdiv_mul_add_tmod m n
  small := by
    rw [Int.natAbs_tmod]
    apply Nat.mod_lt
    apply Int.natAbs_pos.mpr nonzero
  sign := by
    rw [Int.sign_tmod]
    split
    · rename_i divides
      exact .inl (Int.tmod_eq_zero_of_dvd divides)
    · exact .inr rfl

theorem remainder_nonneg (division : IsDivision m n quotient remainder) (nonneg : 0 ≤ m) :
  0 ≤ remainder
  := by
  rcases division.sign with zero | same
  · apply Int.le_of_eq zero.symm
  · rwa [← Int.sign_nonneg_iff, same, Int.sign_nonneg_iff]

theorem remainder_nonpos (division : IsDivision m n quotient remainder) (nonpos : m ≤ 0) :
  remainder ≤ 0
  := by
  rcases division.sign with zero | same
  · apply Int.le_of_eq zero
  · rwa [← Int.sign_nonpos_iff, same, Int.sign_nonpos_iff]

theorem divisor_ne_zero (division : IsDivision m n quotient remainder) :
  n ≠ 0
  := by
  have := division.small
  omega

/-- There is only one division. -/
theorem eq_tdiv_tmod (division : IsDivision m n quotient remainder) :
  quotient = m.tdiv n ∧ remainder = m.tmod n
  := by
  have dividend_eq := division.dividend_eq
  have small := division.small
  rw [Int.add_comm, Int.mul_comm] at dividend_eq
  suffices m.tdiv n = quotient ∧ m.tmod n = remainder from ⟨this.1.symm, this.2.symm⟩
  rcases Int.le_total 0 m with nonneg | nonpos
  · have := division.remainder_nonneg nonneg
    rw [Int.tdiv_tmod_unique nonneg division.divisor_ne_zero]
    exact ⟨dividend_eq, this, by omega⟩
  · have := division.remainder_nonpos nonpos
    rw [Int.tdiv_tmod_unique' nonpos division.divisor_ne_zero]
    exact ⟨dividend_eq, by omega, this⟩

/-- The remainder is not larger than the dividend. -/
theorem natAbs_remainder_le (division : IsDivision m n quotient remainder) :
  remainder.natAbs ≤ m.natAbs
  := by
  rw [division.eq_tdiv_tmod.2, Int.natAbs_tmod]
  apply Nat.mod_le

/-- The product of the quotient and the divisor stands between zero and the dividend. -/
theorem inRange_product (division : IsDivision m n quotient remainder) (inRange : Value.InRange m) :
  Value.InRange (quotient * n)
  := by
  have dividend_eq := division.dividend_eq
  have atMost := division.natAbs_remainder_le
  have nonneg := division.remainder_nonneg
  have nonpos := division.remainder_nonpos
  simp only [Value.InRange, Int64.toInt_minValue, Int64.toInt_maxValue] at *
  omega

end IsDivision

/-! ### Ranges -/

namespace Value

/-- The remainder of two values is in range. -/
theorem inRange_tmod (left : Value) {right : Value} (nonzero : right.toInt ≠ 0) :
  InRange (left.toInt.tmod right.toInt)
  := by
  have division := IsDivision.of_ne_zero left.toInt nonzero
  have small := division.small
  have atMost := division.natAbs_remainder_le
  have leftRange := inRange_toInt left
  have rightRange := inRange_toInt right
  simp only [InRange, Int64.toInt_minValue, Int64.toInt_maxValue] at *
  omega

/-- The quotient of two values is in range, except for that of the smallest value by minus one. -/
theorem inRange_tdiv_iff (left : Value) {right : Value} (nonzero : right.toInt ≠ 0) :
  InRange (left.toInt.tdiv right.toInt) ↔ ¬ (left = Int64.minValue ∧ right = -1)
  := by
  obtain ⟨dividend_eq, small, -⟩ := IsDivision.of_ne_zero left.toInt nonzero
  have atMost := Int.natAbs_tdiv_le_natAbs left.toInt right.toInt
  have leftRange := inRange_toInt left
  have rightRange := inRange_toInt right
  have minusOne : (-1 : Value).toInt = -1 := rfl
  rw [← Int64.toInt_inj, ← Int64.toInt_inj, minusOne]
  simp only [InRange, Int64.toInt_minValue, Int64.toInt_maxValue] at *
  generalize left.toInt.tdiv right.toInt = quotient at *
  -- The quotient is not larger than the dividend, so it could only be one too large.
  by_cases tooLarge : quotient = 2 ^ 63
  · subst tooLarge
    omega
  · constructor
    · rintro - ⟨smallest, divisor⟩
      rw [divisor] at dividend_eq small
      omega
    · omega

/-- Every integer in range is that of a value. -/
theorem exists_toInt_eq {n : Int} (inRange : InRange n) :
  ∃ value : Value, value.toInt = n
  :=
  ⟨Int64.ofIntLE n inRange.1 inRange.2, Int64.toInt_ofIntLE ..⟩

end Value

/-! ### Operators -/

namespace Operator

/-- The integer is the exact result of the operator on two others. -/
inductive IsResult : Operator → Int → Int → Int → Prop where
  | sum (m n : Int) : IsResult .add m n (m + n)
  | difference (m n : Int) : IsResult .subtract m n (m - n)
  | product (m n : Int) : IsResult .multiply m n (m * n)
  | quotient {m n quotient remainder : Int} (division : IsDivision m n quotient remainder) :
      IsResult .divide m n quotient
  | remainder {m n quotient remainder : Int} (division : IsDivision m n quotient remainder) :
      IsResult .modulo m n remainder

/-- The operator divides, and the right operand is zero. -/
def DividesByZero (op : Operator) (right : Int) : Prop :=
  (op = .divide ∨ op = .modulo) ∧ right = 0

/-- The operator asks for the remainder of the smallest value by minus one. -/
def LacksQuotient (op : Operator) (left right : Value) : Prop :=
  op = .modulo ∧ left = Int64.minValue ∧ right = -1

variable {op : Operator} {line : Nat} {left right value : Value}

theorem dividesByZero_iff {n : Int} :
  op.DividesByZero n ↔ (op.divides && n == 0) = true
  := by
  cases op <;> simp [DividesByZero, divides]

/-- The exact result is unique, and there is one unless the right operand is a zero by which the
operator divides. -/
theorem isResult_iff {m n result : Int} (divisible : ¬ op.DividesByZero n) :
  op.IsResult m n result ↔ result = op.exact m n
  := by
  constructor
  · intro isResult
    cases isResult with
    | sum | difference | product => rfl
    | quotient division => exact division.eq_tdiv_tmod.1
    | remainder division => exact division.eq_tdiv_tmod.2
  · rintro rfl
    cases op with
    | add => exact .sum m n
    | subtract => exact .difference m n
    | multiply => exact .product m n
    | divide => exact .quotient (.of_ne_zero m fun zero => divisible ⟨.inl rfl, zero⟩)
    | modulo => exact .remainder (.of_ne_zero m fun zero => divisible ⟨.inr rfl, zero⟩)

/-- What has to be a value is the exact result, and with a remainder the quotient it belongs to. -/
theorem inRange_critical_iff (left : Value) (divisible : ¬ op.DividesByZero right.toInt) :
  Value.InRange (op.critical left.toInt right.toInt)
    ↔ Value.InRange (op.exact left.toInt right.toInt) ∧ ¬ op.LacksQuotient left right
  := by
  cases op with
  | modulo =>
    have nonzero : right.toInt ≠ 0 := fun zero => divisible ⟨.inr rfl, zero⟩
    have remainder := Value.inRange_tmod left nonzero
    simp only [critical, exact, LacksQuotient, Value.inRange_tdiv_iff left nonzero, remainder,
      true_and]
  | _ => simp [critical, LacksQuotient]

/-- An operator divides by zero, or what has to be a value is none, or it succeeds with its exact
result. -/
theorem applyOn_cases (op : Operator) (line : Nat) (left right : Value) :
  op.DividesByZero right.toInt ∧ op.applyOn line left right = .error (.divisionByZero line)
    ∨ ¬ op.DividesByZero right.toInt ∧ ¬ Value.InRange (op.critical left.toInt right.toInt)
      ∧ op.applyOn line left right = .error (.overflow line)
    ∨ ¬ op.DividesByZero right.toInt ∧ Value.InRange (op.critical left.toInt right.toInt)
      ∧ ∃ value : Value, value.toInt = op.exact left.toInt right.toInt
        ∧ op.applyOn line left right = .ok value
  := by
  unfold applyOn apply
  by_cases zero : op.DividesByZero right.toInt
  · rw [if_pos (dividesByZero_iff.mp zero)]
    exact .inl ⟨zero, rfl⟩
  · rw [if_neg (mt dividesByZero_iff.mpr zero)]
    by_cases inRange : Value.InRange (op.critical left.toInt right.toInt)
    · obtain ⟨result, _⟩ := (inRange_critical_iff left zero).mp inRange
      obtain ⟨_, same⟩ := Value.exists_toInt_eq inRange
      obtain ⟨value, result⟩ := Value.exists_toInt_eq result
      rw [Value.ofInt?_eq_some_iff.mpr same, Value.ofInt?_eq_some_iff.mpr result]
      exact .inr (.inr ⟨zero, inRange, value, result, rfl⟩)
    · rw [Value.ofInt?_eq_none_iff.mpr inRange]
      exact .inr (.inl ⟨zero, inRange, rfl⟩)

theorem applyOn_eq_ok_iff :
  op.applyOn line left right = .ok value
    ↔ ¬ op.DividesByZero right.toInt ∧ Value.InRange (op.critical left.toInt right.toInt)
      ∧ value.toInt = op.exact left.toInt right.toInt
  := by
  rcases op.applyOn_cases line left right with ⟨zero, applied⟩ | ⟨divisible, outside, applied⟩ |
    ⟨divisible, inRange, result, same, applied⟩
  · simp [applied, zero]
  · simp [applied, outside]
  · rw [applied, ← same, Int64.toInt_inj]
    simp [divisible, inRange, eq_comm]

theorem applyOn_eq_divisionByZero_iff :
  op.applyOn line left right = .error (.divisionByZero line) ↔ op.DividesByZero right.toInt
  := by
  rcases op.applyOn_cases line left right with ⟨zero, applied⟩ | ⟨divisible, _, applied⟩ |
    ⟨divisible, _, _, _, applied⟩
  · simp [applied, zero]
  · simp [applied, divisible]
  · simp [applied, divisible]

theorem applyOn_eq_overflow_iff :
  op.applyOn line left right = .error (.overflow line)
    ↔ ¬ op.DividesByZero right.toInt ∧ ¬ Value.InRange (op.critical left.toInt right.toInt)
  := by
  rcases op.applyOn_cases line left right with ⟨zero, applied⟩ | ⟨divisible, outside, applied⟩ |
    ⟨_, inRange, _, _, applied⟩
  · simp [applied, zero]
  · simp [applied, divisible, outside]
  · simp [applied, inRange]

/-- An operator succeeds with its exact result unless it has to fail. -/
theorem exists_applyOn (line : Nat) (divisible : ¬ op.DividesByZero right.toInt)
    (inRange : Value.InRange (op.critical left.toInt right.toInt)) :
  ∃ value : Value, value.toInt = op.exact left.toInt right.toInt
    ∧ op.applyOn line left right = .ok value
  := by
  obtain ⟨result, -⟩ := (inRange_critical_iff left divisible).mp inRange
  obtain ⟨value, same⟩ := Value.exists_toInt_eq result
  exact ⟨value, same, applyOn_eq_ok_iff.mpr ⟨divisible, inRange, same⟩⟩

/-- An operator succeeds with its exact result, unless it divides by zero, its exact result is no
value or the quotient that belongs to its result is none. -/
theorem applyOn_exact (op : Operator) (line : Nat) (left right : Value) :
  (op.applyOn line left right = .error (.divisionByZero line) ↔ op.DividesByZero right.toInt)
    ∧ (¬ op.DividesByZero right.toInt →
      ∃ result : Int, (∀ n, op.IsResult left.toInt right.toInt n ↔ n = result)
        ∧ (∀ value : Value, op.applyOn line left right = .ok value
          ↔ value.toInt = result ∧ ¬ op.LacksQuotient left right)
        ∧ (op.applyOn line left right = .error (.overflow line)
          ↔ ¬ Value.InRange result ∨ op.LacksQuotient left right))
  := by
  refine ⟨applyOn_eq_divisionByZero_iff, ?_⟩
  intro divisible
  have critical := inRange_critical_iff left divisible
  refine ⟨op.exact left.toInt right.toInt, fun n => isResult_iff divisible, ?_, ?_⟩
  · intro value
    rw [applyOn_eq_ok_iff, critical]
    constructor
    · rintro ⟨-, ⟨-, quotient⟩, same⟩
      exact ⟨same, quotient⟩
    · rintro ⟨same, quotient⟩
      exact ⟨divisible, ⟨same ▸ Value.inRange_toInt value, quotient⟩, same⟩
  · rw [applyOn_eq_overflow_iff, critical, Classical.not_and_iff_not_or_not, Classical.not_not]
    exact and_iff_right divisible

/-- The remainder of the smallest value by minus one overflows. -/
theorem applyOn_exact_smallest :
  ¬ modulo.DividesByZero (-1 : Value).toInt
    ∧ modulo.applyOn 1 Int64.minValue (-1) = .error (.overflow 1)
  := by
  have divisible : ¬ modulo.DividesByZero (-1 : Value).toInt := fun ⟨_, zero⟩ => by cases zero
  refine ⟨divisible, ?_⟩
  obtain ⟨-, exact⟩ := applyOn_exact .modulo 1 Int64.minValue (-1)
  obtain ⟨_, -, -, overflows⟩ := exact divisible
  exact overflows.mpr (.inr ⟨rfl, rfl, rfl⟩)

/-- An operator may overflow although its exact result is a value. -/
theorem not_overflows_only_out_of_range :
  ¬ ∀ (op : Operator) (line : Nat) (left right : Value) (result : Int),
    ¬ op.DividesByZero right.toInt → op.IsResult left.toInt right.toInt result →
    op.applyOn line left right = .error (.overflow line) → ¬ Value.InRange result
  := by
  intro onlyOutOfRange
  have division : IsDivision Int64.minValue.toInt (-1 : Value).toInt (2 ^ 63) 0 :=
    ⟨by decide, by decide, .inl rfl⟩
  apply onlyOutOfRange .modulo 1 Int64.minValue (-1) 0 _ (.remainder division) rfl (by decide)
  rintro ⟨-, zero⟩
  cases zero

/-! ### Quotients and remainders -/

/-- A quotient and a remainder divide by the same zeros. -/
theorem dividesByZero_divide_iff {n : Int} :
  divide.DividesByZero n ↔ modulo.DividesByZero n
  := by
  simp [DividesByZero]

/-- The quotient and the remainder of the same values fail together. -/
theorem applyOn_divide_eq_error_iff {error : RuntimeError} :
  divide.applyOn line left right = .error error ↔ modulo.applyOn line left right = .error error
  := by
  rcases divide.applyOn_cases line left right with ⟨zero, quotient⟩ |
    ⟨divisible, outside, quotient⟩ | ⟨divisible, inRange, _, _, quotient⟩
  · rw [quotient, applyOn_eq_divisionByZero_iff.mpr (dividesByZero_divide_iff.mp zero)]
  · rw [quotient, applyOn_eq_overflow_iff.mpr ⟨mt dividesByZero_divide_iff.mpr divisible, outside⟩]
  · obtain ⟨_, _, remainder⟩ :=
      exists_applyOn line (mt dividesByZero_divide_iff.mpr divisible) inRange
    rw [quotient, remainder]
    constructor <;> exact nofun

/-- A quotient and a remainder that succeed are those of the division of their operands. -/
theorem isDivision_of_applyOn {quotient remainder : Value}
    (divided : divide.applyOn line left right = .ok quotient)
    (reduced : modulo.applyOn line left right = .ok remainder) :
  IsDivision left.toInt right.toInt quotient.toInt remainder.toInt
  := by
  obtain ⟨divisible, -, quotient_eq⟩ := applyOn_eq_ok_iff.mp divided
  obtain ⟨-, -, remainder_eq⟩ := applyOn_eq_ok_iff.mp reduced
  rw [quotient_eq, remainder_eq]
  apply IsDivision.of_ne_zero
  intro zero
  exact divisible ⟨.inl rfl, zero⟩

/-- The quotient and the remainder of two values fail together, for the same cause.  If they
succeed, the product of the quotient and the divisor and its sum with the remainder succeed too,
and the sum is the dividend.  The remainder is smaller than the divisor, and it is zero or has the
sign of the dividend. -/
theorem divide_and_modulo (line : Nat) (left right : Value) :
  (∀ error, divide.applyOn line left right = .error error
      ↔ modulo.applyOn line left right = .error error)
    ∧ ∀ quotient remainder, divide.applyOn line left right = .ok quotient →
      modulo.applyOn line left right = .ok remainder →
      ∃ product, multiply.applyOn line quotient right = .ok product
        ∧ add.applyOn line product remainder = .ok left
        ∧ remainder.toInt.natAbs < right.toInt.natAbs
        ∧ (remainder = 0 ∨ remainder.toInt.sign = left.toInt.sign)
  := by
  refine ⟨fun error => applyOn_divide_eq_error_iff, ?_⟩
  intro quotient remainder divided reduced
  have division := isDivision_of_applyOn divided reduced
  have divisible : ¬ multiply.DividesByZero right.toInt := by simp [DividesByZero]
  have inRange : Value.InRange (multiply.critical quotient.toInt right.toInt) :=
    division.inRange_product (Value.inRange_toInt left)
  obtain ⟨product, product_eq, multiplied⟩ := exists_applyOn line divisible inRange
  have sum : left.toInt = product.toInt + remainder.toInt := by
    rw [product_eq]
    exact division.dividend_eq.symm
  refine ⟨product, multiplied, ?_, division.small, ?_⟩
  · rw [applyOn_eq_ok_iff]
    refine ⟨by simp [DividesByZero], ?_, sum⟩
    change Value.InRange (product.toInt + remainder.toInt)
    rw [← sum]
    apply Value.inRange_toInt
  · rw [← Int64.toInt_inj]
    exact division.sign

/-- The smallest value divided by minus three. -/
theorem divide_and_modulo_smallest :
  divide.applyOn 1 Int64.minValue (-3) = .ok 3074457345618258602
    ∧ modulo.applyOn 1 Int64.minValue (-3) = .ok (-2)
    ∧ ∃ product, multiply.applyOn 1 3074457345618258602 (-3) = .ok product
      ∧ add.applyOn 1 product (-2) = .ok Int64.minValue
  := by
  obtain ⟨-, succeeds⟩ := divide_and_modulo 1 Int64.minValue (-3)
  obtain ⟨product, multiplied, added, -⟩ := succeeds 3074457345618258602 (-2) rfl rfl
  exact ⟨rfl, rfl, product, multiplied, added⟩

end Operator

end IntScript
