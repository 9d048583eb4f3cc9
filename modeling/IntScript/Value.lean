/-!
# Values

The values of the language are the integers of 64 bits, from `-2 ^ 63` to `2 ^ 63 - 1`.
`Value.ofInt?` takes an exact integer to the value that represents it, if one does.
-/

namespace IntScript

/-- A value of the language, an integer of 64 bits with a sign. -/
abbrev Value := Int64

namespace Value

/-- The integers that values represent. -/
def InRange (n : Int) : Prop :=
  Int64.minValue.toInt ≤ n ∧ n ≤ Int64.maxValue.toInt

instance (n : Int) : Decidable (InRange n) := by
  unfold InRange
  infer_instance

/-- The value that represents an integer. -/
def ofInt? (n : Int) : Option Value :=
  if range : InRange n then some (Int64.ofIntLE n range.1 range.2) else none

/-- Every value represents an integer in range. -/
theorem inRange_toInt (v : Value) :
  InRange v.toInt
  :=
  ⟨Int64.minValue_le_toInt v, Int64.toInt_le v⟩

/-- An integer is represented by the value whose integer it is. -/
theorem ofInt?_eq_some_iff {n : Int} {v : Value} :
  ofInt? n = some v ↔ v.toInt = n
  := by
  unfold ofInt?
  constructor
  · intro h
    split at h
    · injection h with h
      rw [← h, Int64.toInt_ofIntLE]
    · contradiction
  · rintro rfl
    rw [dif_pos (inRange_toInt v), Int64.ofIntLE_toInt]

/-- An integer out of range has no value. -/
theorem ofInt?_eq_none_iff {n : Int} :
  ofInt? n = none ↔ ¬ InRange n
  := by
  unfold ofInt?
  split <;> simp_all

end Value

end IntScript
