import Mathlib.Data.Nat.Bitwise

/-!
# Bit fields of a word

A field of a word is given by its offset and its width. Reading a field shifts and masks; writing
one clears it and puts the new value in its place. A field that has been written is read back, and
the fields that do not overlap it keep their values.
-/

namespace BitField

variable {n : Nat}

/-- The mask of a field at offset zero. -/
def mask (n width : Nat) : BitVec n := BitVec.ofNat n (2 ^ width - 1)

/-- The value of a field. -/
def get (offset width : Nat) (word : BitVec n) : Nat := ((word >>> offset) &&& mask n width).toNat

/-- Replace the value of a field. -/
def set (offset width : Nat) (word : BitVec n) (value : Nat) : BitVec n :=
  (word &&& ~~~(mask n width <<< offset)) ||| (BitVec.ofNat n value <<< offset)

variable {width i value offset : Nat}

/-- The bits of a mask. -/
theorem getLsbD_mask (inside : i < n) : (mask n width).getLsbD i = decide (i < width) := by
  unfold mask
  rw [BitVec.getLsbD_ofNat, Nat.testBit_two_pow_sub_one]
  simp [inside]

/-- A bit of a value that fits into a field. -/
theorem getLsbD_value (fits : value < 2 ^ width) (beyond : width ≤ i) :
    (BitVec.ofNat n value).getLsbD i = false := by
  rw [BitVec.getLsbD_ofNat, Nat.testBit_lt_two_pow (Nat.lt_of_lt_of_le fits
    (Nat.pow_le_pow_right (by decide) beyond)), Bool.and_false]

variable {word : BitVec n}

/-- A bit of a word of which a field has been replaced. -/
theorem getLsbD_set (inside : i < n) (fits : value < 2 ^ width) :
    (set offset width word value).getLsbD i =
      if offset ≤ i ∧ i < offset + width then (BitVec.ofNat n value).getLsbD (i - offset)
      else word.getLsbD i := by
  unfold set
  rw [BitVec.getLsbD_or, BitVec.getLsbD_and, BitVec.getLsbD_not, BitVec.getLsbD_shiftLeft,
    BitVec.getLsbD_shiftLeft]
  by_cases below : i < offset
  · have outside : ¬(offset ≤ i ∧ i < offset + width) := by omega
    simp [inside, below, outside]
  · have within : i - offset < n := by omega
    rw [getLsbD_mask within]
    by_cases isField : i < offset + width
    · have position : i - offset < width := by omega
      have reached : offset ≤ i ∧ i < offset + width := by omega
      simp [inside, below, position, reached]
    · have position : ¬ i - offset < width := by omega
      have beyond : width ≤ i - offset := by omega
      have outside : ¬(offset ≤ i ∧ i < offset + width) := by omega
      simp [inside, position, outside, getLsbD_value fits beyond]

/-- A field that has been written is read back. -/
theorem get_set_self (inside : offset + width ≤ n)
    (fits : value < 2 ^ width) : get offset width (set offset width word value) = value := by
  have same : (set offset width word value >>> offset) &&& mask n width = BitVec.ofNat n value := by
    apply BitVec.eq_of_getLsbD_eq
    intro i bound
    rw [BitVec.getLsbD_and, BitVec.getLsbD_ushiftRight, getLsbD_mask bound]
    by_cases isField : i < width
    · have reached : offset ≤ offset + i ∧ offset + i < offset + width := by omega
      rw [getLsbD_set (by omega) fits, if_pos reached, Nat.add_sub_cancel_left]
      simp [isField]
    · rw [getLsbD_value fits (Nat.le_of_not_lt isField)]
      simp [isField]
  have small : value < 2 ^ n :=
    Nat.lt_of_lt_of_le fits (Nat.pow_le_pow_right (by decide) (by omega))
  unfold get
  rw [same, BitVec.toNat_ofNat, Nat.mod_eq_of_lt small]

/-- A field that does not overlap the one that is written keeps its value. -/
theorem get_set_of_disjoint {offset' width' : Nat} (inside : offset + width ≤ n)
    (fits : value < 2 ^ width') (disjoint : offset + width ≤ offset' ∨ offset' + width' ≤ offset) :
    get offset width (set offset' width' word value) = get offset width word := by
  unfold get
  apply congrArg BitVec.toNat
  apply BitVec.eq_of_getLsbD_eq
  intro i bound
  rw [BitVec.getLsbD_and, BitVec.getLsbD_and, BitVec.getLsbD_ushiftRight,
    BitVec.getLsbD_ushiftRight, getLsbD_mask bound]
  by_cases isField : i < width
  · have outside : ¬(offset' ≤ offset + i ∧ offset + i < offset' + width') := by omega
    rw [getLsbD_set (by omega) fits, if_neg outside]
  · simp [isField]

/-- A field as a number. -/
theorem get_eq (inside : width ≤ n) :
    get offset width word = word.toNat / 2 ^ offset % 2 ^ width := by
  have small : 2 ^ width - 1 < 2 ^ n :=
    Nat.lt_of_lt_of_le (Nat.sub_lt (Nat.two_pow_pos _) Nat.one_pos)
      (Nat.pow_le_pow_right (by decide) inside)
  rw [get, mask, BitVec.toNat_and, BitVec.toNat_ushiftRight, BitVec.toNat_ofNat,
    Nat.mod_eq_of_lt small, Nat.and_two_pow_sub_one_eq_mod, Nat.shiftRight_eq_div_pow]

/-- Every field of the zero word is zero. -/
@[simp] theorem get_zero (offset width : Nat) : get offset width (0 : BitVec n) = 0 := by
  unfold get
  simp

end BitField
