import Mathlib.Algebra.Order.Group.Nat

/-!
# Arithmetic on 64-bit sizes

Sizes are natural numbers below the modulus. A difference is taken modulo the word, so a
difference that would be negative is a huge size and not zero.
-/

namespace Size

/-- The number of 64-bit words. -/
def modulus : Nat := 0x10000000000000000

/-- Subtraction of unsigned 64-bit sizes. -/
def sub (left right : Nat) : Nat := (left + modulus - right) % modulus

/-- A difference that is not negative is the difference of the numbers. -/
theorem sub_of_le {left right : Nat} (ordered : right ≤ left) (small : left < modulus) :
    sub left right = left - right := by
  simp only [sub, modulus] at *
  omega

end Size
