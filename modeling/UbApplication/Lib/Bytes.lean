import Mathlib.Algebra.Group.Nat.Defs
import Mathlib.Data.List.Basic

/-!
# Words in byte strings

A word is kept as bytes with the lowest one first. A word that has been stored is read back, and the
bytes that do not overlap it stay.
-/

namespace Bytes

open List

/-- The number with the given bytes. -/
def combine : List UInt8 → Nat
  | [] => 0
  | byte :: bytes => byte.toNat + 256 * combine bytes

/-- The lowest bytes of a number. -/
def split : Nat → Nat → List UInt8
  | 0, _ => []
  | size + 1, value => UInt8.ofNat value :: split size (value / 256)

/-- The word at a place of a string. -/
def word (bytes : List UInt8) (start size : Nat) : Nat := combine ((bytes.drop start).take size)

/-- The string after a word has been stored. -/
def put (bytes : List UInt8) (start size value : Nat) : List UInt8 :=
  bytes.take start ++ (split size value ++ bytes.drop (start + size))

/-- The size of a split number. -/
@[simp] theorem length_split (size value : Nat) : (split size value).length = size := by
  induction size generalizing value with
  | zero => rfl
  | succ size ih => simp [split, ih]

/-- The bytes of a number give it back. -/
theorem combine_split (size value : Nat) : combine (split size value) = value % 256 ^ size := by
  induction size generalizing value with
  | zero => simp [split, combine, Nat.mod_one]
  | succ size ih =>
    have byte : (UInt8.ofNat value).toNat = value % 256 := UInt8.toNat_ofNat'
    rw [split, combine, ih, byte, Nat.pow_succ', Nat.mod_mul]

/-- A put does not shorten. -/
theorem length_le_put (bytes : List UInt8) (start size value : Nat) :
    bytes.length ≤ (put bytes start size value).length := by
  simp only [put, length_append, length_take, length_split, length_drop]
  omega

/-- A word that follows some bytes. -/
theorem word_append (before rest : List UInt8) (size value : Nat) :
    word (before ++ (split size value ++ rest)) before.length size = value % 256 ^ size := by
  rw [word, drop_left, take_left' (length_split size value), combine_split]

variable {bytes : List UInt8} {start size : Nat}

/-- A word that was put is read back. -/
theorem word_put_self (inside : start ≤ bytes.length) (value : Nat) :
    word (put bytes start size value) start size = value % 256 ^ size := by
  have place : (bytes.take start).length = start := length_take_of_le inside
  have stored := word_append (bytes.take start) (bytes.drop (start + size)) size value
  rwa [place] at stored

/-- The other bytes stay. -/
theorem getElem?_put {i : Nat} (inside : start + size ≤ bytes.length) (value : Nat)
    (apart : i < start ∨ start + size ≤ i) : (put bytes start size value)[i]? = bytes[i]? := by
  rw [put]
  rcases apart with before | after
  · rw [getElem?_append_left (by rw [length_take]; omega), getElem?_take_of_lt before]
  · rw [← append_assoc, getElem?_append_right (by simp; omega), getElem?_drop]
    congr 1
    simp
    omega

/-- A word beside the put stays. -/
theorem word_put_apart {start' size' : Nat} (inside : start + size ≤ bytes.length) (value : Nat)
    (apart : start' + size' ≤ start ∨ start + size ≤ start') :
    word (put bytes start size value) start' size' = word bytes start' size' := by
  unfold word
  congr 1
  apply ext_getElem?
  intro i
  rw [getElem?_take, getElem?_take, getElem?_drop, getElem?_drop]
  split
  · exact getElem?_put inside value (by omega)
  · rfl

end Bytes
