import Mathlib.Data.Nat.Bits

/-!
# Translation tables of four levels

Walks of the stage 1 translation tables of the AArch64 architecture, with a granule of 4 KiB and
virtual addresses of 48 bits. A table is a page of 512 descriptors. Tables restrict what the
tables below them allow.
-/

namespace Translation

/-- Physical memory as pages of descriptors, by the address of the page. -/
abbrev Tables := BitVec 64 → Nat → BitVec 64

/-- The bits of a descriptor that hold an address. -/
def addressMask : BitVec 64 := 0x0000fffffffff000

/-- The place of an address in the tables of a level. -/
def indexAt (level address : Nat) : Nat := (address >>> (39 - 9 * level)) &&& 511

/-- A bit of a descriptor. -/
def flag (descriptor : BitVec 64) (bit : Nat) : Bool := descriptor &&& (1 <<< bit) != 0

/-- What the tables on the way to a descriptor take away. -/
structure Limits where
  /-- Unprivileged code has no access. -/
  noUser : Bool
  readOnly : Bool
  /-- Unprivileged code does not execute. -/
  userNever : Bool
  /-- Privileged code does not execute. -/
  privilegedNever : Bool
  deriving DecidableEq, Repr

/-- Nothing is taken away. -/
def Limits.nothing : Limits := ⟨false, false, false, false⟩

/-- A table descriptor takes away what its upper bits say. -/
def Limits.below (limits : Limits) (descriptor : BitVec 64) : Limits where
  noUser := limits.noUser || flag descriptor 61
  readOnly := limits.readOnly || flag descriptor 62
  userNever := limits.userNever || flag descriptor 60
  privilegedNever := limits.privilegedNever || flag descriptor 59

/-- Where an address leads, and what may be done there. -/
structure Mapping where
  /-- The level of the descriptor; 3 for a page, less for a block. -/
  level : Nat
  page : BitVec 64
  /-- The index of the memory attributes. -/
  memory : BitVec 64
  /-- Unprivileged code has access. -/
  user : Bool
  readOnly : Bool
  /-- The access flag, without which an access faults. -/
  accessed : Bool
  /-- Unprivileged code does not execute. -/
  userNever : Bool
  /-- Privileged code does not execute. -/
  privilegedNever : Bool
  deriving DecidableEq, Repr

/-- What a page or block descriptor says. -/
def mappingOf (level : Nat) (descriptor : BitVec 64) (limits : Limits) : Mapping where
  level := level
  page := descriptor &&& addressMask
  memory := (descriptor >>> 2) &&& 7
  user := flag descriptor 6 && !limits.noUser
  readOnly := flag descriptor 7 || limits.readOnly
  accessed := flag descriptor 10
  userNever := flag descriptor 54 || limits.userNever
  privilegedNever := flag descriptor 53 || limits.privilegedNever

/-- The walk from a table on, with the number of levels below it. -/
def walkFrom (tables : Tables) (address : Nat) : Nat → BitVec 64 → Limits → Option Mapping
  | 0, table, limits =>
    let descriptor := tables table (indexAt 3 address)
    if descriptor &&& 3 = 3 then some (mappingOf 3 descriptor limits) else none
  | below + 1, table, limits =>
    let level := 2 - below
    let descriptor := tables table (indexAt level address)
    if descriptor &&& 3 = 3 then
      walkFrom tables address below (descriptor &&& addressMask) (limits.below descriptor)
    else if descriptor &&& 3 = 1 ∧ level ≠ 0 then some (mappingOf level descriptor limits)
    else none

/-- The walk from the root: `none` when the address is not mapped. -/
def walk (tables : Tables) (root : BitVec 64) (address : Nat) : Option Mapping :=
  walkFrom tables address 3 root .nothing

/-- A page address has no other bits than those of the address. -/
def PageAddress (page : BitVec 64) : Prop := page &&& ~~~addressMask = 0

instance (page : BitVec 64) : Decidable (PageAddress page) :=
  inferInstanceAs (Decidable (_ = _))

section Descriptors

variable {page attributes : BitVec 64} {tables : Tables} {address below : Nat} {table : BitVec 64}
  {limits : Limits}

section

variable (aligned : PageAddress page)
include aligned

/-- The bits of a page address within the address. -/
theorem PageAddress.masked : page &&& addressMask = page := by
  have whole : addressMask ||| ~~~addressMask = BitVec.allOnes 64 := by decide
  have split : page &&& (addressMask ||| ~~~addressMask) =
      page &&& addressMask ||| page &&& ~~~addressMask := BitVec.and_or_distrib_left
  rw [whole, BitVec.and_allOnes, show page &&& ~~~addressMask = 0 from aligned] at split
  rw [show page &&& addressMask = page &&& addressMask ||| 0 from BitVec.or_zero.symm, ← split]

/-- A page address has no bits elsewhere. -/
theorem PageAddress.elsewhere {mask : BitVec 64} (apart : mask &&& addressMask = 0) :
    page &&& mask = 0 := by
  rw [← aligned.masked, BitVec.and_assoc, BitVec.and_comm addressMask, apart]
  exact BitVec.and_zero

/-- The address in a descriptor made of an address and attributes. -/
theorem PageAddress.descriptor_address
    (apart : attributes &&& addressMask = 0) : (page ||| attributes) &&& addressMask = page := by
  rw [BitVec.and_or_distrib_right, aligned.masked, apart]
  exact BitVec.or_zero

/-- The attributes in a descriptor made of an address and attributes. -/
theorem PageAddress.descriptor_bits {mask : BitVec 64}
    (apart : mask &&& addressMask = 0) : (page ||| attributes) &&& mask = attributes &&& mask := by
  rw [BitVec.and_or_distrib_right, aligned.elsewhere apart]
  exact BitVec.zero_or

/-- A flag in a descriptor made of an address and attributes. -/
theorem PageAddress.descriptor_flag {bit : Nat}
    (apart : (1 <<< bit : BitVec 64) &&& addressMask = 0) :
    flag (page ||| attributes) bit = flag attributes bit := by
  rw [flag, aligned.descriptor_bits apart, flag]

/-- A table descriptor without restrictions leads to the next table. -/
theorem walkFrom_table (found : tables table (indexAt (2 - below) address) = page ||| 3) :
    walkFrom tables address (below + 1) table limits =
      walkFrom tables address below page limits := by
  have kind : (page ||| 3) &&& 3 = 3 := by
    rw [aligned.descriptor_bits (by decide)]
    decide
  have next : (page ||| 3) &&& addressMask = page := aligned.descriptor_address (by decide)
  have same : limits.below (page ||| 3) = limits := by
    simp only [Limits.below, aligned.descriptor_flag (show (1 <<< 61 : BitVec 64) &&& _ = 0 by
      decide), aligned.descriptor_flag (show (1 <<< 62 : BitVec 64) &&& _ = 0 by decide),
      aligned.descriptor_flag (show (1 <<< 60 : BitVec 64) &&& _ = 0 by decide),
      aligned.descriptor_flag (show (1 <<< 59 : BitVec 64) &&& _ = 0 by decide)]
    simp [flag]
  simp only [walkFrom, found, kind, if_true, next, same]

end

/-- A page descriptor ends the walk with its page. -/
theorem walkFrom_page (aligned : PageAddress page)
    (found : tables table (indexAt 3 address) = page ||| attributes)
    (apart : attributes &&& addressMask = 0) (kind : attributes &&& 3 = 3) :
    walkFrom tables address 0 table .nothing =
      some { mappingOf 3 attributes .nothing with page := page } := by
  have bits : (page ||| attributes) &&& 3 = 3 := by rw [aligned.descriptor_bits (by decide), kind]
  have memory : ((page ||| attributes) >>> 2) &&& (7 : BitVec 64) = (attributes >>> 2) &&& 7 := by
    have shifted (word : BitVec 64) : (word >>> 2) &&& (7 : BitVec 64) = (word &&& 28) >>> 2 := by
      rw [BitVec.ushiftRight_and_distrib]
      rfl
    rw [shifted, shifted, aligned.descriptor_bits (by decide)]
  simp only [walkFrom, found, bits, if_true, mappingOf, memory, aligned.descriptor_address apart,
    aligned.descriptor_flag (show (1 <<< 6 : BitVec 64) &&& _ = 0 by decide),
    aligned.descriptor_flag (show (1 <<< 7 : BitVec 64) &&& _ = 0 by decide),
    aligned.descriptor_flag (show (1 <<< 10 : BitVec 64) &&& _ = 0 by decide),
    aligned.descriptor_flag (show (1 <<< 53 : BitVec 64) &&& _ = 0 by decide),
    aligned.descriptor_flag (show (1 <<< 54 : BitVec 64) &&& _ = 0 by decide)]

end Descriptors

/-- The place of an address at a level is a remainder. -/
theorem indexAt_eq (level address : Nat) :
    indexAt level address = (address >>> (39 - 9 * level)) % 512 :=
  Nat.and_two_pow_sub_one_eq_mod _ 9

/-- An index is within a table. -/
theorem indexAt_lt (level address : Nat) : indexAt level address < 512 := by
  rw [indexAt_eq]
  exact Nat.mod_lt _ (by decide)

end Translation
