import Mathlib.Algebra.Group.Nat.Defs

/-!
# Where the value of a row is

A row is in a node of a hash table or of a B+ tree. Both nodes have a tuple header; key and value
follow it, packed in the one and as the compiler lays them out in the other. A remote transaction
knows the header, and `value_from_header` gives it the value, whichever node the header is in.
-/

namespace UbApplication.Tigon.RowLayout

/-- The size and the alignment of a type. -/
structure CType where
  size : Nat
  align : Nat
  positive : 0 < align
  whole : align ∣ size

/-- The next offset that an alignment allows. -/
def alignUp (offset align : Nat) : Nat := (offset + align - 1) / align * align

/-- The two kinds of `TupleNode`. -/
inductive Table where
  | hash
  | tree
  deriving DecidableEq

/-- `sizeof(UBTupleHeader)`, which is also its alignment. -/
def headerSize : Nat := 64

/-- `offsetof(TupleNode, tuple)`: two words precede the header in a hash table, one in a tree. -/
def tupleOffset : Table → Nat
  | .hash => alignUp (8 + 8) headerSize
  | .tree => alignUp 8 headerSize

/-- `offsetof(TupleNode, bytes)` of the hash table. -/
def bytesOffset : Nat := alignUp (tupleOffset .hash + headerSize) 1

structure Row where
  table : Table
  key : CType
  value : CType
  /-- Where the node is. -/
  node : Nat

namespace Row

variable (row : Row)

/-- The `key_size` of the header and of the descriptor, a `uint32_t`. -/
def keySize : Nat := row.key.size % 2 ^ 32

def header : Nat := row.node + tupleOffset row.table

/-- Where the table has the value: `make_ref`. -/
def valueAddress : Nat :=
  row.node + match row.table with
    | .hash => bytesOffset + row.keySize
    | .tree => alignUp (alignUp (tupleOffset .tree + headerSize) row.key.align + row.key.size)
        row.value.align

end Row

def valueFromHeader (header keySize : Nat) : Nat :=
  header - tupleOffset .hash + bytesOffset + keySize

abbrev Memory := Nat → UInt8

def load (memory : Memory) (address size : Nat) : List UInt8 :=
  (List.range size).map fun i => memory (address + i)

def store (memory : Memory) (address : Nat) (bytes : List UInt8) : Memory := fun place =>
  if address ≤ place then bytes[place - address]?.getD (memory place) else memory place

/-- The copy of `remote_take_write_lock_and_read` and of the read under a read lock. -/
def remoteRead (memory : Memory) (row : Row) : List UInt8 :=
  load memory (valueFromHeader row.header row.keySize) row.value.size

/-- The copy of `remote_update`. -/
def remoteUpdate (memory : Memory) (row : Row) (bytes : List UInt8) : Memory :=
  store memory (valueFromHeader row.header row.keySize) bytes

/-- What was stored is loaded. -/
theorem load_store (memory : Memory) (address : Nat) (bytes : List UInt8) :
    load (store memory address bytes) address bytes.length = bytes := by
  apply List.ext_getElem (by simp [load])
  intro i _ inside
  simp [load, store, inside]

/-- The bytes beside stay. -/
theorem store_apart {memory : Memory} {address place : Nat} {bytes : List UInt8}
    (apart : place < address ∨ address + bytes.length ≤ place) :
    store memory address bytes place = memory place := by
  unfold store
  split
  case isTrue after => rw [List.getElem?_eq_none (by omega), Option.getD_none]
  case isFalse => rfl

/-- The next offset is not before the offset. -/
theorem le_alignUp {align : Nat} (positive : 0 < align) (offset : Nat) :
    offset ≤ alignUp offset align := by
  have rest := Nat.mod_lt (offset + align - 1) positive
  have parts := Nat.div_add_mod (offset + align - 1) align
  rw [alignUp, Nat.mul_comm]
  omega

/-- An offset is its own next one exactly when the alignment allows it. -/
theorem alignUp_eq_iff {offset align : Nat} (positive : 0 < align) :
    alignUp offset align = offset ↔ align ∣ offset := by
  constructor
  · intro same
    rw [← same]
    exact Nat.dvd_mul_left align _
  · rintro ⟨count, rfl⟩
    have rounded : (align * count + align - 1) / align = count :=
      Nat.div_eq_of_lt_le (by rw [Nat.mul_comm]; omega) (by rw [Nat.add_mul, Nat.mul_comm]; omega)
    rw [alignUp, rounded, Nat.mul_comm]

/-- The compiler puts nothing between header, key and value, or the table packs them itself. -/
def Row.Packed (row : Row) : Prop :=
  row.table = .tree → row.key.align ∣ 128 ∧ row.value.align ∣ 128 + row.key.size ∧
    row.key.size < 2 ^ 32

instance (row : Row) : Decidable row.Packed := inferInstanceAs (Decidable (_ → _))

/-- The header leads to the value exactly when the node has no padding. -/
theorem Row.valueFromHeader_eq_iff (row : Row) :
    valueFromHeader row.header row.keySize = row.valueAddress ↔ row.Packed := by
  obtain ⟨table, key, value, node⟩ := row
  cases table with
  | hash => simp [valueFromHeader, header, valueAddress, Nat.add_assoc, Packed]
  | tree =>
    have before := le_alignUp key.positive 128
    have after := le_alignUp value.positive (alignUp 128 key.align + key.size)
    have short := Nat.mod_le key.size (2 ^ 32)
    show node + 64 - 64 + 128 + key.size % 2 ^ 32 =
      node + alignUp (alignUp 128 key.align + key.size) value.align ↔ _
    constructor
    · -- Rounding up never takes away, so equal sums leave no room for padding.
      intro same _
      have first : alignUp 128 key.align = 128 := by omega
      rw [first] at same after
      have second : alignUp (128 + key.size) value.align = 128 + key.size := by omega
      have size : key.size % 2 ^ 32 = key.size := by omega
      exact ⟨(alignUp_eq_iff key.positive).mp first, (alignUp_eq_iff value.positive).mp second,
        size ▸ Nat.mod_lt _ (by decide)⟩
    · intro packed
      obtain ⟨divides, whole, small⟩ := packed rfl
      rw [(alignUp_eq_iff key.positive).mpr divides, (alignUp_eq_iff value.positive).mpr whole,
        Nat.mod_eq_of_lt small]
      omega

/-- A remote transaction finds the value of a row, reads it as it is and changes nothing else. -/
structure Row.Addressed (row : Row) : Prop where
  address : valueFromHeader row.header row.keySize = row.valueAddress
  read : ∀ memory, remoteRead memory row = load memory row.valueAddress row.value.size
  update : ∀ memory bytes, bytes.length = row.value.size →
    load (remoteUpdate memory row bytes) row.valueAddress row.value.size = bytes ∧
    ∀ place, place < row.valueAddress ∨ row.valueAddress + row.value.size ≤ place →
      remoteUpdate memory row bytes place = memory place

/-- Remote reads return and remote updates change exactly the value of a row if and only if its node
has no padding. -/
theorem remote_rows_addressed (row : Row) : row.Addressed ↔ row.Packed := by
  constructor
  · intro addressed
    exact row.valueFromHeader_eq_iff.mp addressed.address
  · intro packed
    have same := row.valueFromHeader_eq_iff.mpr packed
    refine ⟨same, fun memory => by rw [remoteRead, same], fun memory bytes length => ?_⟩
    rw [remoteUpdate, same, ← length]
    exact ⟨load_store .., fun place => store_apart⟩

/-- A row of the warehouse table of TPC-C: an `int32_t`, and a value of characters and `float`s. -/
def warehouse : Row where
  table := .tree
  key := ⟨4, 4, by decide, by decide⟩
  value := ⟨96, 4, by decide, by decide⟩
  node := 4096

/-- The warehouse rows are packed. -/
theorem remote_rows_addressed_warehouse :
    warehouse.Packed ∧ remoteRead UInt8.ofNat warehouse = load UInt8.ofNat 4228 96 := by
  have packed : warehouse.Packed := fun _ => by decide
  exact ⟨packed, ((remote_rows_addressed warehouse).mpr packed).read UInt8.ofNat⟩

/-- A row of the customer table: three `int32_t`, and a value that holds a `uint64_t`. -/
def customer : Row where
  table := .tree
  key := ⟨12, 4, by decide, by decide⟩
  value := ⟨680, 8, by decide, by decide⟩
  node := 4096

/-- Four bytes follow the key of a customer. A remote read begins with them and a remote update
writes to them. -/
theorem remote_rows_misaddressed :
    valueFromHeader customer.header customer.keySize = 4236 ∧ customer.valueAddress = 4240 ∧
    (remoteRead (store (fun _ => 0) 4240 (List.replicate 680 1)) customer).head? = some 0 ∧
    remoteUpdate (fun _ => 0) customer (List.replicate 680 1) 4236 = 1 := by
  decide +kernel

end UbApplication.Tigon.RowLayout
