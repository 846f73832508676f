import Mathlib.Data.Nat.Notation

/-!
# Shared tuple headers

`UBSharedRWLock` is one 64-bit word: bit 63 is the writer, the low 32 bits count the
readers. Requesters on any machine operate on the word directly. A tuple header is the
lock word, the version and the visibility state of the tuple behind it.
-/

namespace UbApplication.Tigon

/-- A word of memory shared by all machines, kept below `2 ^ 64` by every operation. -/
abbrev Word := Nat

def writerBit : Word := 0x8000000000000000

def readerMask : Word := 0xffffffff

/-- Bit 63 of a lock word. -/
def writeLocked (word : Word) : Bool := word / writerBit % 2 = 1

/-- The low 32 bits of a lock word. -/
def readerCount (word : Word) : Word := word % (readerMask + 1)

/-- The word a shared locker tries to install over the word it observed; nothing when it
gives up. -/
def sharedLockOf (observed : Word) : Option Word :=
  if writeLocked observed then none
  else if readerCount observed = readerMask then none
  else some (observed + 1)

/-- The word a shared unlocker tries to install over the word it observed. -/
def sharedUnlockOf (observed : Word) : Except String Word :=
  if writeLocked observed || readerCount observed = 0 then
    .error "invalid UB shared-lock release"
  else .ok (observed - 1)

/-- `try_lock_shared` without interference: whether it succeeds, and the word after it. -/
def tryLockShared (word : Word) : Bool × Word :=
  match sharedLockOf word with
  | some locked => (true, locked)
  | none => (false, word)

/-- `try_lock`: one compare-exchange from the unlocked word. -/
def tryLock (word : Word) : Bool × Word :=
  if word = 0 then (true, writerBit) else (false, word)

/-- `unlock`: one compare-exchange from the writer's word. -/
def unlock (word : Word) : Except String Word :=
  if word = writerBit then .ok 0 else .error "invalid UB write-lock release"

/-- A writer leaves. -/
@[simp] theorem unlock_writerBit : unlock writerBit = .ok 0 := rfl

/-- A free word. -/
@[simp] theorem tryLock_zero : tryLock 0 = (true, writerBit) := rfl

/-- Only a free word is locked. -/
theorem tryLock_succeeds (word : Word) : (tryLock word).1 = true ↔ word = 0 := by
  unfold tryLock
  split <;> simp_all

/-- Not with a writer. -/
@[simp] theorem sharedLockOf_writerBit : sharedLockOf writerBit = none := rfl

/-! ## Who holds a lock -/

/-- The lock word says that so many readers and writers hold the lock: any number of readers
up to the mask, or one writer. -/
def HeldBy (word : Word) (readers writers : Nat) : Prop :=
  (writers = 0 ∧ word = readers ∧ readers ≤ readerMask) ∨
    (writers = 1 ∧ readers = 0 ∧ word = writerBit)

namespace HeldBy

variable {word locked : Word} {readers writers : Nat}

/-- Nobody holds the zero word. -/
theorem zero : HeldBy 0 0 0 := .inl ⟨rfl, rfl, by simp [readerMask]⟩

/-- Held by nobody. -/
theorem word_eq_zero (held : HeldBy word 0 0) : word = 0 := by
  rcases held with ⟨-, same, -⟩ | ⟨writer, -, -⟩
  · exact same
  · omega

/-- The word that parties leave. -/
theorem unique {other : Word} (held : HeldBy word readers writers)
    (again : HeldBy other readers writers) : word = other := by
  rcases held with ⟨none, same, -⟩ | ⟨one, -, same⟩ <;>
    rcases again with ⟨none', same', -⟩ | ⟨one', -, same'⟩
  · exact same.trans same'.symm
  · omega
  · omega
  · exact same.trans same'.symm

/-- A writer is alone. -/
theorem exclusive (held : HeldBy word readers writers) :
    writers ≤ 1 ∧ (0 < writers → readers = 0) := by
  rcases held with ⟨rfl, -, -⟩ | ⟨rfl, rfl, -⟩
  · exact ⟨by omega, by omega⟩
  · exact ⟨by omega, fun _ => rfl⟩

/-- A word of readers. -/
theorem readers_word (small : readers ≤ readerMask) :
    writeLocked readers = false ∧ readerCount readers = readers := by
  have below : readers < readerMask + 1 := Nat.lt_succ_of_le small
  have bound : readers < writerBit := Nat.lt_of_lt_of_le below (by decide)
  constructor
  · simp [writeLocked, Nat.div_eq_of_lt bound]
  · exact Nat.mod_eq_of_lt below

/-- A writer comes in. -/
theorem tryLock (held : HeldBy word readers writers) (taken : Tigon.tryLock word = (true, locked)) :
    HeldBy locked readers (writers + 1) := by
  have free : word = 0 := (tryLock_succeeds word).mp (by rw [taken])
  subst free
  rcases held with ⟨rfl, same, -⟩ | ⟨-, -, set⟩
  · obtain rfl : writerBit = locked := by simpa using taken
    exact .inr ⟨rfl, same.symm, rfl⟩
  · simp [writerBit] at set

/-- A reader comes in. -/
theorem tryLockShared (held : HeldBy word readers writers)
    (taken : Tigon.tryLockShared word = (true, locked)) :
    HeldBy locked (readers + 1) writers := by
  rcases held with ⟨rfl, rfl, small⟩ | ⟨-, -, rfl⟩
  · have plain := readers_word small
    simp only [Tigon.tryLockShared, sharedLockOf, plain.1, plain.2] at taken
    by_cases full : word = readerMask
    · simp [full] at taken
    · obtain rfl : word + 1 = locked := by simpa [full] using taken
      exact .inl ⟨rfl, rfl, Nat.lt_of_le_of_ne small full⟩
  · simp [Tigon.tryLockShared] at taken

/-- A writer leaves. -/
theorem unlock (held : HeldBy word readers (writers + 1)) :
    ∃ free, Tigon.unlock word = .ok free ∧ HeldBy free readers writers := by
  rcases held with ⟨none, -, -⟩ | ⟨one, rfl, rfl⟩
  · omega
  · obtain rfl : writers = 0 := by omega
    exact ⟨0, rfl, zero⟩

/-- A reader leaves. -/
theorem unlockShared (held : HeldBy word (readers + 1) writers) :
    ∃ free, sharedUnlockOf word = .ok free ∧ HeldBy free readers writers := by
  rcases held with ⟨rfl, rfl, small⟩ | ⟨-, none, -⟩
  · have plain := readers_word small
    refine ⟨readers, ?_, .inl ⟨rfl, rfl, by omega⟩⟩
    simp [sharedUnlockOf, plain.1, plain.2]
  · omega

end HeldBy

/-- `UBTupleHeader::valid`: 0, 1 and 2. -/
inductive TupleState where
  /-- The tuple was erased or its placeholder discarded. -/
  | tombstone
  /-- The tuple is visible to searches. -/
  | visible
  /-- The tuple reserves a key for a transaction that has not committed. -/
  | placeholder
  deriving DecidableEq, Repr

/-- `UBTupleHeader`. -/
structure TupleHeader where
  lock : Word
  version : Nat
  valid : TupleState
  deriving DecidableEq, Repr

end UbApplication.Tigon
