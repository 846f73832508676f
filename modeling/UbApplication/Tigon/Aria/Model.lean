import Mathlib.Logic.Function.Basic
import UbApplication.Lib.BitField
import UbApplication.Lib.Machine

/-!
# Aria batches

The transactions of a batch are executed on one snapshot of the database. Each then reserves the
keys that it has read and those that it will write: one word for each key keeps the smallest reading
and the smallest writing transaction of the epoch. When all reservations have been made the
transactions look for conflicts with smaller ones in these words, and those that survive apply their
writes. A reservation is a loop of a load and a compare-and-exchange, and it may be made by any
worker at any time: the keys of other hosts are reserved and checked by messages.
-/

namespace UbApplication.Tigon.Aria

/-- A metadata word: epoch (24 bits), smallest reader (20) and smallest writer (20). -/
abbrev Word : Type := BitVec 64

def getEpoch (value : Word) : Nat := BitField.get 40 24 value

def setEpoch (value : Word) (epoch : Nat) : Word := BitField.set 40 24 value epoch

def getRts (value : Word) : Nat := BitField.get 20 20 value

def setRts (value : Word) (rts : Nat) : Word := BitField.set 20 20 value rts

def getWts (value : Word) : Nat := BitField.get 0 20 value

def setWts (value : Word) (wts : Nat) : Word := BitField.set 0 20 value wts

/-- What a reservation is for. -/
inductive Access where
  | read
  | write
deriving DecidableEq, Repr

/-- The field that a reservation is about: `get_rts` or `get_wts`. -/
def Access.stamp : Access → Word → Nat
  | .read => getRts
  | .write => getWts

/-- `set_rts` or `set_wts`. -/
def Access.setStamp : Access → Word → Nat → Word
  | .read => setRts
  | .write => setWts

/-- What the body of the reservation loop finds. -/
inductive Attempt where
  /-- `CHECK(epoch >= old_epoch)` fails. -/
  | checkFailed
  /-- A smaller transaction has reserved the key; the loop is left. -/
  | giveUp
  /-- The value that the compare-and-exchange is to store. -/
  | exchange (value : Word)
deriving DecidableEq

/-- The body of the loop of `reserve_read` and `reserve_write`. -/
def reserve (access : Access) (old : Word) (epoch tid : Nat) : Attempt :=
  if epoch < getEpoch old then .checkFailed
  else if getEpoch old < epoch then .exchange (access.setStamp (setEpoch 0 epoch) tid)
  else if access.stamp old < tid ∧ access.stamp old ≠ 0 then .giveUp
  else .exchange (access.setStamp old tid)

def reserveRead : Word → Nat → Nat → Attempt := reserve .read

def reserveWrite : Word → Nat → Nat → Attempt := reserve .write

/-- The context options that matter when snapshot isolation is off. -/
structure Options where
  /-- `aria_read_only_optmization`. -/
  readOnlyOptimization : Bool
  /-- `aria_reordering_optmization`. -/
  reorderingOptimization : Bool
deriving DecidableEq, Repr

/-- A key that has been read. -/
structure ReadKey (Key : Type) where
  key : Key
  localIndexRead : Bool
deriving DecidableEq, Repr

/-- A transaction: it reads keys, each of which may depend on what it has read before, and then has
its writes, or ends without a result (`ABORT_NORETRY`). -/
inductive Program (Key Value : Type) where
  | read (readKey : ReadKey Key) (next : Value → Program Key Value)
  | commit (writes : List (Key × Value))
  | abortNoRetry

/-- What an execution of a transaction leaves: its read set with the values, its write set, and
whether it has ended without a result. -/
structure Execution (Key Value : Type) where
  readSet : List (ReadKey Key × Value)
  writeSet : List (Key × Value)
  abortNoRetry : Bool
deriving DecidableEq

/-- A database: one value for each key. -/
abbrev Database (Key Value : Type) : Type := Key → Value

variable {Key Value : Type}

def Program.execute (db : Database Key Value) : Program Key Value → Execution Key Value
  | .read readKey next =>
    let rest := (next (db readKey.key)).execute db
    { rest with readSet := (readKey, db readKey.key) :: rest.readSet }
  | .commit writes => ⟨[], writes, false⟩
  | .abortNoRetry => ⟨[], [], true⟩

namespace Execution

def writes (e : Execution Key Value) : List Key := e.writeSet.map Prod.fst

def reads (e : Execution Key Value) : List (ReadKey Key) := e.readSet.map Prod.fst

/-- The read keys that are reserved and checked: those that are not from a local index. -/
def checkedReads (e : Execution Key Value) : List Key :=
  (e.reads.filter fun r => !r.localIndexRead).map ReadKey.key

def isReadOnly (e : Execution Key Value) : Bool := e.writes.isEmpty

/-- Neither reserved nor analyzed: read-only transactions under the optimization. -/
def exempt (e : Execution Key Value) (options : Options) : Bool :=
  options.readOnlyOptimization && e.isReadOnly

end Execution

/-- A transaction of a batch. -/
structure Txn (Key Value : Type) where
  id : Nat
  program : Program Key Value

/-- A batch: its transactions, the snapshot that they are executed on, and the words that earlier
epochs have left. -/
structure Batch (Key Value : Type) where
  txns : List (Txn Key Value)
  epoch : Nat
  snapshot : Database Key Value
  words : Key → Word
  distinct : (txns.map Txn.id).Nodup
  positive : ∀ t ∈ txns, 0 < t.id
  narrow : ∀ t ∈ txns, t.id < 2 ^ 20
  epochNarrow : epoch < 2 ^ 24
  leftOver : ∀ key, getEpoch (words key) < epoch
  /-- No key of a local index is written. The transactions call `search_local_index` on `item` and
  on `customer_name_idx` only, and write neither. -/
  readOnlyIndex : ∀ t ∈ txns, ∀ r ∈ (t.program.execute snapshot).reads, r.localIndexRead = true →
    ∀ t' ∈ txns, r.key ∉ (t'.program.execute snapshot).writes

/-- A reservation that a transaction makes. -/
structure Reservation (Key : Type) where
  tid : Nat
  key : Key
  access : Access
deriving DecidableEq

namespace Batch

def execution (b : Batch Key Value) (t : Txn Key Value) : Execution Key Value :=
  t.program.execute b.snapshot

/-- `reserve_transaction`: the reservations of a transaction. -/
def reservationsOf (b : Batch Key Value) (options : Options) (t : Txn Key Value) :
    List (Reservation Key) :=
  let e := b.execution t
  if e.abortNoRetry || e.exempt options then []
  else e.checkedReads.map (⟨t.id, ·, .read⟩) ++ e.writes.map (⟨t.id, ·, .write⟩)

def reservations (b : Batch Key Value) (options : Options) : List (Reservation Key) :=
  b.txns.flatMap (b.reservationsOf options)

end Batch

/-- Where a reservation is. -/
inductive Progress where
  | waiting
  /-- Before the compare-and-exchange. -/
  | loaded (old new : Word)
  | finished
  | failed
deriving DecidableEq

/-- The words, and where each reservation is. -/
structure Reserving (Key : Type) where
  words : Key → Word
  progress : Nat → Progress

/-- A step of a reservation, by its position. The exchange is weak and may fail without a reason. -/
inductive ReserveLabel where
  | load (index : Nat)
  | exchange (index : Nat) (spurious : Bool)
deriving DecidableEq, Repr

variable [DecidableEq Key]

namespace Reserving

def withProgress (s : Reserving Key) (index : Nat) (progress : Progress) : Reserving Key :=
  { s with progress := Function.update s.progress index progress }

/-- What follows the load of a word. -/
def afterLoad (epoch : Nat) (r : Reservation Key) (old : Word) : Progress :=
  match reserve r.access old epoch r.tid with
  | .checkFailed => .failed
  | .giveUp => .finished
  | .exchange new => .loaded old new

def step (epoch : Nat) (all : List (Reservation Key)) (s : Reserving Key) :
    ReserveLabel → Option (Reserving Key)
  | .load index =>
    match all[index]?, s.progress index with
    | some r, .waiting => some (s.withProgress index (afterLoad epoch r (s.words r.key)))
    | _, _ => none
  | .exchange index spurious =>
    match all[index]?, s.progress index with
    | some r, .loaded old new =>
      if s.words r.key = old ∧ spurious = false then
        some { s.withProgress index .finished with words := Function.update s.words r.key new }
      else some (s.withProgress index .waiting)
    | _, _ => none

end Reserving

namespace Batch

def reserving (b : Batch Key Value) : Reserving Key := ⟨b.words, fun _ => .waiting⟩

/-- All reservations of the batch have been made, in some interleaving, and have left these
words. -/
def Reserved (b : Batch Key Value) (options : Options) (words : Key → Word) : Prop :=
  ∃ labels s, Machine.run (Reserving.step b.epoch (b.reservations options)) b.reserving labels =
    some s ∧ (∀ index < (b.reservations options).length, s.progress index = .finished) ∧
    s.words = words

/-- A word names a smaller transaction. -/
def smaller (b : Batch Key Value) (access : Access) (word : Word) (tid : Nat) : Bool :=
  getEpoch word = b.epoch ∧ access.stamp word < tid ∧ access.stamp word ≠ 0

variable (b : Batch Key Value) (options : Options) (words : Key → Word) (t : Txn Key Value)

/-- `raw`, as `analyze_dependency` finds it: a smaller transaction writes what this one has read. -/
def raw : Bool :=
  !(b.execution t).exempt options &&
    (b.execution t).checkedReads.any fun key => b.smaller .write (words key) t.id

/-- `war`: a smaller transaction has read what this one writes. -/
def war : Bool :=
  !(b.execution t).exempt options &&
    (b.execution t).writes.any fun key => b.smaller .read (words key) t.id

/-- `waw`: a smaller transaction writes what this one writes. -/
def waw : Bool :=
  !(b.execution t).exempt options &&
    (b.execution t).writes.any fun key => b.smaller .write (words key) t.id

/-- `commit_transactions`: whether a transaction commits. -/
def commits : Bool :=
  if (b.execution t).abortNoRetry then false
  else if (b.execution t).exempt options then true
  else if b.waw options words t then false
  else if options.reorderingOptimization then
    !b.war options words t || !b.raw options words t
  else !b.raw options words t

def committed : List (Txn Key Value) := b.txns.filter (b.commits options words)

end Batch

/-- The commit phase: the database, and the writes that each committed transaction still has to
apply. -/
structure Writing (Key Value : Type) where
  db : Database Key Value
  pending : List (List (Key × Value))

/-- A worker applies the next write of a transaction. -/
def Writing.step (s : Writing Key Value) (index : Nat) : Option (Writing Key Value) :=
  match s.pending[index]? with
  | some ((key, value) :: rest) =>
    some ⟨Function.update s.db key value, s.pending.set index rest⟩
  | _ => none

/-- The committed transactions have applied their writes, in some interleaving. -/
def Batch.Written (b : Batch Key Value) (options : Options) (words : Key → Word)
    (db : Database Key Value) : Prop :=
  ∃ labels s, Machine.run Writing.step
    ⟨b.snapshot, (b.committed options words).map fun t => (b.execution t).writeSet⟩ labels =
      some s ∧
    (∀ rest ∈ s.pending, rest = []) ∧ s.db = db

def applyWrites (db : Database Key Value) (writes : List (Key × Value)) : Database Key Value :=
  writes.foldl (fun db write => Function.update db write.1 write.2) db

/-- Execute transactions one after the other: what each has done, and the database at the end. -/
def serial (db : Database Key Value) : List (Txn Key Value) →
    List (Execution Key Value) × Database Key Value
  | [] => ([], db)
  | t :: rest =>
    let e := t.program.execute db
    let after := serial (applyWrites db e.writeSet) rest
    (e :: after.1, after.2)

end UbApplication.Tigon.Aria
