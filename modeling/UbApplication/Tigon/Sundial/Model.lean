import Mathlib.Logic.Function.Basic
import UbApplication.Lib.Machine

/-!
# Sundial transactions on local rows

Every operation on a row is done under its latch and is one step; the steps of any number of
transactions interleave. A transaction takes write locks when it reads for update, when it deletes
and, for the other keys that it updates, at commit. A commit locks the write set, renews the leases
of the rows that it has only read, and then publishes; an abort takes its inserts back and unlocks.
A row that is missing where the code follows its address, and a check that fails, end the process.
-/

namespace UbApplication.Tigon.Sundial

/-- `std::max` of two timestamps, which are `uint64_t` and wrap around. -/
def latest (first second : BitVec 64) : BitVec 64 := if first < second then second else first

/-- `SundialMetadata` with the value of the row. -/
structure Row (V : Type) where
  value : V
  wts : BitVec 64
  rts : BitVec 64
  owner : Nat
  isValid : Bool
  inserter : Nat
deriving DecidableEq, Repr

namespace Row

variable {V : Type} (row : Row V) (transactionId : Nat)

def writeLock : Option (Row V) :=
  if row.isValid = true ∧ (row.owner = 0 ∨ row.owner = transactionId) then
    some { row with owner := transactionId }
  else none

def renewLease (wts commitTs : BitVec 64) : Option (Row V) :=
  if row.isValid = true ∧ wts = row.wts ∧ (commitTs ≤ row.rts ∨ row.owner = 0) then
    some { row with rts := latest row.rts commitTs }
  else none

/-- `update`, with its checks. -/
def update (value : V) (commitTs : BitVec 64) : Option (Row V) :=
  if row.isValid = true ∧ row.owner = transactionId then
    some { row with value := value, wts := commitTs, rts := commitTs }
  else none

/-- `unlock`, with its checks. -/
def unlock : Option (Row V) :=
  if row.isValid = true ∧ row.owner = transactionId then some { row with owner := 0 } else none

/-- `mark_tuple_as_valid`, with its check. -/
def markTupleAsValid : Option (Row V) :=
  if row.isValid = false then some { row with isValid := true } else none

end Row

/-- An entry of the read set. -/
structure ReadKey (K V : Type) where
  /-- Where the key object is, by which `update` finds the entry. -/
  address : Nat
  key : K
  value : V
  wts : BitVec 64
  rts : BitVec 64
  writeLock : Bool
  uncommitted : Bool
deriving DecidableEq, Repr

/-- An entry of the write set. -/
structure WriteKey (K V : Type) where
  address : Nat
  key : K
  value : V
  readSetPos : Nat
  writeLock : Bool
deriving DecidableEq, Repr

/-- What is left to do after a transaction has been decided. -/
inductive Action (K V : Type) where
  | markTupleAsValid (key : K)
  | remove (key : K)
  | update (key : K) (value : V)
  | unlock (key : K)
  /-- An abort takes an insert back. -/
  | discard (key : K)
deriving DecidableEq, Repr

namespace Action

variable {K V : Type}

def key : Action K V → K
  | markTupleAsValid key | remove key | update key _ | unlock key | discard key => key

/-- The row after an action; nothing when a check fails. -/
def apply (transactionId : Nat) (commitTs : BitVec 64) (row : Row V) :
    Action K V → Option (Option (Row V))
  | markTupleAsValid _ => row.markTupleAsValid.map some
  | remove _ | discard _ => some none
  | update _ value => (row.update transactionId value commitTs).map some
  | unlock _ => (row.unlock transactionId).map some

/-- The action changes what is committed. -/
def publishes : Action K V → Bool
  | markTupleAsValid _ | remove _ | update _ _ => true
  | unlock _ | discard _ => false

end Action

/-- Where a transaction is. -/
inductive Phase (K V : Type) where
  | idle
  | executing
  /-- A read for update has its lock. -/
  | fetching (address : Nat) (key : K)
  /-- A request has failed. -/
  | mustAbort
  /-- In `lock_write_set`. -/
  | locking (index : Nat)
  /-- In `validate_read_set_and_redo`. -/
  | validating (index : Nat)
  | finishing (committed : Bool) (actions : List (Action K V))
deriving DecidableEq, Repr

/-- A transaction, with the requests that have been processed. -/
structure Txn (K V : Type) where
  readSet : List (ReadKey K V)
  writeSet : List (WriteKey K V)
  insertSet : List K
  deleteSet : List K
  commitTs : BitVec 64
  phase : Phase K V
deriving DecidableEq, Repr

namespace Txn

variable {K V : Type} (txn : Txn K V)

/-- The lock of a key of the write set was taken when it was read. -/
def readLocked (w : WriteKey K V) : Bool := txn.readSet[w.readSetPos]?.any ReadKey.writeLock

/-- The version of a row is not the one that was read. -/
def outdated (w : WriteKey K V) (row : Row V) : Bool :=
  txn.readSet[w.readSetPos]?.any fun r => r.wts != row.wts

/-- The loops of `abort`. -/
def abortActions : List (Action K V) :=
  txn.insertSet.map .discard ++ txn.deleteSet.map .unlock ++
    (txn.writeSet.filter fun w => w.writeLock || txn.readLocked w).map fun w => .unlock w.key

/-- The loops of `commit` after its decision, `write_and_replicate` and `release_lock`. -/
def commitActions : List (Action K V) :=
  txn.insertSet.map .markTupleAsValid ++ txn.deleteSet.map .remove ++
    txn.writeSet.map (fun w => .update w.key w.value) ++ txn.writeSet.map fun w => .unlock w.key

def abort : Txn K V := { txn with phase := .finishing false txn.abortActions }

end Txn

/-- A change of what is committed. -/
structure Effect (K V : Type) where
  tid : Nat
  key : K
  contents : Option (V × BitVec 64)
deriving DecidableEq, Repr

/-- The rows of the tables, the transactions, the changes so far and whether the process has
ended. -/
structure State (K V : Type) where
  rows : K → Option (Row V)
  txns : Nat → Txn K V
  log : List (Effect K V)
  failed : Bool

/-- What a transaction may do next. -/
inductive Op (K V : Type) where
  | begin
  | read (address : Nat) (key : K) (forUpdate : Bool)
  /-- The read of a read for update. -/
  | fetch
  | update (address : Nat) (value : V)
  | insert (key : K) (value : V)
  | delete (key : K)
  | commit
  | abort
  /-- The next iteration of `lock_write_set`. -/
  | lock
  /-- The next iteration of `validate_read_set_and_redo`. -/
  | validate
  /-- The next action of `commit` or `abort`. -/
  | act
deriving DecidableEq, Repr

namespace State

variable {K V : Type} [DecidableEq K] (s : State K V) (t : Nat) (txn : Txn K V)

/-- The rows at the start, all committed at time zero. -/
def initial (start : K → Option V) : State K V where
  rows key := (start key).map fun value => ⟨value, 0, 0, 0, true, 0⟩
  txns _ := ⟨[], [], [], [], 0, .idle⟩
  log := []
  failed := false

def withTxn : State K V := { s with txns := Function.update s.txns t txn }

def withRow (key : K) (row : Option (Row V)) : State K V :=
  { s with rows := Function.update s.rows key row, txns := Function.update s.txns t txn }

/-- Go on with a row that is there; following the address of one that is not ends the process. -/
def onRow (key : K) (next : Row V → State K V) : State K V :=
  match s.rows key with
  | none => { s with failed := true }
  | some row => next row

/-- `read` of a row into the read set. -/
def readRow (address : Nat) (key : K) (writeLock : Bool) : State K V :=
  s.onRow key fun row => s.withTxn t { txn with
    readSet := txn.readSet ++ [⟨address, key, row.value, row.wts, row.rts, writeLock,
      !row.isValid && row.inserter != t⟩]
    phase := .executing }

/-- `readRequestHandler` up to its first operation on the row. -/
def read (address : Nat) (key : K) : Bool → State K V
  | false => s.readRow t txn address key false
  | true => s.onRow key fun row =>
    match row.writeLock t with
    | none => s.withTxn t { txn with phase := .mustAbort }
    | some locked => s.withRow t { txn with phase := .fetching address key } key (some locked)

/-- `update` of a transaction, for a key that has been read. -/
def update (address : Nat) (value : V) : Option (State K V) := do
  let pos ← txn.readSet.findIdx? fun r => r.address = address
  let r ← txn.readSet[pos]?
  return s.withTxn t { txn with writeSet := txn.writeSet ++ [⟨address, r.key, value, pos, false⟩] }

/-- `insertRequestHandler`: a placeholder, unless the key is there. -/
def insert (key : K) (value : V) : State K V :=
  match s.rows key with
  | some _ => s.withTxn t { txn with phase := .mustAbort }
  | none => s.withRow t { txn with insertSet := txn.insertSet ++ [key] } key
      (some ⟨value, 0, 0, 0, false, t⟩)

/-- `deleteRequestHandler`. -/
def delete (key : K) : State K V :=
  match (s.rows key).bind fun row => row.writeLock t with
  | none => s.withTxn t { txn with phase := .mustAbort }
  | some locked => s.withRow t { txn with deleteSet := txn.deleteSet ++ [key] } key (some locked)

/-- An iteration of `lock_write_set`. -/
def lock (index : Nat) : State K V :=
  match txn.writeSet[index]? with
  | none => s.withTxn t { txn with phase := .validating 0 }
  | some w =>
    let locked rts : Txn K V := { txn with
      writeSet := txn.writeSet.set index { w with writeLock := true }
      commitTs := latest txn.commitTs (rts + 1)
      phase := .locking (index + 1) }
    match txn.readSet[w.readSetPos]?.filter ReadKey.writeLock with
    | some r => s.withTxn t (locked r.rts)
    | none => s.onRow w.key fun row =>
      match row.writeLock t with
      | none => s.withTxn t txn.abort
      | some owned =>
        -- an outdated row stays locked, and the write set does not say so
        if txn.outdated w row then s.withRow t txn.abort w.key (some owned)
        else s.withRow t (locked row.rts) w.key (some owned)

/-- An iteration of `validate_read_set_and_redo`. -/
def validate (index : Nat) : State K V :=
  let next : Txn K V := { txn with phase := .validating (index + 1) }
  match txn.readSet[index]? with
  | none => s.withTxn t { txn with phase := .finishing true txn.commitActions }
  | some r =>
    if txn.writeSet.any (fun w => w.address = r.address) ∨
      txn.commitTs ≤ r.rts then s.withTxn t next
    else s.onRow r.key fun row =>
      match row.renewLease r.wts txn.commitTs with
      | none => s.withTxn t txn.abort
      | some renewed => s.withRow t next r.key (some renewed)

/-- An action of `commit` or `abort`. -/
def act (committed : Bool) (action : Action K V) (rest : List (Action K V)) : State K V :=
  s.onRow action.key fun row =>
    match action.apply t txn.commitTs row with
    | none => { s with failed := true }
    | some after =>
      { s.withRow t { txn with phase := .finishing committed rest } action.key after with
        log := s.log ++ if action.publishes then
          [⟨t, action.key, after.map fun row => (row.value, row.wts)⟩] else [] }

def step (s : State K V) : Nat × Op K V → Option (State K V)
  | (t, op) =>
    let txn := s.txns t
    if s.failed ∨ t = 0 then none else
    match op, txn.phase with
    | .begin, .idle => some (s.withTxn t { txn with phase := .executing })
    | .read address key forUpdate, .executing => some (s.read t txn address key forUpdate)
    | .fetch, .fetching address key => some (s.readRow t txn address key true)
    | .update address value, .executing => s.update t txn address value
    | .insert key value, .executing => some (s.insert t txn key value)
    | .delete key, .executing => some (s.delete t txn key)
    | .commit, .executing => some (s.withTxn t { txn with phase := .locking 0 })
    | .abort, .executing | .abort, .mustAbort => some (s.withTxn t txn.abort)
    | .lock, .locking index => some (s.lock t txn index)
    | .validate, .validating index => some (s.validate t txn index)
    | .act, .finishing committed (action :: rest) => some (s.act t txn committed action rest)
    | _, _ => none

end State

end UbApplication.Tigon.Sundial
