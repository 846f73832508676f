import UbApplication.Tigon.BPlusTree.Scan
import UbApplication.Tigon.RowLayout

/-!
# Transactions on the UB backend

`TwoPLPasha` runs transactions under two-phase locking with next-key locking (phantom
detection on, replicated updates off). A transaction collects requests in four sets.
`process_requests` asks the handlers of the executor for the locks and puts the
placeholders of inserts into the trees; `commit` and `abort` then walk over the sets.

A handler call is one step: a tree call runs under the tree latch, and a lock taken on a
tuple that turns out not to be visible is given back before the handler returns. `commit`
and `abort` are lists of steps that other transactions may come between. Logging, statistics
and the counting of messages are left out.
-/

namespace UbApplication.Tigon.TwoPLPasha

open BPlusTree

/-! ## Locks on tuples -/

/-- The two ways a tuple is locked. -/
inductive LockMode where
  | shared
  | exclusive
  deriving DecidableEq, Repr

/-- `TwoPLPashaHelper::read_lock` on a UB tuple: the version when the lock is taken. The lock
of a tuple that is not visible is given back. -/
def readLock (header : TupleHeader) : Option Nat × TupleHeader :=
  match tryLockShared header.lock with
  | (false, _) => (none, header)
  | (true, locked) =>
    if header.valid ≠ .visible then
      (none, { header with lock := (sharedUnlockOf locked).toOption.getD locked })
    else (some header.version, { header with lock := locked })

/-- `TwoPLPashaHelper::write_lock` on a UB tuple. -/
def writeLock (header : TupleHeader) : Option Nat × TupleHeader :=
  match tryLock header.lock with
  | (false, _) => (none, header)
  | (true, locked) =>
    if header.valid ≠ .visible then
      (none, { header with lock := (unlock locked).toOption.getD locked })
    else (some header.version, { header with lock := locked })

/-- `read_lock_release` and `write_lock_release` on a UB tuple; the second may store a new
version before it unlocks. -/
def releaseLock (mode : LockMode) (version : Option Nat) (header : TupleHeader) :
    Except String TupleHeader :=
  match mode with
  | .shared => (sharedUnlockOf header.lock).map fun word => { header with lock := word }
  | .exclusive => (unlock header.lock).map fun word =>
    { header with lock := word, version := version.getD header.version }

/-- `modify_tuple_valid_bit` on a UB tuple. -/
def modifyTupleValidBit (isValid : Bool) (header : TupleHeader) : TupleHeader :=
  { header with
    valid := if isValid then .visible else .tombstone
    version := header.version + 1 }

def generateEpochVersion (curEpochVersion curGlobalEpoch : Nat) : Nat :=
  if curGlobalEpoch > curEpochVersion / 0x100000000 then
    curGlobalEpoch * 0x100000000 % 0x10000000000000000
  else (curEpochVersion + 1) % 0x10000000000000000

section Tuples

variable {K V : Type}

def setHeader (tuples : Tuples K V) (offset : Offset) (header : TupleHeader) : Tuples K V :=
  Function.update tuples offset { tuples offset with header }

def lockTuple (mode : LockMode) (offset : Offset) (tuples : Tuples K V) :
    Option Nat × Tuples K V :=
  match (match mode with
    | .shared => readLock (tuples offset).header
    | .exclusive => writeLock (tuples offset).header) with
  | (version, header) => (version, setHeader tuples offset header)

end Tuples

/-! ## Requests -/

/-- How a point request reads. -/
inductive ReadType where
  /-- `search_local_index`: without a lock. -/
  | localIndex
  /-- `search_for_read`. -/
  | forRead
  /-- `search_for_update`. -/
  | forUpdate
  deriving DecidableEq, Repr

/-- The range query types of `TwoPLPashaRWKey`. -/
inductive ScanType where
  /-- `SCAN_FOR_READ`. -/
  | forRead
  /-- `SCAN_FOR_UPDATE`. -/
  | forUpdate
  /-- `SCAN_FOR_INSERT`. -/
  | forInsert
  /-- `SCAN_FOR_DELETE`. -/
  | forDelete
  deriving DecidableEq, Repr

/-- Scans for reading share their rows, all others write. -/
def ScanType.mode : ScanType → LockMode
  | .forRead => .shared
  | _ => .exclusive

/-- `ITable::row_entity`: a key and its tuple. -/
abbrev RowEntity (K : Type) := LeafEntry K

/-- A lock on a tuple of a table. -/
structure Hold (Table : Type) where
  mode : LockMode
  table : Table
  offset : Offset
  deriving DecidableEq, Repr

variable {Table K V : Type}

/-- An entry of `readSet`. -/
structure ReadKey (Table K V : Type) where
  table : Table
  key : K
  type : ReadType
  value : V
  tid : Nat
  /-- `cached_local_row`; zero is null. -/
  cachedLocalRow : Offset
  /-- `cached_migrated_row`; zero is null. -/
  cachedMigratedRow : Offset
  readLockBit : Bool
  writeLockBit : Bool
  processed : Bool

/-- An entry of `scanSet`. -/
structure ScanKey (Table K : Type) where
  table : Table
  minKey : K
  maxKey : K
  limit : Nat
  type : ScanType
  /-- `scan_res_vec`: the rows locked so far. -/
  results : List (RowEntity K)
  nextRow : Offset
  nextRowLocked : Bool
  processed : Bool

/-- An entry of `insertSet`. -/
structure InsertKey (Table K V : Type) where
  table : Table
  key : K
  value : V
  /-- `require_lock_next_row`. -/
  requireLockNextKey : Bool
  nextRow : Offset
  nextRowLocked : Bool
  processed : Bool

/-- An entry of `deleteSet`. -/
structure DeleteKey (Table K : Type) where
  table : Table
  key : K
  processed : Bool

/-- What a transaction keeps. -/
structure Txn (Table K V : Type) where
  readSet : List (ReadKey Table K V)
  scanSet : List (ScanKey Table K)
  insertSet : List (InsertKey Table K V)
  deleteSet : List (DeleteKey Table K)
  abortLock : Bool
  abortInsert : Bool
  abortDelete : Bool

def Txn.empty : Txn Table K V := ⟨[], [], [], [], false, false, false⟩

def Txn.shouldAbort (txn : Txn Table K V) : Bool :=
  txn.abortLock || txn.abortInsert || txn.abortDelete

/-- The calls a workload makes to add requests. -/
inductive Request (Table K V : Type) where
  /-- `search_local_index`, `search_for_read` and `search_for_update`, with a buffer. -/
  | search (type : ReadType) (table : Table) (key : K) (value : V)
  /-- `scan_for_read`, `scan_for_update`, `scan_for_insert` and `scan_for_delete`. -/
  | scan (type : ScanType) (table : Table) (minKey maxKey : K) (limit : Nat)
  | insertRow (table : Table) (key : K) (value : V) (requireLockNextKey : Bool)
  | deleteRow (table : Table) (key : K)

def Txn.add (txn : Txn Table K V) : Request Table K V → Txn Table K V
  | .search type table key value =>
    { txn with readSet := txn.readSet ++
        [⟨table, key, type, value, 0, 0, 0, false, false, false⟩] }
  | .scan type table minKey maxKey limit =>
    { txn with scanSet := txn.scanSet ++
        [⟨table, minKey, maxKey, limit, type, [], 0, false, false⟩] }
  | .insertRow table key value requireLockNextKey =>
    { txn with insertSet := txn.insertSet ++
        [⟨table, key, value, requireLockNextKey, 0, false, false⟩] }
  | .deleteRow table key =>
    { txn with deleteSet := txn.deleteSet ++ [⟨table, key, false⟩] }

/-! ## The handlers of the executor -/

/-- What the protocol knows of the database: the trees' parameters, the partitions the
coordinator masters and the layout of the rows. -/
structure Context (Table K V : Type) where
  config : Table → Config K
  hasMasterPartition : Table → Bool
  layout : Table → RowLayout.Row
  /-- What a copy from the address of `value_from_header` yields of a row with padding. -/
  misread : Table → V → V
  /-- What a copy of a new value to that address leaves of the old one. -/
  miswrite : Table → V → V → V

/-- The coordinator gets at the values of a table: it has the rows itself, or `value_from_header`
leads a peer to them. -/
def Context.Reaches (context : Context Table K V) (table : Table) : Prop :=
  context.hasMasterPartition table = true ∨ (context.layout table).Packed

instance (context : Context Table K V) (table : Table) : Decidable (context.Reaches table) :=
  inferInstanceAs (Decidable (_ ∨ _))

/-- The copy of a value out of a locked row. -/
def Context.read (context : Context Table K V) (table : Table) (value : V) : V :=
  if context.Reaches table then value else context.misread table value

/-- `update` and `remote_update`: what a row holds after the copy of a value into it. -/
def Context.write (context : Context Table K V) (table : Table) (old value : V) : V :=
  if context.Reaches table then value else context.miswrite table old value

/-- One tree for each table and partition. -/
abbrev Tables (Table K V : Type) := Table → Tree K V

/-- What a handler returns: whether it succeeds, the request afterwards, the trees it leaves
and the locks it took. -/
structure Handled (Table K V E : Type) where
  success : Bool
  entry : E
  tables : Tables Table K V
  acquired : List (Hold Table)

/-- The row a point request locked: owner-local rows and peer-owned rows are cached in
different fields. -/
def ReadKey.cachedRow (context : Context Table K V) (readKey : ReadKey Table K V) : Offset :=
  if context.hasMasterPartition readKey.table then readKey.cachedLocalRow
  else readKey.cachedMigratedRow

/-- The mode a point request locks in. -/
def ReadType.mode : ReadType → LockMode
  | .forUpdate => .exclusive
  | _ => .shared

section Handlers

variable [DecidableEq Table]

def setTuples (tables : Tables Table K V) (table : Table) (tuples : Tuples K V) :
    Tables Table K V :=
  Function.update tables table { tables table with tuples }

/-- `lock_request_handler` and what `process_requests` stores after it. -/
def lockRequestHandler (context : Context Table K V) (tables : Tables Table K V)
    (readKey : ReadKey Table K V) : Except Failure (Handled Table K V (ReadKey Table K V)) := do
  let tuples := (tables readKey.table).tuples
  match readKey.type,
    ← search (context.config readKey.table) (tables readKey.table) readKey.key with
  -- `read` uses the row it was given without a check
  | .localIndex, none => throw (.logicError "null row")
  | .localIndex, some offset =>
    return ⟨true, { readKey with
      value := (tuples offset).value
      tid := (tuples offset).header.version
      cachedLocalRow := 0
      cachedMigratedRow := 0
      processed := true }, tables, []⟩
  | _, none => return ⟨false, { readKey with cachedLocalRow := 0, cachedMigratedRow := 0 }, tables,
      []⟩
  | type, some offset =>
    let ownerLocal := context.hasMasterPartition readKey.table
    let cached := { readKey with
      cachedLocalRow := if ownerLocal then offset else 0
      cachedMigratedRow := if ownerLocal then 0 else offset }
    match lockTuple type.mode offset tuples with
    | (none, tuples) => return ⟨false, cached, setTuples tables readKey.table tuples, []⟩
    | (some version, tuples) =>
      return ⟨true, { cached with
        value := context.read readKey.table (tuples offset).value
        tid := version
        readLockBit := type = .forRead
        writeLockBit := type = .forUpdate
        processed := true }, setTuples tables readKey.table tuples,
        [⟨type.mode, readKey.table, offset⟩]⟩

/-- The callback of a scan: lock the row and keep it as a result or as the protection row. -/
def scanProcessor (mode : LockMode) : ScanProcessor K V (List (RowEntity K) × Offset) :=
  fun offset protection captured tuples =>
    match lockTuple mode offset tuples with
    | (none, tuples) => (false, captured, tuples)
    | (some _, tuples) =>
      if protection then (true, (captured.1, offset), tuples)
      else (true, (captured.1 ++ [⟨(tuples offset).key, offset⟩], captured.2), tuples)

/-- `scanRequestHandler` and what `process_requests` stores after it. Rows locked before the
scan fails stay in the results. -/
def scanRequestHandler (context : Context Table K V) (tables : Tables Table K V)
    (scanKey : ScanKey Table K) : Except Failure (Handled Table K V (ScanKey Table K)) := do
  let mode := scanKey.type.mode
  let (success, (results, nextRow), tuples) ← scanRange (context.config scanKey.table)
    (tables scanKey.table) scanKey.minKey scanKey.maxKey scanKey.limit (scanProcessor mode)
    (scanKey.results, 0)
  let locked := (results.drop scanKey.results.length).map fun row =>
    (⟨mode, scanKey.table, row.tupleOffset⟩ : Hold Table)
  if success then
    return ⟨true, { scanKey with results, nextRow, nextRowLocked := true, processed := true },
      setTuples tables scanKey.table tuples, locked ++ [⟨mode, scanKey.table, nextRow⟩]⟩
  else
    return ⟨false, { scanKey with results }, setTuples tables scanKey.table tuples, locked⟩

/-- The callback of an insert: lock the row after the key. -/
def nextKeyProcessor : NextProcessor K V := fun next tuples =>
  ((lockTuple .exclusive next tuples).1.isSome, (lockTuple .exclusive next tuples).2)

def insertCall [Inhabited K] (config : Config K) (insertKey : InsertKey Table K V) :
    TreeM K V Bool :=
  if insertKey.requireLockNextKey then
    insertLockNext config insertKey.key insertKey.value nextKeyProcessor .placeholder
  else insert config insertKey.key insertKey.value .placeholder

/-- `insertRequestHandler` and what `process_requests` stores after it. -/
def insertRequestHandler [Inhabited K] (context : Context Table K V) (tables : Tables Table K V)
    (insertKey : InsertKey Table K V) :
    Except Failure (Handled Table K V (InsertKey Table K V)) := do
  -- what the callback stores in `next_row_entity` when it is asked
  let nextRow ← rowAfter (context.config insertKey.table) (tables insertKey.table) insertKey.key
  let (returned, tree) := runOn (insertCall (context.config insertKey.table) insertKey)
    (tables insertKey.table)
  let inserted ← returned
  let tables := Function.update tables insertKey.table tree
  if inserted then
    if insertKey.requireLockNextKey then
      return ⟨true, { insertKey with nextRow, nextRowLocked := true, processed := true }, tables,
        [⟨.exclusive, insertKey.table, nextRow⟩]⟩
    else return ⟨true, { insertKey with processed := true }, tables, []⟩
  else return ⟨false, insertKey, tables, []⟩

/-- `deleteRequestHandler` and what `process_requests` stores after it: the row is locked, but
which row it was is not kept. -/
def deleteRequestHandler (context : Context Table K V) (tables : Tables Table K V)
    (deleteKey : DeleteKey Table K) : Except Failure (Handled Table K V (DeleteKey Table K)) := do
  match ← search (context.config deleteKey.table) (tables deleteKey.table) deleteKey.key with
  | none => return ⟨false, deleteKey, tables, []⟩
  | some offset =>
    match lockTuple .exclusive offset (tables deleteKey.table).tuples with
    | (none, tuples) => return ⟨false, deleteKey, setTuples tables deleteKey.table tuples, []⟩
    | (some _, tuples) =>
      return ⟨true, { deleteKey with processed := true }, setTuples tables deleteKey.table tuples,
        [⟨.exclusive, deleteKey.table, offset⟩]⟩

end Handlers

/-! ## Commit and abort -/

/-- A step of `commit` or `abort` on shared memory. -/
inductive Action (Table K V : Type) where
  | publish (insertKey : InsertKey Table K V)
  | discard (insertKey : InsertKey Table K V)
  /-- Turn a row scanned for deletion into a tombstone and unlock it. -/
  | bury (table : Table) (row : RowEntity K)
  | update (table : Table) (row : RowEntity K) (value : V)
  /-- Write a row scanned for update onto itself: its data pointer is the row. -/
  | rewrite (table : Table) (row : RowEntity K)
  /-- Unlock a tuple, with a new version for some writers. -/
  | release (hold : Hold Table) (version : Option Nat)

/-- A change of what a key shows: a value, or nothing. -/
structure Change (Table K V : Type) where
  table : Table
  key : K
  value : Option V
  deriving DecidableEq, Repr

/-- `generate_tid`: more than every version read and than the worker's last one. -/
def generateTid (txn : Txn Table K V) (maxTid : Nat) : Nat :=
  max (txn.readSet.foldl (fun tid readKey => max tid readKey.tid) 0) maxTid + 1

def ReadKey.holds (context : Context Table K V) (readKey : ReadKey Table K V) : List (Hold Table) :=
  (if readKey.readLockBit then [⟨.shared, readKey.table, readKey.cachedRow context⟩] else []) ++
    if readKey.writeLockBit then [⟨.exclusive, readKey.table, readKey.cachedRow context⟩] else []

def InsertKey.holds (insertKey : InsertKey Table K V) : List (Hold Table) :=
  if insertKey.nextRowLocked then [⟨.exclusive, insertKey.table, insertKey.nextRow⟩] else []

def ScanKey.hold (scanKey : ScanKey Table K) (offset : Offset) : Hold Table :=
  ⟨scanKey.type.mode, scanKey.table, offset⟩

def ScanKey.nextHold (scanKey : ScanKey Table K) : List (Hold Table) :=
  if scanKey.nextRowLocked then [scanKey.hold scanKey.nextRow] else []

def ScanKey.rowHolds (scanKey : ScanKey Table K) : List (Hold Table) :=
  scanKey.results.map fun row => scanKey.hold row.tupleOffset

/-- `write_and_replicate`: the buffers of updates, and the rows scanned for update. -/
def writeAndReplicate (context : Context Table K V) (txn : Txn Table K V) :
    List (Action Table K V) :=
  (txn.readSet.filter fun readKey => readKey.writeLockBit).map (fun readKey =>
      .update readKey.table ⟨readKey.key, readKey.cachedRow context⟩ readKey.value) ++
    (txn.scanSet.filter fun scanKey => scanKey.type = .forUpdate).flatMap fun scanKey =>
      scanKey.results.map (.rewrite scanKey.table)

/-- `release_lock`. -/
def releaseLocks (context : Context Table K V) (txn : Txn Table K V)
    (commitTid curGlobalEpoch : Nat) :
    List (Action Table K V) :=
  txn.readSet.flatMap (fun readKey => (readKey.holds context).map fun hold =>
      .release hold (if hold.mode = .exclusive then
        some (generateEpochVersion readKey.tid curGlobalEpoch) else none)) ++
    txn.insertSet.flatMap (fun insertKey => insertKey.holds.map fun hold =>
      .release hold (some commitTid)) ++
    txn.scanSet.flatMap fun scanKey =>
      -- the rows of a scan for deletion are unlocked already
      (scanKey.nextHold ++ if scanKey.type = .forDelete then []
        else scanKey.rowHolds).map fun hold =>
        .release hold none

/-- `commit` once all locks are there: inserts, deletes, updates, then the locks. -/
def commitActions (context : Context Table K V) (txn : Txn Table K V)
    (commitTid curGlobalEpoch : Nat) : List (Action Table K V) :=
  txn.insertSet.map .publish ++
    (txn.scanSet.filter fun scanKey => scanKey.type = .forDelete).flatMap (fun scanKey =>
      scanKey.results.map (.bury scanKey.table)) ++
    writeAndReplicate context txn ++ releaseLocks context txn commitTid curGlobalEpoch

/-- `abort`: placeholders and their next rows, then the point requests, then the scans. -/
def abortActions (context : Context Table K V) (txn : Txn Table K V) : List (Action Table K V) :=
  (txn.insertSet.filter fun insertKey => insertKey.processed).flatMap (fun insertKey =>
      .discard insertKey :: insertKey.holds.map fun hold => .release hold none) ++
    txn.readSet.flatMap (fun readKey => (readKey.holds context).map fun hold =>
      .release hold none) ++
    txn.scanSet.flatMap fun scanKey => (scanKey.nextHold ++ scanKey.rowHolds).map fun hold =>
      .release hold none

/-- `commit`: whether it commits, and its steps. -/
def commit (context : Context Table K V) (txn : Txn Table K V) (maxTid curGlobalEpoch : Nat) :
    Bool × List (Action Table K V) :=
  if txn.abortLock then (false, abortActions context txn)
  else (true, commitActions context txn (generateTid txn maxTid) curGlobalEpoch)

/-- What a step of `commit` or `abort` leaves: the trees, the locks it gave back and the
changes it was to make visible. -/
structure Effect (Table K V : Type) where
  tables : Tables Table K V
  released : List (Hold Table)
  changes : List (Change Table K V)

section Run

variable [DecidableEq Table]

def setTupleHeader (tables : Tables Table K V) (table : Table) (offset : Offset)
    (header : TupleHeader) : Tables Table K V :=
  setTuples tables table (setHeader (tables table).tuples offset header)

def setTupleValue (tables : Tables Table K V) (table : Table) (offset : Offset) (value : V) :
    Tables Table K V :=
  setTuples tables table (Function.update (tables table).tuples offset
    { (tables table).tuples offset with value })

def releaseHold (tables : Tables Table K V) (hold : Hold Table) (version : Option Nat) :
    Except Failure (Tables Table K V) :=
  match releaseLock hold.mode version ((tables hold.table).tuples hold.offset).header with
  | .ok header => .ok (setTupleHeader tables hold.table hold.offset header)
  | .error message => .error (.logicError message)

/-- Run a step of `commit` or `abort`. -/
def Action.run (context : Context Table K V) (tables : Tables Table K V) :
    Action Table K V → Except Failure (Effect Table K V)
  | .publish insertKey => do
    match ← searchIncludingInvalid (context.config insertKey.table) (tables insertKey.table)
      insertKey.key with
    | none => throw (.logicError "null row")
    | some offset =>
      let tuple := (tables insertKey.table).tuples offset
      return ⟨setTupleHeader tables insertKey.table offset (modifyTupleValidBit true tuple.header),
        [], [⟨insertKey.table, insertKey.key, some tuple.value⟩]⟩
  | .discard insertKey => do
    let (returned, tree) := runOn
      (discardPlaceholder (context.config insertKey.table) insertKey.key) (tables insertKey.table)
    if ← returned then return ⟨Function.update tables insertKey.table tree, [], []⟩
    else throw (.logicError "failed to roll back UB insert placeholder")
  | .bury table row => do
    let header := ((tables table).tuples row.tupleOffset).header
    let tables ← releaseHold (setTupleHeader tables table row.tupleOffset
      (modifyTupleValidBit false header)) ⟨.exclusive, table, row.tupleOffset⟩ none
    return ⟨tables, [⟨.exclusive, table, row.tupleOffset⟩], [⟨table, row.key, none⟩]⟩
  | .update table row value =>
    let old := ((tables table).tuples row.tupleOffset).value
    return ⟨setTupleValue tables table row.tupleOffset (context.write table old value), [],
      [⟨table, row.key, some value⟩]⟩
  | .rewrite table row =>
    return ⟨setTupleValue tables table row.tupleOffset
      ((tables table).tuples row.tupleOffset).value, [], []⟩
  | .release hold version => do
    return ⟨← releaseHold tables hold version, [hold], []⟩

end Run

/-! ## Transactions side by side -/

/-- Where `process_requests` is: the four loops run from the last entry to the first. -/
inductive Cursor where
  | idle
  /-- So many point requests are left. -/
  | reads (left : Nat)
  | scans (left : Nat)
  | inserts (left : Nat)
  /-- So many point deletes are left. -/
  | deletes (left : Nat)
  deriving DecidableEq, Repr

/-- How far a transaction has come. -/
inductive Phase (Table K V : Type) where
  | executing (cursor : Cursor)
  /-- `commit` or `abort` is under way, with these steps left. -/
  | finishing (committed : Bool) (actions : List (Action Table K V))
  /-- `commit` or `abort` has returned. -/
  | finished (committed : Bool)

/-- A transaction and, for the record, the locks it took, those it took for point deletes, and
those it gave back. -/
structure Client (Table K V : Type) where
  txn : Txn Table K V
  phase : Phase Table K V
  acquired : List (Hold Table)
  deleteHolds : List (Hold Table)
  released : List (Hold Table)

def Client.begun : Client Table K V := ⟨.empty, .executing .idle, [], [], []⟩

/-- What a transaction does next. -/
inductive Event (Table K V : Type) where
  | request (request : Request Table K V)
  /-- The workload writes the buffer of a point request. -/
  | assign (index : Nat) (value : V)
  /-- The workload calls `process_requests`. -/
  | process
  /-- `process_requests` looks at the next entry. -/
  | advance
  /-- The workload is ready to commit; the worker's last version and the global epoch. -/
  | commit (maxTid curGlobalEpoch : Nat)
  | abort
  /-- The next step of `commit` or `abort`. -/
  | act

/-- The workload may commit: `process_requests` has granted every request. -/
def Txn.ready (txn : Txn Table K V) : Bool :=
  !txn.shouldAbort && txn.readSet.all ReadKey.processed && txn.scanSet.all ScanKey.processed &&
    txn.insertSet.all InsertKey.processed && txn.deleteSet.all DeleteKey.processed

section Steps

variable [DecidableEq Table]

/-- One pass of a loop of `process_requests`: nothing at its end or at an entry processed
before, else what the handler does to the entry. -/
def loopPass {E : Type} (set : List E) (processed : E → Bool)
    (handler : E → Except Failure (Handled Table K V E)) :
    Nat → Option (Nat × Except Failure (Handled Table K V E))
  | 0 => none
  | left + 1 =>
    (set[left]?).bind fun entry => if processed entry then none else some (left, handler entry)

/-- `process_requests` looks at the next entry. -/
def Client.advance [Inhabited K] (context : Context Table K V) (tables : Tables Table K V)
    (client : Client Table K V) : Cursor → Except Failure (Client Table K V × Tables Table K V)
  | .idle => .ok (client, tables)
  | .reads left =>
    match loopPass client.txn.readSet ReadKey.processed
      (lockRequestHandler context tables) left with
    | none => .ok ({ client with phase := .executing (.scans client.txn.scanSet.length) }, tables)
    | some (index, result) => do
      let handled ← result
      return ({ client with
        txn := { client.txn with
          readSet := client.txn.readSet.set index handled.entry
          abortLock := client.txn.abortLock || !handled.success }
        phase := .executing (if handled.success then .reads index else .idle)
        acquired := client.acquired ++ handled.acquired }, handled.tables)
  | .scans left =>
    match loopPass client.txn.scanSet ScanKey.processed
      (scanRequestHandler context tables) left with
    | none => .ok ({ client with phase := .executing (.inserts client.txn.insertSet.length) },
        tables)
    | some (index, result) => do
      let handled ← result
      return ({ client with
        txn := { client.txn with
          scanSet := client.txn.scanSet.set index handled.entry
          abortLock := client.txn.abortLock || !handled.success }
        phase := .executing (if handled.success then .scans index else .idle)
        acquired := client.acquired ++ handled.acquired }, handled.tables)
  | .inserts left =>
    match loopPass client.txn.insertSet InsertKey.processed (insertRequestHandler context tables)
      left with
    | none => .ok ({ client with phase := .executing (.deletes client.txn.deleteSet.length) },
        tables)
    | some (index, result) => do
      let handled ← result
      return ({ client with
        txn := { client.txn with
          insertSet := client.txn.insertSet.set index handled.entry
          abortInsert := client.txn.abortInsert || !handled.success }
        phase := .executing (if handled.success then .inserts index else .idle)
        acquired := client.acquired ++ handled.acquired }, handled.tables)
  | .deletes left =>
    match loopPass client.txn.deleteSet DeleteKey.processed (deleteRequestHandler context tables)
      left with
    | none => .ok ({ client with phase := .executing .idle }, tables)
    | some (index, result) => do
      let handled ← result
      return ({ client with
        txn := { client.txn with
          deleteSet := client.txn.deleteSet.set index handled.entry
          abortDelete := client.txn.abortDelete || !handled.success }
        phase := .executing (if handled.success then .deletes index else .idle)
        acquired := client.acquired ++ handled.acquired
        deleteHolds := client.deleteHolds ++ handled.acquired }, handled.tables)

/-- A step of a transaction; nothing when the event is not possible or its process dies. -/
def Client.step [Inhabited K] (context : Context Table K V) (tables : Tables Table K V)
    (client : Client Table K V) (event : Event Table K V) :
    Option (Client Table K V × Tables Table K V × List (Change Table K V)) :=
  match client.phase, event with
  | .executing .idle, .request request =>
    some ({ client with txn := client.txn.add request }, tables, [])
  | .executing .idle, .assign index value =>
    some ({ client with txn := { client.txn with
      readSet := client.txn.readSet.modify index fun readKey => { readKey with value } } }, tables,
        [])
  | .executing .idle, .process =>
    some ({ client with phase := .executing (.reads client.txn.readSet.length) }, tables, [])
  | .executing .idle, .commit maxTid curGlobalEpoch =>
    if client.txn.ready then
      let (committed, actions) := TwoPLPasha.commit context client.txn maxTid curGlobalEpoch
      some ({ client with phase := .finishing committed actions }, tables, [])
    else none
  | .executing .idle, .abort =>
    some ({ client with phase := .finishing false (abortActions context client.txn) }, tables, [])
  | .executing cursor, .advance =>
    match client.advance context tables cursor with
    | .ok (client, tables) => some (client, tables, [])
    | .error _ => none
  | .finishing committed (action :: actions), .act =>
    match action.run context tables with
    | .ok effect => some ({ client with
        phase := .finishing committed actions
        released := client.released ++ effect.released }, effect.tables, effect.changes)
    | .error _ => none
  | .finishing committed [], .act => some ({ client with phase := .finished committed }, tables, [])
  | _, _ => none

/-- The database, the transactions that have begun, and for the record which transaction made
which change visible. -/
structure System (Table K V : Type) where
  tables : Tables Table K V
  clients : List (Client Table K V)
  history : List (Nat × Change Table K V)

/-- A step of the system. -/
inductive Label (Table K V : Type) where
  | begin
  | client (index : Nat) (event : Event Table K V)

def System.step [Inhabited K] (context : Context Table K V) (system : System Table K V) :
    Label Table K V → Option (System Table K V)
  | .begin => some { system with clients := system.clients ++ [.begun] }
  | .client index event => do
    let client ← system.clients[index]?
    let (client, tables, changes) ← client.step context system.tables event
    return ⟨tables, system.clients.set index client,
      system.history ++ changes.map fun change => (index, change)⟩

end Steps

end UbApplication.Tigon.TwoPLPasha
