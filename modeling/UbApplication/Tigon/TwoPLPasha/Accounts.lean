import UbApplication.Lib.Machine
import UbApplication.Tigon.TwoPLPasha.Handlers

/-!
# The accounts of a transaction

What a transaction holds and reserves can be read off its sets while it executes, and off
the steps that are left once it commits or aborts. The steps of `commit` and of `abort`
give back every lock of the sets and end every placeholder; those of `commit` make
changes visible and those of `abort` none.
-/

namespace UbApplication.Tigon.TwoPLPasha

open BPlusTree List

section Accounts

variable {Table K V : Type}

/-- The locks a transaction keeps track of. -/
def Txn.holds (context : Context Table K V) (txn : Txn Table K V) : List (Hold Table) :=
  txn.readSet.flatMap (ReadKey.holds context) ++ txn.insertSet.flatMap InsertKey.holds ++
    txn.scanSet.flatMap fun scanKey => scanKey.nextHold ++ scanKey.rowHolds

def InsertKey.reserves (insertKey : InsertKey Table K V) : List (InsertKey Table K V) :=
  if insertKey.processed then [insertKey] else []

/-- The placeholders a transaction keeps track of. -/
def Txn.reserves (txn : Txn Table K V) : List (InsertKey Table K V) :=
  txn.insertSet.flatMap InsertKey.reserves

/-- What `commit` makes visible: the inserts, the deletion of the rows scanned for it, and the
updates. -/
def Txn.applied (txn : Txn Table K V) : List (Change Table K V) :=
  txn.insertSet.map (fun insertKey => ⟨insertKey.table, insertKey.key, some insertKey.value⟩) ++
    (txn.scanSet.filter fun scanKey => scanKey.type = .forDelete).flatMap (fun scanKey =>
      scanKey.results.map fun row => ⟨scanKey.table, row.key, none⟩) ++
    (txn.readSet.filter fun readKey => readKey.writeLockBit).map fun readKey =>
      ⟨readKey.table, readKey.key, some readKey.value⟩

/-- Every step finds its rows, and the locks it works under are given back later. -/
def AllBacked (rows : Table → List (LeafEntry K)) : List (Action Table K V) → Prop
  | [] => True
  | action :: actions => action.Backed rows (actions.flatMap Action.holds) ∧ AllBacked rows actions

/-- The locks a transaction has not given back. -/
def Client.holds (context : Context Table K V) (client : Client Table K V) : List (Hold Table) :=
  (match client.phase with
    | .executing _ => client.txn.holds context
    | .finishing _ actions => actions.flatMap Action.holds
    | .finished _ => []) ++ client.deleteHolds

def Client.reserves (client : Client Table K V) : List (InsertKey Table K V) :=
  match client.phase with
  | .executing _ => client.txn.reserves
  | .finishing _ actions => actions.flatMap Action.reserves
  | .finished _ => []

/-- The requests of a transaction agree with the tables: a request that was not granted has
locked nothing besides rows of scans, and the rows to write are in the tables. -/
structure Txn.Consistent (context : Context Table K V) (rows : Table → List (LeafEntry K))
    (txn : Txn Table K V) : Prop where
  reads : ∀ readKey ∈ txn.readSet, readKey.processed = false → readKey.holds context = []
  scans : ∀ scanKey ∈ txn.scanSet, scanKey.processed = false → scanKey.nextRowLocked = false
  inserts : ∀ insertKey ∈ txn.insertSet, insertKey.processed = false →
    insertKey.nextRowLocked = false
  readRows : ∀ readKey ∈ txn.readSet, readKey.writeLockBit →
    (⟨readKey.key, readKey.cachedRow context⟩ : LeafEntry K) ∈ rows readKey.table
  scanRows : ∀ scanKey ∈ txn.scanSet, ∀ row ∈ scanKey.results, row ∈ rows scanKey.table

/-- How far the record of a transaction has come: nothing is given back or changed before
`commit` or `abort`, and what is done and what is left make up the whole. -/
def Client.Recorded (context : Context Table K V) (rows : Table → List (LeafEntry K))
    (made : List (Change Table K V)) (client : Client Table K V) : Prop :=
  match client.phase with
  | .executing _ => client.released = [] ∧ made = []
  | .finishing committed actions => AllBacked rows actions ∧
      (client.released ++ actions.flatMap Action.holds).Perm (client.txn.holds context) ∧
      made ++ actions.flatMap Action.changes = if committed then client.txn.applied else []
  | .finished committed => client.released.Perm (client.txn.holds context) ∧
      made = if committed then client.txn.applied else []

/-- The state of a transaction agrees with its record and with the tables. -/
structure Client.Consistent (context : Context Table K V) (rows : Table → List (LeafEntry K))
    (made : List (Change Table K V)) (client : Client Table K V) : Prop where
  txn : client.txn.Consistent context rows
  recorded : client.Recorded context rows made
  acquired : client.acquired.Perm (client.txn.holds context ++ client.deleteHolds)
  deletes : client.txn.deleteSet = [] → client.deleteHolds = []

end Accounts

/-! ## The steps of commit and abort make up the whole -/

section Whole

variable {Table K V : Type} {context : Context Table K V} {rows : Table → List (LeafEntry K)}
  {txn : Txn Table K V} {rows' : Table → List (LeafEntry K)}

/-- More rows and more locks. -/
theorem Action.Backed.mono {holds holds' : List (Hold Table)}
    {action : Action Table K V} (backed : action.Backed rows holds)
    (grown : ∀ table, rows table ⊆ rows' table) (more : holds ⊆ holds') :
    action.Backed rows' holds' := by
  cases action with
  | publish insertKey => exact fun hold held => more (backed held)
  | discard insertKey => exact fun hold held => more (backed held)
  | bury table row => exact grown table backed
  | update table row value => exact ⟨grown table backed.1, more backed.2⟩
  | rewrite | release => trivial

/-- Actions before others. -/
theorem AllBacked.append {first second : List (Action Table K V)}
    (backed : ∀ action ∈ first, action.Backed rows (second.flatMap Action.holds))
    (later : AllBacked rows second) : AllBacked rows (first ++ second) := by
  induction first with
  | nil => exact later
  | cons action first ih =>
    refine ⟨?_, ih fun other member => backed other (mem_cons_of_mem _ member)⟩
    refine (backed action mem_cons_self).mono (fun _ _ member => member) ?_
    simp

variable {actions : List (Action Table K V)}

/-- More rows. -/
theorem AllBacked.mono
    (backed : AllBacked rows actions) (grown : ∀ table, rows table ⊆ rows' table) :
    AllBacked rows' actions := by
  induction actions with
  | nil => trivial
  | cons action actions ih => exact ⟨backed.1.mono grown fun _ member => member, ih backed.2⟩

/-- The locks of a list of releases. -/
theorem flatMap_release_holds {E : Type} (list : List E) (holdsOf : E → List (Hold Table))
    (version : E → Hold Table → Option Nat) :
    (list.flatMap fun entry => (holdsOf entry).map fun hold =>
      (Action.release hold (version entry hold) : Action Table K V)).flatMap Action.holds =
      list.flatMap holdsOf := by
  simp [flatMap_assoc, flatMap_map, Action.holds]

/-- The locks of a scan set. -/
theorem scan_holds_perm (scanSet : List (ScanKey Table K)) :
    ((scanSet.filter fun scanKey => scanKey.type = .forDelete).flatMap ScanKey.rowHolds ++
      scanSet.flatMap fun scanKey => scanKey.nextHold ++
        if scanKey.type = .forDelete then [] else scanKey.rowHolds).Perm
      (scanSet.flatMap fun scanKey => scanKey.nextHold ++ scanKey.rowHolds) := by
  rw [Parties.owned_filter]
  refine (flatMap_append_perm _ _ _).trans (List.Perm.flatMap_left _ fun scanKey _ => ?_)
  by_cases delete : scanKey.type = .forDelete
  · simpa [delete] using (perm_append_comm :
      (scanKey.rowHolds ++ scanKey.nextHold).Perm (scanKey.nextHold ++ scanKey.rowHolds))
  · simp [delete]

/-- A commit releases all locks. -/
theorem commitActions_holds (context : Context Table K V) (txn : Txn Table K V)
    (commitTid curGlobalEpoch : Nat) :
    ((commitActions context txn commitTid curGlobalEpoch).flatMap Action.holds).Perm
      (txn.holds context) := by
  have buried : ((txn.scanSet.filter fun scanKey =>
    scanKey.type = .forDelete).flatMap fun scanKey =>
      scanKey.results.map (Action.bury (V := V) scanKey.table)).flatMap Action.holds =
        (txn.scanSet.filter fun scanKey => scanKey.type = .forDelete).flatMap ScanKey.rowHolds := by
    rw [flatMap_assoc]
    refine flatMap_congr fun scanKey member => ?_
    have delete : scanKey.type = .forDelete := by simpa using (mem_filter.mp member).2
    simp [map_eq_flatMap, flatMap_assoc, Action.holds, ScanKey.rowHolds, ScanKey.hold,
      delete, ScanType.mode]
  have written : (writeAndReplicate context txn).flatMap Action.holds = [] := by
    simp [writeAndReplicate, map_eq_flatMap, flatMap_assoc, Action.holds]
  have published : (txn.insertSet.map Action.publish).flatMap Action.holds = [] := by
    simp [map_eq_flatMap, flatMap_assoc, Action.holds]
  simp only [commitActions, releaseLocks, flatMap_append, flatMap_release_holds, buried,
    written, published, nil_append, append_nil]
  exact (perm_append_comm_assoc _ _ _).trans ((scan_holds_perm txn.scanSet).append_left _)

/-- An abort releases all locks. -/
theorem abortActions_holds (consistent : txn.Consistent context rows) :
    ((abortActions context txn).flatMap Action.holds).Perm (txn.holds context) := by
  have inserts : (txn.insertSet.filter fun insertKey => insertKey.processed).flatMap
      InsertKey.holds = txn.insertSet.flatMap InsertKey.holds := by
    rw [Parties.owned_filter]
    refine flatMap_congr fun insertKey member => ?_
    cases granted : insertKey.processed with
    | false => simp [InsertKey.holds, consistent.inserts insertKey member granted]
    | true => simp
  have discarded : ((txn.insertSet.filter fun insertKey => insertKey.processed).flatMap
      fun insertKey => Action.discard insertKey :: insertKey.holds.map fun hold =>
        .release hold none).flatMap Action.holds = txn.insertSet.flatMap InsertKey.holds := by
    rw [flatMap_assoc, ← inserts]
    refine flatMap_congr fun insertKey _ => ?_
    simp [map_eq_flatMap, flatMap_assoc, Action.holds]
  rw [abortActions, flatMap_append, flatMap_append, discarded, flatMap_release_holds,
    flatMap_release_holds]
  exact perm_append_comm.append_right _

/-- A commit makes the changes. -/
theorem commitActions_changes (commitTid curGlobalEpoch : Nat) :
    (commitActions context txn commitTid curGlobalEpoch).flatMap Action.changes = txn.applied := by
  simp [commitActions, writeAndReplicate, releaseLocks, Action.changes, Txn.applied,
    map_eq_flatMap, flatMap_assoc]

/-- An abort makes none. -/
theorem abortActions_changes : (abortActions context txn).flatMap Action.changes = [] := by
  simp [abortActions, Action.changes, map_eq_flatMap, flatMap_assoc,
    -flatMap_eq_nil_iff]

/-- A commit publishes all inserts. -/
theorem commitActions_reserves (commitTid curGlobalEpoch : Nat) :
    (commitActions context txn commitTid curGlobalEpoch).flatMap Action.reserves =
      txn.insertSet := by
  simp [commitActions, writeAndReplicate, releaseLocks, Action.reserves, map_eq_flatMap,
    flatMap_assoc]

/-- An abort takes its inserts back. -/
theorem abortActions_reserves :
    (abortActions context txn).flatMap Action.reserves = txn.reserves := by
  simp only [abortActions, Txn.reserves, Parties.owned_filter, flatMap_append,
    flatMap_assoc, map_eq_flatMap, flatMap_singleton, Action.reserves,
    Parties.owned_nothing, append_nil]
  refine flatMap_congr fun insertKey _ => ?_
  cases granted : insertKey.processed <;>
    simp [InsertKey.reserves, granted, Action.reserves, flatMap_assoc]

/-- Actions that need no locks. -/
theorem AllBacked.of_all
    (backed : ∀ action ∈ actions, action.Backed rows []) : AllBacked rows actions := by
  have alone : AllBacked rows (actions ++ []) := AllBacked.append backed trivial
  rwa [append_nil] at alone

/-- The actions of a commit are backed. -/
theorem commitActions_backed (consistent : txn.Consistent context rows)
    (commitTid curGlobalEpoch : Nat) :
    AllBacked rows (commitActions context txn commitTid curGlobalEpoch) := by
  apply AllBacked.append
  · intro action member
    simp only [writeAndReplicate, mem_append, mem_map, mem_flatMap,
      mem_filter] at member
    rcases member with ((⟨insertKey, inside, rfl⟩ | ⟨scanKey, ⟨inside, -⟩, row, result, rfl⟩) |
      ⟨readKey, ⟨inside, writes⟩, rfl⟩ | ⟨scanKey, -, row, -, rfl⟩)
    · intro hold held
      simp only [releaseLocks, flatMap_append, flatMap_release_holds]
      exact mem_append_left _ (mem_append_right _ (mem_flatMap.mpr
        ⟨insertKey, inside, held⟩))
    · exact consistent.scanRows scanKey inside row result
    · refine ⟨consistent.readRows readKey inside writes, ?_⟩
      simp only [releaseLocks, flatMap_append, flatMap_release_holds]
      refine mem_append_left _ (mem_append_left _ (mem_flatMap.mpr
        ⟨readKey, inside, ?_⟩))
      simp [ReadKey.holds, writes]
    · trivial
  · apply AllBacked.of_all
    intro action member
    simp only [releaseLocks, mem_append, mem_flatMap, mem_map] at member
    rcases member with ((⟨-, -, -, -, rfl⟩ | ⟨-, -, -, -, rfl⟩) | ⟨-, -, -, -, rfl⟩) <;> trivial

/-- Those of an abort are backed. -/
theorem abortActions_backed : AllBacked rows (abortActions context txn) := by
  have later : AllBacked rows (txn.readSet.flatMap (fun readKey =>
      (readKey.holds context).map fun hold => (Action.release hold none : Action Table K V)) ++
      txn.scanSet.flatMap fun scanKey => (scanKey.nextHold ++ scanKey.rowHolds).map fun hold =>
        .release hold none) := by
    apply AllBacked.of_all
    intro action member
    simp only [mem_append, mem_flatMap, mem_map] at member
    rcases member with (⟨-, -, -, -, rfl⟩ | ⟨-, -, -, -, rfl⟩) <;> trivial
  rw [abortActions, append_assoc]
  -- the row after a placeholder is given back right after the placeholder
  induction txn.insertSet.filter (fun insertKey => insertKey.processed) with
  | nil => exact later
  | cons insertKey inserts ih =>
    rw [flatMap_cons, append_assoc, cons_append]
    refine ⟨fun hold held => ?_, AllBacked.append (fun action member => ?_) ih⟩
    · rw [flatMap_append]
      refine mem_append_left _ (mem_flatMap.mpr ⟨.release hold none, ?_, ?_⟩)
      · exact mem_map_of_mem held
      · exact mem_singleton_self hold
    · obtain ⟨hold, -, rfl⟩ := mem_map.mp member
      trivial

end Whole

/-! ## Requests are added and filled in -/

section Filled

variable {Table K V : Type} {context : Context Table K V} {rows rows' : Table → List (LeafEntry K)}
  {txn : Txn Table K V}

namespace Txn.Consistent

section

variable (consistent : txn.Consistent context rows)
include consistent

/-- More rows. -/
theorem mono (grown : ∀ table, rows table ⊆ rows' table) :
    txn.Consistent context rows' where
  reads := consistent.reads
  scans := consistent.scans
  inserts := consistent.inserts
  readRows readKey member writes := grown _ (consistent.readRows readKey member writes)
  scanRows scanKey member row result := grown _ (consistent.scanRows scanKey member row result)

/-- A request is added. -/
theorem add (request : Request Table K V) :
    (txn.add request).Consistent context rows := by
  obtain ⟨reads, scans, inserts, readRows, scanRows⟩ := consistent
  cases request with
  | search type table key value =>
    refine ⟨?_, scans, inserts, ?_, scanRows⟩ <;>
      simp only [Txn.add, mem_append, mem_singleton] <;>
      rintro readKey (member | rfl)
    · exact reads readKey member
    · exact fun _ => rfl
    · exact readRows readKey member
    · simp
  | scan type table minKey maxKey limit =>
    refine ⟨reads, ?_, inserts, readRows, ?_⟩ <;>
      simp only [Txn.add, mem_append, mem_singleton] <;>
      rintro scanKey (member | rfl)
    · exact scans scanKey member
    · exact fun _ => rfl
    · exact scanRows scanKey member
    · simp
  | insertRow table key value requireLockNextKey =>
    refine ⟨reads, scans, ?_, readRows, scanRows⟩
    simp only [Txn.add, mem_append, mem_singleton]
    rintro insertKey (member | rfl)
    · exact inserts insertKey member
    · exact fun _ => rfl
  | deleteRow table key => exact ⟨reads, scans, inserts, readRows, scanRows⟩

/-- A read is processed. -/
theorem setRead (index : Nat)
    (next : ReadKey Table K V) (bare : next.processed = false → next.holds context = [])
    (row : next.writeLockBit → (⟨next.key, next.cachedRow context⟩ : LeafEntry K) ∈ rows next.table)
    (abortLock : Bool) :
    Txn.Consistent context rows
      { txn with readSet := txn.readSet.set index next, abortLock := abortLock } := by
  refine { consistent with reads := ?_, readRows := ?_ } <;>
    intro readKey member <;>
    rcases mem_or_eq_of_mem_set member with old | rfl
  · exact consistent.reads readKey old
  · exact bare
  · exact consistent.readRows readKey old
  · exact row

/-- A scan is processed. -/
theorem setScan (index : Nat) {next : ScanKey Table K}
    (bare : next.processed = false → next.nextRowLocked = false)
    (results : ∀ row ∈ next.results, row ∈ rows next.table) (abortLock : Bool) :
    Txn.Consistent context rows
      { txn with scanSet := txn.scanSet.set index next, abortLock := abortLock } := by
  refine { consistent with scans := ?_, scanRows := ?_ } <;>
    intro scanKey member <;>
    rcases mem_or_eq_of_mem_set member with old | rfl
  · exact consistent.scans scanKey old
  · exact bare
  · exact consistent.scanRows scanKey old
  · exact results

/-- An insert is processed. -/
theorem setInsert (index : Nat) {next : InsertKey Table K V}
    (bare : next.processed = false → next.nextRowLocked = false) (abortInsert : Bool) :
    Txn.Consistent context rows
      { txn with insertSet := txn.insertSet.set index next, abortInsert := abortInsert } := by
  refine { consistent with inserts := ?_ }
  intro insertKey member
  rcases mem_or_eq_of_mem_set member with old | rfl
  · exact consistent.inserts insertKey old
  · exact bare

end

end Txn.Consistent

variable {index : Nat} {new : List (Hold Table)}

/-- The locks after a read. -/
theorem Txn.holds_setRead (context : Context Table K V) {entry next : ReadKey Table K V}
    (found : txn.readSet[index]? = some entry)
    (more : (next.holds context).Perm (new ++ entry.holds context)) (abortLock : Bool) :
    (Txn.holds context { txn with
      readSet := txn.readSet.set index next, abortLock := abortLock }).Perm
      (new ++ txn.holds context) := by
  rw [Txn.holds, Txn.holds, ← append_assoc, ← append_assoc]
  exact ((Parties.owned_more _ found more).append_right _).append_right _

/-- The locks after an insert. -/
theorem Txn.holds_setInsert (context : Context Table K V) {entry next : InsertKey Table K V}
    (found : txn.insertSet[index]? = some entry)
    (more : next.holds.Perm (new ++ entry.holds)) (abortInsert : Bool) :
    (Txn.holds context { txn with
      insertSet := txn.insertSet.set index next, abortInsert := abortInsert }).Perm
      (new ++ txn.holds context) := by
  rw [Txn.holds, Txn.holds, ← append_assoc]
  refine List.Perm.append_right _ (((Parties.owned_more _ found more).append_left _).trans ?_)
  exact perm_append_comm_assoc _ _ _

/-- The locks after a scan. -/
theorem Txn.holds_setScan (context : Context Table K V) {entry next : ScanKey Table K}
    (found : txn.scanSet[index]? = some entry)
    (more : (next.nextHold ++ next.rowHolds).Perm (new ++ (entry.nextHold ++ entry.rowHolds)))
    (abortLock : Bool) :
    (Txn.holds context { txn with
      scanSet := txn.scanSet.set index next, abortLock := abortLock }).Perm
      (new ++ txn.holds context) := by
  have owned := Parties.owned_more (fun scanKey => scanKey.nextHold ++ scanKey.rowHolds) found more
  exact (owned.append_left _).trans (perm_append_comm_assoc _ _ _)

/-- A request takes no lock. -/
theorem Txn.add_accounts (txn : Txn Table K V) (context : Context Table K V)
    (request : Request Table K V) :
    (txn.add request).holds context = txn.holds context ∧
      (txn.add request).reserves = txn.reserves := by
  cases request <;>
    simp [Txn.add, Txn.holds, Txn.reserves, ReadKey.holds, InsertKey.holds, InsertKey.reserves,
      ScanKey.nextHold, ScanKey.rowHolds]

end Filled

end UbApplication.Tigon.TwoPLPasha
