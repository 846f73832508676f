import UbApplication.Tigon.TwoPLPasha.Ledger

/-!
# What the handlers and the steps of commit and abort do

The ledgers of all tables follow from the locks held and the keys reserved in the whole
database. Every handler returns, enters the locks it says it took, and is seen by no
reader. Every step of `commit` and `abort` that works on a lock or a placeholder of its
own transaction returns, strikes it out, and changes what the keys show as it says.
-/

namespace UbApplication.Tigon.TwoPLPasha

open BPlusTree List
open Function (update_of_ne update_eq_self)

section Meaning

variable {Table K V : Type}

/-- The locks a step gives back. -/
def Action.holds : Action Table K V → List (Hold Table)
  | .bury table row => [⟨.exclusive, table, row.tupleOffset⟩]
  | .release hold _ => [hold]
  | _ => []

/-- The placeholders a step ends. -/
def Action.reserves : Action Table K V → List (InsertKey Table K V)
  | .publish insertKey => [insertKey]
  | .discard insertKey => [insertKey]
  | _ => []

/-- The changes a step makes visible. -/
def Action.changes : Action Table K V → List (Change Table K V)
  | .publish insertKey => [⟨insertKey.table, insertKey.key, some insertKey.value⟩]
  | .bury table row => [⟨table, row.key, none⟩]
  | .update table row value => [⟨table, row.key, some value⟩]
  | _ => []

/-- What a step relies on: a row that is changed is in the table and, if the step keeps its
lock, is locked for writing; the row after a placeholder is locked if it was asked for. -/
def Action.Backed (rows : Table → List (LeafEntry K)) (holds : List (Hold Table)) :
    Action Table K V → Prop
  | .publish insertKey => insertKey.holds ⊆ holds
  | .discard insertKey => insertKey.holds ⊆ holds
  | .bury table row => row ∈ rows table
  | .update table row _ => row ∈ rows table ∧ ⟨.exclusive, table, row.tupleOffset⟩ ∈ holds
  | _ => True

end Meaning

variable {Table K V : Type} [DecidableEq Table] {context : Context Table K V}
  {tables : Tables Table K V} {rows : Table → List (LeafEntry K)} {holds : List (Hold Table)}
  {reserves : List (InsertKey Table K V)}

def tableHolds (table : Table) (holds : List (Hold Table)) : List (LockMode × Offset) :=
  holds.filterMap fun hold => if hold.table = table then some (hold.mode, hold.offset) else none

def tableReserves (table : Table) (reserves : List (InsertKey Table K V)) : List (K × V) :=
  reserves.filterMap fun reserve =>
    if reserve.table = table then some (reserve.key, reserve.value) else none

/-- The ledgers of all tables are kept. -/
def Sound (context : Context Table K V) (tables : Tables Table K V)
    (rows : Table → List (LeafEntry K)) (holds : List (Hold Table))
    (reserves : List (InsertKey Table K V)) : Prop :=
  ∀ table, Ledger (context.config table) (tables table) (rows table) (tableHolds table holds)
    (tableReserves table reserves)

/-- What every key of every table shows. -/
def shows (context : Context Table K V) (tables : Tables Table K V) (table : Table) (key : K) :
    Option V :=
  visibleValue (context.config table) (tables table) key

/-- No reader of any table sees a difference. -/
def AllQuiet (tables : Tables Table K V) (rows : Table → List (LeafEntry K))
    (after : Tables Table K V) (rows' : Table → List (LeafEntry K)) : Prop :=
  ∀ table, Quiet (tables table) (rows table) (after table) (rows' table)

omit [DecidableEq Table] in
/-- No change. -/
theorem AllQuiet.refl (tables : Tables Table K V) (rows : Table → List (LeafEntry K)) :
    AllQuiet tables rows tables rows := fun _ =>
  ⟨fun _ member => member, rfl, rfl, fun _ _ => rfl⟩

variable {tree : Tree K V} {entries : List (LeafEntry K)}
  {table : Table} {insertKey : InsertKey Table K V}

/-- One table shows nothing new. -/
theorem AllQuiet.update (quiet : Quiet (tables table) (rows table) tree entries) :
    AllQuiet tables rows (Function.update tables table tree)
      (Function.update rows table entries) := by
  intro other
  by_cases same : other = table
  · subst same
    simpa using quiet
  · rw [update_of_ne same, update_of_ne same]
    exact AllQuiet.refl tables rows other

/-- No locks. -/
@[simp] theorem tableHolds_nil (table : Table) : tableHolds table ([] : List (Hold Table)) = [] :=
  rfl

/-- The locks of both lists. -/
@[simp] theorem tableHolds_append (table : Table) (left right : List (Hold Table)) :
    tableHolds table (left ++ right) = tableHolds table left ++ tableHolds table right :=
  filterMap_append

/-- A lock of the table. -/
@[simp] theorem tableHolds_self (mode : LockMode) (table : Table) (offset : Offset)
    (holds : List (Hold Table)) :
    tableHolds table (⟨mode, table, offset⟩ :: holds) =
      (mode, offset) :: tableHolds table holds := by
  simp [tableHolds]

/-- Another table. -/
@[simp] theorem tableHolds_other {hold : Hold Table} (apart : hold.table ≠ table)
    (holds : List (Hold Table)) : tableHolds table (hold :: holds) = tableHolds table holds := by
  simp [tableHolds, apart]

/-- The locks of rows. -/
theorem tableHolds_map (mode : LockMode) (table : Table) (entries : List (LeafEntry K)) :
    tableHolds table (entries.map fun row => (⟨mode, table, row.tupleOffset⟩ : Hold Table)) =
      Ledger.rowHolds mode entries := by
  simp [tableHolds, Ledger.rowHolds, filterMap_map]

/-- A key of the table. -/
@[simp] theorem tableReserves_self (reserve : InsertKey Table K V)
    (reserves : List (InsertKey Table K V)) :
    tableReserves reserve.table (reserve :: reserves) =
      (reserve.key, reserve.value) :: tableReserves reserve.table reserves := by
  simp [tableReserves]

/-- Another table. -/
@[simp] theorem tableReserves_other {reserve : InsertKey Table K V}
    (apart : reserve.table ≠ table) (reserves : List (InsertKey Table K V)) :
    tableReserves table (reserve :: reserves) = tableReserves table reserves := by
  simp [tableReserves, apart]

variable {tuples : Tuples K V} {table : Table}

namespace Sound

section

variable (sound : Sound context tables rows holds reserves)
include sound

variable {holds' : List (Hold Table)} {reserves' : List (InsertKey Table K V)}

/-- The order does not matter. -/
theorem perm
    (sameHolds : holds'.Perm holds)
    (sameReserves : reserves'.Perm reserves) : Sound context tables rows holds' reserves' :=
  fun table => (sound table).perm (sameHolds.filterMap _) (sameReserves.filterMap _)

/-- One table changes. -/
theorem update (ledger : Ledger (context.config table) tree entries (tableHolds table holds')
      (tableReserves table reserves'))
    (others : ∀ other, other ≠ table → tableHolds other holds' = tableHolds other holds ∧
      tableReserves other reserves' = tableReserves other reserves) :
    Sound context (Function.update tables table tree) (Function.update rows table entries) holds'
      reserves' := by
  intro other
  by_cases same : other = table
  · subst same
    simpa using ledger
  · rw [update_of_ne same, update_of_ne same, (others other same).1,
      (others other same).2]
    exact sound other

/-- The tuples of one table change. -/
theorem retuple (ledger : Ledger (context.config table) { tables table with tuples } (rows table)
      (tableHolds table holds') (tableReserves table reserves'))
    (others : ∀ other, other ≠ table → tableHolds other holds' = tableHolds other holds ∧
      tableReserves other reserves' = tableReserves other reserves) :
    Sound context (setTuples tables table tuples) rows holds' reserves' := by
  have updated := sound.update ledger others
  rwa [update_eq_self] at updated

end

end Sound

/-- Relocking shows nothing. -/
theorem AllQuiet.setTuples (relocked : Relocked (tables table).tuples tuples) :
    AllQuiet tables rows (setTuples tables table tuples) rows := by
  have here : Quiet (tables table) (rows table) { tables table with tuples } (rows table) :=
    .relocked relocked
  have quiet := AllQuiet.update here
  rwa [update_eq_self] at quiet

/-! ## Handlers -/

/-- No change. -/
@[simp] theorem setTuples_self (tables : Tables Table K V) (table : Table) :
    setTuples tables table (tables table).tuples = tables := update_eq_self _ _

/-- What a handler does besides filling in its request: the locks it took are entered, the keys
it reserved are, and no reader sees it. -/
structure HandlerStep (context : Context Table K V) (tables : Tables Table K V)
    (rows : Table → List (LeafEntry K)) (holds : List (Hold Table))
    (reserves : List (InsertKey Table K V)) (after : Tables Table K V)
    (rows' : Table → List (LeafEntry K)) (acquired : List (Hold Table))
    (reserved : List (InsertKey Table K V)) : Prop where
  sound : Sound context after rows' (acquired ++ holds) (reserved ++ reserves)
  quiet : AllQuiet tables rows after rows'

/-- A row that was found. -/
theorem search_found {config : Config K}
    (represents : Represents config tree entries) {key : K} {offset : Offset}
    (found : search config tree key = .ok (some offset)) :
    (⟨key, offset⟩ : LeafEntry K) ∈ entries := by
  rw [represents.search] at found
  obtain ⟨there, -⟩ := Option.filter_eq_some_iff.mp (Except.ok.inj found)
  obtain ⟨entry, row, rfl⟩ := Option.map_eq_some_iff.mp there
  rw [← rowOf_key row]
  exact mem_of_find?_eq_some row

section

variable (sound : Sound context tables rows holds reserves)
include sound

/-- A lock is taken or refused. -/
theorem Sound.lock (mode : LockMode)
    (table : Table) {offset : Offset} (member : offset ∈ lockable (tables table) (rows table)) :
    (∃ tuples, lockTuple mode offset (tables table).tuples =
        (some ((tables table).tuples offset).header.version, tuples) ∧
      HandlerStep context tables rows holds reserves (setTuples tables table tuples) rows
        [⟨mode, table, offset⟩] []) ∨
    lockTuple mode offset (tables table).tuples = (none, (tables table).tuples) := by
  rcases (sound table).lock mode member with ⟨tuples, taken, -, relocked, ledger⟩ | refused
  · left
    refine ⟨tuples, taken, ⟨sound.retuple ?_ ?_, .setTuples relocked⟩⟩
    · simpa using ledger
    · intro other apart
      simp [apart.symm]
  · exact .inr refused

/-- No change. -/
theorem HandlerStep.refl :
    HandlerStep context tables rows holds reserves tables rows [] [] :=
  ⟨sound, .refl tables rows⟩

/-- What `lock_request_handler` does. -/
theorem lockRequestHandler_spec {readKey : ReadKey Table K V}
    {handled : Handled Table K V (ReadKey Table K V)} (bare : readKey.holds context = [])
    (returned : lockRequestHandler context tables readKey = .ok handled) :
    HandlerStep context tables rows holds reserves handled.tables rows handled.acquired [] ∧
      handled.entry.table = readKey.table ∧ handled.entry.holds context = handled.acquired ∧
      handled.entry.processed = (readKey.processed || handled.success) ∧
      (handled.success = false → handled.acquired = []) ∧
      (handled.entry.writeLockBit → (⟨handled.entry.key, handled.entry.cachedRow context⟩ :
        LeafEntry K) ∈ rows readKey.table) := by
  obtain ⟨unread, unwritten⟩ : readKey.readLockBit = false ∧ readKey.writeLockBit = false := by
    cases read : readKey.readLockBit <;> cases write : readKey.writeLockBit <;>
      simp [ReadKey.holds, read, write] at bare ⊢
  have represents := (sound readKey.table).represents
  unfold lockRequestHandler at returned
  cases found : search (context.config readKey.table) (tables readKey.table) readKey.key with
  | error failure =>
    rw [found] at returned
    cases type : readKey.type <;> rw [type] at returned <;> cases returned
  | ok result =>
    rw [found] at returned
    cases result with
    | none =>
      cases type : readKey.type <;> rw [type] at returned <;> cases returned <;>
        exact ⟨.refl sound, rfl, by simp [ReadKey.holds, unread, unwritten], by simp, by simp,
          by simp [unwritten]⟩
    | some offset =>
      have member := search_found represents found
      have locked := sound.lock readKey.type.mode readKey.table (Ledger.row_lockable member)
      cases type : readKey.type with
      | localIndex =>
        rw [type] at returned
        cases returned
        exact ⟨.refl sound, rfl, by simp [ReadKey.holds, unread, unwritten], by simp, by simp,
          by simp [unwritten]⟩
      | forRead | forUpdate =>
        rw [type] at returned locked
        simp only [bind, Except.bind, pure, Except.pure] at returned
        rcases locked with ⟨tuples, taken, step⟩ | refused
        · rw [taken] at returned
          cases returned
          refine ⟨step, rfl, ?_, by simp, by simp, fun _ => ?_⟩
          · cases owner : context.hasMasterPartition readKey.table <;>
              simp [ReadKey.holds, ReadKey.cachedRow, owner, ReadType.mode]
          · cases owner : context.hasMasterPartition readKey.table <;>
              simpa [ReadKey.cachedRow, owner] using member
        · rw [refused] at returned
          cases returned
          exact ⟨by simpa using HandlerStep.refl sound, rfl,
            by simp [ReadKey.holds, unread, unwritten], by simp, by simp, by simp [unwritten]⟩

/-- What `delete_request_handler` does. -/
theorem deleteRequestHandler_spec
    {deleteKey : DeleteKey Table K} {handled : Handled Table K V (DeleteKey Table K)}
    (returned : deleteRequestHandler context tables deleteKey = .ok handled) :
    HandlerStep context tables rows holds reserves handled.tables rows handled.acquired [] := by
  unfold deleteRequestHandler at returned
  cases found : search (context.config deleteKey.table) (tables deleteKey.table) deleteKey.key with
  | error failure =>
    rw [found] at returned
    cases returned
  | ok result =>
    rw [found] at returned
    cases result with
    | none =>
      cases returned
      exact .refl sound
    | some offset =>
      have member := search_found (sound deleteKey.table).represents found
      simp only [bind, Except.bind, pure, Except.pure] at returned
      rcases sound.lock .exclusive deleteKey.table (Ledger.row_lockable member) with
        ⟨tuples, taken, step⟩ | refused
      · rw [taken] at returned
        cases returned
        exact step
      · rw [refused] at returned
        cases returned
        simpa using HandlerStep.refl sound

/-- Locks of one table are taken. -/
theorem Sound.relocked {acquired : List (Hold Table)}
    (relocked : Relocked (tables table).tuples tuples)
    (here : ∀ hold ∈ acquired, hold.table = table)
    (ledger : Ledger (context.config table) { tables table with tuples } (rows table)
      (tableHolds table acquired ++ tableHolds table holds) (tableReserves table reserves)) :
    HandlerStep context tables rows holds reserves (setTuples tables table tuples) rows acquired
      [] := by
  refine ⟨sound.retuple (by simpa using ledger) ?_, .setTuples relocked⟩
  intro other apart
  have away : tableHolds other acquired = [] := by
    simpa [tableHolds] using fun hold member same => apart (same.symm.trans (here hold member))
  simp [away]

end

/-- A lock shows nothing. -/
theorem lockTuple_relocked (mode : LockMode) (offset : Offset) (tuples : Tuples K V) :
    Relocked tuples (lockTuple mode offset tuples).2 := by
  have read : ∀ header : TupleHeader, (readLock header).2.valid = header.valid := by
    intro header
    unfold readLock
    split
    · rfl
    · split <;> rfl
  have write : ∀ header : TupleHeader, (writeLock header).2.valid = header.valid := by
    intro header
    unfold writeLock
    split
    · rfl
    · split <;> rfl
  cases mode with
  | shared => exact relocked_setHeader (read _)
  | exclusive => exact relocked_setHeader (write _)

/-- The callback of a scan keeps the rows. -/
theorem scanProcessor_keepsRows (mode : LockMode) :
    (scanProcessor (K := K) (V := V) mode).KeepsRows := by
  intro offset protection captured tuples
  have kept := (lockTuple_relocked mode offset tuples).keeps
  unfold scanProcessor
  split <;> rename_i answer <;> rw [answer] at kept
  · exact kept
  · split <;> exact kept

/-- The rows of a plan are among the rows it is made from, and it stops at one of them or at
the end gap. -/
theorem scanPlan_lockable (config : Config K) (tree : Tree K V) (entries : List (LeafEntry K))
    (minKey maxKey : K) (limit : Nat) :
    let plan := scanPlan config maxKey limit (chosenRows tree entries (fromKey config minKey)) 0
    (∀ row ∈ plan.1, row ∈ entries) ∧ offsetOf tree plan.2 ∈ lockable tree entries := by
  intro plan
  have inside : ∀ row, some row ∈ plan.1.map some ++ [plan.2] → row ∈ entries := fun row =>
    scanPlan_entries config tree entries minKey maxKey limit
  constructor
  · intro row member
    exact inside row (by simp [member])
  · cases stop : plan.2 with
    | none => exact mem_cons_self
    | some row => exact Ledger.row_lockable (inside row (by simp [stop]))

/-- Repeating a scan returns rows among its results and stops at its protection row. -/
def Window (config : Config K) (tree : Tree K V) (entries : List (LeafEntry K))
    (scanKey : ScanKey Table K) : Prop :=
  ∃ returned stop, scanPlan config scanKey.maxKey scanKey.limit
      (chosenRows tree entries (fromKey config scanKey.minKey)) 0 = (returned, stop) ∧
    returned ⊆ scanKey.results ∧ offsetOf tree stop = scanKey.nextRow

/-- What `scan_request_handler` does. -/
theorem scanRequestHandler_spec (sound : Sound context tables rows holds reserves)
    {scanKey : ScanKey Table K} {handled : Handled Table K V (ScanKey Table K)}
    (bare : scanKey.nextRowLocked = false)
    (returned : scanRequestHandler context tables scanKey = .ok handled) :
    HandlerStep context tables rows holds reserves handled.tables rows handled.acquired [] ∧
      (handled.entry.nextHold ++ handled.entry.rowHolds).Perm
        (handled.acquired ++ (scanKey.nextHold ++ scanKey.rowHolds)) ∧
      (∀ row ∈ handled.entry.results, row ∈ scanKey.results ∨ row ∈ rows scanKey.table) ∧
      handled.entry.table = scanKey.table ∧
      handled.entry.nextRowLocked = handled.success ∧
      handled.entry.processed = (scanKey.processed || handled.success) ∧
      (handled.success = true → Window (context.config scanKey.table) (tables scanKey.table)
        (rows scanKey.table) handled.entry) := by
  have ledger := sound scanKey.table
  obtain ⟨inside, last⟩ := scanPlan_lockable (context.config scanKey.table)
    (tables scanKey.table) (rows scanKey.table) scanKey.minKey scanKey.maxKey
    scanKey.limit
  simp only [scanRequestHandler, ledger.represents.scanRange_plan (scanProcessor_keepsRows _), bind,
    Except.bind, pure, Except.pure] at returned
  obtain ⟨tuples, relocked, ⟨done, locked⟩ | ⟨taken, initial, done, locked⟩⟩ :=
    ledger.attempt scanKey.type.mode _ _ inside last scanKey.results 0
  · rw [done] at returned
    simp only [drop_left] at returned
    cases returned
    refine ⟨sound.relocked relocked ?_ ?_, ?_, ?_, rfl, rfl, by simp,
      fun _ => ⟨_, _, rfl, subset_append_right _ _, rfl⟩⟩
    · simp only [mem_append, mem_map, mem_singleton]
      rintro hold (⟨row, -, rfl⟩ | rfl) <;> rfl
    · refine locked.perm ?_ .rfl
      rw [tableHolds_append, tableHolds_map, tableHolds_self, tableHolds_nil, append_assoc]
      exact perm_middle.trans (((reverse_perm _).symm.append_right _).cons _)
    · have shuffle : ∀ (last : Hold Table) (old new : List (Hold Table)),
          ([last] ++ (old ++ new)).Perm (new ++ [last] ++ ([] ++ old)) := fun last old new => by
        simpa using (perm_append_comm : (last :: old ++ new).Perm (new ++ last :: old))
      rw [ScanKey.nextHold, ScanKey.nextHold, bare, ScanKey.rowHolds, map_append]
      exact shuffle _ _ _
    · intro row member
      exact (mem_append.mp member).imp_right (inside row)
  · rw [done] at returned
    simp only [drop_left] at returned
    cases returned
    refine ⟨sound.relocked relocked ?_ ?_, ?_, ?_, rfl, bare, by simp,
      fun failed => by cases failed⟩
    · simp only [mem_map]
      rintro hold ⟨row, -, rfl⟩
      rfl
    · refine locked.perm ?_ .rfl
      rw [tableHolds_map]
      exact (reverse_perm _).symm.append_right _
    · rw [ScanKey.nextHold, ScanKey.nextHold, bare, ScanKey.rowHolds, map_append]
      have swap : ∀ old new : List (Hold Table), ([] ++ (old ++ new)).Perm (new ++ ([] ++ old)) :=
        fun old new => by simpa using perm_append_comm
      exact swap _ _
    · intro row member
      exact (mem_append.mp member).imp_right fun later =>
        inside row (initial.subset later)

/-- An insert reserves its key, with the row after it locked if that is asked for, or does
nothing. -/
theorem insertRequestHandler_spec [Inhabited K]
    (sound : Sound context tables rows holds reserves)
    {handled : Handled Table K V (InsertKey Table K V)} (bare : insertKey.nextRowLocked = false)
    (returned : insertRequestHandler context tables insertKey = .ok handled) :
    (handled.success = false ∧ handled.entry = insertKey ∧ handled.acquired = [] ∧
      handled.tables = tables) ∨
    ∃ entries, handled.success = true ∧
      handled.entry = { insertKey with
        nextRow := if insertKey.requireLockNextKey then nextRow (context.config insertKey.table)
          (tables insertKey.table) (rows insertKey.table) insertKey.key else insertKey.nextRow
        nextRowLocked := insertKey.requireLockNextKey
        processed := true } ∧
      handled.acquired = handled.entry.holds ∧
      HandlerStep context tables rows holds reserves handled.tables
        (Function.update rows insertKey.table entries) handled.acquired [handled.entry] := by
  have ledger := sound insertKey.table
  simp only [insertRequestHandler, ledger.represents.rowAfter, bind, Except.bind, pure,
    Except.pure] at returned
  rcases ledger.insert insertKey with
    thrown | refused | ⟨after, entries, done, quiet, entered⟩
  · -- a handler that is refused memory does not return
    rw [thrown] at returned
    cases returned
  · rw [refused] at returned
    cases returned
    exact .inl ⟨rfl, rfl, rfl, update_eq_self _ _⟩
  · right
    rw [done] at returned
    refine ⟨entries, ?_⟩
    cases require : insertKey.requireLockNextKey with
    | false =>
      simp only [require, if_true, Bool.false_eq_true, if_false] at returned
      cases returned
      refine ⟨rfl, by simp [bare], by simp [InsertKey.holds, bare], ?_, .update quiet⟩
      refine sound.update ?_ ?_
      · simpa [require, tableReserves] using entered
      · intro other apart
        simp [apart.symm]
    | true =>
      simp only [require, if_true] at returned
      cases returned
      refine ⟨rfl, by simp, by simp [InsertKey.holds], ?_, .update quiet⟩
      refine sound.update ?_ ?_
      · simpa [require, tableReserves] using entered
      · intro other apart
        simp [apart.symm]

/-! ## The steps of commit and abort -/

/-- The tuple of a row is rewritten, and its key shows what the change says if the coordinator gets
at the values of the table. -/
def Rewrites (context : Context Table K V) (tables : Tables Table K V)
    (rows : Table → List (LeafEntry K)) (after : Tables Table K V)
    (change : Change Table K V) : Prop :=
  ∃ entry ∈ rows change.table, ∃ tuple : TupleNode K V, entry.key = change.key ∧
    (tuple.header.valid = .visible ↔ change.value.isSome = true) ∧
    (context.Reaches change.table →
      showing (tuple.header.valid, tuple.value) = change.value) ∧
    after = setTuples tables change.table
      (Function.update (tables change.table).tuples entry.tupleOffset tuple)

/-- A step of `commit` or `abort` that has what it relies on: it returns, gives the locks back
and ends the placeholders it is meant to, and what is seen of it is the change it makes. -/
structure ActionStep (context : Context Table K V) (tables : Tables Table K V)
    (rows : Table → List (LeafEntry K)) (holds : List (Hold Table))
    (reserves : List (InsertKey Table K V)) (action : Action Table K V)
    (effect : Effect Table K V) : Prop where
  returned : action.run context tables = .ok effect
  released : effect.released = action.holds
  changes : effect.changes = action.changes
  sound : Sound context effect.tables rows holds reserves
  seen : (action.changes = [] ∧ AllQuiet tables rows effect.tables rows) ∨
    ∃ change, action.changes = [change] ∧ Rewrites context tables rows effect.tables change

/-- A lock is released. -/
theorem release_step {hold : Hold Table} {version : Option Nat}
    (sound : Sound context tables rows (hold :: holds) reserves) :
    ∃ effect, ActionStep context tables rows holds reserves (.release hold version) effect := by
  obtain ⟨mode, table, offset⟩ := hold
  have ledger := sound table
  rw [tableHolds_self] at ledger
  obtain ⟨header, undone, valid, after⟩ := ledger.release version
  refine ⟨⟨setTupleHeader tables table offset header, _, []⟩, ⟨?_, rfl, rfl, ?_, .inl ⟨rfl, ?_⟩⟩⟩
  · simp only [Action.run, releaseHold, undone]
    rfl
  · refine sound.retuple after fun other apart => ?_
    simp [apart.symm]
  · exact .setTuples (relocked_setHeader valid)

/-- An insert is published. -/
theorem publish_step (sound : Sound context tables rows holds (insertKey :: reserves)) :
    ∃ effect, ActionStep context tables rows holds reserves (.publish insertKey) effect := by
  have ledger := sound insertKey.table
  rw [tableReserves_self] at ledger
  obtain ⟨entry, member, key, state, value, after⟩ := ledger.publish
  have found : searchIncludingInvalid (context.config insertKey.table) (tables insertKey.table)
      insertKey.key = .ok (some entry.tupleOffset) := by
    rw [ledger.represents.searchIncludingInvalid, ← key, ledger.represents.rowOf_eq member]
    rfl
  refine ⟨⟨setTupleHeader tables insertKey.table entry.tupleOffset
      (modifyTupleValidBit true ((tables insertKey.table).tuples entry.tupleOffset).header), [],
      [⟨insertKey.table, insertKey.key, some insertKey.value⟩]⟩,
    ⟨?_, rfl, rfl, sound.retuple after ?_, .inr ⟨_, rfl, entry, member, _, key, iff_of_true rfl rfl,
      ?_, rfl⟩⟩⟩
  · simp only [Action.run, found, bind, Except.bind, pure, Except.pure, value]
  · intro other apart
    simp [apart.symm]
  · intro _
    simp [showing, modifyTupleValidBit, value]

/-- An insert is taken back. -/
theorem discard_step (sound : Sound context tables rows holds (insertKey :: reserves)) :
    ∃ effect, ActionStep context tables rows holds reserves (.discard insertKey) effect := by
  have ledger := sound insertKey.table
  rw [tableReserves_self] at ledger
  obtain ⟨entry, member, key, state, done, after⟩ := ledger.discard
  refine ⟨⟨Function.update tables insertKey.table (buried (tables insertKey.table)
    entry.tupleOffset), [], []⟩, ⟨?_, rfl, rfl, ?_, .inl ⟨rfl, ?_⟩⟩⟩
  · simp only [Action.run, done, bind, Except.bind, pure, Except.pure, if_true]
  · have updated := sound.update after fun other apart => ⟨rfl, by simp [apart.symm]⟩
    rwa [update_eq_self] at updated
  · have quiet : Quiet (tables insertKey.table) (rows insertKey.table)
        (buried (tables insertKey.table) entry.tupleOffset) (rows insertKey.table) :=
      Quiet.rewrite rfl rfl (by simp [state]) (by simp)
    have all := AllQuiet.update quiet
    rwa [update_eq_self] at all

variable {row : RowEntity K}

/-- A row is deleted. -/
theorem bury_step (member : row ∈ rows table)
    (sound : Sound context tables rows (⟨.exclusive, table, row.tupleOffset⟩ :: holds) reserves) :
    ∃ effect, ActionStep context tables rows holds reserves (.bury table row) effect := by
  have ledger := sound table
  rw [tableHolds_self] at ledger
  obtain ⟨header, undone, valid, after⟩ := ledger.bury member
  refine ⟨⟨setTupleHeader tables table row.tupleOffset header, _, _⟩,
    ⟨?_, rfl, rfl, sound.retuple after ?_,
      .inr ⟨_, rfl, row, member, _, rfl, by simp [valid], ?_, rfl⟩⟩⟩
  · simp [Action.run, releaseHold, setTupleHeader, setTuples, setHeader, undone]
  · intro other apart
    simp [apart.symm]
  · intro _
    simp [showing, valid]

/-- A row is updated. -/
theorem update_step (value : V) (member : row ∈ rows table)
    (locked : ⟨.exclusive, table, row.tupleOffset⟩ ∈ holds)
    (sound : Sound context tables rows holds reserves) :
    ∃ effect, ActionStep context tables rows holds reserves (.update table row value) effect := by
  have held : (LockMode.exclusive, row.tupleOffset) ∈ tableHolds table holds :=
    mem_filterMap.mpr ⟨_, locked, if_pos rfl⟩
  have visible := ((sound table).visible _ held).2
  have state : ((tables table).tuples row.tupleOffset).header.valid = .visible := by
    simpa [isVisible] using visible
  have after := (sound table).store member visible
    (context.write table ((tables table).tuples row.tupleOffset).value value)
  refine ⟨⟨setTupleValue tables table row.tupleOffset _, _, _⟩,
    ⟨rfl, rfl, rfl, sound.retuple after fun _ _ => ⟨rfl, rfl⟩,
      .inr ⟨_, rfl, row, member, _, rfl, by simp [state], ?_, rfl⟩⟩⟩
  intro reaches
  simp [showing, state, Context.write, if_pos reaches]

/-- A row is written again. -/
theorem rewrite_step (sound : Sound context tables rows holds reserves) :
    ∃ effect, ActionStep context tables rows holds reserves (.rewrite table row) effect := by
  have same : setTupleValue tables table row.tupleOffset
      ((tables table).tuples row.tupleOffset).value = tables := by
    simp [setTupleValue]
  refine ⟨⟨tables, [], []⟩, ⟨?_, rfl, rfl, sound, .inl ⟨rfl, .refl tables rows⟩⟩⟩
  simp only [Action.run, same]
  rfl

/-- Every action that is backed. -/
theorem Action.run_step {action : Action Table K V} (backed : action.Backed rows holds)
    (sound : Sound context tables rows (action.holds ++ holds) (action.reserves ++ reserves)) :
    ∃ effect, ActionStep context tables rows holds reserves action effect := by
  cases action with
  | publish insertKey => exact publish_step sound
  | discard insertKey => exact discard_step sound
  | bury table row => exact bury_step backed sound
  | update table row value => exact update_step value backed.1 backed.2 sound
  | rewrite table row => exact rewrite_step sound
  | release hold version => exact release_step sound

/-! ## What the keys show -/

/-- A change applied to what the keys show. -/
def Change.apply [DecidableEq K] (contents : Table → K → Option V) (change : Change Table K V) :
    Table → K → Option V :=
  Function.update contents change.table
    (Function.update (contents change.table) change.key change.value)

/-- What a rewritten row shows. -/
theorem Rewrites.shows [DecidableEq K] {after : Tables Table K V} {change : Change Table K V}
    {holds' : List (Hold Table)} {reserves' : List (InsertKey Table K V)}
    (rewrites : Rewrites context tables rows after change) (reaches : context.Reaches change.table)
    (sound : Sound context tables rows holds reserves)
    (still : Sound context after rows holds' reserves') :
    shows context after = change.apply (shows context tables) := by
  obtain ⟨entry, member, tuple, key, -, value, rfl⟩ := rewrites
  have represents := (sound change.table).represents
  have later := (still change.table).represents
  have row := represents.rowOf_eq member
  funext table
  by_cases same : table = change.table
  · subst same
    have rewritten : (setTuples tables change.table (Function.update
        (tables change.table).tuples entry.tupleOffset tuple) change.table).tuples =
          Function.update (tables change.table).tuples entry.tupleOffset tuple := by
      simp [setTuples]
    have updated := represents.visibleValue_update later
      (contentsOf_rewrite represents.rows row rewritten)
    rw [value reaches, key] at updated
    rw [Change.apply, Function.update_self]
    exact updated
  · funext key
    rw [Change.apply, update_of_ne same, TwoPLPasha.shows, TwoPLPasha.shows, setTuples,
      update_of_ne same]

end UbApplication.Tigon.TwoPLPasha
