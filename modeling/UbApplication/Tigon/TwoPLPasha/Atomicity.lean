import Mathlib.Data.List.Count
import UbApplication.Tigon.BPlusTree.Refinement
import UbApplication.Tigon.TwoPLPasha.Invariant

/-!
# Transactions are atomic

In every run a transaction that never calls `delete_row` gives back every lock it took
exactly once, makes its inserts, updates and deletions visible if it commits, and makes no
change if it aborts. The lock word of every tuple counts the locks taken and not given back,
and what the keys show is made up by the changes on record.

Neither `commit` nor `abort` looks at the set of point deletes of `delete_row`.
-/

namespace UbApplication.Tigon.TwoPLPasha

open BPlusTree List

variable {Table K V : Type}

/-- What a transaction asks for: its inserts, the deletion of the rows it scanned for that, its
point deletes and its updates. -/
def Txn.effects (txn : Txn Table K V) : List (Change Table K V) :=
  txn.insertSet.map (fun insertKey => ⟨insertKey.table, insertKey.key, some insertKey.value⟩) ++
    (txn.scanSet.filter fun scanKey => scanKey.type = .forDelete).flatMap (fun scanKey =>
      scanKey.results.map fun row => ⟨scanKey.table, row.key, none⟩) ++
    txn.deleteSet.map (fun deleteKey => ⟨deleteKey.table, deleteKey.key, none⟩) ++
    (txn.readSet.filter fun readKey => readKey.writeLockBit).map fun readKey =>
      ⟨readKey.table, readKey.key, some readKey.value⟩

variable [DecidableEq Table] {context : Context Table K V}

/-- The locks transactions took and have not given back. -/
def System.outstanding (system : System Table K V) : List (Hold Table) :=
  system.clients.flatMap fun client => client.acquired.diff client.released

/-- What it means that a transaction is atomic and cleans up, in a state of the system. -/
structure System.Atomic [Inhabited K] [DecidableEq K] (context : Context Table K V)
    (initial : Table → K → Option V) (system : System Table K V) (index : Nat)
    (client : Client Table K V) : Prop where
  /-- `commit` and `abort` go on until they return. -/
  returns : ∀ committed actions, client.phase = .finishing committed actions →
    (system.step context (.client index .act)).isSome
  released : ∀ committed, client.phase = .finished committed →
    client.released.Perm client.acquired
  effects : ∀ committed, client.phase = .finished committed →
    system.made index = if committed then client.txn.effects else []
  /-- Before `commit` nothing is changed and nothing given back. -/
  untouched : ∀ cursor, client.phase = .executing cursor →
    client.released = [] ∧ system.made index = []
  words : ∃ rows : Table → List (LeafEntry K), ∀ table,
    Represents (context.config table) (system.tables table) (rows table) ∧
      ∀ offset ∈ lockable (system.tables table) (rows table),
        HeldBy ((system.tables table).tuples offset).header.lock
          ((tableHolds table system.outstanding).count (.shared, offset))
          ((tableHolds table system.outstanding).count (.exclusive, offset))
  shows : shows context system.tables = System.replay initial system.history

variable {rows : Table → List (LeafEntry K)} {client : Client Table K V}

/-- The locks that are left. -/
theorem Client.Consistent.outstanding {made : List (Change Table K V)}
    (consistent : client.Consistent context rows made) :
    (client.acquired.diff client.released).Perm (client.holds context) := by
  have acquired := consistent.acquired
  have recorded := consistent.recorded
  rw [perm_iff_count] at acquired ⊢
  intro hold
  rw [count_diff, acquired, count_append, Client.holds, count_append]
  unfold Client.Recorded at recorded
  split at recorded
  · simp [recorded.1]
  · have whole := perm_iff_count.mp recorded.2.1 hold
    rw [count_append] at whole
    omega
  · have whole := perm_iff_count.mp recorded.1 hold
    rw [count_nil]
    omega

section Runs

variable [Inhabited K]

/-- No delete appears by itself. -/
theorem System.step_deleteSet {system after : System Table K V} {label : Label Table K V}
    {index : Nat} (other : ∀ table key, label ≠ .client index (.request (.deleteRow table key)))
    (stepped : system.step context label = some after)
    (none : ∀ client ∈ system.clients[index]?, client.txn.deleteSet = []) :
    ∀ client ∈ after.clients[index]?, client.txn.deleteSet = [] := by
  cases label with
  | begin =>
    cases stepped
    intro client found
    rcases Parties.joined found with old | ⟨-, rfl⟩
    · exact none client old
    · rfl
  | client position event =>
    obtain ⟨party, next, tables', changes, found, steps, rfl⟩ := System.step_client stepped
    intro client there
    by_cases same : position = index
    · subst same
      have before := none party found
      have bound := (List.getElem?_eq_some_iff.mp found).1
      rw [getElem?_set_self bound] at there
      cases there
      cases steps with
      | request request idle =>
        cases request with
        | deleteRow table key => exact absurd rfl (other table key)
        | search | scan | insertRow => exact before
      | delete index entry handled cursor next executing found =>
        rw [before] at found
        cases found
      | assign | moves | read | scan | insert | commit | abort | act | finish => exact before
    · rw [getElem?_set_ne same] at there
      exact none client there

variable [DecidableEq K]

/-- The next step of `commit` or `abort` is possible. -/
theorem System.Invariant.act_isSome {initial : Table → K → Option V} {system : System Table K V}
    (invariant : System.Invariant context initial system rows)
    {index : Nat} (found : system.clients[index]? = some client)
    {committed : Bool} {actions : List (Action Table K V)}
    (finishing : client.phase = .finishing committed actions) :
    (system.step context (.client index .act)).isSome := by
  cases actions with
  | nil => simp [System.step, found, Client.step, finishing]
  | cons action actions =>
    have sound := invariant.sound.perm (Parties.owned_perm (Client.holds context) found).symm
      (Parties.owned_perm Client.reserves found).symm
    obtain ⟨⟨backed, -⟩, -, -⟩ :=
      (invariant.consistent index client found).recorded.finishing finishing
    simp only [Client.holds, Client.reserves, finishing, flatMap_cons, append_assoc] at sound
    obtain ⟨effect, step⟩ := Action.run_step
      (backed.mono (fun _ _ member => member) (subset_append_left _ _)) sound
    simp [System.step, found, Client.step, finishing, step.returned]

end Runs

/-! ## An instance -/

/-- One table of numbers, on the coordinator that owns it. -/
def numbersContext : Context Unit Nat Nat :=
  ⟨fun _ => numbers, fun _ => true, fun _ => RowLayout.warehouse, fun _ value => value,
    fun _ _ value => value⟩

/-- The table when it has just been created. -/
def numbersTables : Tables Unit Nat Nat := fun _ => (runOn (create numbers) blank).2

/-- The sample is at rest. -/
theorem numbersTables_atRest : AtRest numbersContext numbersTables fun _ => [] := by
  intro table
  obtain ⟨after, made, represents⟩ := create_spec numbers_succeeds blank
  have same : numbersTables table = after := by rw [numbersTables, made]
  refine ⟨same ▸ represents, ?_⟩
  simp only [lockable, map_nil, mem_singleton]
  rintro offset rfl
  cases table
  decide +kernel

/-- The steps of one transaction. -/
def asClient (index : Nat) (events : List (Event Unit Nat Nat)) : List (Label Unit Nat Nat) :=
  events.map (.client index)

/-- One transaction inserts a key and commits, another one deletes it and commits. -/
def deleteRun : List (Label Unit Nat Nat) :=
  .begin :: asClient 0 [.request (.insertRow () 5 50 true), .process, .advance, .advance, .advance,
      .advance, .advance, .commit 0 0, .act, .act, .act] ++
    .begin :: asClient 1 [.request (.deleteRow () 5), .process, .advance, .advance, .advance,
      .advance, .advance, .commit 0 0, .act]

/-- What a transaction leaves behind. -/
structure Report (Table K V : Type) where
  committed : Option Bool
  acquired : List (Hold Table)
  released : List (Hold Table)
  effects : List (Change Table K V)
  made : List (Change Table K V)
  deriving DecidableEq, Repr

def System.report (system : System Table K V) (index : Nat) :
    Option (Report Table K V) :=
  system.clients[index]?.map fun client =>
    ⟨match client.phase with
      | .finished committed => some committed
      | _ => none, client.acquired, client.released, client.txn.effects, system.made index⟩

omit [DecidableEq Table] in
/-- What a report of the end says. -/
theorem System.report_finished {system : System Table K V} {index : Nat} {committed : Bool}
    {acquired released : List (Hold Table)} {effects made : List (Change Table K V)}
    (reported : system.report index = some ⟨some committed, acquired, released, effects, made⟩) :
    ∃ client, system.clients[index]? = some client ∧ client.phase = .finished committed ∧
      client.acquired = acquired ∧ client.released = released ∧ client.txn.effects = effects ∧
      system.made index = made := by
  obtain ⟨client, found, same⟩ := Option.map_eq_some_iff.mp reported
  simp only [Report.mk.injEq] at same
  obtain ⟨phase, same⟩ := same
  refine ⟨client, found, ?_, same⟩
  cases here : client.phase <;> rw [here] at phase <;> cases phase
  rfl

/-! ## Atomicity -/

/-- In every run from a database at rest, a transaction that never calls `delete_row` is
atomic and cleans up, if the rows of the tables that the coordinator does not own are packed. -/
theorem transaction_atomic [Inhabited K] [DecidableEq K] {tables : Tables Table K V}
    {rows : Table → List (LeafEntry K)}
    {labels : List (Label Table K V)} {system : System Table K V}
    (rest : AtRest context tables rows) (reaches : ∀ table, context.Reaches table)
    (taken : Machine.run (System.step context) (.started tables) labels = some system)
    {index : Nat} {client : Client Table K V} (found : system.clients[index]? = some client)
    (noDelete : ∀ table key, .client index (.request (.deleteRow table key)) ∉ labels) :
    System.Atomic context (shows context tables) system index client := by
  obtain ⟨rows', invariant⟩ := System.Invariant.run rest taken
  have consistent := invariant.consistent index client found
  have empty : client.txn.deleteSet = [] := by
    have always := Machine.run_invariant
      (fun label => ∀ table key, label ≠ .client index (.request (.deleteRow table key)))
      (fun system => ∀ client ∈ system.clients[index]?, client.txn.deleteSet = [])
      (fun before label next none other stepped => System.step_deleteSet other stepped none)
      (fun label member table key same => noDelete table key (by rwa [same] at member))
      (by simp [System.started]) taken
    exact always client found
  have bare := consistent.deletes empty
  have acquired := consistent.acquired
  rw [bare, append_nil] at acquired
  refine ⟨fun _ _ finishing => invariant.act_isSome found finishing, ?_, ?_, ?_, ?_,
    invariant.shows reaches⟩
  · intro committed finished
    have recorded := consistent.recorded
    rw [Client.Recorded, finished] at recorded
    exact recorded.1.trans acquired.symm
  · intro committed finished
    have recorded := consistent.recorded
    rw [Client.Recorded, finished] at recorded
    simpa [Txn.effects, Txn.applied, empty] using recorded.2
  · intro cursor executing
    exact consistent.recorded.executing executing
  · refine ⟨rows', fun table => ⟨(invariant.sound table).represents, fun offset member => ?_⟩⟩
    have same : system.outstanding.Perm (system.holds context) :=
      List.Perm.flatMap_left _ fun party inside => by
        obtain ⟨position, there⟩ := mem_iff_getElem?.mp inside
        exact (invariant.consistent position party there).outstanding
    exact (invariant.sound.perm same .rfl table).words offset member

/-- The first transaction of the run is atomic, the second one notwithstanding. -/
theorem transaction_atomic_sample : ∃ system client,
    Machine.run (System.step numbersContext) (.started numbersTables) deleteRun = some system ∧
    system.clients[0]? = some client ∧ client.phase = .finished true ∧
    client.acquired = [⟨.exclusive, (), 128⟩] ∧ client.txn.effects = [⟨(), 5, some 50⟩] ∧
    System.Atomic numbersContext (shows numbersContext numbersTables) system 0 client := by
  have seen : (Machine.run (System.step numbersContext) (.started numbersTables) deleteRun).map
      (fun system => system.report 0) = some (some ⟨some true, [⟨.exclusive, (), 128⟩],
        [⟨.exclusive, (), 128⟩], [⟨(), 5, some 50⟩], [⟨(), 5, some 50⟩]⟩) := by
    decide +kernel
  obtain ⟨system, taken, reported⟩ := Option.map_eq_some_iff.mp seen
  obtain ⟨client, found, phase, acquired, released, effects, made⟩ :=
    System.report_finished reported
  refine ⟨system, client, taken, found, phase, acquired, effects, ?_⟩
  exact transaction_atomic numbersTables_atRest (fun _ => .inl rfl) taken found
    (by simp [deleteRun, asClient])

/-- A committed point delete: the row is locked and stays locked, and the deletion that was
asked for is not made. -/
theorem delete_row_leaks : ∃ system client,
    Machine.run (System.step numbersContext) (.started numbersTables) deleteRun = some system ∧
    system.clients[1]? = some client ∧ client.phase = .finished true ∧
    client.acquired = [⟨.exclusive, (), 192⟩] ∧ client.released = [] ∧
    client.txn.effects = [⟨(), 5, none⟩] ∧ system.made 1 = [] ∧
    shows numbersContext system.tables () 5 = some 50 ∧
    ((system.tables ()).tuples 192).header.lock = writerBit ∧
    ¬ System.Atomic numbersContext (shows numbersContext numbersTables) system 1 client := by
  have seen : (Machine.run (System.step numbersContext) (.started numbersTables) deleteRun).map
      (fun system => (system.report 1, shows numbersContext system.tables () 5,
        ((system.tables ()).tuples 192).header.lock)) =
      some (some ⟨some true, [⟨.exclusive, (), 192⟩], [], [⟨(), 5, none⟩], []⟩, some 50,
        writerBit) := by
    decide +kernel
  obtain ⟨system, taken, same⟩ := Option.map_eq_some_iff.mp seen
  simp only [Prod.mk.injEq] at same
  obtain ⟨reported, shown, word⟩ := same
  obtain ⟨client, found, phase, acquired, released, effects, made⟩ :=
    System.report_finished reported
  refine ⟨system, client, taken, found, phase, acquired, released, effects, made, shown, word, ?_⟩
  intro atomic
  have returned := (atomic.released true phase).length_eq
  simp [acquired, released] at returned

end UbApplication.Tigon.TwoPLPasha
