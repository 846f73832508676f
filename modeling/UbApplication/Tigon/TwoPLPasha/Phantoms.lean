import UbApplication.Tigon.BPlusTree.Window
import UbApplication.Tigon.TwoPLPasha.Atomicity

/-!
# Scans are free of phantoms

A transaction that makes a key visible has locked the row after it for writing, and one
that deletes a row has locked that row for writing. A scan has locked the rows it returns
and the row it stops at. Locks for writing are alone, so such a step touches none of these
rows, and a scan that is repeated while its locks are held returns what it returned before.
-/

namespace UbApplication.Tigon.TwoPLPasha

open BPlusTree List

variable {Table K V : Type} [DecidableEq Table] {context : Context Table K V}
  {tables tables' : Tables Table K V} {rows rows' : Table → List (LeafEntry K)}
  {holds : List (Hold Table)} {reserves : List (InsertKey Table K V)}

/-! ## Locks for writing are alone -/

/-- A writer's row is held by no other. -/
theorem Sound.apart {left right : List (Hold Table)}
    (sound : Sound context tables rows (left ++ right) reserves) {mine theirs : Hold Table}
    (inLeft : mine ∈ left) (writes : mine.mode = .exclusive) (inRight : theirs ∈ right)
    (same : theirs.table = mine.table) : theirs.offset ≠ mine.offset := by
  obtain ⟨mode, table, offset⟩ := mine
  obtain ⟨others, listed⟩ : ∃ others, left.Perm (⟨mode, table, offset⟩ :: others) :=
    ⟨_, perm_cons_erase inLeft⟩
  have ledger := sound.perm ((listed.append_right right).symm) .rfl table
  cases writes
  rw [cons_append, tableHolds_self] at ledger
  intro equal
  refine ledger.writer_alone theirs.mode (mem_filterMap.mpr
    ⟨theirs, mem_append_right _ inRight, ?_⟩)
  rw [if_pos same, equal]

/-- Two lists of locks have no tuple in common. -/
def ApartFrom (first second : List (Hold Table)) : Prop :=
  ∀ mine ∈ first, ∀ theirs ∈ second, theirs.table = mine.table → theirs.offset ≠ mine.offset

/-- The locks a placeholder and a scan of one transaction took are on different tuples, and so
are those of two placeholders. -/
structure Txn.Apart (txn : Txn Table K V) : Prop where
  inserts : txn.insertSet.Pairwise fun first second => ApartFrom first.holds second.holds
  scans : ∀ insertKey ∈ txn.insertSet, ∀ scanKey ∈ txn.scanSet,
    ApartFrom insertKey.holds (scanKey.nextHold ++ scanKey.rowHolds)

omit [DecidableEq Table] in
/-- Inserts lock exclusively. -/
theorem InsertKey.holds_exclusive (insertKey : InsertKey Table K V) :
    ∀ hold ∈ insertKey.holds, hold.mode = .exclusive := by
  intro hold member
  unfold InsertKey.holds at member
  split at member
  · rw [mem_singleton.mp member]
  · cases member

/-- The locks of a transaction are apart. -/
theorem Sound.txn_apart {txn : Txn Table K V} {more : List (Hold Table)}
    (sound : Sound context tables rows (txn.holds context ++ more) reserves) : txn.Apart := by
  constructor
  · have inserts : ∀ (list : List (InsertKey Table K V)) (rest : List (Hold Table)),
        Sound context tables rows (list.flatMap InsertKey.holds ++ rest) reserves →
        list.Pairwise fun first second => ApartFrom first.holds second.holds := by
      intro list
      induction list with
      | nil => exact fun _ _ => .nil
      | cons insertKey list ih =>
        intro rest sound
        rw [flatMap_cons, append_assoc] at sound
        refine pairwise_cons.mpr ⟨fun other inside mine first theirs second => ?_, ?_⟩
        · exact sound.apart first (insertKey.holds_exclusive mine first)
            (mem_append_left _ (mem_flatMap.mpr ⟨other, inside, second⟩))
        · exact ih (insertKey.holds ++ rest) (sound.perm (perm_append_comm_assoc _ _ _) .rfl)
    refine inserts txn.insertSet (txn.readSet.flatMap (ReadKey.holds context) ++
      (txn.scanSet.flatMap (fun scanKey => scanKey.nextHold ++ scanKey.rowHolds) ++ more))
      (sound.perm ?_ .rfl)
    simp only [Txn.holds, append_assoc]
    exact perm_append_comm_assoc _ _ _
  · intro insertKey inside scanKey listed mine first theirs second
    rw [Txn.holds, append_assoc] at sound
    exact sound.apart (mem_append_right _ (mem_flatMap.mpr ⟨insertKey, inside, first⟩))
      (insertKey.holds_exclusive mine first)
      (mem_append_left _ (mem_flatMap.mpr ⟨scanKey, listed, second⟩))

/-! ## What a step touches -/

/-- In every table rows at the front stay there unless one of them is touched. -/
def AllMoves (context : Context Table K V) (tables : Tables Table K V)
    (rows : Table → List (LeafEntry K)) (tables' : Tables Table K V)
    (rows' : Table → List (LeafEntry K)) (touched : List (Hold Table)) : Prop :=
  ∀ table, Moves (context.config table) (tables table) (rows table) (tables' table) (rows' table)
    fun offset => ∃ hold ∈ touched, hold.table = table ∧ hold.offset = offset

/-- The locks on the rows that a step of `commit` or `abort` touches. -/
def Action.touched : Action Table K V → List (Hold Table)
  | .publish insertKey => insertKey.holds
  | .bury table row => [⟨.exclusive, table, row.tupleOffset⟩]
  | _ => []

variable {touched : List (Hold Table)}

/-- The tuples of one table change. -/
theorem AllMoves.setTuples {table : Table} {tuples : Tuples K V}
    (here : Moves (context.config table) (tables table) (rows table) { tables table with tuples }
      (rows table) fun offset => ∃ hold ∈ touched, hold.table = table ∧ hold.offset = offset) :
    AllMoves context tables rows (setTuples tables table tuples) rows touched := by
  intro other
  by_cases same : other = table
  · subst same
    simpa [TwoPLPasha.setTuples] using here
  · have unchanged : TwoPLPasha.setTuples tables table tuples other = tables other := by
      simp [TwoPLPasha.setTuples, same]
    rw [unchanged]
    exact .quiet (AllQuiet.refl tables rows other)

/-- A key has one row. -/
theorem Sound.row_unique (sound : Sound context tables rows holds reserves) {table : Table}
    {first second : LeafEntry K} (one : first ∈ rows table) (other : second ∈ rows table)
    (same : first.key = second.key) : first = second := by
  have found := (sound table).represents.rowOf_eq one
  rw [same, (sound table).represents.rowOf_eq other] at found
  exact (Option.some.inj found).symm

variable {effect : Effect Table K V} {action : Action Table K V}

/-- A step of `commit` or `abort` moves nothing in front of the rows it touches. -/
theorem ActionStep.moves (step : ActionStep context tables rows holds reserves action effect)
    (sound : Sound context tables rows (action.holds ++ holds) (action.reserves ++ reserves))
    (backed : action.Backed rows holds)
    (gap : ∀ insertKey, action = .publish insertKey → ⟨.exclusive, insertKey.table, nextRow
      (context.config insertKey.table) (tables insertKey.table)
        (rows insertKey.table) insertKey.key⟩ ∈
      insertKey.holds) :
    AllMoves context tables rows effect.tables rows action.touched := by
  rcases step.seen with ⟨-, quiet⟩ | ⟨change, changes, entry, member, tuple, key, shown, -, after⟩
  · exact fun table => .quiet (quiet table)
  rw [after]
  have represents := (sound change.table).represents
  cases action with
  | discard | rewrite | release => cases changes
  | publish insertKey =>
    cases changes
    obtain ⟨row, there, sameKey, placeholder, -⟩ := (sound insertKey.table).reserved
      (insertKey.key, insertKey.value) (by simp [Action.reserves])
    have same := sound.row_unique member there (key.trans sameKey.symm)
    subst same
    refine .setTuples (.appear represents member rfl rfl ?_ (shown.mpr rfl)
      ⟨_, gap insertKey rfl, rfl, ?_⟩)
    · simp [isVisible, placeholder]
    · rw [key]
  | bury table row =>
    cases changes
    have same := sound.row_unique member backed key
    subst same
    have held : (LockMode.exclusive, entry.tupleOffset) ∈
        tableHolds table (Action.holds (.bury table entry : Action Table K V) ++ holds) := by
      simp [Action.holds]
    have hidden : tuple.header.valid ≠ .visible := fun visible => by cases shown.mp visible
    exact .setTuples (.vanish represents member rfl rfl ((sound table).visible _ held).2 hidden
      ⟨_, mem_singleton_self _, rfl, rfl⟩)
  | update table row value' =>
    cases changes
    have same := sound.row_unique member backed.1 key
    subst same
    have held : (LockMode.exclusive, entry.tupleOffset) ∈
        tableHolds table (Action.holds (.update table entry value' : Action Table K V) ++ holds) :=
      mem_filterMap.mpr ⟨_, mem_append_right _ backed.2, if_pos rfl⟩
    refine .setTuples (.rewrite represents member rfl rfl ?_)
    rw [((sound table).visible _ held).2]
    simp [isVisible, shown.mpr rfl]

/-! ## Gaps and windows -/

def ScanKey.locks (scanKey : ScanKey Table K) : List (Hold Table) :=
  scanKey.nextHold ++ scanKey.rowHolds

/-- The row after an inserted key is locked. -/
def Gap (context : Context Table K V) (tables : Tables Table K V)
    (rows : Table → List (LeafEntry K)) (insertKey : InsertKey Table K V) : Prop :=
  insertKey.nextRowLocked = true ∧ nextRow (context.config insertKey.table)
    (tables insertKey.table) (rows insertKey.table) insertKey.key = insertKey.nextRow

/-- The locks of a transaction guard what it looked at: the rows after its placeholders, and
what its scans returned. -/
structure Client.Guarded (context : Context Table K V) (tables : Tables Table K V)
    (rows : Table → List (LeafEntry K)) (client : Client Table K V) : Prop where
  required : ∀ insertKey ∈ client.txn.insertSet, insertKey.requireLockNextKey = true
  locked : ∀ scanKey ∈ client.txn.scanSet, scanKey.processed = true → scanKey.nextRowLocked = true
  apart : ∀ committed actions, client.phase = .finishing committed actions → client.txn.Apart
  pending : ∀ committed actions, client.phase = .finishing committed actions →
    (actions.flatMap Action.reserves).Sublist client.txn.insertSet
  gaps : ∀ insertKey ∈ client.reserves, Gap context tables rows insertKey
  windows : ∀ scanKey ∈ client.txn.scanSet, scanKey.processed = true →
    scanKey.locks ⊆ client.holds context →
    Window (context.config scanKey.table) (tables scanKey.table) (rows scanKey.table) scanKey

omit [DecidableEq Table] in
/-- The gap of an insert stays. -/
theorem Gap.moves {insertKey : InsertKey Table K V} (gap : Gap context tables rows insertKey)
    (moves : AllMoves context tables rows tables' rows' touched)
    (apart : ApartFrom touched insertKey.holds) : Gap context tables' rows' insertKey := by
  refine ⟨gap.1, ((moves insertKey.table).nextRow ?_).trans gap.2⟩
  rintro ⟨hold, inside, table, offset⟩
  have mine : (⟨.exclusive, insertKey.table, insertKey.nextRow⟩ : Hold Table) ∈
    insertKey.holds := by
    simp [InsertKey.holds, gap.1]
  exact apart hold inside _ mine table.symm (gap.2.symm.trans offset.symm)

variable {scanKey : ScanKey Table K}

omit [DecidableEq Table] in
/-- What a scan has locked. -/
theorem ScanKey.untouched
    (locked : scanKey.nextRowLocked = true) (apart : ApartFrom touched scanKey.locks)
    {tree : Tree K V} {returned : List (LeafEntry K)} {stop : Option (LeafEntry K)}
    (listed : returned ⊆ scanKey.results) (last : offsetOf tree stop = scanKey.nextRow) :
    (∀ row ∈ returned, ¬ ∃ hold ∈ touched, hold.table = scanKey.table ∧
      hold.offset = row.tupleOffset) ∧
    ¬ ∃ hold ∈ touched, hold.table = scanKey.table ∧ hold.offset = offsetOf tree stop := by
  constructor
  · rintro row inside ⟨hold, touches, table, offset⟩
    have mine : scanKey.hold row.tupleOffset ∈ scanKey.locks :=
      mem_append_right _ (mem_map.mpr ⟨row, listed inside, rfl⟩)
    exact apart hold touches _ mine table.symm offset.symm
  · rintro ⟨hold, touches, table, offset⟩
    have mine : scanKey.hold scanKey.nextRow ∈ scanKey.locks :=
      mem_append_left _ (by simp [ScanKey.nextHold, locked])
    exact apart hold touches _ mine table.symm (last.symm.trans offset.symm)

omit [DecidableEq Table] in
/-- The window of a scan stays. -/
theorem Window.moves
    (window : Window (context.config scanKey.table) (tables scanKey.table)
      (rows scanKey.table) scanKey)
    (locked : scanKey.nextRowLocked = true)
    (moves : AllMoves context tables rows tables' rows' touched)
    (apart : ApartFrom touched scanKey.locks) :
    Window (context.config scanKey.table) (tables' scanKey.table)
      (rows' scanKey.table) scanKey := by
  obtain ⟨returned, stop, plan, listed, last⟩ := window
  obtain ⟨inner, final⟩ := ScanKey.untouched locked apart listed last
  refine ⟨returned, stop, (moves scanKey.table).scanPlan plan inner final, listed, ?_⟩
  rw [offsetOf, (moves scanKey.table).endGapOffset]
  exact last

/-- A step of a transaction: the rows it touches are locked for writing by the transaction, are
none that its own placeholders looked at, and none that its own scans still hold. -/
structure Client.Touches (context : Context Table K V) (client next : Client Table K V)
    (touched : List (Hold Table)) : Prop where
  locked : ∀ hold ∈ touched, hold.mode = .exclusive ∧ hold ∈ client.holds context
  gaps : ∀ insertKey ∈ next.reserves, ApartFrom touched insertKey.holds
  scans : ∀ scanKey ∈ next.txn.scanSet, scanKey.locks ⊆ next.holds context →
    ApartFrom touched scanKey.locks

omit [DecidableEq Table] in
/-- A step that touches nothing. -/
theorem Client.Touches.nothing (client next : Client Table K V) :
    Client.Touches context client next [] :=
  ⟨by simp, fun _ _ _ none => by simp at none, fun _ _ _ _ none => by simp at none⟩

variable {touched : List (Hold Table)}

section Steps

variable {client next : Client Table K V} {made changes : List (Change Table K V)}
  {rest : List (Hold Table)} {others : List (InsertKey Table K V)} {event : Event Table K V}
  {insertKey : InsertKey Table K V} {actions : List (Action Table K V)}

omit [DecidableEq Table] in
/-- Reserved rows are locked. -/
theorem AllBacked.reserve_holds (backed : AllBacked rows actions)
    (member : insertKey ∈ actions.flatMap Action.reserves) :
    insertKey.holds ⊆ actions.flatMap Action.holds := by
  induction actions with
  | nil => cases member
  | cons action actions ih =>
    intro hold held
    rw [flatMap_cons] at member ⊢
    rcases mem_append.mp member with here | later
    · cases action with
      | publish other | discard other =>
        rw [mem_singleton.mp here] at held
        exact mem_append_right _ (backed.1 held)
      | bury | update | rewrite | release => cases here
    · exact mem_append_right _ (ih backed.2 later held)

omit [DecidableEq Table] in
/-- A reserved row is of the set. -/
theorem Txn.mem_reserves {txn : Txn Table K V} (member : insertKey ∈ txn.reserves) :
    insertKey ∈ txn.insertSet ∧ insertKey.processed = true := by
  obtain ⟨entry, inside, reserved⟩ := mem_flatMap.mp member
  unfold InsertKey.reserves at reserved
  split at reserved
  · rw [mem_singleton.mp reserved]
    exact ⟨inside, by assumption⟩
  · cases reserved

omit [DecidableEq Table] in
/-- So are all of them. -/
theorem Txn.reserves_sublist (txn : Txn Table K V) : txn.reserves.Sublist txn.insertSet := by
  have same : txn.reserves = txn.insertSet.filter fun insertKey => insertKey.processed := by
    rw [Txn.reserves, ← flatMap_singleton' (txn.insertSet.filter _), Parties.owned_filter]
    rfl
  rw [same]
  exact filter_sublist

omit [DecidableEq Table] in
/-- A client holds its gaps. -/
theorem Client.Consistent.reserve_holds (consistent : client.Consistent context rows made)
    (member : insertKey ∈ client.reserves) :
    insertKey.holds ⊆ client.holds context := by
  intro hold held
  have recorded := consistent.recorded
  unfold Client.reserves at member
  unfold Client.Recorded at recorded
  unfold Client.holds
  split at member <;> rename_i phase <;> simp only [phase] at recorded ⊢
  · refine mem_append_left _ (mem_append_left _ (mem_append_right _ ?_))
    exact mem_flatMap.mpr ⟨insertKey, (Txn.mem_reserves member).1, held⟩
  · exact mem_append_left _ (recorded.1.reserve_holds member held)
  · cases member

variable
    (sound : Sound context tables rows (client.holds context ++ rest) (client.reserves ++ others))
    (consistent : client.Consistent context rows made)
include sound consistent

/-- The rows touched by a step of `commit` or `abort`. -/
theorem Client.touches_act {committed : Bool} (guarded : client.Guarded context tables rows)
    (finishing : client.phase = .finishing committed (action :: actions))
    (returned : action.run context tables = .ok effect) :
    AllMoves context tables rows effect.tables rows action.touched ∧
      Client.Touches context client { client with
        phase := .finishing committed actions
        released := client.released ++ effect.released } action.touched := by
  obtain ⟨⟨backed, later⟩, -, -⟩ := consistent.recorded.finishing finishing
  have listed : action.reserves ⊆ client.reserves := by
    intro insertKey inside
    simp only [Client.reserves, finishing, flatMap_cons]
    exact mem_append_left _ inside
  have owned : action.holds ⊆ client.holds context := by
    intro hold inside
    simp only [Client.holds, finishing, flatMap_cons]
    exact mem_append_left _ (mem_append_left _ inside)
  have order := guarded.pending _ _ finishing
  have apart := guarded.apart _ _ finishing
  have reserveHolds := fun insertKey (member : insertKey ∈ client.reserves) =>
    consistent.reserve_holds member
  have gaps := guarded.gaps
  simp only [Client.holds, Client.reserves, finishing, flatMap_cons, append_assoc] at sound
  have enough : action.Backed rows (actions.flatMap Action.holds ++ (client.deleteHolds ++ rest)) :=
    backed.mono (fun _ _ member => member) (subset_append_left _ _)
  obtain ⟨effect', step⟩ := Action.run_step enough sound
  have same : effect = effect' := Except.ok.inj (returned.symm.trans step.returned)
  subst same
  constructor
  · refine step.moves sound enough fun insertKey published => ?_
    subst published
    have gap := gaps insertKey (listed (mem_singleton_self insertKey))
    simp [InsertKey.holds, gap.1, gap.2]
  · cases action with
    | discard | update | rewrite | release => exact .nothing _ _
    | publish insertKey =>
      have inside : insertKey ∈ client.txn.insertSet := order.subset (by simp [Action.reserves])
      refine ⟨fun hold member => ⟨insertKey.holds_exclusive hold member, ?_⟩, ?_, ?_⟩
      · exact reserveHolds insertKey (listed (mem_singleton_self insertKey)) member
      · intro other member
        exact (pairwise_cons.mp (apart.inserts.sublist order)).1 other member
      · exact fun scanKey member _ => apart.scans insertKey inside scanKey member
    | bury table row =>
      refine ⟨fun hold member => ⟨?_, owned member⟩, ?_, ?_⟩
      · rw [mem_singleton.mp member]
      · intro insertKey member mine first theirs second
        rw [mem_singleton.mp first]
        exact sound.apart (mem_singleton_self _) rfl
          (mem_append_left _ (later.reserve_holds member second))
      · intro scanKey member held mine first theirs second
        rw [mem_singleton.mp first]
        have inside : theirs ∈ actions.flatMap Action.holds ++ (client.deleteHolds ++ rest) := by
          rw [← append_assoc]
          exact mem_append_left _ (held second)
        exact sound.apart (mem_singleton_self _) rfl inside

/-- What a step touches is locked. -/
theorem Client.Steps.touches [Inhabited K]
    (steps : Client.Steps context tables client event next tables' changes)
    (guarded : client.Guarded context tables rows)
    (seen : Seen context tables rows tables' rows' changes) :
    ∃ touched, AllMoves context tables rows tables' rows' touched ∧
      Client.Touches context client next touched := by
  rcases seen with ⟨none, quiet⟩ | ⟨change, one, rfl, -⟩
  · exact ⟨[], fun table => .quiet (quiet table), .nothing client next⟩
  · cases steps with
    | act committed action actions effect finishing returned =>
      exact ⟨action.touched, Client.touches_act sound consistent guarded finishing returned⟩
    | request | assign | moves | read | scan | insert | delete | commit | abort | finish =>
      cases one

omit [DecidableEq Table] sound consistent in
/-- What is guarded stays guarded. -/
theorem Client.Guarded.carry (guarded : client.Guarded context tables rows)
    (moves : AllMoves context tables rows tables' rows' touched)
    (touches : Client.Touches context client next touched)
    (inserts : ∀ insertKey ∈ next.txn.insertSet, insertKey ∈ client.txn.insertSet ∨
      insertKey.requireLockNextKey = true)
    (scans : ∀ scanKey ∈ next.txn.scanSet, scanKey.processed = true → scanKey ∈ client.txn.scanSet ∨
      (scanKey.nextRowLocked = true ∧ Window (context.config scanKey.table) (tables scanKey.table)
      (rows scanKey.table) scanKey))
    (held : ∀ scanKey ∈ client.txn.scanSet, scanKey.locks ⊆ next.holds context → scanKey.locks ⊆
      client.holds context)
    (reserves : ∀ insertKey ∈ next.reserves, insertKey ∈ client.reserves ∨ Gap context tables rows
      insertKey)
    (finishing : ∀ committed actions, next.phase = .finishing committed actions → next.txn.Apart ∧
      (actions.flatMap Action.reserves).Sublist next.txn.insertSet) :
    next.Guarded context tables' rows' where
  required insertKey member := (inserts insertKey member).elim (guarded.required insertKey) id
  locked scanKey member granted :=
    (scans scanKey member granted).elim (fun old => guarded.locked scanKey old granted) And.left
  apart committed actions phase := (finishing committed actions phase).1
  pending committed actions phase := (finishing committed actions phase).2
  gaps insertKey member := by
    have gap := (reserves insertKey member).elim (guarded.gaps insertKey) id
    exact gap.moves moves (touches.gaps insertKey member)
  windows scanKey member granted covered := by
    have apart := touches.scans scanKey member covered
    rcases scans scanKey member granted with old | ⟨locked, window⟩
    · exact (guarded.windows scanKey old granted (held scanKey old covered)).moves
        (guarded.locked scanKey old granted) moves apart
    · exact window.moves locked moves apart

omit [DecidableEq Table] sound consistent in
/-- A client holds its scans. -/
theorem Client.scan_holds {cursor : Cursor} (executing : client.phase = .executing cursor)
    (member : scanKey ∈ client.txn.scanSet) :
    scanKey.locks ⊆ client.holds context := by
  intro hold inside
  simp only [Client.holds, executing]
  refine mem_append_left _ (mem_append_right _ (mem_flatMap.mpr ⟨scanKey, member, ?_⟩))
  exact inside

/-- A step guards what it locks. -/
theorem Client.Steps.guarded [Inhabited K]
    (steps : Client.Steps context tables client event next tables' changes)
    (asks : ∀ table key value, event ≠ .request (.insertRow table key value false))
    (guarded : client.Guarded context tables rows)
    (moves : AllMoves context tables rows tables' rows' touched)
    (touches : Client.Touches context client next touched) :
    next.Guarded context tables' rows' := by
  cases steps with
  | request request idle =>
    have reserves := (client.txn.add_accounts context request).2
    refine guarded.carry moves touches ?_ ?_ (fun _ old _ => Client.scan_holds idle old) ?_ ?_
    · intro insertKey member
      cases request with
      | insertRow table key value requireLockNextKey =>
        rcases mem_append.mp member with old | new
        · exact .inl old
        · right
          rw [mem_singleton.mp new]
          cases requireLockNextKey with
          | true => rfl
          | false => exact absurd rfl (asks table key value)
      | search | scan | deleteRow => exact .inl member
    · intro scanKey member granted
      cases request with
      | scan type table minKey maxKey limit =>
        rcases mem_append.mp member with old | new
        · exact .inl old
        · rw [mem_singleton.mp new] at granted
          cases granted
      | search | insertRow | deleteRow => exact .inl member
    · intro insertKey member
      left
      simp only [Client.reserves, idle] at member ⊢
      rwa [reserves] at member
    · intro committed actions phase
      cases idle.symm.trans phase
  | assign index value idle =>
    refine guarded.carry moves touches (fun _ => .inl) (fun _ old _ => .inl old)
      (fun _ old _ => Client.scan_holds idle old) (fun _ old => .inl old) fun _ _ phase => ?_
    cases idle.symm.trans phase
  | moves _ _ _ executing | read _ _ _ _ _ executing | delete _ _ _ _ _ executing =>
    refine guarded.carry moves touches (fun _ => .inl) (fun _ old _ => .inl old)
      (fun _ old _ => Client.scan_holds executing old) (fun _ old => .inl ?_) fun _ _ phase => ?_
    · simp only [Client.reserves, executing]
      exact old
    · cases phase
  | scan index entry handled cursor next' executing found pending returned =>
    have bare := consistent.txn.scans entry (mem_of_getElem? found) pending
    obtain ⟨-, -, -, table, locked, granted, window⟩ := scanRequestHandler_spec sound bare returned
    refine guarded.carry moves touches (fun _ => .inl) (fun scanKey member done => ?_)
      (fun _ old _ => Client.scan_holds executing old) (fun _ old => .inl ?_) fun _ _ phase => ?_
    · rcases mem_or_eq_of_mem_set member with old | rfl
      · exact .inl old
      · have success : handled.success = true := by
          rw [granted, pending] at done
          simpa using done
        right
        rw [locked, table]
        exact ⟨success, window success⟩
    · simp only [Client.reserves, executing]
      exact old
    · cases phase
  | insert index entry handled cursor next' executing found pending returned =>
    have inside := mem_of_getElem? found
    have asked := guarded.required entry inside
    have bare := consistent.txn.inserts entry inside pending
    have filled : handled.entry.requireLockNextKey = true ∧
        (handled.entry.processed = true → Gap context tables rows handled.entry) := by
      rcases insertRequestHandler_spec sound bare returned with
        ⟨-, same, -, -⟩ | ⟨entries, -, entry', -, -⟩
      · rw [same, pending]
        exact ⟨asked, fun done => by cases done⟩
      · rw [entry', asked]
        exact ⟨rfl, fun _ => ⟨rfl, rfl⟩⟩
    refine guarded.carry moves touches (fun insertKey member => ?_) (fun _ old _ => .inl old)
      (fun _ old _ => Client.scan_holds executing old) (fun insertKey member => ?_)
      fun _ _ phase => ?_
    · rcases mem_or_eq_of_mem_set member with old | rfl
      · exact .inl old
      · exact .inr filled.1
    · obtain ⟨listed, done⟩ := Txn.mem_reserves member
      rcases mem_or_eq_of_mem_set listed with old | rfl
      · left
        simp only [Client.reserves, executing]
        exact mem_flatMap.mpr ⟨insertKey, old, by simp [InsertKey.reserves, done]⟩
      · exact .inr (filled.2 done)
    · cases phase
  | commit maxTid curGlobalEpoch idle ready =>
    simp only [Client.holds, idle, append_assoc] at sound
    refine guarded.carry moves touches (fun _ => .inl) (fun _ old _ => .inl old)
      (fun _ old _ => Client.scan_holds idle old) (fun insertKey member => .inl ?_) ?_
    · simp only [Client.reserves, idle, commitActions_reserves] at member ⊢
      simp only [Txn.ready, Bool.and_eq_true, all_eq_true] at ready
      exact mem_flatMap.mpr ⟨insertKey, member,
        by simp [InsertKey.reserves, ready.1.2 insertKey member]⟩
    · intro committed actions phase
      cases phase
      rw [commitActions_reserves]
      exact ⟨sound.txn_apart, .refl _⟩
  | abort idle =>
    simp only [Client.holds, idle, append_assoc] at sound
    refine guarded.carry moves touches (fun _ => .inl) (fun _ old _ => .inl old)
      (fun _ old _ => Client.scan_holds idle old) (fun insertKey member => .inl ?_) ?_
    · simpa only [Client.reserves, idle, abortActions_reserves] using member
    · intro committed actions phase
      cases phase
      rw [abortActions_reserves]
      exact ⟨sound.txn_apart, client.txn.reserves_sublist⟩
  | act committed action actions effect finishing returned =>
    refine guarded.carry moves touches (fun _ => .inl) (fun _ old _ => .inl old)
      (fun scanKey _ covered hold inside => ?_) (fun insertKey member => .inl ?_) ?_
    · have left := covered inside
      simp only [Client.holds, finishing, flatMap_cons, append_assoc] at left ⊢
      exact mem_append_right _ left
    · simp only [Client.reserves, finishing, flatMap_cons] at member ⊢
      exact mem_append_right _ member
    · intro committed actions phase
      cases phase
      have order := guarded.pending _ _ finishing
      rw [flatMap_cons] at order
      exact ⟨guarded.apart _ _ finishing, (sublist_append_right _ _).trans order⟩
  | finish committed finishing =>
    refine guarded.carry moves touches (fun _ => .inl) (fun _ old _ => .inl old)
      (fun scanKey _ covered hold inside => ?_) (fun insertKey member => by cases member)
      fun _ _ phase => by cases phase
    have left := covered inside
    simpa only [Client.holds, finishing, flatMap_nil] using left

/-- A changed row was locked. -/
theorem Client.Steps.rewrites_locked [Inhabited K] {change : Change Table K V}
    (steps : Client.Steps context tables client event next tables' [change])
    {row : LeafEntry K}
    (member : row ∈ rows change.table) (key : row.key = change.key)
    (visible : isVisible (tables change.table).tuples row.tupleOffset) :
    ⟨.exclusive, change.table, row.tupleOffset⟩ ∈ client.holds context := by
  generalize listed : [change] = changes at steps
  cases steps with
  | act committed action actions effect finishing returned =>
    obtain ⟨⟨backed, -⟩, -, -⟩ := consistent.recorded.finishing finishing
    have expanded := sound
    simp only [Client.holds, Client.reserves, finishing, flatMap_cons,
      append_assoc] at expanded
    obtain ⟨effect', step⟩ := Action.run_step
      (backed.mono (fun _ _ inside => inside) (subset_append_left _ _)) expanded
    have same : effect = effect' := Except.ok.inj (returned.symm.trans step.returned)
    subst same
    rw [step.changes] at listed
    simp only [Client.holds, finishing, flatMap_cons]
    cases action with
    | discard | rewrite | release => cases listed
    | publish insertKey =>
      cases listed
      obtain ⟨other, there, sameKey, placeholder, -⟩ := (expanded insertKey.table).reserved
        (insertKey.key, insertKey.value) (by simp [Action.reserves])
      have equal := sound.row_unique member there (key.trans sameKey.symm)
      subst equal
      simp [isVisible, placeholder] at visible
    | bury table other =>
      cases listed
      have equal := sound.row_unique member backed key
      subst equal
      simp [Action.holds]
    | update table other value =>
      cases listed
      have equal := sound.row_unique member backed.1 key
      subst equal
      exact mem_append_left _ (mem_append_right _ backed.2)
  | request | assign | moves | read | scan | insert | delete | commit | abort | finish =>
    cases listed

end Steps

/-! ## Runs of the system -/

section Runs

variable [DecidableEq K] {initial : Table → K → Option V} {system after : System Table K V}

/-- The locks of all transactions guard what they looked at. -/
def System.Guarded (context : Context Table K V) (system : System Table K V)
    (rows : Table → List (LeafEntry K)) : Prop :=
  ∀ (index : Nat) (client : Client Table K V), system.clients[index]? = some client →
    client.Guarded context system.tables rows

/-- Inserts ask for the lock of the next row. -/
def AsksNextKey (label : Label Table K V) : Prop :=
  ∀ index table key value, label ≠ .client index (.request (.insertRow table key value false))

variable {index : Nat} {client : Client Table K V}

omit [DecidableEq K] in
/-- Two clients are apart. -/
theorem System.apart_clients
    (sound : Sound context system.tables rows (system.holds context) system.reserves)
    {other : Nat} {party : Client Table K V}
    (found : system.clients[index]? = some client) (there : system.clients[other]? = some party)
    (differs : other ≠ index) {mine theirs : Hold Table} (owned : mine ∈ client.holds context)
    (writes : mine.mode = .exclusive) (locked : theirs ∈ party.holds context)
    (same : theirs.table = mine.table) : theirs.offset ≠ mine.offset := by
  have split := sound.perm (Parties.owned_perm (Client.holds context) found).symm .rfl
  refine split.apart owned writes (mem_flatMap.mpr ⟨party, ?_, locked⟩) same
  exact mem_eraseIdx_iff_getElem?.mpr ⟨other, differs, there⟩

omit [DecidableEq K] in
/-- A step stays away from others. -/
theorem Client.Touches.apart_other {next party : Client Table K V} {other : Nat}
    (touches : Client.Touches context client next touched)
    (sound : Sound context system.tables rows (system.holds context) system.reserves)
    (found : system.clients[index]? = some client) (there : system.clients[other]? = some party)
    (differs : other ≠ index) {locks : List (Hold Table)} (covered : locks ⊆ party.holds context) :
    ApartFrom touched locks := by
  intro mine touching theirs locked same
  obtain ⟨writes, owned⟩ := touches.locked mine touching
  exact System.apart_clients sound found there differs owned writes (covered locked) same

/-- So in every reachable state. -/
theorem System.Invariant.touches [Inhabited K]
    (invariant : System.Invariant context initial system rows)
    (guarded : system.Guarded context rows)
    {next : Client Table K V} {event : Event Table K V} {changes : List (Change Table K V)}
    (asks : ∀ table key value, event ≠ .request (.insertRow table key value false))
    (found : system.clients[index]? = some client)
    (steps : Client.Steps context system.tables client event next tables' changes) :
    ∃ rows' touched, Seen context system.tables rows tables' rows' changes ∧
      AllMoves context system.tables rows tables' rows' touched ∧
      Client.Touches context client next touched ∧
      System.Invariant context initial ⟨tables', system.clients.set index next,
        system.history ++ changes.map fun change => (index, change)⟩ rows' ∧
      System.Guarded context ⟨tables', system.clients.set index next,
        system.history ++ changes.map fun change => (index, change)⟩ rows' := by
  obtain ⟨rows', seen, kept⟩ := invariant.client found steps
  have sound := invariant.sound.perm (Parties.owned_perm (Client.holds context) found).symm
    (Parties.owned_perm Client.reserves found).symm
  have consistent := invariant.consistent index client found
  have mine := guarded index client found
  obtain ⟨touched, moves, touches⟩ := steps.touches sound consistent mine seen
  refine ⟨rows', touched, seen, moves, touches, kept, ?_⟩
  intro other party there
  by_cases same : other = index
  · subst same
    have bound := (List.getElem?_eq_some_iff.mp found).1
    rw [getElem?_set_self bound] at there
    cases there
    exact steps.guarded sound consistent asks mine moves touches
  · rw [getElem?_set_ne fun equal => same equal.symm] at there
    -- for another transaction the step touches nothing that it holds
    have apart : ∀ locks, locks ⊆ party.holds context → ApartFrom touched locks := fun locks =>
      touches.apart_other invariant.sound found there same
    have theirs := guarded other party there
    exact {
      required := theirs.required
      locked := theirs.locked
      apart := theirs.apart
      pending := theirs.pending
      gaps := fun insertKey member => (theirs.gaps insertKey member).moves moves
        (apart _ ((invariant.consistent other party there).reserve_holds member))
      windows := fun scanKey member granted covered =>
        (theirs.windows scanKey member granted covered).moves
          (theirs.locked scanKey member granted) moves (apart _ covered) }

/-- Every run that asks for next keys. -/
theorem System.Invariant.run_guarded [Inhabited K]
    (rest : AtRest context tables rows)
    {labels : List (Label Table K V)} (asks : ∀ label ∈ labels, AsksNextKey label)
    (taken : Machine.run (System.step context) (.started tables) labels = some after) :
    ∃ rows', System.Invariant context (TwoPLPasha.shows context tables) after rows' ∧
      after.Guarded context rows' := by
  refine Machine.run_invariant AsksNextKey (fun system => ∃ rows', System.Invariant context
    (TwoPLPasha.shows context tables) system rows' ∧ system.Guarded context rows') ?_ asks
    ⟨rows, .start rest, fun _ _ none => by cases none⟩ taken
  rintro before label next ⟨rows', invariant, guarded⟩ asks stepped
  cases label with
  | begin =>
    cases stepped
    refine ⟨rows', invariant.begin, fun index client found => ?_⟩
    rcases Parties.joined found with old | ⟨-, rfl⟩
    · exact guarded index client old
    · constructor <;> simp [Client.begun, Txn.empty, Client.reserves, Txn.reserves]
  | client index event =>
    obtain ⟨client, next, tables', changes, found, steps, rfl⟩ := System.step_client stepped
    obtain ⟨rows'', -, -, -, -, kept⟩ := invariant.touches guarded
      (fun table key value same => asks index table key value (by rw [same])) found steps
    exact ⟨rows'', kept⟩

/-- In every run in which inserts ask for the lock of the next row: as long as a transaction
holds the locks of a granted scan, no step of another transaction changes what repeating the
scan returns. -/
theorem scan_repeatable [Inhabited K] {labels : List (Label Table K V)}
    (rest : AtRest context tables rows)
    (asks : ∀ label ∈ labels, AsksNextKey label)
    (taken : Machine.run (System.step context) (.started tables) labels = some system) {index : Nat}
    {client : Client Table K V} (found : system.clients[index]? = some client)
    {scanKey : ScanKey Table K} (member : scanKey ∈ client.txn.scanSet)
    (granted : scanKey.processed = true)
    (held : ∀ hold ∈ scanKey.locks, hold ∈ client.acquired.diff client.released)
    {label : Label Table K V} (askedFor : AsksNextKey label)
    (other : ∀ event, label ≠ .client index event)
    (stepped : system.step context label = some after) :
    scanned (context.config scanKey.table) (after.tables scanKey.table) scanKey.minKey
        scanKey.maxKey scanKey.limit =
      scanned (context.config scanKey.table) (system.tables scanKey.table) scanKey.minKey
        scanKey.maxKey scanKey.limit := by
  obtain ⟨rows', invariant, guarded⟩ := System.Invariant.run_guarded rest asks taken
  have covered : scanKey.locks ⊆ client.holds context := fun hold inside =>
    (invariant.consistent index client found).outstanding.subset (held hold inside)
  have mine := guarded index client found
  obtain ⟨returned, stop, plan, listed, last⟩ := mine.windows scanKey member granted covered
  have locked := mine.locked scanKey member granted
  cases label with
  | begin =>
    cases stepped
    rfl
  | client position event =>
    obtain ⟨party, next, tables', changes, there, steps, rfl⟩ := System.step_client stepped
    have differs : index ≠ position := fun same => other event (by rw [same])
    obtain ⟨rows'', touched, seen, moves, touches, kept, -⟩ := invariant.touches guarded
      (fun table key value same => askedFor position table key value (by rw [same])) there steps
    have apart := touches.apart_other invariant.sound there found differs covered
    obtain ⟨inner, final⟩ := ScanKey.untouched locked apart listed last
    have again := (moves scanKey.table).scanPlan plan inner final
    have before := (invariant.sound scanKey.table).represents
    have later := (kept.sound scanKey.table).represents
    rw [later.scanned, before.scanned, plan, again]
    refine congrArg Except.ok (map_congr_left fun row inside => ?_)
    have first := scanPlan_prefix (context.config scanKey.table) (system.tables scanKey.table)
      (rows' scanKey.table) scanKey.minKey scanKey.maxKey scanKey.limit
    rw [plan] at first
    have chosen : row ∈ chosenRows (system.tables scanKey.table) (rows' scanKey.table)
        (fromKey (context.config scanKey.table) scanKey.minKey) := by
      have shown := first.subset (mem_append_left _ (mem_map_of_mem inside))
      simpa [followers] using shown
    obtain ⟨present, visible⟩ := mem_filter.mp chosen
    rw [Bool.and_eq_true] at visible
    rcases seen with ⟨-, quiet⟩ | ⟨change, rfl, rfl, entry, listed', tuple, key, -, -, rfl⟩
    · rw [later.rows.keys row ((quiet _).rows row present), before.rows.keys row present,
        (quiet _).values row (mem_filter.mpr ⟨present, visible.2⟩)]
    · by_cases here : scanKey.table = change.table
      · -- the row that changes is locked for writing by the other transaction
        have apart' : row.tupleOffset ≠ entry.tupleOffset := by
          intro equal
          rw [here] at present visible before
          have same := before.offset_inj present listed' equal
          subst same
          have owned := steps.rewrites_locked
            (invariant.sound.perm (Parties.owned_perm (Client.holds context) there).symm
              (Parties.owned_perm Client.reserves there).symm)
            (invariant.consistent position party there) present key visible.2
          have scanned : scanKey.hold row.tupleOffset ∈ client.holds context :=
            covered (mem_append_right _ (mem_map.mpr ⟨row, listed inside, rfl⟩))
          exact System.apart_clients invariant.sound there found differs owned rfl scanned here rfl
        simp [setTuples, here, Function.update_of_ne apart']
      · simp [setTuples, here]

end Runs

/-- A key is inserted and committed, a second transaction scans around it, and a third one is
about to insert into the range. -/
def scanRun : List (Label Unit Nat Nat) :=
  .begin :: asClient 0 [.request (.insertRow () 5 50 true), .process, .advance, .advance, .advance,
      .advance, .advance, .commit 0 0, .act, .act, .act] ++
    .begin :: asClient 1 [.request (.scan .forRead () 1 9 0), .process, .advance, .advance,
      .advance, .advance, .advance] ++
    .begin :: asClient 2 [.request (.insertRow () 3 30 true), .process, .advance, .advance]

/-- The scan of the run while the third transaction asks for its insert. -/
theorem scan_repeatable_sample : ∃ system after client scanKey,
    Machine.run (System.step numbersContext) (.started numbersTables) scanRun = some system ∧
    system.step numbersContext (.client 2 .advance) = some after ∧
    system.clients[1]? = some client ∧ scanKey ∈ client.txn.scanSet ∧
    scanKey.results.length = 1 ∧
    scanned numbers (after.tables ()) scanKey.minKey scanKey.maxKey scanKey.limit =
      scanned numbers (system.tables ()) scanKey.minKey scanKey.maxKey scanKey.limit := by
  obtain ⟨system, taken, after, stepped, client, found, scanKey, member, granted, length, held⟩ :
      ∃ system, Machine.run (System.step numbersContext) (.started numbersTables) scanRun =
        some system ∧ ∃ after, system.step numbersContext (.client 2 .advance) = some after ∧
          ∃ client, system.clients[1]? = some client ∧ ∃ scanKey ∈ client.txn.scanSet,
            scanKey.processed = true ∧ scanKey.results.length = 1 ∧
              ∀ hold ∈ scanKey.locks, hold ∈ client.acquired.diff client.released := by
    decide +kernel
  refine ⟨system, after, client, scanKey, taken, stepped, found, member, length, ?_⟩
  refine scan_repeatable numbersTables_atRest ?_ taken found member
    granted held ?_ ?_ stepped
  · simp [scanRun, asClient, AsksNextKey]
  · simp [AsksNextKey]
  · simp

end UbApplication.Tigon.TwoPLPasha
