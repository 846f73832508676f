import UbApplication.Tigon.TwoPLPasha.Accounts

/-!
# The invariant of transactions side by side

The ledgers of all tables are kept by what all transactions hold and reserve together, and
every transaction agrees with its record. Every step of every transaction keeps this, so
every step of `commit` and `abort` finds what it relies on, and what the keys show is made
up by the changes on record.
-/

namespace UbApplication.Tigon.TwoPLPasha

open BPlusTree List

/-! ## What a step can do -/

section Steps

variable {Table K V : Type}

/-- The next entry of a pass. -/
theorem loopPass_some {E : Type} {set : List E} {processed : E → Bool}
    {handler : E → Except Failure (Handled Table K V E)} {left index : Nat}
    {result : Except Failure (Handled Table K V E)}
    (pass : loopPass set processed handler left = some (index, result)) :
    ∃ entry, set[index]? = some entry ∧ processed entry = false ∧ handler entry = result := by
  cases left with
  | zero => cases pass
  | succ left =>
    obtain ⟨entry, found, called⟩ := Option.bind_eq_some_iff.mp pass
    cases granted : processed entry with
    | true => simp [granted] at called
    | false =>
      simp only [granted, Bool.false_eq_true, if_false, Option.some.injEq, Prod.mk.injEq] at called
      obtain ⟨rfl, rfl⟩ := called
      exact ⟨entry, found, granted, rfl⟩

variable [DecidableEq Table] [Inhabited K]

/-- The steps of a transaction, one by one. -/
inductive Client.Steps (context : Context Table K V) (tables : Tables Table K V)
    (client : Client Table K V) :
    Event Table K V → Client Table K V → Tables Table K V → List (Change Table K V) → Prop
  | request (request : Request Table K V) (idle : client.phase = .executing .idle) :
    Steps context tables client (.request request)
      { client with txn := client.txn.add request } tables []
  | assign (index : Nat) (value : V) (idle : client.phase = .executing .idle) :
    Steps context tables client (.assign index value)
      { client with txn := { client.txn with
        readSet := client.txn.readSet.modify index fun readKey => { readKey with value } } } tables
          []
  /-- `process_requests` begins, or one of its loops ends. -/
  | moves (event : Event Table K V) (cursor next : Cursor)
      (executing : client.phase = .executing cursor) :
    Steps context tables client event { client with phase := .executing next } tables []
  | read (index : Nat) (entry : ReadKey Table K V) (handled : Handled Table K V (ReadKey Table K V))
      (cursor next : Cursor) (executing : client.phase = .executing cursor)
      (found : client.txn.readSet[index]? = some entry) (pending : entry.processed = false)
      (returned : lockRequestHandler context tables entry = .ok handled) :
    Steps context tables client .advance
      { client with
        txn := { client.txn with
          readSet := client.txn.readSet.set index handled.entry
          abortLock := client.txn.abortLock || !handled.success }
        phase := .executing next
        acquired := client.acquired ++ handled.acquired } handled.tables []
  | scan (index : Nat) (entry : ScanKey Table K) (handled : Handled Table K V (ScanKey Table K))
      (cursor next : Cursor) (executing : client.phase = .executing cursor)
      (found : client.txn.scanSet[index]? = some entry) (pending : entry.processed = false)
      (returned : scanRequestHandler context tables entry = .ok handled) :
    Steps context tables client .advance
      { client with
        txn := { client.txn with
          scanSet := client.txn.scanSet.set index handled.entry
          abortLock := client.txn.abortLock || !handled.success }
        phase := .executing next
        acquired := client.acquired ++ handled.acquired } handled.tables []
  | insert (index : Nat) (entry : InsertKey Table K V)
      (handled : Handled Table K V (InsertKey Table K V)) (cursor next : Cursor)
      (executing : client.phase = .executing cursor)
      (found : client.txn.insertSet[index]? = some entry) (pending : entry.processed = false)
      (returned : insertRequestHandler context tables entry = .ok handled) :
    Steps context tables client .advance
      { client with
        txn := { client.txn with
          insertSet := client.txn.insertSet.set index handled.entry
          abortInsert := client.txn.abortInsert || !handled.success }
        phase := .executing next
        acquired := client.acquired ++ handled.acquired } handled.tables []
  | delete (index : Nat) (entry : DeleteKey Table K)
      (handled : Handled Table K V (DeleteKey Table K)) (cursor next : Cursor)
      (executing : client.phase = .executing cursor)
      (found : client.txn.deleteSet[index]? = some entry) (pending : entry.processed = false)
      (returned : deleteRequestHandler context tables entry = .ok handled) :
    Steps context tables client .advance
      { client with
        txn := { client.txn with
          deleteSet := client.txn.deleteSet.set index handled.entry
          abortDelete := client.txn.abortDelete || !handled.success }
        phase := .executing next
        acquired := client.acquired ++ handled.acquired
        deleteHolds := client.deleteHolds ++ handled.acquired } handled.tables []
  /-- `commit` begins. -/
  | commit (maxTid curGlobalEpoch : Nat) (idle : client.phase = .executing .idle)
      (ready : client.txn.ready) :
    Steps context tables client (.commit maxTid curGlobalEpoch)
      { client with phase := .finishing true (commitActions context client.txn
        (generateTid client.txn maxTid) curGlobalEpoch) } tables []
  /-- `abort` begins. -/
  | abort (idle : client.phase = .executing .idle) :
    Steps context tables client .abort
      { client with phase := .finishing false (abortActions context client.txn) } tables []
  /-- A step of `commit` or `abort`. -/
  | act (committed : Bool) (action : Action Table K V) (actions : List (Action Table K V))
      (effect : Effect Table K V) (finishing : client.phase =
        .finishing committed (action :: actions))
      (returned : action.run context tables = .ok effect) :
    Steps context tables client .act
      { client with
        phase := .finishing committed actions
        released := client.released ++ effect.released } effect.tables effect.changes
  /-- `commit` or `abort` returns. -/
  | finish (committed : Bool) (finishing : client.phase = .finishing committed []) :
    Steps context tables client .act { client with phase := .finished committed } tables []

variable {context : Context Table K V} {tables : Tables Table K V} {client : Client Table K V}
  {after : Client Table K V}

/-- What `process_requests` does at the next entry. -/
theorem Client.advance_steps {cursor : Cursor} (executing : client.phase = .executing cursor)
    {tables' : Tables Table K V}
    (advanced : client.advance context tables cursor = .ok (after, tables')) :
    Client.Steps context tables client .advance after tables' [] := by
  cases cursor with
  | idle =>
    cases advanced
    have same : { client with phase := .executing .idle } = client := by rw [← executing]
    have moved : Client.Steps context tables client .advance
      { client with phase := .executing .idle } tables [] := .moves .advance .idle .idle executing
    rwa [same] at moved
  | reads left | scans left | inserts left | deletes left =>
    rw [Client.advance] at advanced
    split at advanced
    · cases advanced
      exact .moves .advance _ _ executing
    · rename_i index result pass
      obtain ⟨entry, found, pending, returned⟩ := loopPass_some pass
      cases result with
      | error failure => cases advanced
      | ok handled =>
        cases advanced
        first
        | exact .read index entry handled _ _ executing found pending returned
        | exact .scan index entry handled _ _ executing found pending returned
        | exact .insert index entry handled _ _ executing found pending returned
        | exact .delete index entry handled _ _ executing found pending returned

/-- All that a step can do. -/
theorem Client.step_steps {event : Event Table K V}
    {tables' : Tables Table K V} {changes : List (Change Table K V)}
    (stepped : client.step context tables event = some (after, tables', changes)) :
    Client.Steps context tables client event after tables' changes := by
  unfold Client.step at stepped
  split at stepped
  · cases stepped
    exact .request _ (by assumption)
  · cases stepped
    exact .assign _ _ (by assumption)
  · cases stepped
    exact .moves _ _ _ (by assumption)
  · split at stepped
    · rename_i maxTid curGlobalEpoch idle ready
      have granted : client.txn.abortLock = false := by
        simp only [Txn.ready, Txn.shouldAbort, Bool.and_eq_true, Bool.not_eq_true',
          Bool.or_eq_false_iff] at ready
        exact ready.1.1.1.1.1.1
      have committed : TwoPLPasha.commit context client.txn maxTid curGlobalEpoch =
          (true, commitActions context client.txn
            (generateTid client.txn maxTid) curGlobalEpoch) := by
        simp [TwoPLPasha.commit, granted]
      rw [committed] at stepped
      cases stepped
      exact .commit maxTid curGlobalEpoch idle ready
    · cases stepped
  · cases stepped
    exact .abort (by assumption)
  · split at stepped
    · cases stepped
      exact Client.advance_steps (by assumption) (by assumption)
    · cases stepped
  · split at stepped
    · cases stepped
      exact .act _ _ _ _ (by assumption) (by assumption)
    · cases stepped
  · cases stepped
    exact .finish _ (by assumption)
  · cases stepped

end Steps

/-! ## Every step keeps the invariant -/

section Kept

variable {Table K V : Type} {context : Context Table K V} {rows rows' : Table → List (LeafEntry K)}
  {client after : Client Table K V} {made changes : List (Change Table K V)}

/-- Nothing is released while executing. -/
theorem Client.Recorded.executing {cursor : Cursor} (recorded : client.Recorded context rows made)
    (phase : client.phase = .executing cursor) : client.released = [] ∧ made = [] := by
  rw [Client.Recorded, phase] at recorded
  exact recorded

variable {actions : List (Action Table K V)}

/-- What is known once it is decided. -/
theorem Client.Recorded.finishing {committed : Bool}
    (recorded : client.Recorded context rows made)
    (phase : client.phase = .finishing committed actions) :
    AllBacked rows actions ∧
      (client.released ++ actions.flatMap Action.holds).Perm (client.txn.holds context) ∧
      made ++ actions.flatMap Action.changes = if committed then client.txn.applied else [] := by
  rw [Client.Recorded, phase] at recorded
  exact recorded

variable [DecidableEq Table] {tables tables' : Tables Table K V} {rest : List (Hold Table)}
  {others : List (InsertKey Table K V)}

/-- What is seen of a step: nothing, or one row rewritten. -/
def Seen (context : Context Table K V) (tables : Tables Table K V)
    (rows : Table → List (LeafEntry K))
    (tables' : Tables Table K V) (rows' : Table → List (LeafEntry K))
    (changes : List (Change Table K V)) : Prop :=
  (changes = [] ∧ AllQuiet tables rows tables' rows') ∨
    ∃ change, changes = [change] ∧ rows' = rows ∧ Rewrites context tables rows tables' change

/-- No row disappears. -/
theorem Seen.grown (seen : Seen context tables rows tables' rows' changes) (table : Table) :
    rows table ⊆ rows' table := by
  rcases seen with ⟨-, quiet⟩ | ⟨change, -, rfl, -⟩
  · exact (quiet table).rows
  · exact fun _ member => member

/-- A transaction has taken a step, besides the locks and the placeholders of others. -/
structure Client.Kept (context : Context Table K V) (tables : Tables Table K V)
    (rows : Table → List (LeafEntry K)) (made : List (Change Table K V)) (rest : List (Hold Table))
    (others : List (InsertKey Table K V)) (after : Client Table K V) (tables' : Tables Table K V)
    (rows' : Table → List (LeafEntry K)) (changes : List (Change Table K V)) : Prop where
  sound : Sound context tables' rows' (after.holds context ++ rest) (after.reserves ++ others)
  consistent : after.Consistent context rows' (made ++ changes)
  seen : Seen context tables rows tables' rows' changes

/-- A step that takes no lock. -/
theorem Client.Kept.still
    (sound : Sound context tables rows (client.holds context ++ rest) (client.reserves ++ others))
    (holds : (after.holds context).Perm (client.holds context))
    (reserves : after.reserves.Perm client.reserves)
    (consistent : after.Consistent context rows made) :
    Client.Kept context tables rows made rest others after tables rows [] where
  sound := sound.perm (holds.append_right _) (reserves.append_right _)
  consistent := by simpa using consistent
  seen := .inl ⟨rfl, .refl tables rows⟩

variable {reserved : List (InsertKey Table K V)} {acquired : List (Hold Table)}

/-- A step of a handler. -/
theorem Client.Kept.handler (step : HandlerStep context tables rows (client.holds context ++ rest)
      (client.reserves ++ others) tables' rows' acquired reserved)
    (holds : (after.holds context).Perm (acquired ++ client.holds context))
    (reserves : after.reserves.Perm (reserved ++ client.reserves))
    (consistent : after.Consistent context rows' made) :
    Client.Kept context tables rows made rest others after tables' rows' [] where
  sound := by
    refine step.sound.perm ?_ ?_
    · rw [← append_assoc]
      exact holds.append_right _
    · rw [← append_assoc]
      exact reserves.append_right _
  consistent := by simpa using consistent
  seen := .inl ⟨rfl, step.quiet⟩

/-- A handler has granted a request: the transaction has more locks and placeholders. -/
theorem Client.Kept.grant {txn : Txn Table K V} {cursor next : Cursor}
    (before : client.Consistent context rows made)
    (executing : client.phase = .executing cursor)
    (step : HandlerStep context tables rows (client.holds context ++ rest)
      (client.reserves ++ others) tables' rows' acquired reserved)
    (holds : (txn.holds context).Perm (acquired ++ client.txn.holds context))
    (reserves : txn.reserves.Perm (reserved ++ client.txn.reserves))
    (consistent : txn.Consistent context rows')
    (deletes : txn.deleteSet = [] → client.txn.deleteSet = []) :
    Client.Kept context tables rows made rest others { client with
        txn := txn
        phase := .executing next
        acquired := client.acquired ++ acquired } tables' rows' [] := by
  refine .handler step ?_ ?_ ⟨consistent, before.recorded.executing executing, ?_,
    fun empty => before.deletes (deletes empty)⟩
  · simp only [Client.holds, executing]
    rw [← append_assoc]
    exact holds.append_right _
  · simp only [Client.reserves, executing]
    exact reserves
  · refine perm_append_comm.trans ((before.acquired.append_left _).trans ?_)
    rw [← append_assoc]
    exact holds.symm.append_right _

/-- What an insert leaves in its entry, whether it is granted or not. -/
theorem insertRequestHandler_kept [Inhabited K] {entry : InsertKey Table K V}
    {handled : Handled Table K V (InsertKey Table K V)} {holds : List (Hold Table)}
    {reserves : List (InsertKey Table K V)}
    (sound : Sound context tables rows holds reserves) (pending : entry.processed = false)
    (bare : entry.nextRowLocked = false)
    (returned : insertRequestHandler context tables entry = .ok handled) :
    ∃ rows', HandlerStep context tables rows holds reserves handled.tables rows' handled.acquired
        handled.entry.reserves ∧
      handled.entry.holds = handled.acquired ∧
      (handled.entry.processed = false → handled.entry.nextRowLocked = false) := by
  rcases insertRequestHandler_spec sound bare returned with
    ⟨-, same, none, unchanged⟩ | ⟨entries, -, filled, acquired, step⟩
  · refine ⟨rows, ?_, by simp [same, none, InsertKey.holds, bare], fun _ => by rw [same, bare]⟩
    have vacant : entry.reserves = [] := by simp [InsertKey.reserves, pending]
    rw [same, none, unchanged, vacant]
    exact .refl sound
  · have done : handled.entry.processed = true := by rw [filled]
    refine ⟨Function.update rows entry.table entries, ?_, acquired.symm, fun failed => ?_⟩
    · rw [InsertKey.reserves, if_pos done]
      exact step
    · rw [done] at failed
      cases failed

/-- An action after the decision. -/
theorem Client.Kept.act {committed : Bool} {action : Action Table K V} {effect : Effect Table K V}
    (sound : Sound context tables rows (client.holds context ++ rest) (client.reserves ++ others))
    (consistent : client.Consistent context rows made)
    (finishing : client.phase = .finishing committed (action :: actions))
    (returned : action.run context tables = .ok effect) :
    Client.Kept context tables rows made rest others
      { client with
        phase := .finishing committed actions
        released := client.released ++ effect.released } effect.tables rows effect.changes := by
  obtain ⟨⟨backed, later⟩, whole, effects⟩ := consistent.recorded.finishing finishing
  simp only [Client.holds, Client.reserves, finishing, flatMap_cons, append_assoc] at sound
  have enough : action.Backed rows (actions.flatMap Action.holds ++ (client.deleteHolds ++ rest)) :=
    backed.mono (fun _ _ member => member) (subset_append_left _ _)
  obtain ⟨effect', step⟩ := Action.run_step enough sound
  have same : effect = effect' := Except.ok.inj (returned.symm.trans step.returned)
  subst same
  refine ⟨?_, ⟨?_, ⟨later, ?_, ?_⟩, consistent.acquired, consistent.deletes⟩, ?_⟩
  · simpa [Client.holds, Client.reserves] using step.sound
  · exact consistent.txn
  · rw [step.released, append_assoc]
    simpa using whole
  · rw [step.changes, append_assoc]
    simpa using effects
  · rw [step.changes]
    exact step.seen.imp id fun ⟨change, made, rewrites⟩ => ⟨change, made, rfl, rewrites⟩

/-- Every step keeps the accounts. -/
theorem Client.Steps.kept [Inhabited K] {event : Event Table K V}
    (steps : Client.Steps context tables client event after tables' changes)
    (sound : Sound context tables rows (client.holds context ++ rest) (client.reserves ++ others))
    (consistent : client.Consistent context rows made) :
    ∃ rows', Client.Kept context tables rows made rest others after tables' rows' changes := by
  cases steps with
  | request request idle =>
    obtain ⟨holds, reserves⟩ := client.txn.add_accounts context request
    refine ⟨rows, .still sound ?_ ?_ ⟨consistent.txn.add request, ?_, ?_, ?_⟩⟩
    · simp only [Client.holds, idle, holds]
      exact .rfl
    · simp only [Client.reserves, idle, reserves]
      exact .rfl
    · simpa only [Client.Recorded, idle] using consistent.recorded.executing idle
    · simpa only [holds] using consistent.acquired
    · intro empty
      apply consistent.deletes
      cases request <;> simp_all [Txn.add]
  | assign index value idle =>
    rw [modify_eq_set_getElem?]
    cases found : client.txn.readSet[index]? with
    | none =>
      exact ⟨rows, .still sound .rfl .rfl consistent⟩
    | some readKey =>
      have member := mem_of_getElem? found
      have kept : (ReadKey.holds context { readKey with value }).Perm
          ([] ++ readKey.holds context) := .rfl
      have same := Txn.holds_setRead context found kept client.txn.abortLock
      refine ⟨rows, .still sound ?_ ?_ ⟨?_, ?_, ?_, consistent.deletes⟩⟩
      · simp only [Client.holds, idle]
        exact same.append_right _
      · simp only [Client.reserves, idle]
        exact .rfl
      · exact consistent.txn.setRead index { readKey with value }
          (consistent.txn.reads readKey member) (consistent.txn.readRows readKey member) _
      · simpa only [Client.Recorded, idle] using consistent.recorded.executing idle
      · exact consistent.acquired.trans (same.symm.append_right _)
  | moves event cursor next executing =>
    refine ⟨rows, .still sound ?_ ?_ { consistent with recorded := ?_ }⟩
    · simp only [Client.holds, executing]
      exact .rfl
    · simp only [Client.reserves, executing]
      exact .rfl
    · exact consistent.recorded.executing executing
  | read index entry handled cursor next executing found pending returned =>
    have bare := consistent.txn.reads entry (mem_of_getElem? found) pending
    obtain ⟨step, table, holds, granted, none, row⟩ := lockRequestHandler_spec sound bare returned
    have more : (handled.entry.holds context).Perm (handled.acquired ++ entry.holds context) := by
      rw [holds, bare, append_nil]
    refine ⟨rows, .grant consistent executing step (Txn.holds_setRead context found more _) .rfl
      (consistent.txn.setRead index _ (fun failed => ?_) (fun writes => ?_) _) id⟩
    · rw [holds]
      apply none
      rw [granted, pending] at failed
      simpa using failed
    · rw [table]
      exact row writes
  | scan index entry handled cursor next executing found pending returned =>
    have inside := mem_of_getElem? found
    have bare := consistent.txn.scans entry inside pending
    obtain ⟨step, more, results, table, last, granted, -⟩ :=
      scanRequestHandler_spec sound bare returned
    refine ⟨rows, .grant consistent executing step (Txn.holds_setScan context found more _) .rfl
      (consistent.txn.setScan index (fun failed => ?_) (fun row result => ?_) _) id⟩
    · rw [granted, pending] at failed
      rw [last]
      simpa using failed
    · rw [table]
      exact (results row result).elim (consistent.txn.scanRows entry inside row) id
  | insert index entry handled cursor next executing found pending returned =>
    have bare := consistent.txn.inserts entry (mem_of_getElem? found) pending
    obtain ⟨rows', step, holds, granted⟩ :=
      insertRequestHandler_kept sound pending bare returned
    have more : handled.entry.holds.Perm (handled.acquired ++ entry.holds) := by
      rw [holds]
      simp [InsertKey.holds, bare]
    have reserved : handled.entry.reserves.Perm (handled.entry.reserves ++ entry.reserves) := by
      simp [InsertKey.reserves, pending]
    exact ⟨rows', .grant consistent executing step (Txn.holds_setInsert context found more _)
      (Parties.owned_more _ found reserved)
      ((consistent.txn.mono fun table => (step.quiet table).rows).setInsert index granted _) id⟩
  | delete index entry handled cursor next executing found pending returned =>
    refine ⟨rows, .handler (deleteRequestHandler_spec sound returned) ?_ ?_
      ⟨{ consistent.txn with }, consistent.recorded.executing executing, ?_, ?_⟩⟩
    · simp only [Client.holds, executing]
      rw [← append_assoc]
      exact perm_append_comm
    · simp only [Client.reserves, executing]
      exact .rfl
    · rw [← append_assoc]
      exact consistent.acquired.append_right _
    · intro empty
      have before : client.txn.deleteSet = [] := by simpa using empty
      rw [before] at found
      cases found
  | commit maxTid curGlobalEpoch idle ready =>
    obtain ⟨released, rfl⟩ := consistent.recorded.executing idle
    have holds := commitActions_holds context client.txn (generateTid client.txn maxTid)
      curGlobalEpoch
    have granted : client.txn.reserves = client.txn.insertSet := by
      simp only [Txn.ready, Bool.and_eq_true, all_eq_true] at ready
      have single : ∀ insertKey ∈ client.txn.insertSet, insertKey.reserves = [insertKey] :=
        fun insertKey member => if_pos (ready.1.2 insertKey member)
      rw [Txn.reserves, flatMap_congr single, flatMap_singleton']
    refine ⟨rows, .still sound ?_ ?_ { consistent with
      recorded := ⟨commitActions_backed consistent.txn _ _, ?_, commitActions_changes _ _⟩ }⟩
    · simp only [Client.holds, idle]
      exact holds.append_right _
    · simp only [Client.reserves, idle, commitActions_reserves, granted]
      exact .rfl
    · simpa [released] using holds
  | abort idle =>
    obtain ⟨released, rfl⟩ := consistent.recorded.executing idle
    have holds := abortActions_holds consistent.txn
    refine ⟨rows, .still sound ?_ ?_ { consistent with
      recorded := ⟨abortActions_backed, ?_, abortActions_changes⟩ }⟩
    · simp only [Client.holds, idle]
      exact holds.append_right _
    · simp only [Client.reserves, idle, abortActions_reserves]
      exact .rfl
    · simpa [released] using holds
  | act committed action actions effect finishing returned =>
    exact ⟨rows, .act sound consistent finishing returned⟩
  | finish committed finishing =>
    obtain ⟨-, whole, effects⟩ := consistent.recorded.finishing finishing
    refine ⟨rows, .still sound ?_ ?_ { consistent with
      recorded := ⟨by simpa using whole, by simpa using effects⟩ }⟩
    · simp only [Client.holds, finishing]
      exact .rfl
    · simp only [Client.reserves, finishing]
      exact .rfl

end Kept

/-! ## Runs of the system -/

section Runs

variable {Table K V : Type}

/-- No tuple that can be locked is locked. -/
def AtRest (context : Context Table K V) (tables : Tables Table K V)
    (rows : Table → List (LeafEntry K)) : Prop :=
  ∀ table, Represents (context.config table) (tables table) (rows table) ∧
    ∀ offset ∈ lockable (tables table) (rows table),
      ((tables table).tuples offset).header.lock = 0

namespace System

def started (tables : Tables Table K V) : System Table K V := ⟨tables, [], []⟩

def made (system : System Table K V) (index : Nat) : List (Change Table K V) :=
  (system.history.filter fun entry => entry.1 = index).map Prod.snd

def holds (context : Context Table K V) (system : System Table K V) : List (Hold Table) :=
  system.clients.flatMap (Client.holds context)

def reserves (system : System Table K V) : List (InsertKey Table K V) :=
  system.clients.flatMap Client.reserves

/-- The changes of each client. -/
theorem made_step (system : System Table K V) (tables : Tables Table K V)
    (clients : List (Client Table K V)) (index : Nat) (changes : List (Change Table K V))
    (other : Nat) :
    made ⟨tables, clients, system.history ++ changes.map fun change => (index, change)⟩ other =
      system.made other ++ if other = index then changes else [] := by
  by_cases same : other = index
  · simp [made, same, filter_map, Function.comp_def]
  · have apart : ¬ index = other := fun equal => same equal.symm
    simp [made, same, apart, filter_map, Function.comp_def]

variable [DecidableEq Table] [DecidableEq K]

/-- What the keys show when some changes are made one after the other. -/
def replay (initial : Table → K → Option V) (history : List (Nat × Change Table K V)) :
    Table → K → Option V :=
  (history.map Prod.snd).foldl Change.apply initial

/-- The ledgers are kept, every transaction agrees with its record, and what the keys show is
made up by the changes on record if the coordinators get at the values of all tables. -/
structure Invariant (context : Context Table K V) (initial : Table → K → Option V)
    (system : System Table K V) (rows : Table → List (LeafEntry K)) : Prop where
  sound : Sound context system.tables rows (system.holds context) system.reserves
  consistent : ∀ (index : Nat) (client : Client Table K V), system.clients[index]? = some client →
    client.Consistent context rows (system.made index)
  fresh : ∀ index, system.clients.length ≤ index → system.made index = []
  shows : (∀ table, context.Reaches table) →
    shows context system.tables = replay initial system.history

end System

variable [DecidableEq Table] {context : Context Table K V}
  {tables : Tables Table K V} {rows rows' : Table → List (LeafEntry K)}

/-- Tables at rest are sound. -/
theorem AtRest.sound (rest : AtRest context tables rows) : Sound context tables rows [] [] :=
  fun table => ⟨(rest table).1, fun offset member => by
    rw [(rest table).2 offset member]
    exact HeldBy.zero, by simp [tableHolds], by simp [tableReserves], by simp [tableReserves]⟩

omit [DecidableEq Table] in
/-- More rows. -/
theorem Client.Consistent.mono {client : Client Table K V} {made : List (Change Table K V)}
    (consistent : client.Consistent context rows made)
    (grown : ∀ table, rows table ⊆ rows' table) : client.Consistent context rows' made where
  txn := consistent.txn.mono grown
  recorded := by
    have recorded := consistent.recorded
    unfold Client.Recorded at recorded ⊢
    split at recorded
    · exact recorded
    · exact ⟨recorded.1.mono grown, recorded.2⟩
    · exact recorded
  acquired := consistent.acquired
  deletes := consistent.deletes

variable {system after : System Table K V}

/-- A step of a client. -/
theorem System.step_client [Inhabited K] {index : Nat} {event : Event Table K V}
    (stepped : system.step context (.client index event) = some after) :
    ∃ client next tables' changes, system.clients[index]? = some client ∧
      Client.Steps context system.tables client event next tables' changes ∧
      after = ⟨tables', system.clients.set index next,
        system.history ++ changes.map fun change => (index, change)⟩ := by
  obtain ⟨client, found, taken⟩ := Option.bind_eq_some_iff.mp stepped
  obtain ⟨⟨next, tables', changes⟩, moved, same⟩ := Option.bind_eq_some_iff.mp taken
  cases same
  exact ⟨client, next, tables', changes, found, Client.step_steps moved, rfl⟩

variable [DecidableEq K] {initial : Table → K → Option V}

/-- The start. -/
theorem System.Invariant.start (rest : AtRest context tables rows) :
    System.Invariant context (TwoPLPasha.shows context tables) (.started tables) rows where
  sound := rest.sound
  consistent _ _ found := by cases found
  fresh _ _ := rfl
  shows _ := rfl

/-- A client begins. -/
theorem System.Invariant.begin (invariant : System.Invariant context initial system rows) :
    System.Invariant context initial { system with clients := system.clients ++ [.begun] }
      rows where
  sound := by
    have bare : Client.holds context (.begun : Client Table K V) = [] := rfl
    have vacant : Client.reserves (.begun : Client Table K V) = [] := rfl
    simpa [System.holds, System.reserves, bare, vacant] using invariant.sound
  consistent index client found := by
    rcases Parties.joined found with old | ⟨long, rfl⟩
    · exact invariant.consistent index client old
    · have none : system.made index = [] := invariant.fresh index long
      refine ⟨⟨?_, ?_, ?_, ?_, ?_⟩, ⟨rfl, none⟩, .rfl,
        fun _ => rfl⟩ <;> simp [Client.begun, Txn.empty]
  fresh index long := by
    refine invariant.fresh index ?_
    simp only [length_append] at long
    omega
  shows := invariant.shows

section

/-- A client goes on. -/
theorem System.Invariant.client [Inhabited K]
    (invariant : System.Invariant context initial system rows) {index : Nat}
    {client next : Client Table K V} {event : Event Table K V} {tables' : Tables Table K V}
    {changes : List (Change Table K V)} (found : system.clients[index]? = some client)
    (steps : Client.Steps context system.tables client event next tables' changes) :
    ∃ rows', Seen context system.tables rows tables' rows' changes ∧
      System.Invariant context initial ⟨tables', system.clients.set index next,
        system.history ++ changes.map fun change => (index, change)⟩ rows' := by
  have sound := invariant.sound.perm (Parties.owned_perm (Client.holds context) found).symm
    (Parties.owned_perm Client.reserves found).symm
  obtain ⟨rows', kept⟩ := steps.kept sound (invariant.consistent index client found)
  refine ⟨rows', kept.seen, ?_, ?_, ?_, ?_⟩
  · exact kept.sound.perm (Parties.owned_set_perm _ found next)
      (Parties.owned_set_perm _ found next)
  · intro other party there
    rw [System.made_step]
    by_cases same : other = index
    · subst same
      have bound := (List.getElem?_eq_some_iff.mp found).1
      rw [getElem?_set_self bound] at there
      cases there
      simpa using kept.consistent
    · rw [getElem?_set_ne fun equal => same equal.symm] at there
      simpa [same] using (invariant.consistent other party there).mono kept.seen.grown
  · intro other long
    rw [length_set] at long
    have bound := (List.getElem?_eq_some_iff.mp found).1
    have apart : other ≠ index := by omega
    rw [System.made_step, invariant.fresh other long, if_neg apart]
    rfl
  · intro reaches
    rcases kept.seen with ⟨rfl, quiet⟩ | ⟨change, rfl, rfl, rewrites⟩
    · simp only [map_nil, append_nil, ← invariant.shows reaches]
      funext table
      exact (quiet table).visibleValue (sound table).represents (kept.sound table).represents
    · rw [rewrites.shows (reaches _) sound kept.sound, invariant.shows reaches]
      simp [System.replay]

/-- Every step keeps the invariant. -/
theorem System.Invariant.step [Inhabited K]
    (invariant : System.Invariant context initial system rows)
    {label : Label Table K V} (stepped : system.step context label = some after) :
    ∃ rows', System.Invariant context initial after rows' := by
  cases label with
  | begin =>
    cases stepped
    exact ⟨rows, invariant.begin⟩
  | client index event =>
    obtain ⟨client, next, tables', changes, found, steps, rfl⟩ := System.step_client stepped
    obtain ⟨rows', -, kept⟩ := invariant.client found steps
    exact ⟨rows', kept⟩

/-- Every run keeps the invariant. -/
theorem System.Invariant.run [Inhabited K]
    (rest : AtRest context tables rows) {labels : List (Label Table K V)}
    (taken : Machine.run (System.step context) (.started tables) labels = some after) :
    ∃ rows', System.Invariant context (TwoPLPasha.shows context tables) after rows' := by
  refine Machine.run_invariant (fun _ => True)
    (fun system => ∃ rows', System.Invariant context (TwoPLPasha.shows context tables) system rows')
    ?_ (fun _ _ => trivial) ⟨rows, .start rest⟩ taken
  rintro before label next ⟨rows', invariant⟩ - stepped
  exact invariant.step stepped

end

end Runs

end UbApplication.Tigon.TwoPLPasha
