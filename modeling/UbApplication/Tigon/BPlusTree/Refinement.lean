import UbApplication.Tigon.BPlusTree.Contents

/-!
# The tree is a map

Seen from outside, the tree is a finite map from keys to a state and a value: an
insertion sets a key that is absent or a tombstone, an erasure and a discard turn a
visible key and a placeholder into a tombstone. Every run of calls on a tree made by
`create` returns what the map returns, and every search finds what the map holds.
-/

namespace UbApplication.Tigon.BPlusTree

open SeparatorTree

variable {K V : Type}

/-! ## The abstract map -/

/-- The state of a key; a key without a row counts as a tombstone. -/
def Contents.stateOf (contents : Contents K V) (key : K) : TupleState :=
  (contents key).elim .tombstone Prod.fst

/-- The states an insertion may give a tuple. -/
inductive InsertState where
  | visible
  /-- A placeholder of a transaction. -/
  | placeholder
  deriving DecidableEq, Repr

/-- The tuple state of an insertion. -/
def InsertState.tupleState : InsertState → TupleState
  | .visible => .visible
  | .placeholder => .placeholder

/-- A new row is no tombstone. -/
@[simp] theorem InsertState.tupleState_ne (state : InsertState) :
    state.tupleState ≠ .tombstone := by
  cases state <;> simp [tupleState]

/-- The calls that change a tree. -/
inductive Call (K V : Type) where
  | insert (key : K) (value : V) (state : InsertState)
  | erase (key : K)
  | discardPlaceholder (key : K)

def Call.run (config : Config K) [Inhabited K] : Call K V → TreeM K V Bool
  | .insert key value state => BPlusTree.insert config key value state.tupleState
  | .erase key => BPlusTree.erase config key
  | .discardPlaceholder key => BPlusTree.discardPlaceholder config key

/-- Turn a key in the given state into a tombstone. -/
def Contents.retire [DecidableEq K] (contents : Contents K V) (key : K) (state : TupleState) :
    Bool × Contents K V :=
  match contents key with
  | some (held, value) =>
    if held = state then (true, Function.update contents key (some (.tombstone, value)))
    else (false, contents)
  | none => (false, contents)

def Call.apply [DecidableEq K] : Call K V → Contents K V → Bool × Contents K V
  | .insert key value state, contents =>
    if contents.stateOf key = .tombstone then
      (true, Function.update contents key (some (state.tupleState, value)))
    else (false, contents)
  | .erase key, contents => contents.retire key .visible
  | .discardPlaceholder key, contents => contents.retire key .placeholder

/-- A run of calls on the tree, with the value each returns. -/
def runCalls (config : Config K) [Inhabited K] : List (Call K V) → TreeM K V (List Bool)
  | [] => return []
  | call :: calls => do
    let result ← call.run config
    let results ← runCalls config calls
    return result :: results

/-- A run of calls on the map. -/
def applyCalls [DecidableEq K] : List (Call K V) → Contents K V → List Bool × Contents K V
  | [], contents => ([], contents)
  | call :: calls, contents =>
    ((call.apply contents).1 :: (applyCalls calls (call.apply contents).2).1,
      (applyCalls calls (call.apply contents).2).2)

/-- A tree made by `create` in some memory, after a run of calls. -/
def createAndRun (config : Config K) [Inhabited K] [Inhabited V] (calls : List (Call K V)) :
    TreeM K V (List Bool) := do
  create config
  runCalls config calls

/-! ## Refinement -/

/-- A tree that nobody else uses stands for a map. -/
structure Refines (config : Config K) (tree : Tree K V) (entries : List (LeafEntry K))
    (contents : Contents K V) : Prop where
  represents : Represents config tree entries
  unlocked : ∀ entry ∈ entries, (tree.tuples entry.tupleOffset).header.lock = 0
  contents : contentsOf config tree entries = contents

section Refines

variable {config : Config K} {tree : Tree K V} {entries : List (LeafEntry K)}
  {contents : Contents K V} (succeeds : Succeeds config)
    (refines : Refines config tree entries contents) {key : K}

include refines in
/-- The contents of a row. -/
theorem Refines.row {entry : LeafEntry K} (row : rowOf config entries key = some entry) :
    contents key = some ((tree.tuples entry.tupleOffset).header.valid,
      (tree.tuples entry.tupleOffset).value) := by
  rw [← refines.contents, contentsOf, row, Option.map_some]

include refines in
/-- Without a row there are no contents. -/
theorem Refines.noRow (row : rowOf config entries key = none) : contents key = none := by
  rw [← refines.contents, contentsOf, row, Option.map_none]

/-- What a search result shows: the key, the state and the value of the tuple. -/
def shown (tree : Tree K V) (result : Except Failure (Option Offset)) :
    Except Failure (Option (K × TupleState × V)) :=
  result.map (Option.map fun offset =>
    ((tree.tuples offset).key, (tree.tuples offset).header.valid, (tree.tuples offset).value))

include refines in
/-- A search for any row shows the contents. -/
theorem Refines.searchIncludingInvalid (key : K) :
    shown tree (searchIncludingInvalid config tree key) =
      .ok ((contents key).map fun held => (key, held)) := by
  rw [refines.represents.searchIncludingInvalid]
  cases row : rowOf config entries key with
  | none => simp [shown, Except.map, refines.noRow row]
  | some entry =>
    have equal : (tree.tuples entry.tupleOffset).key = key :=
      (refines.represents.rows.keys entry (List.mem_of_find?_eq_some row)).trans (rowOf_key row)
    simp [shown, Except.map, refines.row row, equal]

include refines in
/-- A search shows what is visible. -/
theorem Refines.search (key : K) :
    shown tree (search config tree key) =
      .ok (((contents key).filter fun held => held.1 = .visible).map fun held => (key, held)) := by
  rw [refines.represents.search]
  cases row : rowOf config entries key with
  | none => simp [shown, Except.map, refines.noRow row]
  | some entry =>
    have equal : (tree.tuples entry.tupleOffset).key = key :=
      (refines.represents.rows.keys entry (List.mem_of_find?_eq_some row)).trans (rowOf_key row)
    by_cases visible : (tree.tuples entry.tupleOffset).header.valid = .visible
    · simp [shown, Except.map, refines.row row, equal, Option.filter, isVisible, visible]
    · simp [shown, Except.map, refines.row row, Option.filter, isVisible, visible]

variable [DecidableEq K]

include refines in
/-- A row becomes a tombstone. -/
theorem Refines.bury {entry : LeafEntry K} (row : rowOf config entries key = some entry)
    (inUse : (tree.tuples entry.tupleOffset).header.valid ≠ .tombstone) :
    Refines config (buried tree entry.tupleOffset) entries
      (contents.retire key (tree.tuples entry.tupleOffset).header.valid).2 := by
  refine ⟨refines.represents.bury row inUse, fun other member => ?_, ?_⟩
  · by_cases same : other.tupleOffset = entry.tupleOffset
    · simp [buried, same]
    · simp [buried, Function.update_of_ne same, refines.unlocked other member]
  · rw [contentsOf_rewrite refines.represents.rows row rfl, refines.contents, Contents.retire,
      refines.row row]
    simp

include succeeds refines in
/-- An insertion does what the contents say. -/
theorem Refines.insert [Inhabited K] (key : K) (value : V) (state : InsertState) :
    ∃ after entries', runOn ((Call.insert key value state).run config) tree =
        (.ok ((Call.insert key value state).apply contents).1, after) ∧
      Refines config after entries' ((Call.insert key value state).apply contents).2 := by
  have accepted : consulted config tree entries key none none = (true, tree.tuples) := rfl
  have keeps : KeepsRows tree.tuples tree.tuples := fun _ => ⟨rfl, rfl⟩
  cases row : rowOf config entries key with
  | none =>
    obtain ⟨fresh, after, unused, ran, represents, tuples, -, -⟩ :=
      insertImpl_fresh value succeeds refines.represents state.tupleState_ne row accepted keeps
    have whole := refines.represents.absent row
    have rows : Rows config tree (below config entries key ++ above config entries key) :=
      whole ▸ refines.represents.rows
    refine ⟨after, _, ?_, represents, fun other member => ?_, ?_⟩
    · simpa [Call.run, BPlusTree.insert, Call.apply, Contents.stateOf, refines.noRow row] using ran
    · rw [tuples]
      by_cases same : other.tupleOffset = fresh
      · simp [same]
      · rw [Function.update_of_ne same]
        refine refines.unlocked other ?_
        rw [whole]
        rcases List.mem_append.mp member with inside | inside
        · exact List.mem_append_left _ inside
        · rcases List.mem_cons.mp inside with rfl | inside
          · exact absurd rfl same
          · exact List.mem_append_right _ inside
    · rw [contentsOf_insert rows (divides_fresh config entries key fresh) unused tuples, ← whole,
        refines.contents]
      simp [Call.apply, Contents.stateOf, refines.noRow row]
  | some entry =>
    have held := refines.row row
    by_cases dead : (tree.tuples entry.tupleOffset).header.valid = .tombstone
    · obtain ⟨after, ran, represents, tuples, -, -⟩ := insertImpl_revived value refines.represents
        state.tupleState_ne row dead accepted keeps
        (refines.unlocked entry (List.mem_of_find?_eq_some row))
      refine ⟨after, entries, ?_, represents, fun other member => ?_, ?_⟩
      · simpa [Call.run, BPlusTree.insert, Call.apply, Contents.stateOf, held, dead] using ran
      · rw [tuples]
        by_cases same : other.tupleOffset = entry.tupleOffset
        · simp [same]
        · rw [Function.update_of_ne same, refines.unlocked other member]
      · rw [contentsOf_rewrite refines.represents.rows row tuples, refines.contents]
        simp [Call.apply, Contents.stateOf, held, dead]
    · refine ⟨tree, entries, ?_, ?_⟩
      · simpa [Call.run, BPlusTree.insert, Call.apply, Contents.stateOf, held, dead] using
          insertImpl_taken value refines.represents row dead
      · simpa [Call.apply, Contents.stateOf, held, dead] using refines

include refines in
/-- Nothing to retire. -/
theorem Refines.retire_missing {state : TupleState}
    (missing : ∀ entry ∈ rowOf config entries key, (tree.tuples entry.tupleOffset).header.valid ≠
      state) :
    contents.retire key state = (false, contents) := by
  cases row : rowOf config entries key with
  | none => simp [Contents.retire, refines.noRow row]
  | some entry => simp [Contents.retire, refines.row row, missing entry row]

include refines in
/-- A retirement does what the contents say. -/
theorem Refines.retire {state : TupleState} (inUse : state ≠ .tombstone)
    {call : TreeM K V Bool} (retires : Retires config tree entries key state call) :
    ∃ after entries', runOn call tree = (.ok (contents.retire key state).1, after) ∧
      Refines config after entries' (contents.retire key state).2 := by
  by_cases held : ∃ entry, rowOf config entries key = some entry ∧
      (tree.tuples entry.tupleOffset).header.valid = state
  · obtain ⟨entry, row, rfl⟩ := held
    refine ⟨_, entries, ?_, refines.bury row inUse⟩
    rw [retires.present entry row rfl (refines.unlocked entry (List.mem_of_find?_eq_some row))]
    simp [Contents.retire, refines.row row]
  · have other : ∀ entry ∈ rowOf config entries key,
        (tree.tuples entry.tupleOffset).header.valid ≠ state := fun entry row same =>
      held ⟨entry, row, same⟩
    rw [refines.retire_missing other]
    exact ⟨tree, entries, retires.missing other, refines⟩

include succeeds refines in
/-- Every call does what the contents say. -/
theorem Refines.call [Inhabited K] (call : Call K V) :
    ∃ after entries', runOn (call.run config) tree = (.ok (call.apply contents).1, after) ∧
      Refines config after entries' (call.apply contents).2 := by
  cases call with
  | insert key value state => exact refines.insert succeeds key value state
  | erase key => exact refines.retire (by simp) (erase_retires refines.represents key)
  | discardPlaceholder key =>
    exact refines.retire (by simp) (discardPlaceholder_retires refines.represents key)

include succeeds refines in
/-- So do the calls of a list. -/
theorem Refines.calls [Inhabited K] (calls : List (Call K V)) :
    ∃ after entries', runOn (runCalls config calls) tree =
        (.ok (applyCalls calls contents).1, after) ∧
      Refines config after entries' (applyCalls calls contents).2 := by
  induction calls generalizing tree entries contents with
  | nil => exact ⟨tree, entries, rfl, refines⟩
  | cons call calls ih =>
    obtain ⟨middle, rows, ran, refines⟩ := refines.call succeeds call
    obtain ⟨after, entries', rest, refines⟩ := ih refines
    refine ⟨after, entries', ?_, refines⟩
    simp [runCalls, ran, rest, applyCalls]

/-- From a new tree on. -/
theorem createAndRun_refines [Inhabited K] [Inhabited V] (succeeds : Succeeds config)
    (memory : Tree K V) (calls : List (Call K V)) :
    ∃ after entries', runOn (createAndRun config calls) memory =
        (.ok (applyCalls calls fun _ => none).1, after) ∧
      Refines config after entries' (applyCalls calls fun _ => none).2 := by
  obtain ⟨created, made, represents⟩ := create_spec succeeds memory
  have refines : Refines config created [] fun _ => none := ⟨represents, by simp, rfl⟩
  obtain ⟨after, entries', ran, refines⟩ := refines.calls succeeds calls
  exact ⟨after, entries', by simp [createAndRun, made, ran], refines⟩

/-- The tree refines the map: every call of every run on a new tree returns what it returns
on the map, and afterwards both searches show what the map holds, for every key. -/
theorem tree_refines_map [Inhabited K] [Inhabited V] (config : Config K)
    (succeeds : Succeeds config) (memory : Tree K V) (calls : List (Call K V)) :
    ∃ after, runOn (createAndRun config calls) memory =
        (.ok (applyCalls calls fun _ => none).1, after) ∧
      ∀ key,
        shown after (BPlusTree.search config after key) =
          .ok ((((applyCalls calls fun _ => none).2 key).filter fun held => held.1 = .visible).map
            fun held => (key, held)) ∧
        shown after (BPlusTree.searchIncludingInvalid config after key) =
          .ok (((applyCalls calls fun _ => none).2 key).map fun held => (key, held)) := by
  obtain ⟨after, entries, ran, refines⟩ := createAndRun_refines succeeds memory calls
  exact ⟨after, ran, fun key => ⟨refines.search key, refines.searchIncludingInvalid key⟩⟩

end Refines

/-! ## An instance -/

/-- Natural numbers under subtraction, small nodes and a bump allocator. -/
def numbers : Config Nat where
  comparator first second := (first : Int) - second
  leafCapacity := 3
  innerCapacity := 3
  allocate request := some (64 * (request + 1))
  leafCapacity_ge := by decide
  innerCapacity_ge := by decide
  compare_eq_zero first second := by omega
  compare_swap first second := by omega
  compare_trans first second third low high := by omega
  allocate_ne_zero request := by simp
  allocate_fresh first second offset one other := by
    have equal : 64 * (first + 1) = 64 * (second + 1) := Option.some.inj (one.trans other.symm)
    omega

def blank : Tree Nat Nat where
  rootOffset := 0
  endGapOffset := 0
  treeVersion := 0
  tupleCount := 0
  leafCount := 0
  innerCount := 0
  allocatedTuples := 0
  reusedTuples := 0
  nodes _ := .other
  tuples _ := ⟨⟨0, 0, .tombstone⟩, 0, 0⟩
  allocations := 0

/-- The allocator of the sample always answers. -/
theorem numbers_succeeds : Succeeds numbers := fun request => ⟨64 * (request + 1), rfl⟩

/-- A run that splits the root leaf, erases a key, revives it and discards a placeholder. -/
def sampleCalls : List (Call Nat Nat) :=
  [.insert 5 50 .visible, .insert 1 10 .visible, .insert 3 30 .placeholder, .insert 4 40 .visible,
    .insert 5 51 .visible, .erase 5, .erase 5, .insert 5 52 .visible, .discardPlaceholder 3,
    .discardPlaceholder 1]

/-- The refinement on the sample run. -/
theorem tree_refines_map_sample : Succeeds numbers ∧
    ∃ after, runOn (createAndRun numbers sampleCalls) blank =
        (.ok (applyCalls sampleCalls fun _ => none).1, after) ∧
      ∀ key,
        shown after (search numbers after key) =
          .ok ((((applyCalls sampleCalls fun _ => none).2 key).filter
            fun held => held.1 = .visible).map fun held => (key, held)) ∧
        shown after (searchIncludingInvalid numbers after key) =
          .ok (((applyCalls sampleCalls fun _ => none).2 key).map fun held => (key, held)) :=
  ⟨numbers_succeeds, tree_refines_map numbers numbers_succeeds blank sampleCalls⟩

example : (runOn (createAndRun numbers sampleCalls) blank).1 =
    .ok [true, true, true, true, false, true, false, true, true, false] := by
  decide +kernel

end UbApplication.Tigon.BPlusTree
