import Mathlib.Logic.Function.Basic
import UbApplication.Tigon.Tuple

/-!
# The UB B+ tree

`UBBPlusTree` lives in one shared region and links its nodes by region offsets. Memory
is a total map from offsets to nodes and from offsets to tuples: before an allocation it
holds anything, and offset zero is the null pointer. Every public call runs under the
tree latch, so a call is one state transformer; the state survives an exception, as
shared memory does. The arrays of a node are lists of their occupied slots.

Loops that follow pointers take fuel. Their callers pass the node counters of the
descriptor, which bound them on every tree the operations build.
-/

namespace UbApplication.Tigon.BPlusTree

/-- An offset into the owner region; zero is null. -/
abbrev Offset := Nat

structure LeafEntry (K : Type) where
  key : K
  tupleOffset : Offset
  deriving DecidableEq, Repr

structure LeafNode (K : Type) where
  version : Nat
  prevOffset : Offset
  nextOffset : Offset
  entries : List (LeafEntry K)

structure InnerNode (K : Type) where
  version : Nat
  keys : List K
  children : List Offset

/-- What lies at a node offset, by the type field of the header. -/
inductive Node (K : Type) where
  | leaf (node : LeafNode K)
  | inner (node : InnerNode K)
  | other

structure TupleNode (K V : Type) where
  /-- `UBTupleHeader`. -/
  header : TupleHeader
  key : K
  value : V

/-- The tuple memory of a region. -/
abbrev Tuples (K V : Type) := Offset → TupleNode K V

/-- A tree descriptor together with the region its offsets point into. -/
structure Tree (K V : Type) where
  rootOffset : Offset
  endGapOffset : Offset
  treeVersion : Nat
  tupleCount : Nat
  leafCount : Nat
  innerCount : Nat
  allocatedTuples : Nat
  reusedTuples : Nat
  nodes : Offset → Node K
  tuples : Tuples K V
  allocations : Nat

/-- The template arguments of the tree, with its static assertions, and the region
allocator by the answers it gives to successive requests. -/
structure Config (K : Type) where
  /-- `KeyComparator`. -/
  comparator : K → K → Int
  leafCapacity : Nat
  innerCapacity : Nat
  /-- The answer to each allocation request; nothing when it throws `std::bad_alloc`. -/
  allocate : Nat → Option Offset
  leafCapacity_ge : 3 ≤ leafCapacity
  innerCapacity_ge : 3 ≤ innerCapacity
  compare_eq_zero : ∀ first second, comparator first second = 0 ↔ first = second
  compare_swap : ∀ first second, comparator first second < 0 ↔ 0 < comparator second first
  compare_trans : ∀ first second third, comparator first second < 0 →
    comparator second third < 0 → comparator first third < 0
  allocate_ne_zero : ∀ request, allocate request ≠ some 0
  allocate_fresh : ∀ first second offset, allocate first = some offset →
    allocate second = some offset → first = second

/-- How a call fails to return. -/
inductive Failure where
  /-- `std::bad_alloc` from the region allocator. -/
  | badAlloc
  | runtimeError (message : String)
  | logicError (message : String)
  /-- The call spins on a tuple lock that another thread holds. -/
  | blocked
  /-- The call follows pointers in a cycle. -/
  | diverges
  deriving DecidableEq, Repr

/-- A call on the tree. -/
abbrev TreeM (K V α : Type) := ExceptT Failure (StateM (Tree K V)) α

/-- An inner node passed on the way to a leaf, with the child taken. -/
structure PathEntry where
  node : Offset
  childIndex : Nat
  deriving DecidableEq, Repr

section Nodes

variable {K V : Type}

/-- `node_from_offset`: null at offset zero. -/
def nodeFromOffset (tree : Tree K V) (offset : Offset) : Option (Node K) :=
  if offset = 0 then none else some (tree.nodes offset)

/-- The leaf stored at an offset, when a leaf is stored there. -/
def leafOf : Node K → Option (LeafNode K)
  | .leaf node => some node
  | _ => none

/-- `leaf_from_offset`: null at offset zero. -/
def leafFromOffset (tree : Tree K V) (offset : Offset) : Option (LeafNode K) :=
  (nodeFromOffset tree offset).bind leafOf

def isVisible (tuples : Tuples K V) (offset : Offset) : Bool :=
  (tuples offset).header.valid = .visible

/-- The loop of `leaf_lower_bound`; the fuel is the number of slots left. -/
def lowerBoundLoop (isLess : Nat → Bool) : Nat → Nat → Nat → Nat
  | 0, first, _ => first
  | fuel + 1, first, count =>
    if count = 0 then first
    else if isLess (first + count / 2) then
      lowerBoundLoop isLess fuel (first + count / 2 + 1) (count - (count / 2 + 1))
    else lowerBoundLoop isLess fuel first (count / 2)

/-- Whether the key of a slot is less than the key searched for. -/
def slotLess (config : Config K) (entries : List (LeafEntry K)) (key : K) (slot : Nat) : Bool :=
  match entries[slot]? with
  | some entry => config.comparator entry.key key < 0
  | none => false

/-- `leaf_lower_bound`: binary search for the first slot whose key is not less. -/
def leafLowerBound (config : Config K) (entries : List (LeafEntry K)) (key : K) : Nat :=
  lowerBoundLoop (slotLess config entries key) entries.length 0 entries.length

/-- `child_index`: the first separator greater than the key. -/
def childIndex (config : Config K) (keys : List K) (key : K) : Nat :=
  keys.findIdx fun separator => config.comparator key separator < 0

/-- The descent loop of `find_leaf_unlocked`. The path lists the last inner node first. -/
def descend (config : Config K) (tree : Tree K V) (key : K) :
    Nat → Offset → Node K → List PathEntry →
      Except Failure (Offset × LeafNode K × List PathEntry)
  | _, offset, .leaf leaf, path => .ok (offset, leaf, path)
  | _, _, .other, _ => .error (.runtimeError "invalid UB B+ Tree node type")
  | 0, _, .inner _, _ => .error .diverges
  | fuel + 1, offset, .inner inner, path =>
    match nodeFromOffset tree (inner.children.getD (childIndex config inner.keys key) 0) with
    | none => .error (.runtimeError "invalid UB B+ Tree child offset")
    | some node =>
      descend config tree key fuel (inner.children.getD (childIndex config inner.keys key) 0)
        node (⟨offset, childIndex config inner.keys key⟩ :: path)

/-- `find_leaf_unlocked`. -/
def findLeaf (config : Config K) (tree : Tree K V) (key : K) :
    Except Failure (Offset × LeafNode K × List PathEntry) :=
  match nodeFromOffset tree tree.rootOffset with
  | none => .error (.runtimeError "UB B+ Tree has no root")
  | some node => descend config tree key tree.innerCount tree.rootOffset node []

def slotOf (config : Config K) (entries : List (LeafEntry K)) (key : K) :
    Option (LeafEntry K) :=
  (entries[leafLowerBound config entries key]?).filter fun entry =>
    config.comparator entry.key key = 0

/-- `search_including_invalid`: the tuple of a key in any state. -/
def searchIncludingInvalid (config : Config K) (tree : Tree K V) (key : K) :
    Except Failure (Option Offset) := do
  let (_, leaf, _) ← findLeaf config tree key
  return (slotOf config leaf.entries key).map LeafEntry.tupleOffset

/-- `search`: the tuple of a key when it is visible. -/
def search (config : Config K) (tree : Tree K V) (key : K) :
    Except Failure (Option Offset) := do
  let found ← searchIncludingInvalid config tree key
  return found.filter (isVisible tree.tuples)

/-- The first visible tuple of some slots. -/
def firstVisible (tuples : Tuples K V) (entries : List (LeafEntry K)) : Option Offset :=
  (entries.map LeafEntry.tupleOffset).find? (isVisible tuples)

/-- `next_visible_unlocked`: the first visible tuple at or after a slot, or the end gap.
The fuel is the number of leaves. -/
def nextVisible (tree : Tree K V) : Nat → LeafNode K → Nat → Except Failure Offset
  | 0, _, _ => .error .diverges
  | fuel + 1, leaf, position =>
    match firstVisible tree.tuples (leaf.entries.drop position) with
    | some offset => .ok offset
    | none =>
      match leafFromOffset tree leaf.nextOffset with
      | none => .ok tree.endGapOffset
      | some next => nextVisible tree fuel next 0

/-- `previous_visible_unlocked`: the last visible tuple before a slot, if any. -/
def previousVisible (tree : Tree K V) : Nat → LeafNode K → Nat → Except Failure (Option Offset)
  | 0, _, _ => .error .diverges
  | fuel + 1, leaf, position =>
    match firstVisible tree.tuples (leaf.entries.take position).reverse with
    | some offset => .ok (some offset)
    | none =>
      match leafFromOffset tree leaf.prevOffset with
      | none => .ok none
      | some previous => previousVisible tree fuel previous previous.entries.length

end Nodes

section Calls

variable {K V : Type}

/-- `UBMemory::allocate` on the owner region. -/
def allocate (config : Config K) : TreeM K V Offset := do
  let tree ← get
  set { tree with allocations := tree.allocations + 1 }
  match config.allocate tree.allocations with
  | some offset => return offset
  | none => throw .badAlloc

def setNode (offset : Offset) (node : Node K) : TreeM K V Unit :=
  modify fun tree => { tree with nodes := Function.update tree.nodes offset node }

def setTuple (offset : Offset) (tuple : TupleNode K V) : TreeM K V Unit :=
  modify fun tree => { tree with tuples := Function.update tree.tuples offset tuple }

def allocateTuple (config : Config K) (key : K) (value : V) (state : TupleState) :
    TreeM K V Offset := do
  let offset ← allocate config
  setTuple offset ⟨⟨0, 0, state⟩, key, value⟩
  modify fun tree => { tree with allocatedTuples := tree.allocatedTuples + 1 }
  return offset

/-- `allocate_leaf`: an empty leaf. -/
def allocateLeaf (config : Config K) : TreeM K V Offset := do
  let offset ← allocate config
  setNode offset (.leaf ⟨0, 0, 0, []⟩)
  modify fun tree => { tree with leafCount := tree.leafCount + 1 }
  return offset

/-- `allocate_inner`: an empty inner node. -/
def allocateInner (config : Config K) : TreeM K V Offset := do
  let offset ← allocate config
  setNode offset (.inner ⟨0, [], []⟩)
  modify fun tree => { tree with innerCount := tree.innerCount + 1 }
  return offset

/-- Point the leaf at an offset back at another leaf, when the offset is not null. -/
def setPrevious (offset previous : Offset) : TreeM K V Unit := do
  match leafFromOffset (← get) offset with
  | none => return
  | some leaf => setNode offset (.leaf { leaf with prevOffset := previous })

def finishMutation (offset : Offset) (leaf : LeafNode K) : TreeM K V Unit := do
  setNode offset (.leaf { leaf with version := leaf.version + 1 })
  modify fun tree => { tree with treeVersion := tree.treeVersion + 1 }

def insertLeafEntry (leaf : LeafNode K) (position : Nat) (entry : LeafEntry K) : LeafNode K :=
  { leaf with entries := leaf.entries.insertIdx position entry }

/-- `split_leaf_and_insert`: the new right leaf and the separator before it. -/
def splitLeafAndInsert (config : Config K) [Inhabited K] (offset : Offset) (leaf : LeafNode K)
    (position : Nat) (entry : LeafEntry K) : TreeM K V (K × Offset) := do
  let entries := leaf.entries.insertIdx position entry
  let rightOffset ← allocateLeaf config
  let leftCount := (config.leafCapacity + 1) / 2
  let right := entries.drop leftCount
  setNode offset (.leaf ⟨leaf.version + 1, leaf.prevOffset, rightOffset, entries.take leftCount⟩)
  setNode rightOffset (.leaf ⟨1, offset, leaf.nextOffset, right⟩)
  setPrevious leaf.nextOffset rightOffset
  return ((right.head?.map LeafEntry.key).getD default, rightOffset)

def insertInnerEntry (offset : Offset) (inner : InnerNode K) (childPosition : Nat)
    (separator : K) (rightOffset : Offset) : TreeM K V Unit :=
  setNode offset (.inner ⟨inner.version + 1, inner.keys.insertIdx childPosition separator,
    inner.children.insertIdx (childPosition + 1) rightOffset⟩)

/-- `split_inner_and_insert`: the promoted separator and the new right node. -/
def splitInnerAndInsert (config : Config K) [Inhabited K] (offset : Offset) (inner : InnerNode K)
    (childPosition : Nat) (separator : K) (rightChild : Offset) : TreeM K V (K × Offset) := do
  let keys := inner.keys.insertIdx childPosition separator
  let children := inner.children.insertIdx (childPosition + 1) rightChild
  let newRightOffset ← allocateInner config
  let middle := (config.innerCapacity + 1) / 2
  setNode offset (.inner ⟨inner.version + 1, keys.take middle, children.take (middle + 1)⟩)
  setNode newRightOffset (.inner ⟨1, keys.drop (middle + 1), children.drop (middle + 1)⟩)
  return (keys.getD middle default, newRightOffset)

/-- The inner node stored at an offset of the path. -/
def innerFromOffset (tree : Tree K V) (offset : Offset) : InnerNode K :=
  match tree.nodes offset with
  | .inner node => node
  | _ => ⟨0, [], []⟩

/-- `propagate_split`: insert the separator into the last inner node of the path, splitting
nodes upward while they are full, and grow a new root when the path is exhausted. -/
def propagateSplit (config : Config K) [Inhabited K] :
    List PathEntry → K → Offset → TreeM K V Unit
  | [], separator, rightOffset => do
    let oldRoot := (← get).rootOffset
    let newRootOffset ← allocateInner config
    setNode newRootOffset (.inner ⟨1, [separator], [oldRoot, rightOffset]⟩)
    modify fun tree => { tree with rootOffset := newRootOffset }
  | entry :: path, separator, rightOffset => do
    let inner := innerFromOffset (← get) entry.node
    if inner.keys.length < config.innerCapacity then
      insertInnerEntry entry.node inner entry.childIndex separator rightOffset
    else
      let (promoted, newRightOffset) ←
        splitInnerAndInsert config entry.node inner entry.childIndex separator rightOffset
      propagateSplit config path promoted newRightOffset

/-- `lock_exclusive`: spins while the tuple lock is held. -/
def lockExclusive (offset : Offset) : TreeM K V Unit := do
  let tuple := (← get).tuples offset
  match tryLock tuple.header.lock with
  | (true, word) => setTuple offset { tuple with header := { tuple.header with lock := word } }
  | (false, _) => throw .blocked

/-- Release the exclusive lock of a tuple. -/
def unlockTuple (offset : Offset) : TreeM K V Unit := do
  let tuple := (← get).tuples offset
  match unlock tuple.header.lock with
  | .ok word => setTuple offset { tuple with header := { tuple.header with lock := word } }
  | .error message => throw (.logicError message)

/-- A callback on the row after the inserted key; it works on tuples through the
reference it is given. -/
abbrev NextProcessor (K V : Type) := Offset → Tuples K V → Bool × Tuples K V

/-- A callback on the rows before and after the inserted key. -/
abbrev AdjacentProcessor (K V : Type) := Option Offset → Offset → Tuples K V → Bool × Tuples K V

/-- Ask the callbacks that are present, the next-row one first; the insertion goes on when
none refuses. -/
def consult (nextProcessor : Option (NextProcessor K V))
    (adjacentProcessor : Option (AdjacentProcessor K V)) (previous : Option Offset)
    (next : Offset) (tuples : Tuples K V) : Bool × Tuples K V :=
  match nextProcessor.elim (true, tuples) fun processor => processor next tuples with
  | (false, after) => (false, after)
  | (true, after) =>
    adjacentProcessor.elim (true, after) fun processor => processor previous next after

def runProcessor (processor : Tuples K V → Bool × Tuples K V) : TreeM K V Bool := do
  let tree ← get
  set { tree with tuples := (processor tree.tuples).2 }
  return (processor tree.tuples).1

/-- Bring the tombstone of a key back as a tuple in the given state. -/
def reviveTuple (offset : Offset) (key : K) (value : V) (state : TupleState) :
    TreeM K V Unit := do
  lockExclusive offset
  let tuple := (← get).tuples offset
  setTuple offset
    ⟨{ tuple.header with version := tuple.header.version + 1, valid := state }, key, value⟩
  unlockTuple offset
  modify fun tree =>
    { tree with tupleCount := tree.tupleCount + 1, reusedTuples := tree.reusedTuples + 1 }

/-- Link a fresh tuple into the leaf of its key, splitting nodes where they are full. -/
def insertFresh (config : Config K) [Inhabited K] (offset : Offset) (leaf : LeafNode K)
    (path : List PathEntry) (position : Nat) (key : K) (value : V) (state : TupleState) :
    TreeM K V Unit := do
  let tupleOffset ← allocateTuple config key value state
  if leaf.entries.length < config.leafCapacity then
    modify fun tree => { tree with tupleCount := tree.tupleCount + 1 }
    finishMutation offset (insertLeafEntry leaf position ⟨key, tupleOffset⟩)
  else
    let (separator, rightOffset) ← splitLeafAndInsert config offset leaf position ⟨key, tupleOffset⟩
    modify fun tree => { tree with tupleCount := tree.tupleCount + 1 }
    propagateSplit config path separator rightOffset
    modify fun tree => { tree with treeVersion := tree.treeVersion + 1 }

def insertImpl (config : Config K) [Inhabited K] (key : K) (value : V) (state : TupleState)
    (nextProcessor : Option (NextProcessor K V))
    (adjacentProcessor : Option (AdjacentProcessor K V)) : TreeM K V Bool := do
  if state = .tombstone then return false
  let tree ← get
  let (offset, leaf, path) ← findLeaf config tree key
  let position := leafLowerBound config leaf.entries key
  match slotOf config leaf.entries key with
  | some existing =>
    if (tree.tuples existing.tupleOffset).header.valid ≠ .tombstone then return false
    let next ← nextVisible tree tree.leafCount leaf (position + 1)
    let previous ← previousVisible tree tree.leafCount leaf position
    if !(← runProcessor (consult nextProcessor adjacentProcessor previous next)) then return false
    reviveTuple existing.tupleOffset key value state
    finishMutation offset leaf
    return true
  | none =>
    let next ← nextVisible tree tree.leafCount leaf position
    let previous ← previousVisible tree tree.leafCount leaf position
    if !(← runProcessor (consult nextProcessor adjacentProcessor previous next)) then return false
    insertFresh config offset leaf path position key value state
    return true

def insert (config : Config K) [Inhabited K] (key : K) (value : V) (state : TupleState) :
    TreeM K V Bool :=
  insertImpl config key value state none none

def insertLockNext (config : Config K) [Inhabited K] (key : K) (value : V)
    (processor : NextProcessor K V) (state : TupleState) : TreeM K V Bool :=
  insertImpl config key value state (some processor) none

def insertAndProcessAdjacent (config : Config K) [Inhabited K] (key : K) (value : V)
    (processor : AdjacentProcessor K V) (state : TupleState) : TreeM K V Bool :=
  insertImpl config key value state none (some processor)

/-- Turn a locked tuple into a tombstone. -/
def buryTuple (offset : Offset) : TreeM K V Unit := do
  let tuple := (← get).tuples offset
  setTuple offset { tuple with
    header := { tuple.header with version := tuple.header.version + 1, valid := .tombstone } }

def erase (config : Config K) (key : K) : TreeM K V Bool := do
  match ← search config (← get) key with
  | none => return false
  | some offset =>
    lockExclusive offset
    let present := ((← get).tuples offset).header.valid ≠ .tombstone
    buryTuple offset
    unlockTuple offset
    if present then
      modify fun tree => { tree with tupleCount := tree.tupleCount - 1 }
    return present

def discardPlaceholder (config : Config K) (key : K) : TreeM K V Bool := do
  let tree ← get
  match ← searchIncludingInvalid config tree key with
  | none => return false
  | some offset =>
    if (tree.tuples offset).header.valid ≠ .placeholder then return false
    lockExclusive offset
    let discarded := ((← get).tuples offset).header.valid = .placeholder
    if discarded then
      buryTuple offset
      modify fun tree => { tree with tupleCount := tree.tupleCount - 1 }
    unlockTuple offset
    return discarded

/-- `create`: an empty leaf as the root and a visible tuple for the gap at the end. -/
def create (config : Config K) [Inhabited K] [Inhabited V] : TreeM K V Unit := do
  modify fun tree => { tree with
    rootOffset := 0, endGapOffset := 0, treeVersion := 0, tupleCount := 0, leafCount := 0,
    innerCount := 0, allocatedTuples := 0, reusedTuples := 0 }
  let root ← allocate config
  setNode root (.leaf ⟨0, 0, 0, []⟩)
  let endGap ← allocate config
  setTuple endGap ⟨⟨0, 0, .visible⟩, default, default⟩
  modify fun tree => { tree with rootOffset := root, endGapOffset := endGap, leafCount := 1 }

end Calls

/-! ## Running calls -/

section Run

variable {K V α β : Type}

/-- The result of a call and the tree it leaves. -/
def runOn (call : TreeM K V α) (tree : Tree K V) : Except Failure α × Tree K V := call.run.run tree

/-- A value keeps the tree. -/
@[simp] theorem runOn_pure (value : α) (tree : Tree K V) :
    runOn (pure value) tree = (.ok value, tree) := rfl

/-- Reads the tree. -/
@[simp] theorem runOn_get (tree : Tree K V) : runOn get tree = (.ok tree, tree) := rfl

/-- Stores a tree. -/
@[simp] theorem runOn_set (next tree : Tree K V) : runOn (set next) tree = (.ok ⟨⟩, next) := rfl

/-- Changes the tree. -/
@[simp] theorem runOn_modify (change : Tree K V → Tree K V) (tree : Tree K V) :
    runOn (modify change) tree = (.ok ⟨⟩, change tree) := rfl

/-- A failure keeps the tree. -/
@[simp] theorem runOn_throw (failure : Failure) (tree : Tree K V) :
    runOn (throw failure : TreeM K V α) tree = (.error failure, tree) := rfl

/-- So does an outcome. -/
@[simp] theorem runOn_lift (result : Except Failure α) (tree : Tree K V) :
    runOn (liftM result : TreeM K V α) tree = (result, tree) := by
  cases result <;> rfl

/-- One call after the other. -/
@[simp] theorem runOn_bind (call : TreeM K V α) (next : α → TreeM K V β) (tree : Tree K V) :
    runOn (call >>= next) tree =
      match runOn call tree with
      | (.ok value, after) => runOn (next value) after
      | (.error failure, after) => (.error failure, after) := by
  simp only [runOn, ExceptT.run_bind, StateT.run_bind]
  rcases call.run.run tree with ⟨_ | _, _⟩ <;> rfl

/-- The rest after a success. -/
theorem runOn_bind_ok {call : TreeM K V α} {next : α → TreeM K V β} {tree after : Tree K V}
    {value : α} (returned : runOn call tree = (.ok value, after)) :
    runOn (call >>= next) tree = runOn (next value) after := by
  rw [runOn_bind, returned]

/-- A result changed. -/
@[simp] theorem runOn_map (change : α → β) (call : TreeM K V α) (tree : Tree K V) :
    runOn (change <$> call) tree =
      match runOn call tree with
      | (.ok value, after) => (.ok (change value), after)
      | (.error failure, after) => (.error failure, after) := by
  rw [← bind_pure_comp, runOn_bind]
  rfl

/-- An allocation that is answered. -/
theorem runOn_allocate {config : Config K} {tree : Tree K V} {offset : Offset}
    (answer : config.allocate tree.allocations = some offset) :
    runOn (allocate config) tree =
      (.ok offset, { tree with allocations := tree.allocations + 1 }) := by
  simp [allocate, answer]

/-- Stores a node. -/
@[simp] theorem runOn_setNode (offset : Offset) (node : Node K) (tree : Tree K V) :
    runOn (setNode offset node) tree =
      (.ok ⟨⟩, { tree with nodes := Function.update tree.nodes offset node }) := rfl

/-- Stores a tuple. -/
@[simp] theorem runOn_setTuple (offset : Offset) (tuple : TupleNode K V) (tree : Tree K V) :
    runOn (setTuple offset tuple) tree =
      (.ok ⟨⟩, { tree with tuples := Function.update tree.tuples offset tuple }) := rfl

end Run

end UbApplication.Tigon.BPlusTree
