import UbApplication.Lib.Machine
import UbApplication.Tigon.BPlusTree.Readers

/-!
# Cached lookups

`TableUBBPlusTree` finds tuples for transactions. On a remote tree it may ask its memory first:
each thread keeps a cache of tuple addresses, and an adapter may keep a directory of them, filled
by one scan. Nobody tells the caches of later calls on the tree. They still answer as the tree
does, since a tuple stays where it was made and its state is read on every hit.

The regions keep their generation while the adapter lives, so a global pointer is the offset it
was made from, or null.
-/

namespace UbApplication.Tigon.BPlusTree

open Option List
open Function (update update_self update_of_ne)

variable {K V : Type}

/-! ## The tuple offset cache -/

/-- `UBTupleOffsetCache::Entry`. -/
structure CacheEntry where
  table : Nat := 0
  key : Nat := 0
  tuple : Option Offset := none

/-- `UBTupleOffsetCache`: the entries by their slots. -/
abbrev TupleOffsetCache := Nat → CacheEntry

namespace TupleOffsetCache

/-- `slot`, in 64-bit arithmetic. -/
def slot (table key : Nat) : Nat :=
  let mixed := BitVec.ofNat 64 key ^^^ (BitVec.ofNat 64 table >>> 4)
  let mixed := (mixed ^^^ (mixed >>> 33)) * 0xff51afd7ed558ccd#64
  ((mixed ^^^ (mixed >>> 33)) &&& 4095#64).toNat

def lookup (cache : TupleOffsetCache) (table key : Nat) : Option Offset :=
  let entry := cache (slot table key)
  if entry.table = table ∧ entry.key = key then entry.tuple else none

def remember (cache : TupleOffsetCache) (table key : Nat) (tuple : Offset) : TupleOffsetCache :=
  update cache (slot table key) ⟨table, key, some tuple⟩

def forget (cache : TupleOffsetCache) (table key : Nat) : TupleOffsetCache :=
  let entry := cache (slot table key)
  if entry.table = table ∧ entry.key = key then update cache (slot table key) {} else cache

end TupleOffsetCache

/-! ## The lookup directory -/

/-- `UBReplicaLookupDirectory`. -/
structure LookupDirectory where
  firstKey : Nat
  stride : Nat
  entries : List (Option Offset)

namespace LookupDirectory

def slot (directory : LookupDirectory) (key : Nat) : Option Nat :=
  if directory.stride = 0 ∨ key < directory.firstKey then none
  else
    let difference := key - directory.firstKey
    if difference % directory.stride ≠ 0 ∨
        directory.entries.length ≤ difference / directory.stride then none
    else some (difference / directory.stride)

def remember (directory : LookupDirectory) (key : Nat) (tuple : Offset) : LookupDirectory :=
  match directory.slot key with
  | none => directory
  | some index => { directory with entries := directory.entries.set index (some tuple) }

def lookup (directory : LookupDirectory) (key : Nat) : Option Offset :=
  (directory.slot key).bind fun index => directory.entries[index]?.join

end LookupDirectory

/-! ## Searching with what is remembered -/

/-- The loop of `scan` over the leaves; the fuel is the number of leaves. -/
def scanRows (tree : Tree K V) : Nat → LeafNode K → Nat → Except Failure (List Offset)
  | 0, _, _ => .error .diverges
  | fuel + 1, leaf, position =>
    let rows := ((leaf.entries.drop position).map LeafEntry.tupleOffset).filter
      (isVisible tree.tuples)
    match leafFromOffset tree leaf.nextOffset with
    | none => .ok rows
    | some next => (rows ++ ·) <$> scanRows tree fuel next 0

/-- `scan`: the rows it hands to a visitor that stops nowhere. -/
def scan (config : Config K) (tree : Tree K V) (minKey : K) : Except Failure (List Offset) := do
  let (_, leaf, _) ← findLeaf config tree minKey
  scanRows tree tree.leafCount leaf (leafLowerBound config leaf.entries minKey)

/-- The constructor arguments of a table, and what the constructor reads from its process. -/
structure Adapter (K : Type) where
  /-- `get_plain_key`. -/
  plainKey : K → Nat
  /-- Where the descriptor of the owner's tree is mapped. -/
  address : Nat
  partitionId : Nat
  enableRmwCache : Bool
  replicatedRmw : Bool
  replicaKeyCount : Nat
  replicaFirstKey : Nat
  replicaKeyStride : Nat
  rmwKeyCount : Nat
  rmwFirstKey : Nat
  rmwKeyStride : Nat
  localRegion : Nat
  regionCount : Nat
  /-- Whether the memory mode is `ONE_SIDED`. -/
  oneSided : Bool
  cacheRequested : Bool
  replicaLookupRequested : Bool
  rmwLookupRequested : Bool

/-- The trees an adapter looks into: that of the owner region, and that of the peer region. -/
inductive Side where
  | owner
  | peer
  deriving DecidableEq

/-- The trees, and what the process of the adapter remembers of them. -/
structure Lookups (K V : Type) where
  trees : Side → Tree K V
  /-- `descriptor_`; zero is null. -/
  descriptor : Nat
  /-- `local_cache` of every thread. -/
  caches : Nat → TupleOffsetCache
  rmwDirectory : Option LookupDirectory
  replicaDirectory : Option LookupDirectory

namespace Adapter

def ownerRegion (adapter : Adapter K) : Nat :=
  if adapter.replicatedRmw then adapter.localRegion else adapter.partitionId % adapter.regionCount

def replicaLookupEnabled (adapter : Adapter K) : Bool :=
  adapter.replicatedRmw && adapter.replicaKeyCount != 0 && adapter.replicaLookupRequested

def rmwLookupEnabled (adapter : Adapter K) : Bool :=
  !adapter.replicatedRmw && adapter.enableRmwCache && adapter.rmwKeyCount != 0 && adapter.oneSided
    && adapter.rmwLookupRequested

def rmwCacheEnabled (adapter : Adapter K) : Bool :=
  !adapter.rmwLookupEnabled && adapter.enableRmwCache && adapter.oneSided && adapter.cacheRequested

/-- The directory an adapter holds, or one it fills by a scan of the tree. -/
def directoryOf [Inhabited K] (adapter : Adapter K) (config : Config K) (tree : Tree K V)
    (empty : LookupDirectory) : Option LookupDirectory → Except Failure LookupDirectory
  | some directory => .ok directory
  | none => do
    let rows ← scan config tree default
    return rows.foldl (fun directory offset =>
      directory.remember (adapter.plainKey (tree.tuples offset).key) offset) empty

/-- The search of `search` and `search_replica` through a directory. -/
def directorySearch [Inhabited K] (adapter : Adapter K) (config : Config K) (tree : Tree K V)
    (empty : LookupDirectory) (held : Option LookupDirectory) (key : K) :
    Except Failure (Option Offset) × Option LookupDirectory :=
  match adapter.directoryOf config tree empty held with
  | .error failure => (.error failure, held)
  | .ok directory =>
    match (directory.lookup (adapter.plainKey key)).filter fun offset =>
      isVisible tree.tuples offset && config.comparator (tree.tuples offset).key key = 0 with
    | some offset => (.ok (some offset), some directory)
    | none => (BPlusTree.search config tree key, some directory)

/-- The search of `search` through the cache of a thread. -/
def cacheSearch (adapter : Adapter K) (config : Config K) (state : Lookups K V) (thread : Nat)
    (key : K) : Except Failure (Option Offset) × Lookups K V :=
  let plainKey := adapter.plainKey key
  let cache := state.caches thread
  let cached := cache.lookup state.descriptor plainKey
  match cached.filter (isVisible (state.trees .owner).tuples) with
  | some offset => (.ok (some offset), state)
  | none =>
    let cache := if cached.isSome then cache.forget state.descriptor plainKey else cache
    -- `native_tree` finds the descriptor before the search of the tree
    match BPlusTree.search config (state.trees .owner) key with
    | .ok (some offset) => (.ok (some offset), { state with
        descriptor := adapter.address
        caches := update state.caches thread (cache.remember adapter.address plainKey offset) })
    | result => (result, { state with
        descriptor := adapter.address
        caches := update state.caches thread cache })

/-- What a call through the adapter forgets once it has returned. -/
def forget (adapter : Adapter K) (caches : Nat → TupleOffsetCache) (thread : Nat) (key : K) :
    Except Failure Bool → Nat → TupleOffsetCache
  | .ok true =>
    if adapter.rmwCacheEnabled then
      update caches thread ((caches thread).forget adapter.address (adapter.plainKey key))
    else caches
  | _ => caches

def search [Inhabited K] (adapter : Adapter K) (config : Config K) (state : Lookups K V)
    (thread : Nat) (key : K) : Except Failure (Option Offset) × Lookups K V :=
  if adapter.rmwLookupEnabled ∧ adapter.ownerRegion ≠ adapter.localRegion then
    let (result, directory) := adapter.directorySearch config (state.trees .owner)
      ⟨adapter.rmwFirstKey, adapter.rmwKeyStride, List.replicate adapter.rmwKeyCount none⟩
      state.rmwDirectory key
    (result, { state with descriptor := adapter.address, rmwDirectory := directory })
  else if adapter.rmwCacheEnabled ∧ adapter.ownerRegion ≠ adapter.localRegion then
    adapter.cacheSearch config state thread key
  else (BPlusTree.search config (state.trees .owner) key,
    { state with descriptor := adapter.address })

def searchReplica [Inhabited K] (adapter : Adapter K) (config : Config K) (state : Lookups K V)
    (key : K) : Except Failure (Option Offset) × Lookups K V :=
  if !adapter.replicatedRmw then (.ok none, state)
  else if !adapter.replicaLookupEnabled then (BPlusTree.search config (state.trees .peer) key,
    state)
  else
    let (result, directory) := adapter.directorySearch config (state.trees .peer)
      ⟨adapter.replicaFirstKey, adapter.replicaKeyStride,
        List.replicate adapter.replicaKeyCount none⟩ state.replicaDirectory key
    (result, { state with replicaDirectory := directory })

end Adapter

/-! ## Runs -/

/-- The calls that change a tree; the callbacks of an insertion work on locks. -/
inductive Mutation (K V : Type) where
  | insert (key : K) (value : V) (state : InsertState)
      (next : Option { processor : NextProcessor K V //
        ∀ offset tuples, KeepsRows tuples (processor offset tuples).2 })
      (adjacent : Option { processor : AdjacentProcessor K V //
        ∀ previous offset tuples, KeepsRows tuples (processor previous offset tuples).2 })
  | remove (key : K)
  | discardPlaceholder (key : K)

namespace Mutation

def key : Mutation K V → K
  | insert key .. | remove key | discardPlaceholder key => key

def run [Inhabited K] (config : Config K) : Mutation K V → TreeM K V Bool
  | insert key value state next adjacent =>
    insertImpl config key value state.tupleState (next.map Subtype.val) (adjacent.map Subtype.val)
  | remove key => erase config key
  | discardPlaceholder key => BPlusTree.discardPlaceholder config key

end Mutation

inductive LookupLabel (K V : Type) where
  /-- A thread of the process changes the owner's tree through the adapter. -/
  | call (thread : Nat) (mutation : Mutation K V)
  /-- Another process changes a tree. -/
  | elsewhere (side : Side) (mutation : Mutation K V)
  | search (thread : Nat) (key : K)
  | searchReplica (key : K)
  /-- A thread uses its cache for another table. -/
  | otherTable (thread : Nat) (slot : Nat) (entry : CacheEntry)

namespace Lookups

def start [Inhabited K] [Inhabited V] (adapter : Adapter K) (config : Side → Config K)
    (memory : Side → Tree K V) : Lookups K V where
  trees side := (runOn (create (config side)) (memory side)).2
  descriptor := if adapter.ownerRegion = adapter.localRegion then adapter.address else 0
  caches _ _ := {}
  rmwDirectory := none
  replicaDirectory := none

def step [Inhabited K] (adapter : Adapter K) (config : Side → Config K) (state : Lookups K V) :
    LookupLabel K V → Option (Lookups K V)
  | .call thread mutation =>
    let (result, tree) := runOn (mutation.run (config .owner)) (state.trees .owner)
    some { state with
      trees := update state.trees .owner tree
      descriptor := adapter.address
      caches := adapter.forget state.caches thread mutation.key result }
  | .elsewhere side mutation =>
    some { state with
      trees := update state.trees side (runOn (mutation.run (config side)) (state.trees side)).2 }
  | .search thread key => some (adapter.search (config .owner) state thread key).2
  | .searchReplica key => some (adapter.searchReplica (config .peer) state key).2
  | .otherTable thread slot entry =>
    if entry.tuple = none ∨ entry.table ≠ 0 ∧ entry.table ≠ adapter.address then
      some { state with
        caches := update state.caches thread (update (state.caches thread) slot entry) }
    else none

end Lookups

/-! ## Calls keep the tuples where they are -/

section Calls

variable {config : Config K} {tree : Tree K V} {entries : List (LeafEntry K)}

/-- The callbacks of an insertion keep the rows. -/
theorem consulted_keeps (config : Config K) (tree : Tree K V) (entries : List (LeafEntry K))
    (key : K) (next : Option { processor : NextProcessor K V //
      ∀ offset tuples, KeepsRows tuples (processor offset tuples).2 })
    (adjacent : Option { processor : AdjacentProcessor K V //
      ∀ previous offset tuples, KeepsRows tuples (processor previous offset tuples).2 }) :
    KeepsRows tree.tuples
      (consulted config tree entries key (next.map Subtype.val) (adjacent.map Subtype.val)).2 := by
  unfold consulted consult
  generalize previousRow config tree entries key = before, nextRow config tree entries key = behind
  have first : KeepsRows tree.tuples ((next.map Subtype.val).elim (true, tree.tuples)
      fun processor => processor behind tree.tuples).2 := by
    cases next with
    | none => exact fun _ => ⟨rfl, rfl⟩
    | some next => exact next.2 behind tree.tuples
  rcases asked : (next.map Subtype.val).elim (true, tree.tuples)
    fun processor => processor behind tree.tuples with ⟨_ | _, tuples⟩
  · rwa [asked] at first
  · rw [asked] at first
    cases adjacent with
    | none => exact first
    | some adjacent =>
      have second := adjacent.2 before behind tuples
      exact fun offset => ⟨(second offset).1.trans (first offset).1,
        (second offset).2.trans (first offset).2⟩

/-- Retiring a key leaves the rows as they are. -/
theorem Retires.represents {key : K} {state : TupleState} {call : TreeM K V Bool}
    (retires : Retires config tree entries key state call) (inUse : state ≠ .tombstone)
    (represents : Represents config tree entries) :
    Represents config (runOn call tree).2 entries := by
  by_cases held : ∃ entry, rowOf config entries key = some entry ∧
      (tree.tuples entry.tupleOffset).header.valid = state
  · obtain ⟨entry, row, rfl⟩ := held
    by_cases free : (tree.tuples entry.tupleOffset).header.lock = 0
    · rw [retires.present entry row rfl free]
      exact represents.bury row inUse
    · rw [retires.locked entry row rfl free]
      exact represents
  · rw [retires.missing fun entry row same => held ⟨entry, row, same⟩]
    exact represents

/-- A call leaves a tree with all the rows it had, each with its tuple. -/
theorem Represents.mutated [Inhabited K] (represents : Represents config tree entries)
    (succeeds : Succeeds config) (mutation : Mutation K V) :
    ∃ rows, Represents config (runOn (mutation.run config) tree).2 rows ∧ entries ⊆ rows := by
  cases mutation with
  | insert key value state next adjacent =>
    have keeps := consulted_keeps config tree entries key next adjacent
    rcases asked : consulted config tree entries key (next.map Subtype.val)
      (adjacent.map Subtype.val) with ⟨answer, tuples⟩
    rw [asked] at keeps
    by_cases free : Free config tree entries key
    · cases answer with
      | false =>
        refine ⟨entries, ?_, List.Subset.refl _⟩
        rw [Mutation.run, insertImpl_refused value represents state.tupleState_ne free asked]
        exact represents.keep keeps
      | true =>
        cases row : rowOf config entries key with
        | none =>
          obtain ⟨fresh, after, -, ran, still, -⟩ :=
            insertImpl_fresh value succeeds represents state.tupleState_ne row asked keeps
          rw [Mutation.run, ran]
          refine ⟨_, still, fun entry member => ?_⟩
          rw [represents.absent row] at member
          exact (mem_append.mp member).elim (mem_append_left _) fun later =>
            mem_append_right _ (mem_cons_of_mem _ later)
        | some entry =>
          refine ⟨entries, ?_, List.Subset.refl _⟩
          by_cases unlocked : (tuples entry.tupleOffset).header.lock = 0
          · obtain ⟨after, ran, still, -⟩ :=
              insertImpl_revived value represents state.tupleState_ne row
              (free entry row) asked keeps unlocked
            rw [Mutation.run, ran]
            exact still
          · rw [Mutation.run,
              insertImpl_blocked represents state.tupleState_ne row (free entry row) asked
              unlocked]
            exact represents.keep keeps
    · refine ⟨entries, ?_, List.Subset.refl _⟩
      simp only [Free, not_forall] at free
      obtain ⟨entry, row, taken⟩ := free
      rw [Mutation.run, insertImpl_taken value represents row taken]
      exact represents
  | remove key =>
    exact ⟨entries, (erase_retires represents key).represents (by simp) represents,
      List.Subset.refl _⟩
  | discardPlaceholder key =>
    exact ⟨entries, (discardPlaceholder_retires represents key).represents (by simp) represents,
      List.Subset.refl _⟩

/-- The rows that a scan passes. -/
theorem Follows.scanRows {leaves : List (SeparatorTree.Leaf Offset (LeafEntry K))}
    {node : LeafNode K}
    (follows : Follows tree node leaves) (position : Nat) {fuel : Nat}
    (enough : leaves.length < fuel) :
    scanRows tree fuel node position = .ok (((node.entries.drop position ++
      leaves.flatMap SeparatorTree.Leaf.entries).map LeafEntry.tupleOffset).filter
        (isVisible tree.tuples)) := by
  induction follows generalizing position fuel with
  | last last =>
    obtain ⟨fuel, rfl⟩ : ∃ smaller, fuel = smaller + 1 := ⟨fuel - 1, by omega⟩
    simp [BPlusTree.scanRows, last]
  | more found entries rest ih =>
    obtain ⟨fuel, rfl⟩ : ∃ smaller, fuel = smaller + 1 := ⟨fuel - 1, by omega⟩
    simp [BPlusTree.scanRows, found, ih 0 (by simpa using enough), entries]

/-- A scan hands out the visible rows from its lower bound on. -/
theorem Represents.scan (represents : Represents config tree entries) (minKey : K) :
    scan config tree minKey =
      .ok ((chosenRows tree entries (fromKey config minKey)).map LeafEntry.tupleOffset) := by
  obtain ⟨height, shape, indexes, rfl⟩ := represents.indexed
  obtain ⟨context, leaf, node, reached, located⟩ := findLeaf_located indexes.searchable minKey
  obtain ⟨follows, enough⟩ := located.follows indexes
  have chosen : chosenRows tree shape.entries (fromKey config minKey) =
      (shape.entries.filter fun entry => fromKey config minKey entry.key).filter
        fun entry => isVisible tree.tuples entry.tupleOffset := by
    simp [chosenRows, List.filter_filter, Bool.and_comm]
  simp only [BPlusTree.scan, reached]
  refine (follows.scanRows _ enough).trans (congrArg _ ?_)
  rw [chosen, ← located.rows_from indexes, ← located.entries]
  exact filter_map ..

end Calls

/-! ## What is remembered is true -/

section Lookup

variable {config : Config K} {tree : Tree K V} {entries : List (LeafEntry K)}

/-- A directory lists tuples of rows. -/
def LookupDirectory.Lists (directory : LookupDirectory) (entries : List (LeafEntry K)) : Prop :=
  ∀ offset, some offset ∈ directory.entries → ∃ row ∈ entries, row.tupleOffset = offset

/-- An empty directory. -/
theorem LookupDirectory.lists_blank (firstKey stride count : Nat) :
    Lists ⟨firstKey, stride, List.replicate count none⟩ entries := by
  simp [Lists]

/-- A row is remembered. -/
theorem LookupDirectory.Lists.remember {directory : LookupDirectory}
    (lists : directory.Lists entries) (key : Nat) {row : LeafEntry K} (member : row ∈ entries) :
    (directory.remember key row.tupleOffset).Lists entries := by
  unfold LookupDirectory.remember
  split
  · exact lists
  · intro offset listed
    rcases mem_or_eq_of_mem_set listed with old | new
    · exact lists offset old
    · exact ⟨row, member, (Option.some.inj new).symm⟩

variable (represents : Represents config tree entries)
include represents

/-- A search finds the tuple of a row while it is visible. -/
theorem Represents.search_row {row : LeafEntry K} (member : row ∈ entries)
    (visible : isVisible tree.tuples row.tupleOffset) :
    BPlusTree.search config tree row.key = .ok (some row.tupleOffset) := by
  rw [represents.search, represents.rowOf_eq member]
  simp [visible]

variable [Inhabited K] (adapter : Adapter K) {empty : LookupDirectory} (blank : empty.Lists entries)
  {held : Option LookupDirectory} (lists : ∀ directory ∈ held, directory.Lists entries)
include blank lists

/-- A directory lists rows of the tree. -/
theorem Represents.directoryOf :
    ∃ directory, adapter.directoryOf config tree empty held = .ok directory ∧
    directory.Lists entries := by
  cases held with
  | some directory => exact ⟨directory, rfl, lists directory rfl⟩
  | none =>
    refine ⟨_, by rw [Adapter.directoryOf, represents.scan]; rfl, ?_⟩
    have rows : ∀ row ∈ chosenRows tree entries (fromKey config default), row ∈ entries :=
      fun row =>
      mem_of_mem_filter
    generalize chosenRows tree entries (fromKey config default) = chosen at rows ⊢
    induction chosen generalizing empty with
    | nil => exact blank
    | cons row chosen ih =>
      exact ih (blank.remember _ (rows row (by simp))) fun other member =>
        rows other (by simp [member])

/-- A hit in a directory is the tuple of the key, since its key is compared. -/
theorem Represents.directorySearch (key : K) :
    (adapter.directorySearch config tree empty held key).1 = BPlusTree.search config tree key ∧
      ∀ directory ∈ (adapter.directorySearch config tree empty held key).2,
      directory.Lists entries := by
  obtain ⟨directory, built, listed⟩ := represents.directoryOf adapter blank lists
  simp only [Adapter.directorySearch, built]
  split
  case h_1 offset found =>
    obtain ⟨found, hit⟩ := filter_eq_some_iff.mp found
    simp only [Bool.and_eq_true, decide_eq_true_eq, config.compare_eq_zero] at hit
    obtain ⟨index, -, stored⟩ := bind_eq_some_iff.mp found
    obtain ⟨row, member, rfl⟩ := listed offset (mem_of_getElem? (join_eq_some_iff.mp stored))
    rw [← hit.2, represents.rows.keys row member]
    exact ⟨(represents.search_row member hit.1).symm, by simpa using listed⟩
  case h_2 => exact ⟨rfl, by simpa using listed⟩

end Lookup

/-- What a cache holds for the table is the tuple of the key. The adapter asks with the address of
its descriptor or, before it has one, with null. -/
def CacheEntry.Fits (adapter : Adapter K) (entries : List (LeafEntry K)) (entry : CacheEntry) :
    Prop :=
  ∀ offset, entry.tuple = some offset → entry.table = 0 ∨ entry.table = adapter.address →
    ∃ row ∈ entries, adapter.plainKey row.key = entry.key ∧ row.tupleOffset = offset

/-- The rows of the trees, and what is remembered of them. -/
structure Lookups.Sound (adapter : Adapter K) (config : Side → Config K)
    (entries : Side → List (LeafEntry K)) (state : Lookups K V) : Prop where
  represents : ∀ side, Represents (config side) (state.trees side) (entries side)
  descriptor : state.descriptor = 0 ∨ state.descriptor = adapter.address
  cached : ∀ thread slot, (state.caches thread slot).Fits adapter (entries .owner)
  rmw : ∀ directory ∈ state.rmwDirectory, directory.Lists (entries .owner)
  replica : ∀ directory ∈ state.replicaDirectory, directory.Lists (entries .peer)

namespace Lookups.Sound

variable {adapter : Adapter K} {config : Side → Config K} {entries : Side → List (LeafEntry K)}
  {state : Lookups K V} (sound : state.Sound adapter config entries) {cache : TupleOffsetCache}

/-- A cache entry is written. -/
theorem write (fits : ∀ slot, (cache slot).Fits adapter (entries .owner))
    (slot : Nat) {entry : CacheEntry} (new : entry.Fits adapter (entries .owner)) (other : Nat) :
    (update cache slot entry other).Fits adapter (entries .owner) := by
  by_cases same : other = slot
  · rwa [same, update_self]
  · rw [update_of_ne same]
    exact fits other

/-- A key is forgotten. -/
theorem forgotten (fits : ∀ slot, (cache slot).Fits adapter (entries .owner))
    (table key slot : Nat) : (cache.forget table key slot).Fits adapter (entries .owner) := by
  simp only [TupleOffsetCache.forget]
  split
  · exact write fits _ (fun offset held => by simp at held) slot
  · exact fits slot

include sound

/-- The cache of a thread changes. -/
theorem setCache (thread : Nat)
    (fits : ∀ slot, (cache slot).Fits adapter (entries .owner)) (other slot : Nat) :
    (update state.caches thread cache other slot).Fits adapter (entries .owner) := by
  by_cases same : other = thread
  · rw [same, update_self]
    exact fits slot
  · rw [update_of_ne same]
    exact sound.cached other slot

/-- A deletion forgets its key. -/
theorem forget (thread : Nat) (key : K) (result : Except Failure Bool) (other slot : Nat) :
    (adapter.forget state.caches thread key result other slot).Fits adapter (entries .owner) := by
  unfold Adapter.forget
  split
  · split
    · exact sound.setCache thread (forgotten (sound.cached thread) _ _) other slot
    · exact sound.cached other slot
  · exact sound.cached other slot

variable [Inhabited K] (injective : Function.Injective adapter.plainKey)
  (succeeds : ∀ side, Succeeds (config side))

section Searches

include injective

omit [Inhabited K] in
/-- A hit in a cache is the tuple of the key, since no other key has its plain key. -/
theorem cacheSearch (thread : Nat) (key : K) :
    (adapter.cacheSearch (config .owner) state thread key).1 =
        BPlusTree.search (config .owner) (state.trees .owner) key ∧
      (adapter.cacheSearch (config .owner) state thread key).2.Sound adapter config entries := by
  have represents := sound.represents .owner
  have fits := sound.cached thread
  simp only [Adapter.cacheSearch]
  split
  case h_1 offset hit =>
    obtain ⟨found, visible⟩ := filter_eq_some_iff.mp hit
    obtain ⟨⟨table, plain⟩, held⟩ := ite_none_right_eq_some.mp found
    obtain ⟨row, member, same, rfl⟩ := fits _ offset held (by rw [table]; exact sound.descriptor)
    rw [← injective (same.trans plain)]
    exact ⟨(represents.search_row member visible).symm, sound⟩
  case h_2 =>
    have kept : ∀ slot, CacheEntry.Fits adapter (entries .owner)
        ((if ((state.caches thread).lookup state.descriptor (adapter.plainKey key)).isSome then
          (state.caches thread).forget state.descriptor (adapter.plainKey key)
        else state.caches thread) slot) := by
      split
      · exact forgotten fits _ _
      · exact fits
    split
    case h_1 offset found =>
      have listed := found
      rw [represents.search, Except.ok.injEq] at listed
      obtain ⟨row, here, same⟩ := map_eq_some_iff.mp (filter_eq_some_iff.mp listed).1
      refine ⟨found.symm, { sound with descriptor := .inr rfl, cached := sound.setCache thread ?_ }⟩
      refine write kept _ fun offset held _ => ⟨row, mem_of_find?_eq_some here, ?_, ?_⟩
      · rw [rowOf_key here]
      · exact same.trans (Option.some.inj held)
    case h_2 =>
      exact ⟨rfl, { sound with descriptor := .inr rfl, cached := sound.setCache thread kept }⟩

/-- A search through the adapter is a search of the tree. -/
theorem search (thread : Nat) (key : K) :
    (adapter.search (config .owner) state thread key).1 =
        BPlusTree.search (config .owner) (state.trees .owner) key ∧
      (adapter.search (config .owner) state thread key).2.Sound adapter config entries := by
  unfold Adapter.search
  split
  · obtain ⟨same, lists⟩ := (sound.represents .owner).directorySearch adapter
      (LookupDirectory.lists_blank _ _ _) sound.rmw key
    exact ⟨same, { sound with descriptor := .inr rfl, rmw := lists }⟩
  · split
    · exact sound.cacheSearch injective thread key
    · exact ⟨rfl, { sound with descriptor := .inr rfl }⟩

omit injective in
/-- So is one of the replica. -/
theorem searchReplica (key : K) :
    (adapter.replicatedRmw → (adapter.searchReplica (config .peer) state key).1 =
        BPlusTree.search (config .peer) (state.trees .peer) key) ∧
      (adapter.searchReplica (config .peer) state key).2.Sound adapter config entries := by
  unfold Adapter.searchReplica
  split
  case isTrue alone => exact ⟨fun replicated => by simp [replicated] at alone, sound⟩
  case isFalse =>
    split
    · exact ⟨fun _ => rfl, sound⟩
    · obtain ⟨same, lists⟩ := (sound.represents .peer).directorySearch adapter
        (LookupDirectory.lists_blank _ _ _) sound.replica key
      exact ⟨fun _ => same, { sound with replica := lists }⟩

end Searches

include succeeds

/-- A call on a tree leaves all rows in place, so what is remembered stays true. -/
theorem mutated (side : Side) (mutation : Mutation K V) :
    ∃ rows, (∀ other, entries other ⊆ rows other) ∧ Sound adapter config rows { state with
      trees :=
        update state.trees side (runOn (mutation.run (config side)) (state.trees side)).2 } := by
  obtain ⟨rows, represents, kept⟩ := (sound.represents side).mutated (succeeds side) mutation
  have more : ∀ other, entries other ⊆ update entries side rows other := by
    intro other
    by_cases same : other = side
    · rwa [same, update_self]
    · rw [update_of_ne same]
      exact List.Subset.refl _
  have lists {directory : LookupDirectory} {other : Side} (old : directory.Lists (entries other)) :
      directory.Lists (update entries side rows other) := fun offset listed =>
    (old offset listed).imp fun row => And.imp_left (@more other row)
  refine ⟨update entries side rows, more, fun other => ?_, sound.descriptor,
    fun thread slot offset held asked => ?_, fun directory held => lists (sound.rmw directory held),
    fun directory held => lists (sound.replica directory held)⟩
  · by_cases same : other = side
    · subst same
      simpa using represents
    · simpa [same] using sound.represents other
  · exact (sound.cached thread slot offset held asked).imp fun row =>
      And.imp_left (@more .owner row)

include injective

/-- Every step keeps soundness. -/
theorem step {label : LookupLabel K V} {after : Lookups K V}
    (taken : Lookups.step adapter config state label = some after) :
    ∃ rows, (∀ side, entries side ⊆ rows side) ∧ after.Sound adapter config rows := by
  have same : ∀ side, entries side ⊆ entries side := fun _ => List.Subset.refl _
  cases label with
  | call thread mutation =>
    cases taken
    obtain ⟨rows, more, sound⟩ := sound.mutated succeeds .owner mutation
    exact ⟨rows, more,
      { sound with descriptor := .inr rfl, cached := sound.forget thread mutation.key _ }⟩
  | elsewhere side mutation =>
    cases taken
    exact sound.mutated succeeds side mutation
  | search thread key =>
    cases taken
    exact ⟨entries, same, (sound.search injective thread key).2⟩
  | searchReplica key =>
    cases taken
    exact ⟨entries, same, (sound.searchReplica key).2⟩
  | otherTable thread slot entry =>
    obtain ⟨apart, taken⟩ := ite_none_right_eq_some.mp taken
    cases taken
    refine ⟨entries, same, { sound with
      cached := sound.setCache thread
        (write (sound.cached thread) slot fun offset held mine => ?_) }⟩
    rcases apart with none | ⟨notNull, other⟩
    · rw [none] at held
      contradiction
    · exact absurd mine (not_or.mpr ⟨notNull, other⟩)

/-- Every run keeps soundness. -/
theorem run {labels : List (LookupLabel K V)} {final : Lookups K V}
    (ran : Machine.run (Lookups.step adapter config) state labels = some final) :
    ∃ rows, (∀ side, entries side ⊆ rows side) ∧ final.Sound adapter config rows := by
  refine Machine.run_invariant (fun _ => True) (fun state =>
    ∃ rows, (∀ side, entries side ⊆ rows side) ∧ state.Sound adapter config rows) ?_
      (fun _ _ => trivial) ⟨entries, fun _ => List.Subset.refl _, sound⟩ ran
  intro before label after held _ stepped
  obtain ⟨rows, kept, sound⟩ := held
  obtain ⟨more, grown, sound⟩ := sound.step injective succeeds stepped
  exact ⟨more, fun side => List.Subset.trans (kept side) (grown side), sound⟩

omit sound injective in
/-- The start is sound. -/
theorem start [Inhabited V] (memory : Side → Tree K V) :
    (Lookups.start adapter config memory).Sound adapter config fun _ => [] := by
  refine ⟨fun side => ?_, ?_, fun _ _ => nofun, nofun, nofun⟩
  · obtain ⟨tree, made, represents⟩ := create_spec (succeeds side) (memory side)
    simpa [Lookups.start, made] using represents
  · simp only [Lookups.start]
    split
    · exact .inr rfl
    · exact .inl rfl

end Lookups.Sound

/-- Lookups through the caches are lookups in the trees: in every run on new trees in which no
allocation fails, a search through an adapter returns what a search of the tree returns, whatever
the adapter remembers. The tuple of a key keeps its address, and no other key ever gets it. -/
theorem cached_search_exact [Inhabited K] [Inhabited V] {adapter : Adapter K}
    (injective : Function.Injective adapter.plainKey) {config : Side → Config K}
    (succeeds : ∀ side, Succeeds (config side)) {memory : Side → Tree K V}
    {labels : List (LookupLabel K V)} {state : Lookups K V}
    (ran : Machine.run (Lookups.step adapter config) (Lookups.start adapter config memory) labels =
      some state) :
    (∀ thread key, (adapter.search (config .owner) state thread key).1 =
      search (config .owner) (state.trees .owner) key) ∧
    (adapter.replicatedRmw → ∀ key, (adapter.searchReplica (config .peer) state key).1 =
      search (config .peer) (state.trees .peer) key) ∧
    ∀ side key offset,
      searchIncludingInvalid (config side) (state.trees side) key = .ok (some offset) →
      ∀ later final, Machine.run (Lookups.step adapter config) state later = some final →
        ∀ other, searchIncludingInvalid (config side) (final.trees side) other = .ok (some offset) ↔
          other = key := by
  obtain ⟨rows, -, sound⟩ := (Lookups.Sound.start succeeds memory).run injective succeeds ran
  refine ⟨fun thread key => (sound.search injective thread key).1,
    fun replicated key => (sound.searchReplica key).1 replicated, ?_⟩
  intro side key offset found later final ran other
  obtain ⟨more, kept, sound'⟩ := sound.run injective succeeds ran
  have represents' := sound'.represents side
  rw [(sound.represents side).searchIncludingInvalid, Except.ok.injEq, map_eq_some_iff] at found
  obtain ⟨row, here, rfl⟩ := found
  have member := kept side (mem_of_find?_eq_some here)
  obtain rfl := rowOf_key here
  rw [represents'.searchIncludingInvalid, Except.ok.injEq, map_eq_some_iff]
  constructor
  · rintro ⟨entry, there, same⟩
    rw [← rowOf_key there, represents'.offset_inj (mem_of_find?_eq_some there) member same]
  · rintro rfl
    exact ⟨row, represents'.rowOf_eq member, rfl⟩

/-- An adapter of a remote table that keeps a cache. -/
def remembering : Adapter Nat where
  plainKey := id
  address := 4096
  partitionId := 1
  enableRmwCache := true
  replicatedRmw := false
  replicaKeyCount := 0
  replicaFirstKey := 0
  replicaKeyStride := 1
  rmwKeyCount := 0
  rmwFirstKey := 0
  rmwKeyStride := 1
  localRegion := 0
  regionCount := 2
  oneSided := true
  cacheRequested := true
  replicaLookupRequested := true
  rmwLookupRequested := false

/-- The owner inserts a key that is then looked up, removes it and inserts it again. -/
def revival : List (LookupLabel Nat Nat) :=
  [.elsewhere .owner (.insert 5 50 .visible none none), .search 0 5, .elsewhere .owner (.remove 5),
    .elsewhere .owner (.insert 5 51 .visible none none)]

/-- A key that was deleted and comes back. -/
theorem cached_search_exact_revived : ∃ state : Lookups Nat Nat,
    Machine.run (Lookups.step remembering fun _ => numbers)
      (Lookups.start remembering (fun _ => numbers) fun _ => blank) revival = some state ∧
      ∀ thread key, (remembering.search numbers state thread key).1 =
        search numbers (state.trees .owner) key := by
  obtain ⟨state, ran⟩ : ∃ state, Machine.run (Lookups.step remembering fun _ => numbers)
      (Lookups.start remembering (fun _ => numbers) fun _ => blank) revival = some state := ⟨_, rfl⟩
  exact ⟨state, ran, (cached_search_exact Function.injective_id (fun _ => numbers_succeeds) ran).1⟩

/-- The cache keeps the tuple of key 3. The insertion of key 4 splits its leaf and fails to allocate
a root, so the tree loses the key. -/
theorem cached_search_outlives_key :
    (Machine.run (Lookups.step remembering fun _ => tight)
      (Lookups.start remembering (fun _ => tight) fun _ => blank)
      [.elsewhere .owner (.insert 1 10 .visible none none),
        .elsewhere .owner (.insert 2 20 .visible none none),
        .elsewhere .owner (.insert 3 30 .visible none none), .search 0 3,
        .elsewhere .owner (.insert 4 40 .visible none none)]).map (fun state =>
      ((remembering.search tight state 0 3).1, search tight (state.trees .owner) 3)) =
        some (.ok (some 320), .ok none) := by
  decide +kernel

end UbApplication.Tigon.BPlusTree
