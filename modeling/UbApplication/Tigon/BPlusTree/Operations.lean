import UbApplication.Tigon.BPlusTree.Split

/-!
# What the tree operations do to the rows

A tree represents a sorted list of rows when it indexes a separator tree with those
rows and its tuples belong to them. Each operation is described once by what it does to
the rows and to the tuple memory.
-/

namespace UbApplication.Tigon.BPlusTree

open SeparatorTree List
open Function (update update_of_ne update_self)

variable {K V : Type} {config : Config K} {tree : Tree K V} {entries : List (LeafEntry K)}

/-- The tree holds exactly these rows. -/
structure Represents (config : Config K) (tree : Tree K V) (entries : List (LeafEntry K)) :
    Prop where
  indexed : ∃ (height : Nat) (shape : TreeShape K height),
    Indexes config tree shape ∧ shape.entries = entries
  rows : Rows config tree entries

/-- A search finds the row of the key among those that the descent can reach. -/
theorem Searchable.searchIncludingInvalid {height : Nat} {shape : TreeShape K height}
    (searchable : Searchable config tree shape) (key : K) :
    searchIncludingInvalid config tree key =
      .ok ((rowOf config shape.entries key).map LeafEntry.tupleOffset) := by
  obtain ⟨context, leaf, node, reached, located⟩ := findLeaf_located searchable key
  rw [← located.slot searchable]
  simp only [BPlusTree.searchIncludingInvalid, reached]
  rfl

section

variable (represents : Represents config tree entries)
include represents

/-- The rows are sorted. -/
theorem Represents.sorted : Sorted config entries := by
  obtain ⟨height, shape, indexes, rfl⟩ := represents.indexed
  exact indexes.searchable.sorted

/-- A search for any row. -/
theorem Represents.searchIncludingInvalid (key : K) : searchIncludingInvalid config tree key =
      .ok ((rowOf config entries key).map LeafEntry.tupleOffset) := by
  obtain ⟨height, shape, indexes, rfl⟩ := represents.indexed
  exact indexes.searchable.searchIncludingInvalid key

/-- A search for a visible row. -/
theorem Represents.search (key : K) : search config tree key = .ok
      (((rowOf config entries key).map LeafEntry.tupleOffset).filter (isVisible tree.tuples)) := by
  simp only [BPlusTree.search, represents.searchIncludingInvalid]
  rfl

end

/-! ## Rows under change -/

variable {after : Tree K V} {fresh : Offset} {height : Nat}

/-- The index does not depend on the tuples, and only the root, the nodes, the node counters
and the allocator matter to it. -/
theorem Indexes.congr {shape : TreeShape K height} (indexes : Indexes config tree shape)
    (root : after.rootOffset = tree.rootOffset) (nodes : after.nodes = tree.nodes)
    (leafCount : after.leafCount = tree.leafCount) (innerCount : after.innerCount = tree.innerCount)
    (later : tree.allocations ≤ after.allocations) : Indexes config after shape where
  root := root.trans indexes.root
  stored := nodes ▸ indexes.stored
  filled := root ▸ indexes.filled
  outline := indexes.outline.congr later (fun leaf _ => by rw [nodes]; exact ⟨rfl, rfl⟩) leafCount
    innerCount

/-- The rows when nothing of them changes. -/
theorem Rows.congr (rows : Rows config tree entries)
    (endGapOffset : after.endGapOffset = tree.endGapOffset)
    (tupleCount : after.tupleCount = tree.tupleCount) (later : tree.allocations ≤ after.allocations)
    (same : ∀ offset, Allocated config tree.allocations offset → (after.tuples offset).key =
      (tree.tuples offset).key ∧ (after.tuples offset).header.valid =
        (tree.tuples offset).header.valid) :
    Rows config after entries := by
  have old : ∀ entry ∈ entries, Allocated config tree.allocations entry.tupleOffset :=
    fun entry member =>
    rows.allocated _ (mem_cons_of_mem _ (mem_map_of_mem member))
  refine ⟨endGapOffset ▸ rows.distinct, fun offset member => ?_, fun entry member => ?_, ?_, ?_⟩
  · exact (rows.allocated offset (endGapOffset ▸ member)).mono later
  · exact (same _ (old entry member)).1.trans (rows.keys entry member)
  · rw [tupleCount, countP_congr fun entry member => by rw [(same _ (old entry member)).2]]
    exact rows.tupleCount
  · rw [endGapOffset, (same _ (rows.allocated _ mem_cons_self)).2, rows.endGap]

/-- The count of rows in use, without the tuple. -/
theorem countP_update {tuples : Tuples K V} {offset : Offset} {tuple : TupleNode K V}
    {list : List (LeafEntry K)} (apart : ∀ entry ∈ list, entry.tupleOffset ≠ offset) :
    list.countP (fun entry =>
        (update tuples offset tuple entry.tupleOffset).header.valid ≠ .tombstone) =
      list.countP fun entry => (tuples entry.tupleOffset).header.valid ≠ .tombstone := by
  refine countP_congr fun entry member => ?_
  rw [update_of_ne (apart entry member)]

variable {state : TupleState}

/-- The rows after an insertion. -/
theorem Rows.insert {left right : List (LeafEntry K)} {key : K} {value : V}
    (rows : Rows config tree (left ++ right)) (unused : ¬ Allocated config tree.allocations fresh)
    (used : Allocated config after.allocations fresh) (later : tree.allocations ≤ after.allocations)
    (endGapOffset : after.endGapOffset = tree.endGapOffset)
    (tuples : after.tuples = update tree.tuples fresh ⟨⟨0, 0, state⟩, key, value⟩)
    (tupleCount : after.tupleCount = tree.tupleCount + 1) (inUse : state ≠ .tombstone) :
    Rows config after (left ++ ⟨key, fresh⟩ :: right) := by
  have apart : ∀ offset ∈ tree.endGapOffset :: (left ++ right).map LeafEntry.tupleOffset,
      offset ≠ fresh := by
    rintro offset member rfl
    exact unused (rows.allocated _ member)
  have leftApart : ∀ entry ∈ left, entry.tupleOffset ≠ fresh := fun entry member =>
    apart _ (mem_cons_of_mem _ (mem_map_of_mem (mem_append_left _ member)))
  have rightApart : ∀ entry ∈ right, entry.tupleOffset ≠ fresh := fun entry member =>
    apart _ (mem_cons_of_mem _ (mem_map_of_mem (mem_append_right _ member)))
  have offsets : (tree.endGapOffset :: (left ++ ⟨key, fresh⟩ :: right).map
      LeafEntry.tupleOffset).Perm
      (fresh :: tree.endGapOffset :: (left ++ right).map LeafEntry.tupleOffset) := by
    simp only [map_append, map_cons]
    exact (perm_middle.cons _).trans (List.Perm.swap _ _ _)
  refine ⟨?_, fun offset member => ?_, fun entry member => ?_, ?_, ?_⟩
  · rw [endGapOffset, offsets.nodup_iff, nodup_cons]
    exact ⟨fun member => apart _ member rfl, rows.distinct⟩
  · rw [endGapOffset, offsets.mem_iff, mem_cons] at member
    rcases member with rfl | member
    · exact used
    · exact (rows.allocated offset member).mono later
  · rw [tuples]
    rcases mem_append.mp member with member | member
    · rw [update_of_ne (leftApart entry member)]
      exact rows.keys entry (mem_append_left _ member)
    · rcases mem_cons.mp member with rfl | member
      · rw [update_self]
      · rw [update_of_ne (rightApart entry member)]
        exact rows.keys entry (mem_append_right _ member)
  · have before := rows.tupleCount
    rw [countP_append] at before
    rw [tupleCount, tuples, countP_append, countP_cons, countP_update leftApart,
      countP_update rightApart, update_self]
    simp only [ne_eq, inUse, not_false_eq_true, decide_true, if_true] at before ⊢
    omega
  · rw [endGapOffset, tuples, update_of_ne (apart _ (by simp)), rows.endGap]

/-- The rows after one tuple is rewritten. -/
theorem Rows.rewrite {entry : LeafEntry K} {tuple : TupleNode K V} (rows : Rows config tree entries)
    (member : entry ∈ entries) (later : tree.allocations ≤ after.allocations)
    (endGapOffset : after.endGapOffset = tree.endGapOffset)
    (tuples : after.tuples = update tree.tuples entry.tupleOffset tuple)
    (key : tuple.key = entry.key)
    (tupleCount : tree.tupleCount + (if tuple.header.valid ≠ .tombstone then 1 else 0) ≤
      after.tupleCount +
        (if (tree.tuples entry.tupleOffset).header.valid ≠ .tombstone then 1 else 0)) :
    Rows config after entries := by
  obtain ⟨left, right, rfl⟩ := append_of_mem member
  have distinct := rows.distinct
  simp only [map_append, map_cons, nodup_cons, nodup_append, mem_append,
    mem_cons, not_or] at distinct
  obtain ⟨⟨-, notGap, -⟩, -, ⟨notRight, -⟩, across⟩ := distinct
  have leftApart : ∀ other ∈ left, other.tupleOffset ≠ entry.tupleOffset := fun other inside =>
    across _ (mem_map_of_mem inside) _ (.inl rfl)
  have rightApart : ∀ other ∈ right, other.tupleOffset ≠ entry.tupleOffset :=
    fun other inside same =>
    notRight (same ▸ mem_map_of_mem inside)
  refine ⟨endGapOffset ▸ rows.distinct, fun offset listed => ?_, fun other listed => ?_, ?_, ?_⟩
  · exact (rows.allocated offset (endGapOffset ▸ listed)).mono later
  · rw [tuples]
    by_cases same : other.tupleOffset = entry.tupleOffset
    · have here : other = entry := by
        rcases mem_append.mp listed with inside | inside
        · exact absurd same (leftApart other inside)
        · rcases mem_cons.mp inside with here | inside
          · exact here
          · exact absurd same (rightApart other inside)
      rw [here, update_self, key]
    · rw [update_of_ne same, rows.keys other listed]
  · have before := rows.tupleCount
    rw [tuples, countP_append, countP_cons, countP_update leftApart,
      countP_update rightApart, update_self]
    rw [countP_append, countP_cons] at before
    simp only [decide_eq_true_eq] at before ⊢
    omega
  · rw [endGapOffset, tuples, update_of_ne notGap, rows.endGap]

/-! ## Inserting a fresh row -/

section Fresh

variable {height : Nat} {shape : TreeShape K height} {key : K}
  {context : Context Offset K (LeafEntry K) 0 height} {leaf : Leaf Offset (LeafEntry K)}
  {node : LeafNode K}

/-- The same nodes. -/
theorem Located.congr {after : Tree K V} (located : Located config tree shape key context leaf node)
    (nodes : after.nodes = tree.nodes) : Located config after shape key context leaf node :=
  ⟨located.plugged, located.routes, nodes ▸ located.found, located.entries⟩

/-- The rows around an absent key. -/
theorem Located.rows_absent (located : Located config tree shape key context leaf node)
    (indexes : Indexes config tree shape) (absent : rowOf config shape.entries key = none) :
    shape.entries = below config shape.entries key ++ above config shape.entries key := by
  have divided := located.rows_divided indexes absent
  have divides := (located.divides indexes absent).1
  conv_lhs => rw [divided]
  rw [divided, divides.below_eq, divides.above_eq]
  simp

/-- The same for a tree. -/
theorem Represents.absent (represents : Represents config tree entries)
    (absent : rowOf config entries key = none) :
    entries = below config entries key ++ above config entries key := by
  obtain ⟨height, shape, indexes, rfl⟩ := represents.indexed
  obtain ⟨context, leaf, node, -, located⟩ := findLeaf_located indexes.searchable key
  exact located.rows_absent indexes absent

/-- The rows with the new slot. -/
theorem Located.rows_slotsWith (located : Located config tree shape key context leaf node)
    (indexes : Indexes config tree shape) (absent : rowOf config shape.entries key = none)
    (offset : Offset) :
    context.entriesBefore ++ slotsWith config node key offset ++ context.entriesAfter =
      below config shape.entries key ++ ⟨key, offset⟩ :: above config shape.entries key := by
  have divides := (located.divides indexes absent).1
  rw [located.rows_divided indexes absent, divides.below_eq, divides.above_eq,
    located.slotsWith_eq indexes]
  simp

/-- A leaf with room. -/
theorem Located.fill_slotsWith (located : Located config tree shape key context leaf node)
    (indexes : Indexes config tree shape) (offset : Offset)
    (space : node.entries.length < config.leafCapacity) :
    LeafFill config tree.rootOffset leaf.addr (slotsWith config node key offset) := by
  have fill := ((context.plug_every _).mp (located.plugged ▸ indexes.filled)).1
  have bound := (leafLowerBound_spec config (located.sorted indexes.searchable) key).1
  have length : (slotsWith config node key offset).length = node.entries.length + 1 := by
    rw [slotsWith, length_insertIdx, if_pos (by rw [located.entries]; exact bound)]
  obtain ⟨least, -⟩ := (Shape.every_leaf leaf).mp fill
  rw [LeafFill, length]
  refine ⟨fun other => ?_, by omega⟩
  have enough := least other
  rw [← located.entries] at enough
  omega

/-- A node call settles on rows: the tree is sound and has these rows. -/
def SettledRows (config : Config K) (tree after : Tree K V) (entries : List (LeafEntry K)) : Prop :=
  (∃ (height : Nat) (shape : TreeShape K height),
    Indexes config after shape ∧ shape.entries = entries) ∧ SameRows tree after

section

variable (located : Located config tree shape key context leaf node)
  (indexes : Indexes config tree shape)
include located indexes

/-- A slot is put into a leaf with room. -/
theorem Located.insertRoom (absent : rowOf config shape.entries key = none)
    (offset : Offset) (space : node.entries.length < config.leafCapacity) (version : Nat) :
    SettledRows config tree { tree with
        nodes := update tree.nodes leaf.addr (.leaf ⟨version, node.prevOffset,
          node.nextOffset, slotsWith config node key offset⟩) }
      (below config shape.entries key ++ ⟨key, offset⟩ :: above config shape.entries key) := by
  obtain ⟨⟨height, after, sound, leaves⟩, same⟩ := located.replace indexes
    (slotsWith config node key offset) version (located.ordered_slotsWith indexes absent offset)
    (located.fill_slotsWith indexes offset space)
  refine ⟨⟨height, after, sound, ?_⟩, same⟩
  rw [← located.rows_slotsWith indexes absent, Shape.entries, leaves]
  simp [Context.entriesBefore, Context.entriesAfter]

/-- A leaf gets a new version. -/
theorem Located.touch (version : Nat) :
    SettledRows config tree
      { tree with nodes := update tree.nodes leaf.addr (.leaf { node with version }) }
      shape.entries := by
  have ordered := located.plugged ▸ indexes.outline.ordered
  rw [context.plug_walk] at ordered
  have fill := ((context.plug_every _).mp (located.plugged ▸ indexes.filled)).1
  obtain ⟨⟨height, after, sound, leaves⟩, same⟩ := located.replace indexes node.entries version
    (by rw [located.entries]; exact ordered) (by rw [located.entries]; exact fill)
  refine ⟨⟨height, after, sound, ?_⟩, same⟩
  rw [Shape.entries, leaves, Shape.entries, located.leaves, located.entries]

/-- A full leaf has one slot too many. -/
theorem Located.length_slotsWith (offset : Offset)
    (full : ¬ node.entries.length < config.leafCapacity) :
    (slotsWith config node key offset).length = config.leafCapacity + 1 := by
  have fill := ((context.plug_every _).mp (located.plugged ▸ indexes.filled)).1
  have bound := (leafLowerBound_spec config (located.sorted indexes.searchable) key).1
  have most := ((Shape.every_leaf leaf).mp fill).2
  rw [← located.entries] at most bound
  rw [slotsWith, length_insertIdx, if_pos bound]
  omega

end

/-- What an insertion that runs out of memory above the leaves leaves: the rows with the new
one among them, in a tree with a right half that no inner node points at. -/
def StuckRows (config : Config K) (tree after : Tree K V) (entries : List (LeafEntry K)) : Prop :=
  ∃ leaves, Stuck config tree after leaves ∧ leaves.flatMap Leaf.entries = entries

/-- A full leaf is split. -/
theorem Located.insertFull [Inhabited K]
    (located : Located config tree shape key context leaf node)
    (indexes : Indexes config tree shape) (absent : rowOf config shape.entries key = none)
    (offset : Offset) (full : ¬ node.entries.length < config.leafCapacity) {fresh : Offset}
    (answer : config.allocate tree.allocations = some fresh) (version : Nat) :
    ∃ result after, runOn (propagateSplit config (pathOf context)
        ((((slotsWith config node key offset).drop ((config.leafCapacity + 1) / 2)).head?.map
          LeafEntry.key).getD default) fresh)
        { tree with
          allocations := tree.allocations + 1
          leafCount := tree.leafCount + 1
          nodes := splitNodes tree leaf node fresh version
            ((slotsWith config node key offset).take ((config.leafCapacity + 1) / 2))
            ((slotsWith config node key offset).drop ((config.leafCapacity + 1) / 2)) } =
        (result, after) ∧
      (result = .ok ⟨⟩ ∧ SettledRows config tree after
          (below config shape.entries key ++ ⟨key, offset⟩ :: above config shape.entries key) ∨
        result = .error .badAlloc ∧ tree.allocations + 1 < after.allocations ∧
          StuckRows config tree after
            (below config shape.entries key ++ ⟨key, offset⟩ :: above config shape.entries
              key)) := by
  have splitting := located.split indexes (located.ordered_slotsWith indexes absent offset)
    (located.length_slotsWith indexes offset full) answer version
  have halves := take_append_drop ((config.leafCapacity + 1) / 2)
    (slotsWith config node key offset)
  have rows := located.rows_slotsWith indexes absent offset
  rw [← halves] at rows
  have leaves : (pendingWalk context
      (Shape.leaf ⟨leaf.addr,
        (slotsWith config node key offset).take ((config.leafCapacity + 1) / 2)⟩)
      ((((slotsWith config node key offset).drop ((config.leafCapacity + 1) / 2)).head?.map
          LeafEntry.key).getD default)
      (Shape.leaf
        ⟨fresh, (slotsWith config node key offset).drop ((config.leafCapacity + 1) / 2)⟩) _
      Visit.leaves).flatMap Leaf.entries =
      below config shape.entries key ++ ⟨key, offset⟩ :: above config shape.entries key := by
    rw [← rows]
    simp only [pendingWalk, Shape.walk_leaf, Visit.leaves_leaf, Visit.leaves_key, append_nil,
      flatMap_append, flatMap_singleton, Context.entriesBefore, Context.entriesAfter,
      append_assoc]
  obtain ⟨result, after, ran, outcome⟩ := propagateSplit_result splitting
  refine ⟨result, after, ran, outcome.imp (And.imp_right ?_) (And.imp_right ?_)⟩
  · rintro ⟨⟨height, settled, sound, whole⟩, same⟩
    exact ⟨⟨height, settled, sound, by rw [Shape.entries, whole, leaves]⟩, same.tuples,
      same.endGapOffset, same.tupleCount, Nat.le_of_succ_le same.later⟩
  · rintro ⟨pending, request, later, refused, last⟩
    exact ⟨last ▸ Nat.lt_succ_of_le later, _, ⟨pending, request, Nat.le_of_succ_le later, refused,
      last⟩, leaves⟩

/-- An insertion of an absent key stores a new row, or the propagation of its split runs out of
memory, if the tuple and the leaf it needs are allocated. -/
theorem insertFresh_result [Inhabited K] {fresh : Offset}
    (answer : config.allocate tree.allocations = some fresh)
    (split : ¬ node.entries.length < config.leafCapacity →
      ∃ right, config.allocate (tree.allocations + 1) = some right)
    (indexes : Indexes config tree shape) (rows : Rows config tree shape.entries)
    (located : Located config tree shape key context leaf node)
    (absent : rowOf config shape.entries key = none) (value : V) (inUse : state ≠ .tombstone) :
    ∃ result after, runOn (insertFresh config leaf.addr node (pathOf context)
        (leafLowerBound config node.entries key) key value state) tree = (result, after) ∧
      (result = .ok ⟨⟩ ∧
          Represents config after
            (below config shape.entries key ++ ⟨key, fresh⟩ :: above config shape.entries key) ∧
          after.tuples = update tree.tuples fresh ⟨⟨0, 0, state⟩, key, value⟩ ∧
          after.endGapOffset = tree.endGapOffset ∧ tree.allocations ≤ after.allocations ∨
        result = .error .badAlloc ∧ tree.allocations + 2 < after.allocations ∧
          StuckRows config tree after
            (below config shape.entries key ++ ⟨key, fresh⟩ :: above config shape.entries
              key)) := by
  -- the tree once the tuple is allocated, and once it is counted
  let allocated : Tree K V := { tree with
    allocations := tree.allocations + 1
    allocatedTuples := tree.allocatedTuples + 1
    tuples := update tree.tuples fresh ⟨⟨0, 0, state⟩, key, value⟩ }
  let counted : Tree K V := { allocated with tupleCount := allocated.tupleCount + 1 }
  have tupleRun : runOn (allocateTuple config key value state) tree = (.ok fresh, allocated) := by
    simp [allocateTuple, runOn_allocate answer, allocated]
  have indexes' : Indexes config counted shape := indexes.congr rfl rfl rfl rfl (Nat.le_succ _)
  have located' : Located config counted shape key context leaf node := located.congr rfl
  suffices linked : ∃ result after, runOn (insertFresh config leaf.addr node (pathOf context)
        (leafLowerBound config node.entries key) key value state) tree = (result, after) ∧
      (result = .ok ⟨⟩ ∧ SettledRows config counted after
          (below config shape.entries key ++ ⟨key, fresh⟩ :: above config shape.entries key) ∨
        result = .error .badAlloc ∧ counted.allocations + 1 < after.allocations ∧
          StuckRows config counted after
            (below config shape.entries key ++ ⟨key, fresh⟩ :: above config shape.entries key)) by
    obtain ⟨result, after, ran, outcome⟩ := linked
    refine ⟨result, after, ran, outcome.imp (And.imp_right ?_) (And.imp_right ?_)⟩
    · rintro ⟨settled, same⟩
      refine ⟨⟨settled, ?_⟩, same.tuples, same.endGapOffset, Nat.le_of_succ_le same.later⟩
      exact Rows.insert (located.rows_absent indexes absent ▸ rows) (not_allocated answer)
        ⟨_, same.later, answer⟩ (Nat.le_of_succ_le same.later) same.endGapOffset same.tuples
        same.tupleCount inUse
    · rintro ⟨more, leaves, ⟨pending, request, later, refused⟩, whole⟩
      exact ⟨more, leaves, ⟨pending, request, Nat.le_of_succ_le later, refused⟩, whole⟩
  by_cases space : node.entries.length < config.leafCapacity
  · obtain ⟨⟨height, settled, sound, whole⟩, same⟩ :=
      located'.insertRoom indexes' absent fresh space (node.version + 1)
    refine ⟨.ok ⟨⟩, { counted with
        nodes := update counted.nodes leaf.addr (.leaf ⟨node.version + 1, node.prevOffset,
          node.nextOffset, slotsWith config node key fresh⟩)
        treeVersion := counted.treeVersion + 1 }, ?_,
      .inl ⟨rfl, ⟨height, settled, sound.congr rfl rfl rfl rfl Nat.le.refl, whole⟩,
        same.tuples, same.endGapOffset, same.tupleCount, same.later⟩⟩
    simp [insertFresh, tupleRun, space, finishMutation, insertLeafEntry, slotsWith, counted,
      allocated]
  · obtain ⟨right, answer'⟩ := split space
    have nonnull : right ≠ 0 := Allocated.ne_zero ⟨_, Nat.lt_succ_self _, answer'⟩
    have apart := (located'.ne_nextOffset indexes' nonnull (not_allocated answer')).2.2
    obtain ⟨result, after, ran, outcome⟩ := located'.insertFull indexes' absent fresh space
      answer' (node.version + 1)
    simp only [slotsWith, Located.splitNodes, counted] at ran
    have request : config.allocate allocated.allocations = some right := answer'
    rcases outcome with ⟨rfl, ⟨height, settled, sound, whole⟩, same⟩ | ⟨rfl, stuck⟩
    · refine ⟨.ok ⟨⟩, { after with treeVersion := after.treeVersion + 1 },
        (runOn_bind_ok tupleRun).trans ?_, .inl ⟨rfl, ⟨height, settled,
          sound.congr rfl rfl rfl rfl Nat.le.refl, whole⟩, same.tuples, same.endGapOffset,
          same.tupleCount, same.later⟩⟩
      simp [-head?_drop, space, splitLeafAndInsert, allocateLeaf, ran,
        Function.update_comm apart.symm, runOn_allocate request]
    · refine ⟨_, after, (runOn_bind_ok tupleRun).trans ?_, .inr ⟨rfl, stuck⟩⟩
      simp [-head?_drop, space, splitLeafAndInsert, allocateLeaf, ran,
        Function.update_comm apart.symm, runOn_allocate request]

end Fresh

/-! ## Single tuples -/

section Tuple

variable {offset : Offset}

/-- A callback changes the tuples. -/
@[simp] theorem runOn_runProcessor (processor : Tuples K V → Bool × Tuples K V) (tree : Tree K V) :
    runOn (runProcessor processor) tree =
      (.ok (processor tree.tuples).1, { tree with tuples := (processor tree.tuples).2 }) := by
  simp [runProcessor]

/-- An unlocked tuple is locked. -/
theorem runOn_lockExclusive (unlocked : (tree.tuples offset).header.lock = 0) :
    runOn (lockExclusive offset) tree = (.ok ⟨⟩, { tree with
      tuples := update tree.tuples offset { tree.tuples offset with
        header := { (tree.tuples offset).header with lock := writerBit } } }) := by
  simp [lockExclusive, unlocked]

/-- A tombstone is revived. -/
theorem runOn_reviveTuple {key : K} {value : V} (unlocked : (tree.tuples offset).header.lock = 0) :
    runOn (reviveTuple offset key value state) tree = (.ok ⟨⟩, { tree with
      tuples := update tree.tuples offset
        ⟨⟨0, (tree.tuples offset).header.version + 1, state⟩, key, value⟩
      tupleCount := tree.tupleCount + 1
      reusedTuples := tree.reusedTuples + 1 }) := by
  simp [reviveTuple, runOn_lockExclusive unlocked, unlockTuple]

end Tuple

/-! ## Insertion -/

section Insert

variable [Inhabited K] {key : K} (value : V) {state : TupleState}
  {nextProcessor : Option (NextProcessor K V)} {adjacentProcessor : Option (AdjacentProcessor K V)}
  {entry : LeafEntry K} {tuples : Tuples K V}

/-- A key in use is refused. -/
theorem insertImpl_taken (represents : Represents config tree entries)
    (row : rowOf config entries key = some entry)
    (taken : (tree.tuples entry.tupleOffset).header.valid ≠ .tombstone) :
    runOn (insertImpl config key value state nextProcessor adjacentProcessor) tree =
      (.ok false, tree) := by
  obtain ⟨height, shape, indexes, rfl⟩ := represents.indexed
  obtain ⟨context, leaf, node, reached, located⟩ := findLeaf_located indexes.searchable key
  rw [← located.slot indexes.searchable] at row
  by_cases dead : state = .tombstone
  · simp [insertImpl, dead]
  · simp [insertImpl, dead, reached, row, taken]

/-- The key is free: it has no row, or its row is a tombstone. -/
def Free (config : Config K) (tree : Tree K V) (entries : List (LeafEntry K)) (key : K) : Prop :=
  ∀ entry ∈ rowOf config entries key, (tree.tuples entry.tupleOffset).header.valid = .tombstone

/-- What the callbacks of an insertion answer, and the tuple memory they leave. -/
def consulted (config : Config K) (tree : Tree K V) (entries : List (LeafEntry K)) (key : K)
    (nextProcessor : Option (NextProcessor K V))
    (adjacentProcessor : Option (AdjacentProcessor K V)) : Bool × Tuples K V :=
  consult nextProcessor adjacentProcessor (previousRow config tree entries key)
    (nextRow config tree entries key) tree.tuples

/-- An insertion of a free key asks its callbacks about the visible neighbours of the key
and returns when one refuses. -/
theorem insertImpl_refused (represents : Represents config tree entries)
    (inUse : state ≠ .tombstone) (free : Free config tree entries key) {after : Tuples K V}
    (refused : consulted config tree entries key nextProcessor adjacentProcessor = (false, after)) :
    runOn (insertImpl config key value state nextProcessor adjacentProcessor) tree =
      (.ok false, { tree with tuples := after }) := by
  obtain ⟨height, shape, indexes, rfl⟩ := represents.indexed
  obtain ⟨context, leaf, node, reached, located⟩ := findLeaf_located indexes.searchable key
  unfold consulted at refused
  have previous := located.previousRow indexes
  cases row : rowOf config shape.entries key with
  | none =>
    have next := located.nextRow indexes row
    have slot : slotOf config node.entries key = none := (located.slot indexes.searchable).trans row
    simp only [Option.toList_none, length_nil, Nat.add_zero] at next
    simp [insertImpl, inUse, reached, slot, next, previous, refused]
  | some entry =>
    have next := located.nextRow indexes row
    have slot : slotOf config node.entries key = some entry :=
      (located.slot indexes.searchable).trans row
    have dead := free entry row
    simp only [Option.toList_some, length_cons, length_nil, Nat.zero_add] at next
    simp [insertImpl, inUse, reached, slot, dead, next, previous, refused]

/-- The callbacks work on locks: keys and states of tuples stay as they are. -/
def KeepsRows (before after : Tuples K V) : Prop :=
  ∀ offset, (after offset).key = (before offset).key ∧
    (after offset).header.valid = (before offset).header.valid

/-- An insertion of an absent key that no callback refuses links a fresh tuple into the leaf of the
key. -/
theorem insertImpl_absent {shape : TreeShape K height} (indexes : Indexes config tree shape)
    (inUse : state ≠ .tombstone) (absent : rowOf config shape.entries key = none)
    (accepted : consulted config tree shape.entries key nextProcessor
      adjacentProcessor = (true, tuples)) :
    ∃ context leaf node, Located config { tree with tuples } shape key context leaf node ∧
      runOn (insertImpl config key value state nextProcessor adjacentProcessor) tree =
        runOn (insertFresh config leaf.addr node (pathOf context)
          (leafLowerBound config node.entries key) key value state >>= fun _ => pure true)
            { tree with tuples } := by
  obtain ⟨context, leaf, node, reached, located⟩ := findLeaf_located indexes.searchable key
  unfold consulted at accepted
  have previous := located.previousRow indexes
  have next := located.nextRow indexes absent
  have slot : slotOf config node.entries key = none :=
    (located.slot indexes.searchable).trans absent
  simp only [Option.toList_none, length_nil, Nat.add_zero] at next
  refine ⟨context, leaf, node, located.congr rfl, ?_⟩
  simp [insertImpl, inUse, reached, slot, next, previous, accepted]

/-- An insertion of an absent key is refused its tuple or its leaf and has linked nothing, or it
stores a new row, or it is refused an inner node. -/
theorem insertImpl_outcome (represents : Represents config tree entries)
    (inUse : state ≠ .tombstone) (absent : rowOf config entries key = none)
    (accepted : consulted config tree entries key nextProcessor adjacentProcessor = (true, tuples))
    (keeps : KeepsRows tree.tuples tuples) :
    ∃ result after,
      runOn (insertImpl config key value state nextProcessor adjacentProcessor) tree =
        (result, after) ∧
      ((result = .error .badAlloc ∧ (∃ request, config.allocate request = none) ∧
        ∃ stored requests allocatedTuples, requests ≤ 2 ∧
          after = { tree with
            tuples := stored
            allocations := tree.allocations + requests
            allocatedTuples } ∧
          ∀ offset, Allocated config tree.allocations offset → stored offset = tuples offset) ∨
      ∃ fresh, ¬ Allocated config tree.allocations fresh ∧
        (result = .ok true ∧
            Represents config after
              (below config entries key ++ ⟨key, fresh⟩ :: above config entries key) ∧
            after.tuples = update tuples fresh ⟨⟨0, 0, state⟩, key, value⟩ ∧
            after.endGapOffset = tree.endGapOffset ∧ tree.allocations ≤ after.allocations ∨
          result = .error .badAlloc ∧ tree.allocations + 2 < after.allocations ∧
            StuckRows config { tree with tuples } after
              (below config entries key ++ ⟨key, fresh⟩ :: above config entries key))) := by
  obtain ⟨⟨height, shape, indexes, rfl⟩, rows⟩ := represents
  obtain ⟨context, leaf, node, located, ran⟩ :=
    insertImpl_absent value indexes inUse absent accepted
  cases first : config.allocate tree.allocations with
  | none =>
    refine ⟨.error .badAlloc, { tree with tuples, allocations := tree.allocations + 1 }, ?_,
      .inl ⟨rfl, ⟨_, first⟩, tuples, 1, _, by decide, rfl, fun _ _ => rfl⟩⟩
    simp [ran, insertFresh, allocateTuple, allocate, first]
  | some fresh =>
    by_cases stuck : ¬ node.entries.length < config.leafCapacity ∧
        config.allocate (tree.allocations + 1) = none
    · refine ⟨.error .badAlloc, { tree with
          tuples := update tuples fresh ⟨⟨0, 0, state⟩, key, value⟩
          allocations := tree.allocations + 2
          allocatedTuples := tree.allocatedTuples + 1 }, ?_,
        .inl ⟨rfl, ⟨_, stuck.2⟩, _, 2, _, Nat.le_refl _, rfl, fun offset allocated => ?_⟩⟩
      · simp [ran, insertFresh, allocateTuple, allocateLeaf, splitLeafAndInsert, allocate, first,
          stuck]
      · have apart : offset ≠ fresh := fun same => not_allocated first (same ▸ allocated)
        exact update_of_ne apart _ _
    · have split : ¬ node.entries.length < config.leafCapacity →
          ∃ right, config.allocate (tree.allocations + 1) = some right := fun full =>
        Option.ne_none_iff_exists'.mp fun none => stuck ⟨full, none⟩
      have indexes' : Indexes config { tree with tuples } shape :=
        indexes.congr rfl rfl rfl rfl Nat.le.refl
      have rows' : Rows config { tree with tuples } shape.entries :=
        rows.congr rfl rfl Nat.le.refl fun offset _ => keeps offset
      have answer : config.allocate ({ tree with tuples } : Tree K V).allocations = some fresh :=
        first
      obtain ⟨result, after, linked, ⟨rfl, rest⟩ | ⟨rfl, more, pending⟩⟩ :=
        insertFresh_result answer split indexes' rows' located absent value inUse
      · exact ⟨_, after, ran.trans (runOn_bind_ok linked), .inr ⟨fresh, not_allocated answer,
          .inl ⟨rfl, rest⟩⟩⟩
      · exact ⟨_, after, by rw [ran, runOn_bind, linked], .inr ⟨fresh, not_allocated answer,
          .inr ⟨rfl, more, pending⟩⟩⟩

/-- With memory for every request an insertion of an absent key stores a new row. -/
theorem insertImpl_fresh (succeeds : Succeeds config) (represents : Represents config tree entries)
    (inUse : state ≠ .tombstone) (absent : rowOf config entries key = none)
    (accepted : consulted config tree entries key nextProcessor adjacentProcessor = (true, tuples))
    (keeps : KeepsRows tree.tuples tuples) :
    ∃ fresh after, ¬ Allocated config tree.allocations fresh ∧
      runOn (insertImpl config key value state nextProcessor adjacentProcessor) tree =
        (.ok true, after) ∧
      Represents config after
        (below config entries key ++ ⟨key, fresh⟩ :: above config entries key) ∧
      after.tuples = update tuples fresh ⟨⟨0, 0, state⟩, key, value⟩ ∧
      after.endGapOffset = tree.endGapOffset ∧ tree.allocations ≤ after.allocations := by
  have answered (request : Nat) : config.allocate request ≠ none :=
    Option.ne_none_iff_exists'.mpr (succeeds request)
  obtain ⟨_, after, ran, ⟨-, ⟨request, refused⟩, -⟩ | ⟨fresh, unused, ⟨rfl, rest⟩ |
    ⟨-, -, _, ⟨-, request, -, refused, -⟩, -⟩⟩⟩ :=
    insertImpl_outcome value represents inUse absent accepted keeps
  · exact absurd refused (answered request)
  · exact ⟨fresh, after, unused, ran, rest⟩
  · exact absurd refused (answered request)

/-- An insertion of a key whose row is a tombstone revives the tuple of the row. -/
theorem insertImpl_tombstone {shape : TreeShape K height} (indexes : Indexes config tree shape)
    (inUse : state ≠ .tombstone) (row : rowOf config shape.entries key = some entry)
    (dead : (tree.tuples entry.tupleOffset).header.valid = .tombstone)
    (accepted : consulted config tree shape.entries key nextProcessor
      adjacentProcessor = (true, tuples)) :
    ∃ context leaf node, Located config tree shape key context leaf node ∧
      runOn (insertImpl config key value state nextProcessor adjacentProcessor) tree =
        runOn (reviveTuple entry.tupleOffset key value state >>= fun _ =>
          finishMutation leaf.addr node >>= fun _ => pure true) { tree with tuples } := by
  obtain ⟨context, leaf, node, reached, located⟩ := findLeaf_located indexes.searchable key
  unfold consulted at accepted
  have previous := located.previousRow indexes
  have next := located.nextRow indexes row
  have slot : slotOf config node.entries key = some entry :=
    (located.slot indexes.searchable).trans row
  simp only [Option.toList_some, length_cons, length_nil, Nat.zero_add] at next
  refine ⟨context, leaf, node, located, ?_⟩
  simp [insertImpl, inUse, reached, slot, dead, next, previous, accepted]

/-- A tombstone comes back with the new value. -/
theorem insertImpl_revived (represents : Represents config tree entries)
    (inUse : state ≠ .tombstone) (row : rowOf config entries key = some entry)
    (dead : (tree.tuples entry.tupleOffset).header.valid = .tombstone)
    (accepted : consulted config tree entries key nextProcessor adjacentProcessor = (true, tuples))
    (keeps : KeepsRows tree.tuples tuples) (unlocked : (tuples entry.tupleOffset).header.lock = 0) :
    ∃ after, runOn (insertImpl config key value state nextProcessor adjacentProcessor) tree =
        (.ok true, after) ∧
      Represents config after entries ∧
      after.tuples = update tuples entry.tupleOffset
        ⟨⟨0, (tuples entry.tupleOffset).header.version + 1, state⟩, key, value⟩ ∧
      after.endGapOffset = tree.endGapOffset ∧ after.allocations = tree.allocations := by
  obtain ⟨⟨height, shape, indexes, rfl⟩, rows⟩ := represents
  obtain ⟨context, leaf, node, located, ran⟩ :=
    insertImpl_tombstone value indexes inUse row dead accepted
  obtain ⟨⟨height', shape', sound, whole⟩, -⟩ := located.touch indexes (node.version + 1)
  have revived : runOn (reviveTuple entry.tupleOffset key value state)
    { tree with tuples := tuples } = _ :=
    runOn_reviveTuple unlocked
  refine ⟨_, ran.trans ((runOn_bind_ok revived).trans (runOn_bind_ok rfl)),
    ⟨⟨height', shape', sound.congr rfl rfl rfl rfl Nat.le.refl, whole⟩, ?_⟩, rfl, rfl, rfl⟩
  have kept : Rows config { tree with tuples := tuples } shape.entries :=
    rows.congr rfl rfl Nat.le.refl fun offset _ => keeps offset
  have equal : entry.key = key :=
    (config.compare_eq_zero _ _).mp (by simpa using find?_some row)
  refine kept.rewrite (mem_of_find?_eq_some row) Nat.le.refl rfl rfl equal.symm ?_
  simp [(keeps entry.tupleOffset).2, dead, inUse]

end Insert

/-! ## Deletion -/

section Delete

variable {key : K} {entry : LeafEntry K}

/-- The tree after the tuple at an offset has become a tombstone. -/
def buried (tree : Tree K V) (offset : Offset) : Tree K V :=
  { tree with
    tuples := update tree.tuples offset { tree.tuples offset with
      header := ⟨0, (tree.tuples offset).header.version + 1, .tombstone⟩ }
    tupleCount := tree.tupleCount - 1 }

section

variable (represents : Represents config tree entries)
include represents

/-- A row becomes a tombstone. -/
theorem Represents.bury (row : rowOf config entries key = some entry)
    (inUse : (tree.tuples entry.tupleOffset).header.valid ≠ .tombstone) :
    Represents config (buried tree entry.tupleOffset) entries := by
  obtain ⟨⟨height, shape, indexes, whole⟩, rows⟩ := represents
  have member := mem_of_find?_eq_some row
  refine ⟨⟨height, shape, indexes.congr rfl rfl rfl rfl Nat.le.refl, whole⟩,
    rows.rewrite member Nat.le.refl rfl rfl (rows.keys entry member) ?_⟩
  have counted : 0 < tree.tupleCount :=
    Nat.lt_of_lt_of_le (countP_pos_iff.mpr ⟨entry, member, by simpa using inUse⟩)
      rows.tupleCount
  simp only [buried, ne_eq, inUse, not_false_eq_true, if_true, not_true_eq_false, if_false]
  omega

/-- A call that retires a key in one state: it buries the tuple when it gets its lock, and does
nothing to a key in another state. -/
structure Retires (config : Config K) (tree : Tree K V) (entries : List (LeafEntry K)) (key : K)
    (state : TupleState) (call : TreeM K V Bool) : Prop where
  missing : (∀ entry ∈ rowOf config entries key, (tree.tuples entry.tupleOffset).header.valid ≠
    state) → runOn call tree = (.ok false, tree)
  present : ∀ entry, rowOf config entries key = some entry →
    (tree.tuples entry.tupleOffset).header.valid = state →
    (tree.tuples entry.tupleOffset).header.lock = 0 →
    runOn call tree = (.ok true, buried tree entry.tupleOffset)
  locked : ∀ entry, rowOf config entries key = some entry →
    (tree.tuples entry.tupleOffset).header.valid = state →
    (tree.tuples entry.tupleOffset).header.lock ≠ 0 → runOn call tree = (.error .blocked, tree)

/-- `erase` retires a visible row. -/
theorem erase_retires (key : K) : Retires config tree entries key .visible (erase config key) := by
  have found := represents.search key
  refine ⟨fun missing => ?_, fun entry row visible unlocked => ?_, fun entry row visible held => ?_⟩
  · have hidden : ((rowOf config entries key).map LeafEntry.tupleOffset).filter
        (isVisible tree.tuples) = none := by
      cases row : rowOf config entries key with
      | none => rfl
      | some entry => simpa [Option.filter, isVisible] using missing entry row
    rw [hidden] at found
    simp [erase, found]
  all_goals simp only [row, Option.map_some, Option.filter_some, isVisible, visible, decide_true,
    if_true] at found
  · simp [erase, found, runOn_lockExclusive unlocked, buryTuple, unlockTuple, visible, buried]
  · simp [erase, found, lockExclusive, tryLock, held]

/-- `discard_placeholder` retires a placeholder. -/
theorem discardPlaceholder_retires (key : K) :
    Retires config tree entries key .placeholder (discardPlaceholder config key) := by
  have found := represents.searchIncludingInvalid key
  refine ⟨fun missing => ?_, fun entry row present unlocked => ?_, fun entry row present held => ?_⟩
  · cases row : rowOf config entries key with
    | none => simp [discardPlaceholder, found, row]
    | some entry => simp [discardPlaceholder, found, row, missing entry row]
  · simp [discardPlaceholder, found, row, present, runOn_lockExclusive unlocked, buryTuple,
      unlockTuple, buried]
  · simp [discardPlaceholder, found, row, present, lockExclusive, tryLock, held]

end

end Delete

/-! ## Creation -/

/-- `create` leaves a tree without rows, whatever the memory held. -/
theorem create_spec [Inhabited K] [Inhabited V] (succeeds : Succeeds config) (memory : Tree K V) :
    ∃ after, runOn (create config) memory = (.ok ⟨⟩, after) ∧ Represents config after [] := by
  obtain ⟨root, rootAnswer⟩ := succeeds memory.allocations
  obtain ⟨gap, gapAnswer⟩ := succeeds (memory.allocations + 1)
  have rootUsed : Allocated config (memory.allocations + 2) root := ⟨_, by omega, rootAnswer⟩
  have gapUsed : Allocated config (memory.allocations + 2) gap := ⟨_, by omega, gapAnswer⟩
  refine ⟨{ memory with
    rootOffset := root, endGapOffset := gap, treeVersion := 0, tupleCount := 0, leafCount := 1,
    innerCount := 0, allocatedTuples := 0, reusedTuples := 0
    nodes := update memory.nodes root (.leaf ⟨0, 0, 0, []⟩)
    tuples := update memory.tuples gap ⟨⟨0, 0, .visible⟩, default, default⟩
    allocations := memory.allocations + 2 }, ?_,
    ⟨⟨0, Shape.leaf ⟨root, []⟩, ⟨rfl, ?_, ?_, ?_⟩, ?_⟩, ?_⟩⟩
  · simp [create, allocate, rootAnswer, gapAnswer]
  · exact (Shape.every_leaf _).mpr ⟨_, update_self .., rfl⟩
  · exact (Shape.every_leaf _).mpr ⟨fun other => absurd rfl other, by simp⟩
  · refine ⟨by simp, by simp [addresses], ?_, ?_, rfl, rfl⟩
    · simpa [addresses] using rootUsed
    · simp [DoublyLinked.Chain, prevOf, nextOf, leafOf]
  · simp [Shape.entries]
  · refine ⟨by simp, ?_, by simp, by simp, by simp⟩
    simpa using gapUsed

end UbApplication.Tigon.BPlusTree
