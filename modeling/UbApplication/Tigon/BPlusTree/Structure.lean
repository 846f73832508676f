import UbApplication.Tigon.BPlusTree.Refinement

/-!
# The shape of the tree in memory

`Sound` says what a reader of the region may rely on after any run of calls. The tree
stores no parent pointers: a split climbs the path that the descent recorded, so what has
to hold of parents is that the recorded path consists of the actual ones.
-/

namespace UbApplication.Tigon.BPlusTree

open SeparatorTree

variable {K V : Type}

/-- The fewer slots a split leaf can be left with. -/
def leafHalf (config : Config K) : Nat :=
  min ((config.leafCapacity + 1) / 2) (config.leafCapacity + 1 - (config.leafCapacity + 1) / 2)

/-- The fewer separators a split inner node can be left with. -/
def innerHalf (config : Config K) : Nat :=
  min ((config.innerCapacity + 1) / 2) (config.innerCapacity - (config.innerCapacity + 1) / 2)

/-- The structural invariant of a tree that stores a separator tree. All its leaves lie at
one depth because the depth is part of the type. -/
structure Sound (config : Config K) (tree : Tree K V) {height : Nat} (shape : TreeShape K height) :
    Prop where
  root : tree.rootOffset = shape.addr
  stored : shape.Every (LeafAt tree.nodes) (InnerAt tree.nodes)
  distinct : (addresses fun _ => shape.walk).Nodup
  sorted : shape.Every (fun _ entries => Sorted config entries)
    fun _ keys _ => keys.Pairwise config.Lt
  /-- A separator is greater than every key to its left and at most every key to its right. -/
  separators : ∀ before separator after,
    shape.walk Visit.tokens = before ++ Token.separator separator :: after →
      (∀ entry ∈ Token.entries before, config.Lt entry.key separator) ∧
        ∀ entry ∈ Token.entries after, ¬ config.Lt entry.key separator
  capacity : shape.Every (fun _ entries => entries.length ≤ config.leafCapacity)
    fun _ keys _ => keys.length ≤ config.innerCapacity
  children : shape.Every (fun _ _ => True) fun _ keys kids => kids.length = keys.length + 1
  half : shape.Every (fun addr entries => addr ≠ tree.rootOffset → leafHalf config ≤ entries.length)
    fun addr keys _ => addr ≠ tree.rootOffset → innerHalf config ≤ keys.length
  /-- The path recorded on the way to the leaf of a key consists of its actual parents. -/
  parents : ∀ key, ∃ context leaf node,
    findLeaf config tree key = .ok (leaf.addr, node, pathOf context) ∧
      context.plug (Shape.leaf leaf) = shape
  /-- The leaf chain is the in-order list of leaves, in both directions and with null ends. -/
  chain : DoublyLinked.Chain (prevOf tree.nodes) (nextOf tree.nodes) 0
    ((shape.walk Visit.leaves).map Leaf.addr) 0
  /-- `leaf_count` is the number of leaves. -/
  leafCount : tree.leafCount = (shape.walk Visit.leaves).length
  /-- `inner_count` is the number of inner nodes. -/
  innerCount : tree.innerCount = (shape.walk Visit.inners).length

/-- Every node is sorted. -/
theorem sorted_of_ordered {config : Config K} {depth : Nat} {shape : TreeShape K depth}
    (ordered : Token.Ordered config.Lt LeafEntry.key (shape.walk Visit.tokens)) :
    shape.Every (fun _ entries => Sorted config entries) fun _ keys _ =>
    keys.Pairwise config.Lt := by
  induction shape using Shape.treeInduction with
  | leaf node =>
    simp only [Shape.walk_leaf, Visit.tokens_leaf, Token.Ordered, List.pairwise_map] at ordered
    exact ordered
  | inner node ih =>
    refine (Shape.every_inner _).mpr ⟨?_, fun kid member => ?_⟩
    · have keys := ordered.sublist (Shape.keys_sublist node)
      rw [List.pairwise_map] at keys
      exact keys
    · exact ih kid (ordered.sublist (Shape.walk_kid_sublist _ node kid member))

/-- One more kid than keys. -/
theorem every_kids_length {depth : Nat} (shape : TreeShape K depth) :
    shape.Every (fun _ _ => True) fun _ keys kids => kids.length = keys.length + 1 := by
  induction shape using Shape.treeInduction with
  | leaf node => trivial
  | inner node ih =>
    refine (Shape.every_inner _).mpr ⟨?_, fun kid _ => ih kid⟩
    simp [Inner.kids, Inner.keys]

/-- An index is a sound tree. -/
theorem Indexes.sound {config : Config K} {tree : Tree K V} {height : Nat}
    {shape : TreeShape K height} (indexes : Indexes config tree shape) :
    Sound config tree shape where
  root := indexes.root
  stored := indexes.stored
  distinct := indexes.outline.distinct
  sorted := sorted_of_ordered indexes.outline.ordered
  separators before separator after walked := by
    have ordered := indexes.outline.ordered
    simp only [walked] at ordered
    obtain ⟨-, later, across⟩ := List.pairwise_append.mp ordered
    refine ⟨fun entry member => ?_, fun entry member => ?_⟩
    · exact across _ ((Token.mem_entries _ _).mp member) (.separator separator) (by simp)
    · exact (List.pairwise_cons.mp later).1 _ ((Token.mem_entries _ _).mp member)
  capacity := indexes.filled.imp (fun leaf _ fill => fill.2) (fun addr _ keys kids fill => fill.2.2)
  children := every_kids_length shape
  half := indexes.filled.imp
    (fun leaf _ fill other => Nat.le_trans (Nat.min_le_left _ _) (fill.1 other))
    (fun addr _ keys kids fill other => Nat.le_trans (Nat.min_le_right _ _) (fill.1 other))
  parents key := by
    obtain ⟨context, leaf, node, reached, plugged, -⟩ := findLeaf_spec indexes.searchable key
    exact ⟨context, leaf, node, reached, plugged⟩
  chain := indexes.outline.chained
  leafCount := indexes.outline.leafCount
  innerCount := indexes.outline.innerCount

/-- After every run of calls on a new tree the tree is sound, and every key the run has
inserted lies in exactly one leaf slot. -/
theorem tree_structure_sound [DecidableEq K] [Inhabited K] [Inhabited V] (config : Config K)
    (succeeds : Succeeds config) (memory : Tree K V) (calls : List (Call K V)) :
    ∃ after, runOn (createAndRun config calls) memory =
        (.ok (applyCalls calls fun _ => none).1, after) ∧
      ∃ (height : Nat) (shape : TreeShape K height), Sound config after shape ∧
        ∀ key, (shape.entries.map LeafEntry.key).count key =
          if ((applyCalls calls fun _ => none).2 key).isSome then 1 else 0 := by
  obtain ⟨after, entries, ran, refines⟩ := createAndRun_refines succeeds memory calls
  obtain ⟨height, shape, indexes, rfl⟩ := refines.represents.indexed
  refine ⟨after, ran, height, shape, indexes.sound, fun key => ?_⟩
  have distinct : (shape.entries.map LeafEntry.key).Nodup := by
    rw [List.Nodup, List.pairwise_map]
    refine indexes.searchable.sorted.imp fun {first second} less same => ?_
    exact irrefl_of config.Lt second.key (same ▸ less)
  rw [distinct.count, ← refines.contents, contentsOf, Option.isSome_map]
  congr 1
  rw [rowOf, List.find?_isSome, List.mem_map]
  simp [config.compare_eq_zero]

/-- The invariant on the sample run. -/
theorem tree_structure_sound_sample : Succeeds numbers ∧
    ∃ after, runOn (createAndRun numbers sampleCalls) blank =
        (.ok (applyCalls sampleCalls fun _ => none).1, after) ∧
      ∃ (height : Nat) (shape : TreeShape Nat height), Sound numbers after shape ∧
        ∀ key, (shape.entries.map LeafEntry.key).count key =
          if ((applyCalls sampleCalls fun _ => none).2 key).isSome then 1 else 0 :=
  ⟨numbers_succeeds, tree_structure_sound numbers numbers_succeeds blank sampleCalls⟩

end UbApplication.Tigon.BPlusTree
