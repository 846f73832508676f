import Mathlib.Data.List.Induction
import UbApplication.Lib.DoublyLinked
import UbApplication.Lib.SeparatorTree
import UbApplication.Tigon.BPlusTree.Model

/-!
# The tree invariant and what a search finds

A tree in memory indexes a separator tree when every node is stored at its address, the
nodes are as full as splits leave them, the in-order tokens are in search order, the
leaves are chained in both directions and the counters are the numbers of nodes. The
rows of the tree are its leaf slots in order; each owns its tuple.

On such a tree the descent reaches the leaf of a key with the actual parents as its
path, and the neighbour searches agree with the flat list of rows.
-/

namespace UbApplication.Tigon.BPlusTree

open SeparatorTree List Option

variable {K V : Type}

/-! ## The key order -/

/-- One key sorts before another. -/
def Config.Lt (config : Config K) (first second : K) : Prop := config.comparator first second < 0

instance (config : Config K) (first second : K) : Decidable (config.Lt first second) :=
  inferInstanceAs (Decidable (config.comparator first second < 0))

/-- The comparator gives a strict total order. -/
instance (config : Config K) : IsStrictTotalOrder K config.Lt where
  irrefl key before := by
    have equal := (config.compare_eq_zero key key).mpr rfl
    simp only [Config.Lt] at before
    omega
  trans := config.compare_trans
  trichotomous first second notBefore notAfter := by
    have swap := config.compare_swap second first
    simp only [Config.Lt] at notBefore notAfter
    exact (config.compare_eq_zero first second).mp (by omega)

abbrev Sorted (config : Config K) (entries : List (LeafEntry K)) : Prop :=
  entries.Pairwise fun first second => config.Lt first.key second.key

/-! ## Binary search in a leaf -/

/-- The loop finds the first index that is not less. -/
theorem lowerBoundLoop_spec (isLess : Nat → Bool)
    (monotone : ∀ low high, low ≤ high → isLess high → isLess low) (fuel first count : Nat)
    (enough : count ≤ fuel) :
    first ≤ lowerBoundLoop isLess fuel first count ∧
      lowerBoundLoop isLess fuel first count ≤ first + count ∧
      (∀ index, first ≤ index → index < lowerBoundLoop isLess fuel first count → isLess index) ∧
      ∀ index, lowerBoundLoop isLess fuel first count ≤ index → index < first + count →
        ¬ isLess index := by
  induction fuel generalizing first count with
  | zero =>
    simp only [lowerBoundLoop]
    refine ⟨by omega, by omega, fun _ _ _ => by omega, fun _ _ _ => by omega⟩
  | succ fuel ih =>
    rw [lowerBoundLoop]
    split
    · exact ⟨by omega, by omega, fun _ _ _ => by omega, fun _ _ _ => by omega⟩
    · split
      · rename_i less
        obtain ⟨low, high, below, above⟩ :=
          ih (first + count / 2 + 1) (count - (count / 2 + 1)) (by omega)
        refine ⟨by omega, by omega, fun index _ before => ?_, fun index after bound => ?_⟩
        · by_cases left : index ≤ first + count / 2
          · exact monotone _ _ left less
          · exact below index (by omega) before
        · exact above index after (by omega)
      · rename_i notLess
        obtain ⟨low, high, below, above⟩ := ih first (count / 2) (by omega)
        refine ⟨low, by omega, below, fun index after bound => ?_⟩
        by_cases left : index < first + count / 2
        · exact above index after left
        · exact fun less => notLess (monotone _ _ (by omega) less)

variable {entries : List (LeafEntry K)}

section

variable (config : Config K) (sorted : Sorted config entries) (key : K)
include config sorted key

/-- Earlier slots are less too. -/
theorem slotLess_monotone (low high : Nat) (order : low ≤ high)
    (less : slotLess config entries key high) : slotLess config entries key low := by
  unfold slotLess at less ⊢
  cases found : entries[high]? with
  | none => simp [found] at less
  | some second =>
    obtain ⟨bound, rfl⟩ := List.getElem?_eq_some_iff.mp found
    simp only [found, decide_eq_true_eq] at less
    rw [getElem?_eq_getElem (by omega)]
    simp only [decide_eq_true_eq]
    rcases Nat.lt_or_eq_of_le order with before | rfl
    · exact config.compare_trans _ _ _
        (pairwise_iff_getElem.mp sorted low high _ bound before) less
    · exact less

/-- `leaf_lower_bound` divides a sorted leaf into smaller keys and the rest. -/
theorem leafLowerBound_spec :
    leafLowerBound config entries key ≤ entries.length ∧
      (∀ entry ∈ entries.take (leafLowerBound config entries key), config.Lt entry.key key) ∧
      ∀ entry ∈ entries.drop (leafLowerBound config entries key), ¬ config.Lt entry.key key := by
  obtain ⟨-, bound, below, above⟩ := lowerBoundLoop_spec (slotLess config entries key)
    (slotLess_monotone config sorted key) entries.length 0 entries.length (by omega)
  simp only [Nat.zero_add] at bound above
  have slot : ∀ index (inside : index < entries.length),
      slotLess config entries key index = true ↔ config.Lt entries[index].key key := by
    intro index inside
    simp [slotLess, getElem?_eq_getElem inside, Config.Lt]
  refine ⟨bound, fun entry member => ?_, fun entry member => ?_⟩
  · obtain ⟨index, inside, rfl⟩ := mem_take_iff_getElem.mp member
    exact (slot index (by omega)).mp
      (below index (by omega) (by unfold leafLowerBound at inside; omega))
  · obtain ⟨index, inside, rfl⟩ := mem_drop_iff_getElem.mp member
    exact fun less => above _ (by unfold leafLowerBound; omega) (by omega)
      ((slot _ (by omega)).mpr less)

/-- The slot of a key. -/
theorem slotOf_eq_find :
    slotOf config entries key = entries.find? fun entry => config.comparator entry.key key = 0 := by
  obtain ⟨bound, below, above⟩ := leafLowerBound_spec config sorted key
  rw [slotOf]
  generalize leafLowerBound config entries key = position at *
  have smaller : (entries.take position).find? (fun entry => config.comparator entry.key key = 0) =
      none := by
    refine find?_eq_none.mpr fun entry member equal => ?_
    have less : config.comparator entry.key key < 0 := below entry member
    simp only [decide_eq_true_eq] at equal
    omega
  have whole := take_append_drop position entries
  have slot : entries[position]? = (entries.drop position).head? := by simp
  rw [slot]
  nth_rewrite 2 [← whole]
  rw [find?_append, smaller, none_or]
  have later : Sorted config (entries.drop position) := sorted.sublist (drop_sublist _ _)
  cases rest : entries.drop position with
  | nil => rfl
  | cons head tail =>
    rw [rest] at later above
    simp only [head?_cons, find?_cons, filter_some]
    by_cases equal : config.comparator head.key key = 0
    · simp [equal]
    · -- the head is greater than the key, so every later slot is
      simp only [equal, decide_false, Bool.false_eq_true, if_false]
      refine (find?_eq_none.mpr fun entry member same => ?_).symm
      simp only [decide_eq_true_eq] at same
      obtain rfl := (config.compare_eq_zero _ _).mp same
      exact above head (by simp) ((pairwise_cons.mp later).1 entry member)

end

/-! ## The invariant -/

/-- The separator tree a tree in memory stores. -/
abbrev TreeShape (K : Type) (height : Nat) := Shape Offset K (LeafEntry K) height

/-- A leaf with these slots is stored at the address. -/
def LeafAt (nodes : Offset → Node K) (addr : Offset) (entries : List (LeafEntry K)) : Prop :=
  ∃ leaf, nodes addr = .leaf leaf ∧ leaf.entries = entries

/-- An inner node with these separators and children is stored at the address. -/
def InnerAt (nodes : Offset → Node K) (addr : Offset) (keys : List K) (kids : List Offset) :
    Prop :=
  ∃ inner, nodes addr = .inner inner ∧ inner.keys = keys ∧ inner.children = kids

/-- A leaf is within its capacity and, unless it is the root, holds at least the smaller
half of a split. -/
def LeafFill (config : Config K) (root addr : Offset) (entries : List (LeafEntry K)) : Prop :=
  (addr ≠ root → (config.leafCapacity + 1) / 2 ≤ entries.length) ∧
    entries.length ≤ config.leafCapacity

/-- An inner node is within its capacity and, unless it is the root, holds at least the
smaller half of a split; the root has a separator. -/
def InnerFill (config : Config K) (root addr : Offset) (keys : List K) (_ : List Offset) : Prop :=
  (addr ≠ root → config.innerCapacity - (config.innerCapacity + 1) / 2 ≤ keys.length) ∧
    1 ≤ keys.length ∧ keys.length ≤ config.innerCapacity

/-- The left neighbour stored in a leaf. -/
def prevOf (nodes : Offset → Node K) (addr : Offset) : Offset :=
  ((leafOf (nodes addr)).map LeafNode.prevOffset).getD 0

/-- The right neighbour stored in a leaf. -/
def nextOf (nodes : Offset → Node K) (addr : Offset) : Offset :=
  ((leafOf (nodes addr)).map LeafNode.nextOffset).getD 0

/-- The offset has been handed out by the region allocator. -/
def Allocated (config : Config K) (allocations : Nat) (offset : Offset) : Prop :=
  ∃ request < allocations, config.allocate request = some offset

/-- What a walk of the tree collects, for every visit. -/
abbrev Walk (K : Type) := (T : Type) → Visit Offset K (LeafEntry K) T → List T

def addresses (walk : Walk K) : List Offset :=
  (walk _ Visit.leaves).map Leaf.addr ++ walk _ Visit.inners

/-- A part has fewer addresses. -/
theorem addresses_subset {part whole : Walk K} (inside : ∀ T visit, part T visit ⊆ whole T visit) :
    addresses part ⊆ addresses whole := by
  intro addr member
  rcases mem_append.mp member with member | member
  · exact mem_append_left _ (map_subset _ (inside _ _) member)
  · exact mem_append_right _ (inside _ _ member)

/-- The addresses of two parts. -/
theorem addresses_append (front back : Walk K) :
    (addresses fun T visit => front T visit ++ back T visit).Perm
      (addresses front ++ addresses back) := by
  simp only [addresses, map_append, append_assoc]
  refine List.Perm.append_left _ ?_
  simp only [← append_assoc]
  exact List.Perm.append_right _ perm_append_comm

/-- The addresses of either walk. -/
@[simp] theorem mem_addresses_append (front back : Walk K) (addr : Offset) :
    (addr ∈ addresses fun T visit => front T visit ++ back T visit) ↔
      addr ∈ addresses front ∨ addr ∈ addresses back := by
  rw [(addresses_append front back).mem_iff, mem_append]

/-- Two parts apart. -/
theorem nodup_addresses_append (front back : Walk K) :
    (addresses fun T visit => front T visit ++ back T visit).Nodup ↔
      (addresses front).Nodup ∧ (addresses back).Nodup ∧
        ∀ addr ∈ addresses front, addr ∉ addresses back := by
  rw [(addresses_append front back).nodup_iff, nodup_append]
  constructor
  · rintro ⟨left, right, apart⟩
    exact ⟨left, right, fun addr inFront inBack => apart addr inFront addr inBack rfl⟩
  · rintro ⟨left, right, apart⟩
    refine ⟨left, right, fun addr inFront other inBack => ?_⟩
    rintro rfl
    exact apart _ inFront inBack

variable {depth height : Nat} {config : Config K} {offset : Offset} {tree : Tree K V}

/-- The root is among the addresses. -/
theorem addr_mem_addresses (shape : TreeShape K depth) :
    shape.addr ∈ addresses fun _ => shape.walk :=
  shape.addr_mem

/-- What every walk of the tree must satisfy: search order, distinct allocated nodes, the
doubly linked leaf chain and the node counters. It is stated of the walks alone, so that it
can also be stated while a split is under way. -/
structure Outline (config : Config K) (tree : Tree K V) (walk : Walk K) : Prop where
  ordered : Token.Ordered config.Lt LeafEntry.key (walk _ Visit.tokens)
  distinct : (addresses walk).Nodup
  allocated : ∀ addr ∈ addresses walk, Allocated config tree.allocations addr
  chained : DoublyLinked.Chain (prevOf tree.nodes) (nextOf tree.nodes) 0
    ((walk _ Visit.leaves).map Leaf.addr) 0
  /-- `leaf_count` is the number of leaves. -/
  leafCount : tree.leafCount = (walk _ Visit.leaves).length
  /-- `inner_count` is the number of inner nodes. -/
  innerCount : tree.innerCount = (walk _ Visit.inners).length

/-- A tree in memory stores a separator tree. -/
structure Indexes (config : Config K) (tree : Tree K V) {height : Nat}
    (shape : TreeShape K height) :
    Prop where
  root : tree.rootOffset = shape.addr
  stored : shape.Every (LeafAt tree.nodes) (InnerAt tree.nodes)
  filled : shape.Every (LeafFill config tree.rootOffset) (InnerFill config tree.rootOffset)
  outline : Outline config tree fun _ => shape.walk

/-- What the descent to the leaf of a key needs of a tree in memory. It holds of a tree with a
split under way too. -/
structure Searchable (config : Config K) (tree : Tree K V) {height : Nat}
    (shape : TreeShape K height) : Prop where
  root : tree.rootOffset = shape.addr
  stored : shape.Every (LeafAt tree.nodes) (InnerAt tree.nodes)
  ordered : Token.Ordered config.Lt LeafEntry.key (shape.walk Visit.tokens)
  nonnull : ∀ addr ∈ addresses fun _ => shape.walk, addr ≠ 0
  /-- The counter of the inner nodes, the fuel of the descent, covers the height. -/
  deep : height ≤ tree.innerCount

/-- What the tuples of the rows satisfy: every row owns a tuple that carries its key, apart
from the others and from the end gap, and the tuple counter covers the rows in use. -/
structure Rows (config : Config K) (tree : Tree K V) (entries : List (LeafEntry K)) : Prop where
  distinct : (tree.endGapOffset :: entries.map LeafEntry.tupleOffset).Nodup
  allocated : ∀ offset ∈ tree.endGapOffset :: entries.map LeafEntry.tupleOffset,
    Allocated config tree.allocations offset
  keys : ∀ entry ∈ entries, (tree.tuples entry.tupleOffset).key = entry.key
  /-- `tuple_count` is no less than the number of visible tuples and placeholders. It is more
  once a transaction has deleted rows, for that leaves the counter alone. -/
  tupleCount : (entries.countP fun entry =>
    (tree.tuples entry.tupleOffset).header.valid ≠ .tombstone) ≤ tree.tupleCount
  endGap : (tree.tuples tree.endGapOffset).header.valid = .visible

/-- Nothing is at null. -/
theorem Allocated.ne_zero {allocations : Nat}
    (allocated : Allocated config allocations offset) : offset ≠ 0 := by
  obtain ⟨request, -, answer⟩ := allocated
  rintro rfl
  exact config.allocate_ne_zero request answer

/-- What is allocated stays so. -/
theorem Allocated.mono {first second : Nat}
    (allocated : Allocated config first offset) (later : first ≤ second) :
    Allocated config second offset := by
  obtain ⟨request, bound, answer⟩ := allocated
  exact ⟨request, by omega, answer⟩

/-- An answer is new. -/
theorem not_allocated {allocations : Nat}
    (answer : config.allocate allocations = some offset) :
    ¬ Allocated config allocations offset := by
  rintro ⟨request, bound, earlier⟩
  have same := config.allocate_fresh _ _ _ earlier answer
  omega

variable {shape : TreeShape K height}

/-- An index can be searched. -/
theorem Indexes.searchable (indexes : Indexes config tree shape) :
    Searchable config tree shape where
  root := indexes.root
  stored := indexes.stored
  ordered := indexes.outline.ordered
  nonnull := fun addr member => (indexes.outline.allocated addr member).ne_zero
  deep := by
    rw [indexes.outline.innerCount]
    exact shape.depth_le_inners

/-- Its rows are sorted. -/
theorem Searchable.sorted (searchable : Searchable config tree shape) :
    Sorted config shape.entries := by
  rw [← Shape.entries_tokens]
  exact searchable.ordered.entries

/-! ## The descent -/

/-- A context as the path recorded on the way down. -/
def pathOf {depth height : Nat} (context : Context Offset K (LeafEntry K) depth height) :
    List PathEntry :=
  context.path.map fun step => ⟨step.1, step.2⟩

/-- `child_index` divides sorted separators into those at most the key and those above. -/
theorem childIndex_split (config : Config K) {left right : List K}
    (sorted : (left ++ right).Pairwise config.Lt) (key : K)
    (length : left.length = childIndex config (left ++ right) key) :
    (∀ separator ∈ left, ¬ config.Lt key separator) ∧
      ∀ separator ∈ right, config.Lt key separator := by
  unfold childIndex at length
  constructor
  · intro separator member above
    obtain ⟨index, inside, rfl⟩ := getElem_of_mem member
    have early : index < (left ++ right).findIdx fun separator =>
        config.comparator key separator < 0 := by omega
    have small := not_of_lt_findIdx early
    rw [getElem_append_left inside] at small
    exact absurd above (by simpa [Config.Lt] using small)
  · cases right with
    | nil => simp
    | cons head tail =>
      have inside : (left ++ head :: tail).findIdx (fun separator =>
          config.comparator key separator < 0) < (left ++ head :: tail).length := by
        rw [← length]
        simp
      have first : config.Lt key head := by
        have found := findIdx_getElem (w := inside)
        simp only [← length] at found
        simpa [Config.Lt] using found
      intro separator member
      rcases mem_cons.mp member with rfl | member
      · exact first
      · have later := (pairwise_append.mp sorted).2.1
        exact config.compare_trans _ _ _ first ((pairwise_cons.mp later).1 separator member)

/-- The child that a key leads to. -/
theorem childIndex_routes (config : Config K)
    (node : Inner Offset K (TreeShape K depth)) (sorted : node.keys.Pairwise config.Lt) (key : K) :
    ∃ (frame : Frame Offset K (TreeShape K depth)) (kid : TreeShape K depth),
      frame.fill kid = node ∧ frame.left.length = childIndex config node.keys key ∧
        frame.Routes config.Lt key := by
  have bound : childIndex config node.keys key < node.kids.length := by
    have le : childIndex config node.keys key ≤ node.keys.length := findIdx_le_length
    simp only [Inner.kids, Inner.keys, length_cons, length_map] at le ⊢
    omega
  obtain ⟨frame, filled, length⟩ := Frame.exists_fill node _ _ (getElem?_eq_getElem bound)
  have keys : node.keys = frame.left.map Prod.snd ++ frame.right.map Prod.fst := by
    rw [← filled, Frame.fill_keys, Frame.keys]
  refine ⟨frame, _, filled, length, childIndex_split config (keys ▸ sorted) key ?_⟩
  rw [← keys, length_map, length]

/-- The descent ends at a leaf. -/
@[simp] theorem descend_leaf (config : Config K) (tree : Tree K V) (key : K) (fuel : Nat)
    (offset : Offset) (leaf : LeafNode K) (path : List PathEntry) :
    descend config tree key fuel offset (.leaf leaf) path = .ok (offset, leaf, path) := by
  cases fuel <;> rfl

/-- The descent from a subtree reaches the leaf of the key, recording the frames it
passes. -/
theorem descend_spec (config : Config K) (tree : Tree K V) (key : K)
    (context : Context Offset K (LeafEntry K) depth height) (shape : TreeShape K depth)
    (stored : (context.plug shape).Every (LeafAt tree.nodes) (InnerAt tree.nodes))
    (ordered : Token.Ordered config.Lt LeafEntry.key ((context.plug shape).walk Visit.tokens))
    (nonnull : ∀ addr ∈ addresses fun _ => (context.plug shape).walk, addr ≠ 0)
    (routes : context.Routes config.Lt key) (fuel : Nat) (enough : depth ≤ fuel) :
    ∃ (target : Context Offset K (LeafEntry K) 0 height) (leaf : Leaf Offset (LeafEntry K))
      (node : LeafNode K),
      descend config tree key fuel shape.addr (tree.nodes shape.addr) (pathOf context) =
          .ok (leaf.addr, node, pathOf target) ∧
        target.plug (Shape.leaf leaf) = context.plug shape ∧ target.Routes config.Lt key ∧
        tree.nodes leaf.addr = .leaf node ∧ node.entries = leaf.entries := by
  induction shape using Shape.treeInduction generalizing fuel with
  | leaf leaf =>
    obtain ⟨node, found, entries⟩ := (Shape.every_leaf leaf).mp ((context.plug_every _).mp stored).1
    refine ⟨context, leaf, node, ?_, rfl, routes, found, entries⟩
    rw [Shape.addr_leaf, found, descend_leaf]
  | inner node ih =>
    have whole := context.plug_walk Visit.tokens (Shape.inner node) ▸ ordered
    have inner := (pairwise_append.mp (pairwise_append.mp whole).1).2.1
    have keys := inner.sublist (Shape.keys_sublist node)
    rw [pairwise_map] at keys
    obtain ⟨frame, kid, rfl, length, inside⟩ := childIndex_routes config node keys key
    obtain ⟨⟨inner, found, keys, children⟩, -⟩ :=
      (Shape.every_inner _).mp ((context.plug_every _).mp stored).1
    obtain ⟨fuel, rfl⟩ : ∃ smaller, fuel = smaller + 1 := ⟨fuel - 1, by omega⟩
    have child : inner.children.getD (childIndex config inner.keys key) 0 = kid.addr := by
      rw [keys, ← length, children, Frame.fill_kids]
      simp
    have resolved : nodeFromOffset tree kid.addr = some (tree.nodes kid.addr) := by
      refine if_neg (nonnull _ (addresses_subset (fun T visit => ?_) (addr_mem_addresses kid)))
      intro found inside
      show found ∈ ((Context.under frame context).plug kid).walk visit
      rw [Context.plug_walk]
      exact mem_append_left _ (mem_append_right _ inside)
    obtain ⟨target, leaf, stored', reached⟩ :=
      ih kid (Context.under frame context) stored ordered nonnull ⟨inside, routes⟩ fuel (by omega)
    refine ⟨target, leaf, stored', ?_, reached.2⟩
    rw [Shape.addr_inner, found, descend, child, resolved]
    have path : pathOf (Context.under frame context) =
        ⟨frame.addr, childIndex config inner.keys key⟩ :: pathOf context := by
      simp [pathOf, Context.path, keys, length]
    simpa [path] using reached.1

/-- `find_leaf_unlocked` reaches the leaf of the key; its path is the list of actual
parents with the positions of the children taken. -/
theorem findLeaf_spec (searchable : Searchable config tree shape) (key : K) :
    ∃ (context : Context Offset K (LeafEntry K) 0 height) (leaf : Leaf Offset (LeafEntry K))
      (node : LeafNode K),
      findLeaf config tree key = .ok (leaf.addr, node, pathOf context) ∧
        context.plug (Shape.leaf leaf) = shape ∧ context.Routes config.Lt key ∧
        tree.nodes leaf.addr = .leaf node ∧ node.entries = leaf.entries := by
  obtain ⟨context, leaf, node, reached, rest⟩ := descend_spec config tree key
    (Context.root : Context Offset K (LeafEntry K) height height) shape searchable.stored
    searchable.ordered searchable.nonnull trivial tree.innerCount searchable.deep
  refine ⟨context, leaf, node, ?_, rest⟩
  have resolved : nodeFromOffset tree tree.rootOffset = some (tree.nodes shape.addr) := by
    rw [searchable.root]
    exact if_neg (searchable.nonnull _ (addr_mem_addresses shape))
  rw [findLeaf, resolved, searchable.root]
  exact reached

/-! ## Searches and neighbours on the flat list of rows -/

def rowOf (config : Config K) (entries : List (LeafEntry K)) (key : K) : Option (LeafEntry K) :=
  entries.find? fun entry => config.comparator entry.key key = 0

/-- No row of a key. -/
theorem rowOf_eq_none {key : K}
    (other : ∀ entry ∈ entries, entry.key ≠ key) : rowOf config entries key = none := by
  refine find?_eq_none.mpr fun entry member same => other entry member ?_
  exact (config.compare_eq_zero _ _).mp (by simpa using same)

/-- The leaf a key is routed to splits the rows: smaller keys, the leaf, greater keys. -/
structure Located (config : Config K) (tree : Tree K V) {height : Nat} (shape : TreeShape K height)
    (key : K) (context : Context Offset K (LeafEntry K) 0 height)
    (leaf : Leaf Offset (LeafEntry K)) (node : LeafNode K) : Prop where
  plugged : context.plug (Shape.leaf leaf) = shape
  routes : context.Routes config.Lt key
  found : tree.nodes leaf.addr = .leaf node
  entries : node.entries = leaf.entries

variable {shape : TreeShape K height} {key : K} {context : Context Offset K (LeafEntry K) 0 height}
  {leaf : Leaf Offset (LeafEntry K)} {node : LeafNode K}

namespace Located

section

variable (located : Located config tree shape key context leaf node)
include located

/-- The rows around the leaf. -/
theorem rows :
    shape.entries = context.entriesBefore ++ leaf.entries ++ context.entriesAfter := by
  rw [← located.plugged, context.plug_entries]
  simp [Shape.entries]

variable (searchable : Searchable config tree shape)
include searchable

/-- Smaller rows before the leaf. -/
theorem before : ∀ entry ∈ context.entriesBefore, config.Lt entry.key key := by
  have ordered := searchable.ordered
  simp only [← located.plugged, context.plug_walk] at ordered
  exact located.routes.entriesBefore_lt (pairwise_append.mp (pairwise_append.mp ordered).1).1

/-- Greater rows after the leaf. -/
theorem after : ∀ entry ∈ context.entriesAfter, config.Lt key entry.key := by
  have ordered := searchable.ordered
  simp only [← located.plugged, context.plug_walk] at ordered
  exact located.routes.lt_entriesAfter (pairwise_append.mp ordered).2.1

/-- The leaf is sorted. -/
theorem sorted : Sorted config leaf.entries := by
  have sorted := searchable.sorted
  rw [located.rows] at sorted
  exact (pairwise_append.mp (pairwise_append.mp sorted).1).2.1

/-- The slot in the leaf is the row. -/
theorem slot : slotOf config node.entries key = rowOf config shape.entries key := by
  have small : rowOf config context.entriesBefore key = none := rowOf_eq_none fun entry member => by
    rintro rfl
    exact irrefl_of config.Lt _ (located.before searchable entry member)
  have great : rowOf config context.entriesAfter key = none := rowOf_eq_none fun entry member => by
    rintro rfl
    exact irrefl_of config.Lt _ (located.after searchable entry member)
  rw [located.entries, slotOf_eq_find config (located.sorted searchable), located.rows]
  unfold rowOf at small great ⊢
  rw [find?_append, find?_append, small, great, none_or, or_none]

end

end Located

/-- `find_leaf` finds the leaf of a key. -/
theorem findLeaf_located (searchable : Searchable config tree shape) (key : K) :
    ∃ context leaf node, findLeaf config tree key = .ok (leaf.addr, node, pathOf context) ∧
      Located config tree shape key context leaf node := by
  obtain ⟨context, leaf, node, reached, plugged, routes, found, entries⟩ :=
    findLeaf_spec searchable key
  exact ⟨context, leaf, node, reached, plugged, routes, found, entries⟩

variable {node : LeafNode K}

/-- A leaf at its offset. -/
theorem leafFromOffset_stored {addr : Offset}
    (nonnull : addr ≠ 0) (found : tree.nodes addr = .leaf node) :
    leafFromOffset tree addr = some node := by
  simp [leafFromOffset, nodeFromOffset, nonnull, found, leafOf]

/-- The null pointer. -/
@[simp] theorem leafFromOffset_zero (tree : Tree K V) : leafFromOffset tree 0 = none := rfl

/-- The first visible of two parts. -/
theorem firstVisible_append (tuples : Tuples K V) (left right : List (LeafEntry K)) :
    firstVisible tuples (left ++ right) =
      (firstVisible tuples left).or (firstVisible tuples right) := by
  simp [firstVisible, find?_append]

/-- The leaves behind a node, as `next_offset` leads to them. -/
inductive Follows (tree : Tree K V) : LeafNode K → List (Leaf Offset (LeafEntry K)) → Prop where
  | last {node : LeafNode K} (last : node.nextOffset = 0) : Follows tree node []
  | more {node next : LeafNode K} {leaf : Leaf Offset (LeafEntry K)}
      {leaves : List (Leaf Offset (LeafEntry K))}
      (found : leafFromOffset tree node.nextOffset = some next)
        (entries : next.entries = leaf.entries)
      (rest : Follows tree next leaves) : Follows tree node (leaf :: leaves)

/-- `next_visible_unlocked` searches the rows from its slot on. -/
theorem Follows.nextVisible {leaves : List (Leaf Offset (LeafEntry K))}
    (follows : Follows tree node leaves) (position : Nat) {fuel : Nat}
    (enough : leaves.length < fuel) :
    nextVisible tree fuel node position = .ok ((firstVisible tree.tuples
      (node.entries.drop position ++ leaves.flatMap Leaf.entries)).getD tree.endGapOffset) := by
  induction follows generalizing position fuel with
  | last last =>
    obtain ⟨fuel, rfl⟩ : ∃ smaller, fuel = smaller + 1 := ⟨fuel - 1, by omega⟩
    rw [BPlusTree.nextVisible, last, leafFromOffset_zero]
    cases found : firstVisible tree.tuples (_ : List (LeafEntry K)) <;> simp [found]
  | more found entries rest ih =>
    obtain ⟨fuel, rfl⟩ : ∃ smaller, fuel = smaller + 1 := ⟨fuel - 1, by omega⟩
    rw [BPlusTree.nextVisible, found, firstVisible_append, flatMap_cons]
    cases firstVisible tree.tuples (_ : List (LeafEntry K)) with
    | some offset => rfl
    | none => simpa [entries] using ih 0 (by simpa using enough)

section

variable (tree) (leaves : List (Leaf Offset (LeafEntry K)))
  (stored : ∀ leaf ∈ leaves, leaf.addr ≠ 0 ∧ LeafAt tree.nodes leaf.addr leaf.entries)
include tree leaves stored

/-- A chain is followed. -/
theorem follows_chain {before : Offset}
    (chained : DoublyLinked.Chain (prevOf tree.nodes) (nextOf tree.nodes)
      before (leaves.map Leaf.addr) 0)
    (linked : node.nextOffset = (leaves.map Leaf.addr).headD 0) : Follows tree node leaves := by
  induction leaves generalizing before node with
  | nil => exact .last linked
  | cons leaf rest ih =>
    obtain ⟨nonnull, next, found, entries⟩ := stored leaf (by simp)
    obtain ⟨⟨-, forward⟩, chained⟩ := chained
    refine .more ?_ entries (ih (fun other member => stored other (by simp [member])) chained ?_)
    · rw [linked]
      exact leafFromOffset_stored nonnull found
    · rw [← forward]
      simp [nextOf, found, leafOf]

/-- `previous_visible_unlocked` along the leaf chain searches the rows before its slot,
backwards. -/
theorem previousVisible_chain (after : Offset)
    (chained : DoublyLinked.Chain (prevOf tree.nodes) (nextOf tree.nodes) 0 (leaves.map Leaf.addr)
      after) (node : LeafNode K) (linked : node.prevOffset = (leaves.map Leaf.addr).getLastD 0)
    (position fuel : Nat) (enough : leaves.length < fuel) :
    previousVisible tree fuel node position = .ok (firstVisible tree.tuples
      (leaves.flatMap Leaf.entries ++ node.entries.take position).reverse) := by
  induction leaves using List.reverseRecOn generalizing after node position fuel with
  | nil =>
    obtain ⟨fuel, rfl⟩ : ∃ smaller, fuel = smaller + 1 := ⟨fuel - 1, by omega⟩
    have first : node.prevOffset = 0 := linked
    rw [previousVisible, first, leafFromOffset_zero]
    cases found : firstVisible tree.tuples (node.entries.take position).reverse <;> simp [found]
  | append_singleton rest leaf ih =>
    obtain ⟨fuel, rfl⟩ : ∃ smaller, fuel = smaller + 1 := ⟨fuel - 1, by omega⟩
    obtain ⟨nonnull, previous, found, entries⟩ := stored leaf (by simp)
    rw [map_append, DoublyLinked.chain_append] at chained
    obtain ⟨chained, ⟨backward, -⟩, -⟩ := chained
    have resolved : leafFromOffset tree node.prevOffset = some previous := by
      rw [linked, map_append, getLastD_eq_getLast?]
      simpa using leafFromOffset_stored nonnull found
    have earlier := ih (fun other member => stored other (by simp [member])) leaf.addr
      (by simpa using chained) previous (by rw [← backward]; simp [prevOf, found, leafOf])
      previous.entries.length fuel (by simpa using enough)
    rw [previousVisible, resolved, reverse_append, firstVisible_append]
    cases firstVisible tree.tuples (node.entries.take position).reverse with
    | some offset => rfl
    | none => simpa [entries] using earlier

end

def below (config : Config K) (entries : List (LeafEntry K)) (key : K) : List (LeafEntry K) :=
  entries.filter fun entry => config.Lt entry.key key

def above (config : Config K) (entries : List (LeafEntry K)) (key : K) : List (LeafEntry K) :=
  entries.filter fun entry => config.Lt key entry.key

/-- The visible tuple after a key, or the end gap. -/
def nextRow (config : Config K) (tree : Tree K V) (entries : List (LeafEntry K)) (key : K) :
    Offset :=
  (firstVisible tree.tuples (above config entries key)).getD tree.endGapOffset

/-- The visible tuple before a key, if any. -/
def previousRow (config : Config K) (tree : Tree K V) (entries : List (LeafEntry K)) (key : K) :
    Option Offset :=
  firstVisible tree.tuples (below config entries key).reverse

/-- Rows divided by a key: the smaller ones, the row of the key if there is one, and the
greater ones. -/
structure Divides (config : Config K) (key : K) (small : List (LeafEntry K))
    (same : Option (LeafEntry K)) (great : List (LeafEntry K)) : Prop where
  small_lt : ∀ entry ∈ small, config.Lt entry.key key
  same_eq : ∀ entry ∈ same, entry.key = key
  lt_great : ∀ entry ∈ great, config.Lt key entry.key

section Divides

variable {small great : List (LeafEntry K)} {same : Option (LeafEntry K)}
  (divides : Divides config key small same great)
include divides

/-- The rows below a key. -/
theorem Divides.below_eq : below config (small ++ same.toList ++ great) key = small := by
  have left : small.filter (fun entry => config.Lt entry.key key) = small :=
    filter_eq_self.mpr fun entry member => by simpa using divides.small_lt entry member
  have middle : same.toList.filter (fun entry => config.Lt entry.key key) = [] := by
    refine filter_eq_nil_iff.mpr fun entry member => ?_
    have equal := divides.same_eq entry (by simpa using member)
    simpa [equal] using irrefl_of config.Lt key
  have right : great.filter (fun entry => config.Lt entry.key key) = [] := by
    refine filter_eq_nil_iff.mpr fun entry member => ?_
    simpa using fun less => asymm_of config.Lt (divides.lt_great entry member) less
  rw [below, filter_append, filter_append, left, middle, right]
  simp

/-- The rows above a key. -/
theorem Divides.above_eq : above config (small ++ same.toList ++ great) key = great := by
  have left : small.filter (fun entry => config.Lt key entry.key) = [] := by
    refine filter_eq_nil_iff.mpr fun entry member => ?_
    simpa using fun less => asymm_of config.Lt (divides.small_lt entry member) less
  have middle : same.toList.filter (fun entry => config.Lt key entry.key) = [] := by
    refine filter_eq_nil_iff.mpr fun entry member => ?_
    have equal := divides.same_eq entry (by simpa using member)
    simpa [equal] using irrefl_of config.Lt key
  have right : great.filter (fun entry => config.Lt key entry.key) = great :=
    filter_eq_self.mpr fun entry member => by simpa using divides.lt_great entry member
  rw [above, filter_append, filter_append, left, middle, right]
  simp

/-- The row of a key. -/
theorem Divides.rowOf_eq : rowOf config (small ++ same.toList ++ great) key = same := by
  have left : rowOf config small key = none := rowOf_eq_none fun entry member equal =>
    irrefl_of config.Lt key (equal ▸ divides.small_lt entry member)
  have right : rowOf config great key = none := rowOf_eq_none fun entry member equal =>
    irrefl_of config.Lt key (equal ▸ divides.lt_great entry member)
  unfold rowOf at left right ⊢
  rw [find?_append, find?_append, left, right, none_or, or_none]
  cases same with
  | none => rfl
  | some entry =>
    have equal := divides.same_eq entry rfl
    simp [equal, (config.compare_eq_zero key key).mpr rfl]

end Divides

section Neighbours

section

variable (located : Located config tree shape key context leaf node)
include located

/-- The leaves around the leaf. -/
theorem Located.leaves :
    shape.walk Visit.leaves =
      context.before Visit.leaves ++ leaf :: context.after Visit.leaves := by
  rw [← located.plugged, context.plug_walk]
  simp

variable (indexes : Indexes config tree shape)
include indexes

omit located in
/-- Every leaf is in memory. -/
theorem Indexes.leaf_stored {leaf : Leaf Offset (LeafEntry K)}
    (member : leaf ∈ shape.walk Visit.leaves) :
    leaf.addr ≠ 0 ∧ LeafAt tree.nodes leaf.addr leaf.entries :=
  ⟨(indexes.outline.allocated _ (mem_append_left _ (mem_map_of_mem member))).ne_zero,
    indexes.stored.onLeaves leaf member⟩

/-- What follows the leaf. -/
theorem Located.follows : Follows tree node (context.after Visit.leaves) ∧
      (context.after Visit.leaves).length < tree.leafCount := by
  have chained := indexes.outline.chained
  simp only [located.leaves, map_append, map_cons, DoublyLinked.chain_append] at chained
  obtain ⟨-, ⟨-, forward⟩, chained⟩ := chained
  refine ⟨follows_chain tree _ (fun other member => ?_) chained ?_, ?_⟩
  · exact indexes.leaf_stored (by simp [located.leaves, member])
  · rw [← forward]
    simp [nextOf, located.found, leafOf]
  · rw [indexes.outline.leafCount, located.leaves]
    simp only [length_append, length_cons]
    omega

/-- The next visible row from a position. -/
theorem Located.next (position : Nat) :
    nextVisible tree tree.leafCount node position = .ok ((firstVisible tree.tuples
      (leaf.entries.drop position ++ context.entriesAfter)).getD tree.endGapOffset) := by
  obtain ⟨follows, enough⟩ := located.follows indexes
  rw [← located.entries]
  exact follows.nextVisible position enough

/-- The previous visible row. -/
theorem Located.previous (position : Nat) :
    previousVisible tree tree.leafCount node position = .ok (firstVisible tree.tuples
      (context.entriesBefore ++ leaf.entries.take position).reverse) := by
  have chained := indexes.outline.chained
  simp only [located.leaves, map_append, map_cons, DoublyLinked.chain_append] at chained
  obtain ⟨chained, ⟨backward, -⟩, -⟩ := chained
  rw [← located.entries]
  refine previousVisible_chain tree _ (fun other member => ?_) _ chained node ?_ position _ ?_
  · exact indexes.leaf_stored (by simp [located.leaves, member])
  · rw [← backward]
    simp [prevOf, located.found, leafOf]
  · rw [indexes.outline.leafCount, located.leaves]
    simp only [length_append, length_cons]
    omega

end

/-- A leaf is divided at a key. -/
theorem leaf_divides (sorted : Sorted config entries)
    {same : Option (LeafEntry K)} (slot : slotOf config entries key = same) :
    Divides config key (entries.take (leafLowerBound config entries key)) same
        (entries.drop (leafLowerBound config entries key + same.toList.length)) ∧
      entries = entries.take (leafLowerBound config entries key) ++ same.toList ++
        entries.drop (leafLowerBound config entries key + same.toList.length) := by
  obtain ⟨bound, small, great⟩ := leafLowerBound_spec config sorted key
  cases same with
  | none =>
    rw [slotOf_eq_find config sorted] at slot
    refine ⟨⟨small, by simp, fun entry member => ?_⟩, by simp⟩
    have member : entry ∈ entries.drop (leafLowerBound config entries key) := by simpa using member
    have other := find?_eq_none.mp slot entry (mem_of_mem_drop member)
    rcases trichotomous_of config.Lt key entry.key with less | equal | more
    · exact less
    · exact absurd ((config.compare_eq_zero _ _).mpr equal.symm) (by simpa using other)
    · exact absurd more (great entry member)
  | some entry =>
    obtain ⟨there, equal⟩ := filter_eq_some_iff.mp slot
    have equal : entry.key = key := (config.compare_eq_zero _ _).mp (by simpa using equal)
    obtain ⟨inside, at_⟩ := List.getElem?_eq_some_iff.mp there
    have whole : entries.drop (leafLowerBound config entries key) =
        entry :: entries.drop (leafLowerBound config entries key + 1) := by
      rw [drop_eq_getElem_cons inside, at_]
    have later := sorted.sublist (drop_sublist (leafLowerBound config entries key) entries)
    rw [whole, pairwise_cons] at later
    refine ⟨⟨small, by simp [equal], fun other member => ?_⟩, ?_⟩
    · rw [← equal]
      exact later.1 other (by simpa using member)
    · simp [← whole]

section

variable (located : Located config tree shape key context leaf node)
  (indexes : Indexes config tree shape)
include located indexes

variable {same : Option (LeafEntry K)}

/-- The tree is divided at a key. -/
theorem Located.divides (slot : rowOf config shape.entries key = same) :
    Divides config key
        (context.entriesBefore ++ leaf.entries.take (leafLowerBound config node.entries key)) same
        (leaf.entries.drop (leafLowerBound config node.entries key + same.toList.length) ++
          context.entriesAfter) ∧
      leaf.entries = leaf.entries.take (leafLowerBound config node.entries key) ++ same.toList ++
        leaf.entries.drop (leafLowerBound config node.entries key + same.toList.length) := by
  rw [← located.slot indexes.searchable, located.entries] at slot
  obtain ⟨inside, whole⟩ := leaf_divides (located.sorted indexes.searchable) slot
  rw [located.entries]
  refine ⟨⟨fun entry member => ?_, inside.same_eq, fun entry member => ?_⟩, whole⟩
  · rcases mem_append.mp member with member | member
    · exact located.before indexes.searchable entry member
    · exact inside.small_lt entry member
  · rcases mem_append.mp member with member | member
    · exact inside.lt_great entry member
    · exact located.after indexes.searchable entry member

/-- The rows as divided. -/
theorem Located.rows_divided (slot : rowOf config shape.entries key = same) :
    shape.entries = context.entriesBefore ++
      leaf.entries.take (leafLowerBound config node.entries key) ++ same.toList ++
      (leaf.entries.drop (leafLowerBound config node.entries key + same.toList.length) ++
        context.entriesAfter) := by
  have whole := (located.divides indexes slot).2
  rw [located.rows]
  conv_lhs => rw [whole]
  simp only [append_assoc]

/-- The next row of a key. -/
theorem Located.nextRow (slot : rowOf config shape.entries key = same) :
    nextVisible tree tree.leafCount node
      (leafLowerBound config node.entries key + same.toList.length) =
      .ok (nextRow config tree shape.entries key) := by
  rw [located.next indexes, BPlusTree.nextRow, located.rows_divided indexes slot,
    (located.divides indexes slot).1.above_eq]

/-- The previous row of a key. -/
theorem Located.previousRow :
    previousVisible tree tree.leafCount node (leafLowerBound config node.entries key) =
      .ok (previousRow config tree shape.entries key) := by
  rw [located.previous indexes, BPlusTree.previousRow, located.rows_divided indexes rfl,
    (located.divides indexes rfl).1.below_eq]

end

end Neighbours

end UbApplication.Tigon.BPlusTree
