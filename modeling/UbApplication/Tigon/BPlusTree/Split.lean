import UbApplication.Tigon.BPlusTree.Search

/-!
# Splits and their propagation

While a split is under way the tree has a right half that no inner node points at yet.
`Splitting` states what holds then: a context, the left half in its hole, the right half
beside it and the separator between them. Propagation takes a splitting tree to a sound
one, by induction on the context: a node with room takes the separator, a full node is
split and hands its middle separator up, and the root grows a level.
-/

namespace UbApplication.Tigon.BPlusTree

open SeparatorTree List Visit
open Function (update_of_ne update_self)

variable {K V : Type} {config : Config K}

/-! ## Frame rules -/

variable {nodes : Offset → Node K} {addr other : Offset} {node : Node K} {depth : Nat}
  {entries : List (LeafEntry K)}

/-- A leaf beside the update. -/
theorem LeafAt.update (stored : LeafAt nodes addr entries) (apart : addr ≠ other) :
    LeafAt (Function.update nodes other node) addr entries := by
  obtain ⟨leaf, found, same⟩ := stored
  exact ⟨leaf, by rw [update_of_ne apart, found], same⟩

variable {keys : List K}

/-- An inner node beside the update. -/
theorem InnerAt.update {kids : List Offset} (stored : InnerAt nodes addr keys kids)
    (apart : addr ≠ other) : InnerAt (Function.update nodes other node) addr keys kids := by
  obtain ⟨inner, found, same⟩ := stored
  exact ⟨inner, by rw [update_of_ne apart, found], same⟩

/-- A leaf is among the addresses. -/
theorem leaf_mem_addresses {walk : Walk K} {leaf : Leaf Offset (LeafEntry K)}
    (member : leaf ∈ walk _ Visit.leaves) : leaf.addr ∈ addresses walk :=
  mem_append_left _ (mem_map_of_mem member)

/-- So is an inner node. -/
theorem inner_mem_addresses {walk : Walk K} (member : addr ∈ walk _ Visit.inners) :
    addr ∈ addresses walk :=
  mem_append_right _ member

/-- A subtree beside the update. -/
theorem stored_update {shape : TreeShape K depth}
    (stored : shape.Every (LeafAt nodes) (InnerAt nodes))
    (apart : other ∉ addresses fun _ => shape.walk) :
    shape.Every (LeafAt (Function.update nodes other node))
      (InnerAt (Function.update nodes other node)) :=
  stored.imp
    (fun _ member there => there.update (ne_of_mem_of_not_mem (leaf_mem_addresses member) apart))
    (fun _ member _ _ there =>
      there.update (ne_of_mem_of_not_mem (inner_mem_addresses member) apart))

/-- A context beside the update. -/
theorem context_stored_update {height : Nat} {context : Context Offset K (LeafEntry K) depth height}
    {hole : Offset} (stored : context.Every (LeafAt nodes) (InnerAt nodes) hole)
    (apart : other ∉ addresses fun _ visit => context.before visit ++ context.after visit) :
    context.Every (LeafAt (Function.update nodes other node))
      (InnerAt (Function.update nodes other node)) hole :=
  stored.imp
    (fun _ member there => there.update (ne_of_mem_of_not_mem (leaf_mem_addresses member) apart))
    (fun _ member _ _ there =>
      there.update (ne_of_mem_of_not_mem (inner_mem_addresses member) apart))

variable {inner : InnerNode K}

/-- A store of an inner node over an inner node or outside the chain leaves every link as
it is. -/
theorem links_update (kept : addr ≠ other ∨ leafOf (nodes other) = none) :
    prevOf (Function.update nodes other (.inner inner)) addr = prevOf nodes addr ∧
      nextOf (Function.update nodes other (.inner inner)) addr = nextOf nodes addr := by
  by_cases same : addr = other
  · subst same
    have empty : leafOf (nodes addr) = none := kept.resolve_left fun apart => apart rfl
    simp only [prevOf, nextOf, update_self, empty]
    exact ⟨rfl, rfl⟩
  · simp [prevOf, nextOf, update_of_ne same]

/-! ## Outlines under change -/

/-- A chain whose links stay. -/
theorem chain_of_links {after : Offset → Node K} {leaves : List (Leaf Offset (LeafEntry K))}
    (links : ∀ leaf ∈ leaves, prevOf after leaf.addr = prevOf nodes leaf.addr ∧
      nextOf after leaf.addr = nextOf nodes leaf.addr)
    (chained : DoublyLinked.Chain (prevOf nodes) (nextOf nodes) 0 (leaves.map Leaf.addr) 0) :
    DoublyLinked.Chain (prevOf after) (nextOf after) 0 (leaves.map Leaf.addr) 0 := by
  refine chained.congr (fun addr member => ?_) (fun addr member => ?_)
  · obtain ⟨leaf, listed, rfl⟩ := mem_map.mp member
    exact (links leaf listed).1
  · obtain ⟨leaf, listed, rfl⟩ := mem_map.mp member
    exact (links leaf listed).2

variable {fresh : Offset}

section

variable {tree after : Tree K V} {walk renamed grown : Walk K}
  (outline : Outline config tree walk) (later : tree.allocations ≤ after.allocations)
  (links : ∀ leaf ∈ walk _ Visit.leaves, prevOf after.nodes leaf.addr =
    prevOf tree.nodes leaf.addr ∧ nextOf after.nodes leaf.addr = nextOf tree.nodes leaf.addr)
  (leafCount : after.leafCount = tree.leafCount)
include outline later links leafCount

/-- An outline depends on the order of the tokens, the addresses of the nodes, the links of
the leaves, the counters and the allocator alone. -/
theorem Outline.relabel (innerCount : after.innerCount = tree.innerCount)
    (ordered : Token.Ordered config.Lt LeafEntry.key (renamed _ tokens))
    (leaves : (renamed _ Visit.leaves).map Leaf.addr = (walk _ Visit.leaves).map Leaf.addr)
    (inners : renamed _ Visit.inners = walk _ Visit.inners) : Outline config after renamed := by
  have same : addresses renamed = addresses walk := by rw [addresses, addresses, leaves, inners]
  refine ⟨ordered, same ▸ outline.distinct, fun addr member => ?_, ?_, ?_, ?_⟩
  · exact (outline.allocated addr (same ▸ member)).mono later
  · rw [leaves]
    exact chain_of_links links outline.chained
  · have count := congrArg List.length leaves
    simp only [length_map] at count
    rw [leafCount, outline.leafCount, count]
  · rw [innerCount, outline.innerCount, inners]

/-- The same counts. -/
theorem Outline.congr (innerCount : after.innerCount = tree.innerCount) :
    Outline config after walk :=
  outline.relabel later links leafCount innerCount outline.ordered rfl rfl

/-- A fresh inner node. -/
theorem Outline.addInner (unused : ¬ Allocated config tree.allocations fresh)
    (used : Allocated config after.allocations fresh)
    (innerCount : after.innerCount = tree.innerCount + 1)
    (walks : ∀ (T : Type) (visit : Visit Offset K (LeafEntry K) T), ∃ front back,
      walk T visit = front ++ back ∧ grown T visit = front ++ visit.inner fresh ++ back) :
    Outline config after grown := by
  have same : ∀ (T : Type) (visit : Visit Offset K (LeafEntry K) T), visit.inner fresh = [] →
      grown T visit = walk T visit := by
    intro T visit blind
    obtain ⟨front, back, before, now⟩ := walks T visit
    rw [now, before, blind, append_nil]
  have tokens := same _ tokens rfl
  have leaves := same _ Visit.leaves rfl
  have inners : (grown _ Visit.inners).Perm (fresh :: walk _ Visit.inners) := by
    obtain ⟨front, back, before, now⟩ := walks _ Visit.inners
    rw [now, before]
    simp [perm_middle]
  have nodes : ((walk _ Visit.leaves).map Leaf.addr ++ grown _ Visit.inners).Perm
      (fresh :: ((walk _ Visit.leaves).map Leaf.addr ++ walk _ Visit.inners)) :=
    (inners.append_left _).trans perm_middle
  refine ⟨?_, ?_, ?_, ?_, ?_, ?_⟩
  · rw [tokens]
    exact outline.ordered
  · rw [addresses, leaves, nodes.nodup_iff, nodup_cons]
    exact ⟨fun member => unused (outline.allocated _ member), outline.distinct⟩
  · intro addr member
    rw [addresses, leaves, nodes.mem_iff, mem_cons] at member
    rcases member with rfl | member
    · exact used
    · exact (outline.allocated addr member).mono later
  · rw [leaves]
    exact chain_of_links links outline.chained
  · rw [leaves, leafCount, outline.leafCount]
  · rw [inners.length_eq, innerCount, outline.innerCount, length_cons]

end

/-! ## A split under way -/

/-- The walk of a splitting tree, with the right half and its separator in place. -/
def pendingWalk {depth height : Nat} (context : Context Offset K (LeafEntry K) depth height)
    (left : TreeShape K depth) (separator : K) (right : TreeShape K depth) (T : Type)
    (visit : Visit Offset K (LeafEntry K) T) : List T :=
  context.before visit ++ left.walk visit ++ visit.key separator ++ right.walk visit ++
    context.after visit

/-- A node has been split in memory: the left half is still linked, the right half is not.
No half is the root any more, so both must be filled as other nodes are. -/
structure Splitting (config : Config K) (tree : Tree K V) {depth height : Nat}
    (context : Context Offset K (LeafEntry K) depth height) (left : TreeShape K depth)
    (separator : K) (right : TreeShape K depth) : Prop where
  root : tree.rootOffset = (context.plug left).addr
  leftStored : left.Every (LeafAt tree.nodes) (InnerAt tree.nodes)
  rightStored : right.Every (LeafAt tree.nodes) (InnerAt tree.nodes)
  contextStored : context.Every (LeafAt tree.nodes) (InnerAt tree.nodes) left.addr
  leftFilled : left.Every (LeafFill config 0) (InnerFill config 0)
  rightFilled : right.Every (LeafFill config 0) (InnerFill config 0)
  contextFilled : context.Every (LeafFill config tree.rootOffset)
    (InnerFill config tree.rootOffset) left.addr
  outline : Outline config tree (pendingWalk context left separator right)

/-- A call that works on nodes leaves the rows alone. -/
structure SameRows (tree after : Tree K V) : Prop where
  tuples : after.tuples = tree.tuples
  endGapOffset : after.endGapOffset = tree.endGapOffset
  tupleCount : after.tupleCount = tree.tupleCount
  later : tree.allocations ≤ after.allocations

/-- What a propagated split must establish: a sound tree over the same leaves. -/
def Settled (config : Config K) (tree after : Tree K V)
    (leaves : List (Leaf Offset (LeafEntry K))) : Prop :=
  (∃ (height : Nat) (shape : TreeShape K height),
    Indexes config after shape ∧ shape.walk Visit.leaves = leaves) ∧ SameRows tree after

/-- Nodes that are not the root of one tree are filled as nodes of any other. -/
theorem filled_of_ne {shape : TreeShape K depth} {root : Offset} (other : Offset)
    (apart : ∀ addr ∈ addresses fun _ => shape.walk, addr ≠ root)
    (filled : shape.Every (LeafFill config root) (InnerFill config root)) :
    shape.Every (LeafFill config other) (InnerFill config other) :=
  filled.imp
    (fun _ member fill => ⟨fun _ => fill.1 (apart _ (leaf_mem_addresses member)), fill.2⟩)
    (fun _ member _ _ fill => ⟨fun _ => fill.1 (apart _ (inner_mem_addresses member)), fill.2⟩)

section Propagate

variable {depth height : Nat} {tree : Tree K V} {left right : TreeShape K depth} {separator : K}

namespace Splitting

variable {context : Context Offset K (LeafEntry K) depth height}

/-- The left half is in the walk. -/
theorem left_subset : addresses (fun _ => left.walk) ⊆
    addresses (pendingWalk context left separator right) :=
  addresses_subset fun T visit found member => by simp [pendingWalk, member]

/-- So is the right half. -/
theorem right_subset : addresses (fun _ => right.walk) ⊆
    addresses (pendingWalk context left separator right) :=
  addresses_subset fun T visit found member => by simp [pendingWalk, member]

/-- A fresh node is not in the walk. -/
theorem fresh_notMem (splitting : Splitting config tree context left separator right)
    (unused : ¬ Allocated config tree.allocations fresh) :
    fresh ∉ addresses (pendingWalk context left separator right) :=
  fun member => unused (splitting.outline.allocated _ member)

/-- No node of the walk is null. -/
theorem nonnull (splitting : Splitting config tree context left separator right) :
    ∀ addr ∈ addresses (pendingWalk context left separator right), addr ≠ 0 :=
  fun addr member => (splitting.outline.allocated addr member).ne_zero

end Splitting

variable {fresh : Offset}

/-- A new root above the halves. -/
theorem Splitting.growRoot
    (splitting : Splitting config tree (Context.root : Context _ _ _ depth depth) left separator
      right)
    (answer : config.allocate tree.allocations = some fresh) (version : Nat) :
    Settled config tree
      { tree with
        allocations := tree.allocations + 1
        innerCount := tree.innerCount + 1
        rootOffset := fresh
        nodes := Function.update tree.nodes fresh
          (.inner ⟨version, [separator], [tree.rootOffset, right.addr]⟩) }
      (left.walk Visit.leaves ++ right.walk Visit.leaves) := by
  have unused := not_allocated answer
  have new := splitting.fresh_notMem unused
  refine ⟨⟨depth + 1, Shape.inner ⟨fresh, left, [(separator, right)]⟩, ⟨rfl, ?_, ?_, ?_⟩, ?_⟩, ?_⟩
  · simp only [Shape.every_inner, Inner.keys, Inner.kids, map_cons, map_nil,
      forall_mem_cons]
    refine ⟨⟨_, update_self .., rfl, ?_⟩, ?_, ?_, forall_mem_nil _⟩
    · rw [splitting.root, Context.plug]
    · exact stored_update splitting.leftStored fun member => new (left_subset member)
    · exact stored_update splitting.rightStored fun member => new (right_subset member)
  · have capacity := config.innerCapacity_ge
    simp only [Shape.every_inner, Inner.keys, Inner.kids, map_cons, map_nil,
      forall_mem_cons]
    refine ⟨⟨fun other => absurd rfl other, by simp, by simpa using by omega⟩, ?_, ?_,
      forall_mem_nil _⟩
    · exact filled_of_ne _ (fun addr member => splitting.nonnull _ (left_subset member))
        splitting.leftFilled
    · exact filled_of_ne _ (fun addr member => splitting.nonnull _ (right_subset member))
        splitting.rightFilled
  · refine splitting.outline.addInner (Nat.le_succ _)
      (fun leaf member => links_update (.inl ?_)) rfl unused
        ⟨_, Nat.lt_succ_self _, answer⟩ rfl fun T visit => ⟨[], _, rfl, ?_⟩
    · exact ne_of_mem_of_not_mem (leaf_mem_addresses member) new
    · simp [Context.before, Context.after]
  · simp
  · exact ⟨rfl, rfl, rfl, Nat.le_succ _⟩

/-- The parts of a splitting tree around the inner node above the split. -/
def siblingWalk (frame : Frame Offset K (TreeShape K depth)) (left : TreeShape K depth)
    (separator : K) (right : TreeShape K depth) : Walk K := fun _ visit =>
  (frame.left.flatMap fun pair => pair.1.walk visit ++ visit.key pair.2) ++ left.walk visit ++
    visit.key separator ++ right.walk visit ++ frame.after visit

/-- Only the address of an inner node. -/
def innerWalk (addr : Offset) : Walk K := fun _ visit => visit.inner addr

/-- The kids are in the walk. -/
theorem insertRight_kid_subset (frame : Frame Offset K (TreeShape K depth)) :
    ∀ kid ∈ ((frame.insertRight separator right).fill left).kids,
      addresses (fun _ => kid.walk) ⊆ addresses (siblingWalk frame left separator right) := by
  intro kid member
  refine addresses_subset fun T visit found inside => ?_
  simp only [Frame.fill_kids, Frame.insertRight, map_cons, mem_append, mem_cons,
    mem_map] at member
  simp only [siblingWalk, Frame.after, mem_append, mem_flatMap]
  rcases member with ⟨pair, listed, rfl⟩ | rfl | rfl | ⟨pair, listed, rfl⟩
  · exact .inl (.inl (.inl (.inl ⟨pair, listed, .inl inside⟩)))
  · exact .inl (.inl (.inl (.inr inside)))
  · exact .inl (.inr inside)
  · exact .inr ⟨pair, listed, .inr inside⟩

/-- A property of the halves and of the siblings is a property of all children of the node
that takes the right half. -/
theorem insertRight_kids_every {frame : Frame Offset K (TreeShape K depth)}
    {onLeaf : Offset → List (LeafEntry K) → Prop} {onInner : Offset → List K → List Offset → Prop}
    (before : ∀ kid ∈ frame.left.map Prod.fst, kid.Every onLeaf onInner)
    (leftHalf : left.Every onLeaf onInner) (rightHalf : right.Every onLeaf onInner)
    (after : ∀ kid ∈ frame.right.map Prod.snd, kid.Every onLeaf onInner) :
    ∀ kid ∈ ((frame.insertRight separator right).fill left).kids, kid.Every onLeaf onInner := by
  intro kid member
  simp only [Frame.fill_kids, Frame.insertRight, map_cons, mem_append, mem_cons]
    at member
  rcases member with listed | rfl | rfl | listed
  · exact before kid listed
  · exact leftHalf
  · exact rightHalf
  · exact after kid listed

namespace Splitting

variable {frame : Frame Offset K (TreeShape K depth)}
  {up : Context Offset K (LeafEntry K) (depth + 1) height}

/-- The walk seen from the parent. -/
theorem pendingWalk_under : pendingWalk (Context.under frame up) left separator right =
    fun T visit => up.before visit ++ (innerWalk frame.addr T visit ++
      (siblingWalk frame left separator right T visit ++ up.after visit)) := by
  funext T visit
  simp only [pendingWalk, Context.before, Context.after, Frame.before, innerWalk, siblingWalk,
    append_assoc]

section

variable (splitting : Splitting config tree (Context.under frame up) left separator right)
include splitting

/-- The nodes before the inner node are none of those from it on, and it is none of those after. -/
theorem parts_ne :
    (∀ addr ∈ addresses fun _ visit => up.before visit, addr ∉ addresses fun T visit =>
      innerWalk frame.addr T visit ++ (siblingWalk frame left separator right T visit ++
        up.after visit)) ∧
    frame.addr ∉ addresses fun T visit =>
      siblingWalk frame left separator right T visit ++ up.after visit := by
  have distinct := splitting.outline.distinct
  rw [pendingWalk_under, nodup_addresses_append] at distinct
  obtain ⟨-, below, above⟩ := distinct
  exact ⟨above, ((nodup_addresses_append _ _).mp below).2.2 _ (by simp [addresses, innerWalk])⟩

/-- The siblings are not the parent. -/
theorem sibling_ne {addr : Offset}
    (member : addr ∈ addresses (siblingWalk frame left separator right)) :
    addr ≠ frame.addr ∧ addr ≠ tree.rootOffset := by
  obtain ⟨above, node⟩ := splitting.parts_ne
  have other : addr ≠ frame.addr := ne_of_mem_of_not_mem (by simp [member]) node
  refine ⟨other, fun same => ?_⟩
  -- the root is the inner node itself or a node above it
  rw [splitting.root, Context.plug] at same
  rcases up.plug_addr_mem (Shape.inner (frame.fill left)) with root | root
  · exact other (same.trans root)
  · rw [← same] at root
    exact above addr (inner_mem_addresses root) (by simp [member])

/-- The parent is not above itself. -/
theorem above_ne :
    frame.addr ∉ addresses fun _ visit => up.before visit ++ up.after visit := by
  obtain ⟨above, node⟩ := splitting.parts_ne
  intro member
  rcases (mem_addresses_append _ _ _).mp member with before | after
  · exact above _ before (by simp [addresses, innerWalk])
  · exact node (by simp [after])

/-- A fresh node is nowhere above. -/
theorem fresh_above (unused : ¬ Allocated config tree.allocations fresh) :
    fresh ≠ frame.addr ∧ (fresh ∉ addresses fun _ visit => up.before visit ++ up.after visit) ∧
      fresh ∉ addresses (siblingWalk frame left separator right) := by
  have new := splitting.fresh_notMem unused
  rw [pendingWalk_under] at new
  simp only [mem_addresses_append, not_or] at new
  refine ⟨?_, ?_, new.2.2.1⟩
  · rintro rfl
    exact new.2.1 (by simp [addresses, innerWalk])
  · simpa using ⟨new.1, new.2.2.2⟩

/-- The parent with the right half. -/
theorem overfull (found : tree.nodes frame.addr = .inner inner) : inner.keys = frame.keys ∧
      inner.keys.insertIdx frame.left.length separator =
        ((frame.insertRight separator right).fill left).keys ∧
      inner.children.insertIdx (frame.left.length + 1) right.addr =
        ((frame.insertRight separator right).fill left).kids.map Shape.addr ∧
      ((frame.insertRight separator right).fill left).keys.length = inner.keys.length + 1 := by
  obtain ⟨⟨stored, there, keys, children⟩, -⟩ := splitting.contextStored
  obtain rfl : stored = inner := by simpa [found] using there.symm
  refine ⟨keys, ?_, ?_, ?_⟩
  · rw [keys, Frame.fill_keys, Frame.insertRight_keys]
  · rw [children, Frame.insertRight_kids]
    simp only [Frame.fill_kids, map_append, map_cons]
  · rw [keys]
    simp only [Frame.fill_keys, Frame.keys, Frame.insertRight, length_append, map_cons,
      length_cons]
    omega

/-- The kids are in memory. -/
theorem kids_stored :
    ∀ kid ∈ ((frame.insertRight separator right).fill left).kids,
      kid.Every (LeafAt tree.nodes) (InnerAt tree.nodes) := by
  obtain ⟨-, before, after, -⟩ := splitting.contextStored
  exact insertRight_kids_every before splitting.leftStored splitting.rightStored after

/-- The kids are filled. -/
theorem kids_filled :
    ∀ kid ∈ ((frame.insertRight separator right).fill left).kids,
      kid.Every (LeafFill config 0) (InnerFill config 0) := by
  obtain ⟨-, before, after, -⟩ := splitting.contextFilled
  have strict : ∀ kid ∈ ((frame.insertRight separator right).fill left).kids,
      kid.Every (LeafFill config tree.rootOffset) (InnerFill config tree.rootOffset) →
        kid.Every (LeafFill config 0) (InnerFill config 0) := by
    intro kid member filled
    exact filled_of_ne _ (fun addr inside =>
      (splitting.sibling_ne (insertRight_kid_subset frame kid member inside)).2) filled
  have listed : ∀ kid, kid ∈ frame.left.map Prod.fst ∨ kid ∈ frame.right.map Prod.snd →
      kid ∈ ((frame.insertRight separator right).fill left).kids := by
    intro kid member
    simp only [Frame.fill_kids, Frame.insertRight, map_cons, mem_append, mem_cons]
    rcases member with member | member
    · exact .inl member
    · exact .inr (.inr (.inr member))
  exact insertRight_kids_every
    (fun kid member => strict kid (listed kid (.inl member)) (before kid member))
    splitting.leftFilled splitting.rightFilled
    (fun kid member => strict kid (listed kid (.inr member)) (after kid member))

end

/-- The walk with the right half put in. -/
theorem pendingWalk_room (T : Type) (visit : Visit Offset K (LeafEntry K) T) :
    (up.plug (Shape.inner ((frame.insertRight separator right).fill left))).walk visit =
      pendingWalk (Context.under frame up) left separator right T visit := by
  rw [Context.plug_walk, Frame.insertRight_walk]
  simp only [pendingWalk, Context.before, Context.after, append_assoc]

section

variable (splitting : Splitting config tree (Context.under frame up) left separator right)
include splitting

/-- A parent with room. -/
theorem room (found : tree.nodes frame.addr = .inner inner)
    (space : inner.keys.length < config.innerCapacity) (version : Nat) :
    Settled config tree
      { tree with
        nodes := Function.update tree.nodes frame.addr
          (.inner ⟨version, inner.keys.insertIdx frame.left.length separator,
            inner.children.insertIdx (frame.left.length + 1) right.addr⟩) }
      (pendingWalk (Context.under frame up) left separator right _ Visit.leaves) := by
  obtain ⟨same, keys, children, longer⟩ := splitting.overfull found
  obtain ⟨⟨least, one, -⟩, -, -, aboveFilled⟩ := splitting.contextFilled
  refine ⟨⟨height, up.plug (Shape.inner ((frame.insertRight separator right).fill left)),
    ⟨?_, ?_, ?_, ?_⟩, pendingWalk_room _ _⟩, ⟨rfl, rfl, rfl, Nat.le_refl _⟩⟩
  · exact splitting.root.trans (up.plug_addr rfl)
  · refine (up.plug_every _).mpr ⟨(Shape.every_inner _).mpr
      ⟨⟨_, update_self .., keys, children⟩, fun kid member => ?_⟩, ?_⟩
    · refine stored_update (splitting.kids_stored kid member) fun inside => ?_
      exact (splitting.sibling_ne (insertRight_kid_subset frame kid member inside)).1 rfl
    · exact context_stored_update splitting.contextStored.2.2.2 splitting.above_ne
  · refine (up.plug_every _).mpr ⟨(Shape.every_inner _).mpr ⟨?_, fun kid member => ?_⟩, aboveFilled⟩
    · rw [InnerFill, longer]
      refine ⟨fun other => ?_, by omega, by omega⟩
      have bound := least other
      rw [same]
      omega
    · refine filled_of_ne _ (fun addr inside => splitting.nonnull addr ?_)
        (splitting.kids_filled kid member)
      rw [pendingWalk_under]
      simp [insertRight_kid_subset frame kid member inside]
  · have walks : (fun T => (up.plug (Shape.inner
        ((frame.insertRight separator right).fill left))).walk) =
        pendingWalk (Context.under frame up) left separator right := by
      funext T visit
      exact pendingWalk_room T visit
    rw [walks]
    exact splitting.outline.congr (Nat.le_refl _)
      (fun leaf member => links_update (.inr (by rw [found]; rfl))) rfl rfl

/-- A full node is split: its low half stays in place, its high half is new, and the
separator between them goes up. -/
theorem full [Inhabited K] (found : tree.nodes frame.addr = .inner inner)
    (noSpace : ¬ inner.keys.length < config.innerCapacity)
    (answer : config.allocate tree.allocations = some fresh) (lowVersion highVersion : Nat)
    {children : List Offset} {after : Tree K V}
    (keysEq : inner.keys.insertIdx frame.left.length separator = keys)
    (childrenEq : inner.children.insertIdx (frame.left.length + 1) right.addr = children)
    (afterEq : after = { tree with
      allocations := tree.allocations + 1
      innerCount := tree.innerCount + 1
      nodes := Function.update (Function.update tree.nodes frame.addr
          (.inner ⟨lowVersion, keys.take ((config.innerCapacity + 1) / 2),
            children.take ((config.innerCapacity + 1) / 2 + 1)⟩)) fresh
        (.inner ⟨highVersion, keys.drop ((config.innerCapacity + 1) / 2 + 1),
          children.drop ((config.innerCapacity + 1) / 2 + 1)⟩) }) :
    ∃ low high : TreeShape K (depth + 1), high.addr = fresh ∧
      Splitting config after up low (keys.getD ((config.innerCapacity + 1) / 2) default) high ∧
      pendingWalk up low (keys.getD ((config.innerCapacity + 1) / 2) default) high _ Visit.leaves =
        pendingWalk (Context.under frame up) left separator right _ Visit.leaves := by
  obtain ⟨same, overKeys, overKids, longer⟩ := splitting.overfull found
  rw [overKeys] at keysEq
  rw [overKids] at childrenEq
  obtain ⟨⟨-, -, most⟩, -, -, aboveFilled⟩ := splitting.contextFilled
  have capacity := config.innerCapacity_ge
  have unused := not_allocated answer
  obtain ⟨newNode, newAbove, newBelow⟩ := splitting.fresh_above unused
  obtain ⟨low, promoted, high, ⟨lowAddr, lowKeys, lowKids⟩, middle, ⟨highAddr, highKeys, highKids⟩,
      walks⟩ := Shape.exists_split ((frame.insertRight separator right).fill left)
    ((config.innerCapacity + 1) / 2) (by omega) fresh
  have separatorEq : keys.getD ((config.innerCapacity + 1) / 2) default = promoted := by
    rw [← keysEq, getD_eq_getElem?_getD, middle, Option.getD_some]
  rw [separatorEq]
  have grown : ∀ (T : Type) (visit : Visit Offset K (LeafEntry K) T), ∃ front back,
      pendingWalk (Context.under frame up) left separator right T visit = front ++ back ∧
        pendingWalk up (Shape.inner low) promoted (Shape.inner high) T visit =
          front ++ visit.inner fresh ++ back := by
    intro T visit
    obtain ⟨back, whole, upper⟩ := walks visit
    refine ⟨up.before visit ++ (Shape.inner low).walk visit ++ visit.key promoted,
      back ++ up.after visit, ?_, ?_⟩
    · rw [← pendingWalk_room, Context.plug_walk, whole]
      simp only [append_assoc]
    · simp only [pendingWalk, upper, append_assoc]
  have kid_stored : ∀ kid ∈ ((frame.insertRight separator right).fill left).kids,
      kid.Every (LeafAt after.nodes) (InnerAt after.nodes) := by
    intro kid member
    have inside : addresses (fun _ => kid.walk) ⊆ addresses
      (siblingWalk frame left separator right) :=
      insertRight_kid_subset frame kid member
    rw [afterEq]
    refine stored_update (stored_update (splitting.kids_stored kid member) ?_) ?_
    · exact fun here => (splitting.sibling_ne (inside here)).1 rfl
    · exact fun here => newBelow (inside here)
  have lowLength : low.keys.length = (config.innerCapacity + 1) / 2 := by
    rw [lowKeys, length_take]
    omega
  have highLength : high.keys.length = config.innerCapacity - (config.innerCapacity + 1) / 2 := by
    rw [same] at longer noSpace
    rw [highKeys, length_drop]
    omega
  have lowNode : after.nodes low.addr = .inner ⟨lowVersion,
      keys.take ((config.innerCapacity + 1) / 2),
      children.take ((config.innerCapacity + 1) / 2 + 1)⟩ := by
    rw [afterEq, lowAddr]
    exact (update_of_ne newNode.symm ..).trans (update_self ..)
  have highNode : after.nodes high.addr = .inner ⟨highVersion,
      keys.drop ((config.innerCapacity + 1) / 2 + 1),
      children.drop ((config.innerCapacity + 1) / 2 + 1)⟩ := by
    rw [afterEq, highAddr]
    exact update_self ..
  refine ⟨Shape.inner low, Shape.inner high, highAddr,
    ⟨?_, ?_, ?_, ?_, ?_, ?_, ?_, ?_⟩, ?_⟩
  · rw [afterEq]
    exact splitting.root.trans (up.plug_addr (by simp [lowAddr]))
  · refine (Shape.every_inner _).mpr ⟨⟨_, lowNode, ?_, ?_⟩, fun kid member => ?_⟩
    · rw [lowKeys, keysEq]
    · rw [lowKids, map_take, childrenEq]
    · exact kid_stored kid (mem_of_mem_take (lowKids ▸ member))
  · refine (Shape.every_inner _).mpr ⟨⟨_, highNode, ?_, ?_⟩, fun kid member => ?_⟩
    · rw [highKeys, keysEq]
    · rw [highKids, map_drop, childrenEq]
    · exact kid_stored kid (mem_of_mem_drop (highKids ▸ member))
  · rw [afterEq, Shape.addr_inner, lowAddr]
    exact context_stored_update (context_stored_update splitting.contextStored.2.2.2
      splitting.above_ne) newAbove
  · refine (Shape.every_inner _).mpr ⟨?_, fun kid member => ?_⟩
    · rw [InnerFill, lowLength]
      omega
    · exact splitting.kids_filled kid (mem_of_mem_take (lowKids ▸ member))
  · refine (Shape.every_inner _).mpr ⟨?_, fun kid member => ?_⟩
    · rw [InnerFill, highLength]
      omega
    · exact splitting.kids_filled kid (mem_of_mem_drop (highKids ▸ member))
  · rw [afterEq, Shape.addr_inner, lowAddr]
    exact aboveFilled
  · rw [afterEq]
    refine splitting.outline.addInner (Nat.le_succ _) (fun leaf member => ?_) rfl unused
      ⟨_, Nat.lt_succ_self _, answer⟩ rfl grown
    have other : leaf.addr ≠ fresh :=
      ne_of_mem_of_not_mem (leaf_mem_addresses member) (splitting.fresh_notMem unused)
    have empty : leafOf (tree.nodes frame.addr) = none := by rw [found]; rfl
    exact ⟨(links_update (.inl other)).1.trans (links_update (.inr empty)).1,
      (links_update (.inl other)).2.trans (links_update (.inr empty)).2⟩
  · obtain ⟨front, back, before, now⟩ := grown _ Visit.leaves
    rw [before, now]
    simp

end

end Splitting

/-- Every allocation request is answered. -/
abbrev Succeeds (config : Config K) : Prop :=
  ∀ request, ∃ offset, config.allocate request = some offset

/-- What a propagation that runs out of memory leaves: a right half that no inner node points
at, and a last request that was refused. -/
def Stuck (config : Config K) (tree after : Tree K V)
    (leaves : List (Leaf Offset (LeafEntry K))) : Prop :=
  (∃ (depth height : Nat) (context : Context Offset K (LeafEntry K) depth height)
      (left : TreeShape K depth) (separator : K) (right : TreeShape K depth),
    Splitting config after context left separator right ∧
      pendingWalk context left separator right _ Visit.leaves = leaves) ∧
  ∃ request, tree.allocations ≤ request ∧ config.allocate request = none ∧
    after.allocations = request + 1

/-- A refused request leaves a split where it is. -/
theorem Splitting.stuck {context : Context Offset K (LeafEntry K) depth height}
    (splitting : Splitting config tree context left separator right)
    (refused : config.allocate tree.allocations = none) :
    Stuck config tree { tree with allocations := tree.allocations + 1 }
      (pendingWalk context left separator right _ Visit.leaves) := by
  obtain ⟨root, leftStored, rightStored, contextStored, leftFilled, rightFilled, contextFilled,
    outline⟩ := splitting
  have outline' : Outline config { tree with allocations := tree.allocations + 1 } _ :=
    outline.congr (Nat.le_succ _) (fun _ _ => ⟨rfl, rfl⟩) rfl rfl
  exact ⟨⟨_, _, context, left, separator, right, ⟨root, leftStored, rightStored, contextStored,
    leftFilled, rightFilled, contextFilled, outline'⟩, rfl⟩, _, Nat.le_refl _, refused, rfl⟩

/-- `propagate_split` leaves a sound tree over the same leaves, or it runs out of memory. -/
theorem propagateSplit_result [Inhabited K]
    {context : Context Offset K (LeafEntry K) depth height}
    (splitting : Splitting config tree context left separator right) :
    ∃ result after, runOn (propagateSplit config (pathOf context) separator right.addr) tree =
        (result, after) ∧
      (result = .ok ⟨⟩ ∧
          Settled config tree after (pendingWalk context left separator right _ Visit.leaves) ∨
        result = .error .badAlloc ∧
          Stuck config tree after (pendingWalk context left separator right _ Visit.leaves)) := by
  induction context generalizing tree separator with
  | root =>
    cases answer : config.allocate tree.allocations with
    | none =>
      refine ⟨_, _, ?_, .inr ⟨rfl, splitting.stuck answer⟩⟩
      simp [pathOf, Context.path, propagateSplit, allocateInner, allocate, answer]
    | some fresh =>
      have settled := splitting.growRoot answer 1
      refine ⟨_, _, ?_, .inl ⟨rfl, by
        simpa [pendingWalk, Context.before, Context.after] using settled⟩⟩
      simp [pathOf, Context.path, propagateSplit, allocateInner, runOn_allocate answer]
  | under frame up ih =>
    obtain ⟨⟨inner, found, -⟩, -⟩ := splitting.contextStored
    have step : innerFromOffset tree frame.addr = inner := by rw [innerFromOffset, found]
    by_cases space : inner.keys.length < config.innerCapacity
    · refine ⟨_, _, ?_, .inl ⟨rfl, splitting.room found space (inner.version + 1)⟩⟩
      simp [pathOf, Context.path, propagateSplit, step, space, insertInnerEntry]
    cases answer : config.allocate tree.allocations with
    | none =>
      refine ⟨_, _, ?_, .inr ⟨rfl, splitting.stuck answer⟩⟩
      simp [pathOf, Context.path, propagateSplit, step, space, splitInnerAndInsert, allocateInner,
        allocate, answer]
    | some fresh =>
      have apart := (splitting.fresh_above (not_allocated answer)).1
      obtain ⟨low, high, rfl, lifted, leaves⟩ :=
        splitting.full found space answer (inner.version + 1) 1 rfl rfl rfl
      obtain ⟨result, after, ran, outcome⟩ := ih lifted
      refine ⟨result, after, ?_, outcome.imp (And.imp_right ?_) (And.imp_right ?_)⟩
      · simp [pathOf, Context.path, propagateSplit, step, space, splitInnerAndInsert,
          allocateInner, runOn_allocate answer, Function.update_comm apart]
        exact ran
      · rintro ⟨settled, rows⟩
        exact ⟨leaves ▸ settled, rows.tuples, rows.endGapOffset, rows.tupleCount,
          Nat.le_of_succ_le rows.later⟩
      · rintro ⟨pending, request, later, refused⟩
        exact ⟨leaves ▸ pending, request, Nat.le_of_succ_le later, refused⟩

end Propagate

/-! ## Relinking the leaf after a split -/

section Relink

/-- Node memory after the leaf at an offset has been pointed back at another one. -/
def relinked (nodes : Offset → Node K) (offset previous : Offset) : Offset → Node K :=
  if offset = 0 then nodes
  else match nodes offset with
    | .leaf leaf => Function.update nodes offset (.leaf { leaf with prevOffset := previous })
    | _ => nodes

variable {nodes : Offset → Node K} {offset previous addr : Offset}

/-- The back link is stored. -/
@[simp] theorem runOn_setPrevious (tree : Tree K V) :
    runOn (setPrevious offset previous) tree =
      (.ok ⟨⟩, { tree with nodes := relinked tree.nodes offset previous }) := by
  by_cases null : offset = 0
  · subst null
    simp [setPrevious, relinked]
  · cases found : tree.nodes offset <;>
      simp [setPrevious, relinked, null, leafFromOffset, nodeFromOffset, found, leafOf]

/-- The other nodes stay. -/
theorem relinked_of_ne (apart : addr ≠ offset) :
    relinked nodes offset previous addr = nodes addr := by
  unfold relinked
  by_cases null : offset = 0
  · rw [if_pos null]
  · cases found : nodes offset <;> simp [null, update_of_ne apart]

/-- The leaf that gets a new link. -/
theorem relinked_self {leaf : LeafNode K} (nonnull : offset ≠ 0)
    (found : nodes offset = .leaf leaf) :
    relinked nodes offset previous offset = .leaf { leaf with prevOffset := previous } := by
  simp [relinked, nonnull, found]

/-- Leaves keep their entries. -/
theorem LeafAt.relinked (stored : LeafAt nodes addr entries) :
    LeafAt (relinked nodes offset previous) addr entries := by
  obtain ⟨leaf, found, same⟩ := stored
  by_cases here : addr = offset
  · subst here
    by_cases null : addr = 0
    · exact ⟨leaf, by simp [BPlusTree.relinked, null, ← found], same⟩
    · exact ⟨_, relinked_self null found, same⟩
  · exact ⟨leaf, by rw [relinked_of_ne here, found], same⟩

/-- Inner nodes stay. -/
theorem InnerAt.relinked {kids : List Offset} (stored : InnerAt nodes addr keys kids) :
    InnerAt (relinked nodes offset previous) addr keys kids := by
  obtain ⟨inner, found, same⟩ := stored
  refine ⟨inner, ?_, same⟩
  by_cases here : addr = offset
  · subst here
    simp [BPlusTree.relinked, found]
  · rw [relinked_of_ne here, found]

/-- The links to the right stay. -/
theorem nextOf_relinked : nextOf (relinked nodes offset previous) addr = nextOf nodes addr := by
  by_cases here : addr = offset
  · subst here
    unfold relinked
    split
    · rfl
    · split
      · rename_i leaf found
        simp [nextOf, found, leafOf]
      · rfl
  · rw [nextOf, relinked_of_ne here, nextOf]

end Relink

/-! ## A new slot in the leaf of a key -/

section Slot

variable {height : Nat} {tree : Tree K V} {shape : TreeShape K height} {key : K}
  {context : Context Offset K (LeafEntry K) 0 height} {leaf : Leaf Offset (LeafEntry K)}
  {node : LeafNode K}

/-- The slots of a located leaf with a new row for the key. -/
def slotsWith (config : Config K) (node : LeafNode K) (key : K) (offset : Offset) :
    List (LeafEntry K) :=
  node.entries.insertIdx (leafLowerBound config node.entries key) ⟨key, offset⟩

namespace Located

section

variable (located : Located config tree shape key context leaf node)
include located

section

variable (indexes : Indexes config tree shape)
include indexes

/-- The slots with the new one. -/
theorem slotsWith_eq (offset : Offset) : slotsWith config node key offset =
      leaf.entries.take (leafLowerBound config node.entries key) ++
        ⟨key, offset⟩ :: leaf.entries.drop (leafLowerBound config node.entries key) := by
  have bound := (leafLowerBound_spec config (located.sorted indexes.searchable) key).1
  rw [slotsWith, located.entries]
  have inserted := insertIdx_append (leaf.entries.take (leafLowerBound config leaf.entries key))
    (leaf.entries.drop (leafLowerBound config leaf.entries key)) (⟨key, offset⟩ : LeafEntry K)
  rwa [take_append_drop, length_take, Nat.min_eq_left bound] at inserted

/-- They are in order. -/
theorem ordered_slotsWith (absent : rowOf config shape.entries key = none) (offset : Offset) :
    Token.Ordered config.Lt LeafEntry.key (context.before tokens ++
      (slotsWith config node key offset).map Token.entry ++ context.after tokens) := by
  obtain ⟨⟨small, -, great⟩, whole⟩ := located.divides indexes absent
  simp only [Option.toList_none, length_nil, Nat.add_zero, append_nil] at great whole
  have ordered := indexes.outline.ordered
  simp only [← located.plugged, context.plug_walk, Shape.walk_leaf, tokens_leaf] at ordered
  have lows := (pairwise_append.mp (pairwise_append.mp ordered).1).1
  have highs := (pairwise_append.mp ordered).2.1
  rw [whole, map_append] at ordered
  rw [located.slotsWith_eq indexes, map_append, map_cons]
  generalize leaf.entries.take (leafLowerBound config node.entries key) = left at *
  generalize leaf.entries.drop (leafLowerBound config node.entries key) = right at *
  have parts : Token.Ordered config.Lt LeafEntry.key
      ((context.before tokens ++ left.map Token.entry) ++
        (right.map Token.entry ++ context.after tokens)) := by
    simpa only [append_assoc] using ordered
  obtain ⟨lower, upper, across⟩ := pairwise_append.mp parts
  have below : ∀ token ∈ context.before tokens ++ left.map Token.entry,
      token.Below config.Lt LeafEntry.key key := by
    intro token member
    rcases mem_append.mp member with member | member
    · exact located.routes.below lows token member
    · obtain ⟨entry, listed, rfl⟩ := mem_map.mp member
      exact small entry (mem_append_right _ listed)
  have above : ∀ token ∈ right.map Token.entry ++ context.after tokens,
      token.Above config.Lt LeafEntry.key key := by
    intro token member
    rcases mem_append.mp member with member | member
    · obtain ⟨entry, listed, rfl⟩ := mem_map.mp member
      exact great entry (mem_append_left _ listed)
    · exact located.routes.above highs token member
  have inserted : Token.Ordered config.Lt LeafEntry.key
      ((context.before tokens ++ left.map Token.entry) ++ Token.entry ⟨key, offset⟩ ::
        (right.map Token.entry ++ context.after tokens)) := by
    refine pairwise_append.mpr ⟨lower, pairwise_cons.mpr ⟨fun token member => ?_, upper⟩,
      fun first member second later => ?_⟩
    · exact (Token.entry_precedes _ _).mpr (above token member)
    · rcases mem_cons.mp later with rfl | later
      · exact below first member
      · exact across first member second later
  simpa only [append_assoc, cons_append] using inserted

/-- The leaf is not in its context. -/
theorem notMem_context :
    leaf.addr ∉ addresses fun _ visit => context.before visit ++ context.after visit := by
  have distinct := indexes.outline.distinct
  have parts : (fun T => shape.walk) = fun (T : Type) (visit : Visit Offset K (LeafEntry K) T) =>
      context.before visit ++ (visit.leaf leaf ++ context.after visit) := by
    funext T visit
    rw [← located.plugged, context.plug_walk, Shape.walk_leaf, append_assoc]
  rw [parts, nodup_addresses_append] at distinct
  obtain ⟨-, inside, outside⟩ := distinct
  have apart := ((nodup_addresses_append (fun T visit => visit.leaf leaf) _).mp inside).2.2
  have here : leaf.addr ∈ addresses fun T (visit : Visit Offset K (LeafEntry K) T) =>
      visit.leaf leaf := by
    simp [addresses]
  intro member
  rcases (mem_addresses_append _ _ _).mp member with before | after
  · exact outside _ before (by simp [here])
  · exact apart _ here after

/-- A leaf is replaced. -/
theorem replace (entries : List (LeafEntry K)) (version : Nat)
    (ordered : Token.Ordered config.Lt LeafEntry.key (context.before tokens ++
      entries.map Token.entry ++ context.after tokens))
    (fill : LeafFill config tree.rootOffset leaf.addr entries) :
    Settled config tree { tree with
        nodes := Function.update tree.nodes leaf.addr
          (.leaf ⟨version, node.prevOffset, node.nextOffset, entries⟩) }
      (context.before Visit.leaves ++ ⟨leaf.addr, entries⟩ :: context.after Visit.leaves) := by
  have stored := (context.plug_every _).mp (located.plugged ▸ indexes.stored)
  have filled := (context.plug_every _).mp (located.plugged ▸ indexes.filled)
  refine ⟨⟨height, context.plug (Shape.leaf ⟨leaf.addr, entries⟩), ⟨?_, ?_, ?_, ?_⟩, ?_⟩,
    ⟨rfl, rfl, rfl, Nat.le_refl _⟩⟩
  · rw [indexes.root, ← located.plugged]
    exact context.plug_addr rfl
  · refine (context.plug_every _).mpr ⟨⟨_, update_self .., rfl⟩, ?_⟩
    exact context_stored_update stored.2 (located.notMem_context indexes)
  · exact (context.plug_every _).mpr ⟨fill, filled.2⟩
  · refine indexes.outline.relabel (Nat.le_refl _) (fun other member => ?_) rfl rfl ?_ ?_ ?_
    · by_cases here : other.addr = leaf.addr
      · simp [prevOf, nextOf, here, leafOf, located.found]
      · simp [prevOf, nextOf, update_of_ne here]
    · rw [context.plug_walk]
      exact ordered
    · simp [← located.plugged, context.plug_walk]
    · simp [← located.plugged, context.plug_walk]
  · simp [context.plug_walk]

end

/-- The addresses of the leaves. -/
theorem leaf_addrs :
    (shape.walk Visit.leaves).map Leaf.addr = (context.before Visit.leaves).map Leaf.addr ++
        leaf.addr :: (context.after Visit.leaves).map Leaf.addr := by
  rw [located.leaves, map_append, map_cons]

/-- The next leaf. -/
theorem nextOffset_eq (indexes : Indexes config tree shape) :
    node.nextOffset = ((context.after Visit.leaves).map Leaf.addr).headD 0 := by
  have chained := indexes.outline.chained
  rw [located.leaf_addrs, DoublyLinked.chain_append] at chained
  rw [← chained.2.1.2]
  simp [nextOf, located.found, leafOf]

end

/-- In a list of distinct addresses everything but an element and its successor differs from
both. -/
theorem ne_neighbours {before after : List Offset} {addr other : Offset}
    (distinct : (before ++ addr :: after).Nodup) (nonnull : other ≠ 0)
    (member : other ∈ before ++ after.tail) : other ≠ addr ∧ other ≠ after.headD 0 := by
  cases after with
  | nil => simp_all [nodup_append]
  | cons head rest =>
    simp only [nodup_append, nodup_cons, mem_cons, not_or] at distinct
    simp only [tail_cons, mem_append] at member
    simp only [headD_cons]
    obtain ⟨-, ⟨⟨-, notRest⟩, headRest, -⟩, across⟩ := distinct
    rcases member with member | member
    · exact ⟨fun same => across other member other (.inl same) rfl,
        fun same => across other member other (.inr (.inl same)) rfl⟩
    · constructor
      · rintro rfl
        exact notRest member
      · rintro rfl
        exact headRest member

/-- Node memory after the split of a located leaf. -/
def splitNodes (tree : Tree K V) (leaf : Leaf Offset (LeafEntry K)) (node : LeafNode K)
    (fresh : Offset) (version : Nat) (low high : List (LeafEntry K)) : Offset → Node K :=
  relinked (Function.update (Function.update tree.nodes leaf.addr
      (.leaf ⟨version, node.prevOffset, fresh, low⟩)) fresh
    (.leaf ⟨1, leaf.addr, node.nextOffset, high⟩)) node.nextOffset fresh

section SplitNodes

variable {fresh : Offset} {version : Nat} {low high : List (LeafEntry K)}

section

variable (located : Located config tree shape key context leaf node)
  (indexes : Indexes config tree shape) (nonnull : fresh ≠ 0)
  (unused : ¬ Allocated config tree.allocations fresh)
include located indexes nonnull unused

/-- The next leaf is another one. -/
theorem ne_nextOffset :
    leaf.addr ≠ node.nextOffset ∧ fresh ≠ node.nextOffset ∧ leaf.addr ≠ fresh := by
  have allocated : ∀ addr ∈ (shape.walk Visit.leaves).map Leaf.addr,
      Allocated config tree.allocations addr := fun addr member =>
    indexes.outline.allocated addr (mem_append_left _ member)
  have distinct := (nodup_append.mp indexes.outline.distinct).1
  rw [located.leaf_addrs] at allocated distinct
  have here := allocated leaf.addr (by simp)
  rw [located.nextOffset_eq indexes]
  refine ⟨?_, ?_, fun same => unused (same ▸ here)⟩
  · cases rest : (context.after Visit.leaves).map Leaf.addr with
    | nil => exact here.ne_zero
    | cons head tail =>
      rw [rest] at distinct
      have apart := (nodup_cons.mp (nodup_append.mp distinct).2.1).1
      exact fun same => apart (by simp [same])
  · cases rest : (context.after Visit.leaves).map Leaf.addr with
    | nil => exact nonnull
    | cons head tail =>
      exact fun same => unused (allocated fresh (by simp [rest, same]))

/-- The nodes of a split. -/
theorem splitNodes_apply (version : Nat) (low high : List (LeafEntry K)) :
    splitNodes tree leaf node fresh version low high leaf.addr =
        .leaf ⟨version, node.prevOffset, fresh, low⟩ ∧
      splitNodes tree leaf node fresh version low high fresh =
        .leaf ⟨1, leaf.addr, node.nextOffset, high⟩ ∧
      ∀ addr, addr ≠ leaf.addr → addr ≠ fresh → addr ≠ node.nextOffset →
        splitNodes tree leaf node fresh version low high addr = tree.nodes addr := by
  obtain ⟨leafNext, freshNext, apart⟩ := located.ne_nextOffset indexes nonnull unused
  refine ⟨?_, ?_, fun addr notLeaf notFresh notNext => ?_⟩
  · rw [splitNodes, relinked_of_ne leafNext, update_of_ne apart, update_self]
  · rw [splitNodes, relinked_of_ne freshNext, update_self]
  · rw [splitNodes, relinked_of_ne notNext, update_of_ne notFresh,
      update_of_ne notLeaf]

/-- The chain of a split. -/
theorem splitNodes_chain :
    DoublyLinked.Chain (prevOf (splitNodes tree leaf node fresh version low high))
      (nextOf (splitNodes tree leaf node fresh version low high)) 0
      ((context.before Visit.leaves).map Leaf.addr ++
        leaf.addr :: fresh :: (context.after Visit.leaves).map Leaf.addr) 0 := by
  have chained := indexes.outline.chained
  have distinct := (nodup_append.mp indexes.outline.distinct).1
  have allocated : ∀ addr ∈ (shape.walk Visit.leaves).map Leaf.addr,
      Allocated config tree.allocations addr := fun addr member =>
    indexes.outline.allocated addr (mem_append_left _ member)
  rw [located.leaf_addrs] at chained distinct allocated
  have next := located.nextOffset_eq indexes
  obtain ⟨atLeaf, atFresh, elsewhere⟩ :=
    located.splitNodes_apply indexes nonnull unused version low high
  have notFresh : ∀ addr ∈ (context.before Visit.leaves).map Leaf.addr ++
      leaf.addr :: (context.after Visit.leaves).map Leaf.addr, addr ≠ fresh := by
    rintro addr member rfl
    exact unused (allocated _ member)
  -- the right neighbour is still the leaf it was, except for its back link
  have neighbour : ∀ head ∈ ((context.after Visit.leaves).map Leaf.addr).head?,
      prevOf (splitNodes tree leaf node fresh version low high) head = fresh ∧
        nextOf (splitNodes tree leaf node fresh version low high) head =
          nextOf tree.nodes head := by
    intro head first
    obtain ⟨other, listed, rfl⟩ := mem_map.mp (mem_of_mem_head? first)
    have here : node.nextOffset = other.addr := by
      rw [next, headD_eq_head?_getD, Option.mem_def.mp first, Option.getD_some]
    obtain ⟨stored, found, -⟩ := indexes.stored.onLeaves other (by simp [located.leaves, listed])
    have inside : other.addr ∈ (context.before Visit.leaves).map Leaf.addr ++
        leaf.addr :: (context.after Visit.leaves).map Leaf.addr := by
      simp [mem_map_of_mem listed]
    have apart : other.addr ≠ leaf.addr := by
      rw [← here]
      exact (located.ne_nextOffset indexes nonnull unused).1.symm
    have kept : Function.update (Function.update tree.nodes leaf.addr
        (.leaf ⟨version, node.prevOffset, fresh, low⟩)) fresh
        (.leaf ⟨1, leaf.addr, node.nextOffset, high⟩) other.addr = .leaf stored := by
      rw [update_of_ne (notFresh _ inside), update_of_ne apart, found]
    constructor
    · rw [splitNodes, here, prevOf, relinked_self (allocated _ inside).ne_zero (here ▸ kept)]
      rfl
    · rw [splitNodes, nextOf_relinked, nextOf, kept, nextOf, found]
  have others : ∀ other ∈ (context.before Visit.leaves).map Leaf.addr ++
      ((context.after Visit.leaves).map Leaf.addr).tail,
      splitNodes tree leaf node fresh version low high other = tree.nodes other := by
    intro other member
    have inside : other ∈ (context.before Visit.leaves).map Leaf.addr ++
        leaf.addr :: (context.after Visit.leaves).map Leaf.addr := by
      rcases mem_append.mp member with member | member
      · exact mem_append_left _ member
      · exact mem_append_right _ (mem_cons_of_mem _ (mem_of_mem_tail member))
    obtain ⟨notLeaf, notNext⟩ := ne_neighbours distinct (allocated other inside).ne_zero member
    exact elsewhere other notLeaf (notFresh other inside) (next ▸ notNext)
  refine DoublyLinked.Chain.insert chained ?_ ?_ ?_ ?_ (fun head first => (neighbour head first).1)
    (fun head first => (neighbour head first).2) fun other member => ?_
  · simp [prevOf, atFresh, leafOf]
  · simp [nextOf, atFresh, leafOf, located.found]
  · simp [prevOf, atLeaf, leafOf, located.found]
  · simp [nextOf, atLeaf, leafOf]
  · simp [prevOf, nextOf, others other member]

end

/-- The context of a split. -/
theorem splitNodes_context (located : Located config tree shape key context leaf node)
    (indexes : Indexes config tree shape) (unused : ¬ Allocated config tree.allocations fresh) :
    context.Every (LeafAt (splitNodes tree leaf node fresh version low high))
      (InnerAt (splitNodes tree leaf node fresh version low high)) leaf.addr := by
  have stored := ((context.plug_every _).mp (located.plugged ▸ indexes.stored)).2
  have new : fresh ∉ addresses fun _ visit => context.before visit ++ context.after visit := by
    refine fun member => unused (indexes.outline.allocated _ (addresses_subset ?_ member))
    intro T visit found inside
    rw [← located.plugged, context.plug_walk]
    simp only [mem_append] at inside ⊢
    exact inside.elim (fun before => .inl (.inl before)) .inr
  exact (context_stored_update (context_stored_update stored
    (located.notMem_context indexes)) new).imp (fun _ _ there => there.relinked)
    (fun _ _ _ _ there => there.relinked)

end SplitNodes

/-- The halves and their separator are in order. -/
theorem ordered_split [Inhabited K] {before after : List (Token K (LeafEntry K))}
    {count : Nat} (positive : 0 < count) (rest : count < entries.length)
    (ordered : Token.Ordered config.Lt LeafEntry.key (before ++ entries.map Token.entry ++ after)) :
    Token.Ordered config.Lt LeafEntry.key (before ++ (entries.take count).map Token.entry ++
      [Token.separator (((entries.drop count).head?.map LeafEntry.key).getD default)] ++
      (entries.drop count).map Token.entry ++ after) := by
  obtain ⟨front, last, low⟩ : ∃ front last, entries.take count = front ++ [last] := by
    have nonempty : entries.take count ≠ [] := by
      rw [ne_eq, ← length_eq_zero_iff, length_take]
      omega
    exact ⟨_, _, (dropLast_append_getLast nonempty).symm⟩
  obtain ⟨first, back, high⟩ : ∃ first back, entries.drop count = first :: back :=
    ⟨_, _, drop_eq_getElem_cons rest⟩
  have whole := take_append_drop count entries
  rw [low, high] at whole
  rw [← whole] at ordered
  rw [low, high]
  have parts : Token.Ordered config.Lt LeafEntry.key ((before ++ front.map Token.entry) ++
      .entry last :: .entry first :: (back.map Token.entry ++ after)) := by
    simpa using ordered
  simpa using parts.insert_separator

/-- The outline of a split. -/
theorem outline_split (located : Located config tree shape key context leaf node)
    (indexes : Indexes config tree shape) {separator : K}
    {low high : List (LeafEntry K)} (answer : config.allocate tree.allocations = some fresh)
    {after : Tree K V} (allocations : after.allocations = tree.allocations + 1)
    (leafCount : after.leafCount = tree.leafCount + 1)
    (innerCount : after.innerCount = tree.innerCount)
    (ordered : Token.Ordered config.Lt LeafEntry.key (context.before tokens ++ low.map
      Token.entry ++ [Token.separator separator] ++ high.map Token.entry ++ context.after tokens))
    (chained : DoublyLinked.Chain (prevOf after.nodes) (nextOf after.nodes) 0 ((context.before
      Visit.leaves).map Leaf.addr ++ leaf.addr :: fresh :: (context.after Visit.leaves).map
        Leaf.addr)
      0) :
    Outline config after (pendingWalk context (Shape.leaf ⟨leaf.addr, low⟩) separator
      (Shape.leaf ⟨fresh, high⟩)) := by
  have leaves : (pendingWalk context (Shape.leaf ⟨leaf.addr, low⟩) separator
      (Shape.leaf ⟨fresh, high⟩) _ Visit.leaves).map Leaf.addr =
        (context.before Visit.leaves).map Leaf.addr ++
          leaf.addr :: fresh :: (context.after Visit.leaves).map Leaf.addr := by
    simp [pendingWalk]
  have inners : pendingWalk context (Shape.leaf ⟨leaf.addr, low⟩) separator
      (Shape.leaf ⟨fresh, high⟩) _ Visit.inners = shape.walk Visit.inners := by
    simp [pendingWalk, ← located.plugged, context.plug_walk]
  have nodes : (addresses (pendingWalk context (Shape.leaf ⟨leaf.addr, low⟩) separator
      (Shape.leaf ⟨fresh, high⟩))).Perm (fresh :: addresses fun _ => shape.walk) := by
    rw [addresses, addresses, leaves, inners, located.leaf_addrs]
    have moved : ((context.before Visit.leaves).map Leaf.addr ++
        leaf.addr :: fresh :: (context.after Visit.leaves).map Leaf.addr).Perm
        (fresh :: ((context.before Visit.leaves).map Leaf.addr ++
          leaf.addr :: (context.after Visit.leaves).map Leaf.addr)) :=
      ((List.Perm.swap _ _ _).append_left _).trans perm_middle
    exact moved.append_right _
  refine ⟨ordered, ?_, fun addr member => ?_, ?_, ?_, ?_⟩
  · rw [nodes.nodup_iff, nodup_cons]
    exact ⟨fun member => not_allocated answer (indexes.outline.allocated _ member),
      indexes.outline.distinct⟩
  · rw [allocations]
    rcases mem_cons.mp (nodes.mem_iff.mp member) with rfl | member
    · exact ⟨_, Nat.lt_succ_self _, answer⟩
    · exact (indexes.outline.allocated addr member).mono (Nat.le_succ _)
  · rw [leaves]
    exact chained
  · have count := congrArg List.length leaves
    have before := congrArg List.length located.leaves
    simp only [length_map, length_append, length_cons] at count before
    rw [leafCount, indexes.outline.leafCount]
    omega
  · rw [innerCount, indexes.outline.innerCount, inners]

/-- A full leaf is split: the smaller slots stay in place, the greater ones move to a new
leaf, and the first of their keys separates them. -/
theorem split [Inhabited K] (located : Located config tree shape key context leaf node)
    (indexes : Indexes config tree shape)
    (ordered : Token.Ordered config.Lt LeafEntry.key (context.before tokens ++ entries.map
      Token.entry ++ context.after tokens)) (length : entries.length = config.leafCapacity + 1)
    (answer : config.allocate tree.allocations = some fresh) (version : Nat) :
    Splitting config
      { tree with
        allocations := tree.allocations + 1
        leafCount := tree.leafCount + 1
        nodes := splitNodes tree leaf node fresh version
          (entries.take ((config.leafCapacity + 1) / 2))
          (entries.drop ((config.leafCapacity + 1) / 2)) }
      context (Shape.leaf ⟨leaf.addr, entries.take ((config.leafCapacity + 1) / 2)⟩)
      (((entries.drop ((config.leafCapacity + 1) / 2)).head?.map LeafEntry.key).getD default)
      (Shape.leaf ⟨fresh, entries.drop ((config.leafCapacity + 1) / 2)⟩) := by
  have capacity := config.leafCapacity_ge
  have unused := not_allocated answer
  have used : Allocated config (tree.allocations + 1) fresh := ⟨_, Nat.lt_succ_self _, answer⟩
  have filled := (context.plug_every _).mp (located.plugged ▸ indexes.filled)
  obtain ⟨atLeaf, atFresh, -⟩ := located.splitNodes_apply indexes used.ne_zero unused version
    (entries.take ((config.leafCapacity + 1) / 2)) (entries.drop ((config.leafCapacity + 1) / 2))
  refine ⟨?_, ⟨_, atLeaf, rfl⟩, ⟨_, atFresh, rfl⟩, located.splitNodes_context indexes unused,
    ?_, ?_, filled.2, ?_⟩
  · rw [indexes.root, ← located.plugged]
    exact context.plug_addr rfl
  · refine (Shape.every_leaf _).mpr ⟨fun _ => ?_, ?_⟩ <;> rw [length_take] <;> omega
  · refine (Shape.every_leaf _).mpr ⟨fun _ => ?_, ?_⟩ <;> rw [length_drop] <;> omega
  · exact located.outline_split indexes answer rfl rfl rfl
      (ordered_split (by omega) (by omega) ordered)
      (located.splitNodes_chain indexes used.ne_zero unused)

end Located

end Slot

end UbApplication.Tigon.BPlusTree
