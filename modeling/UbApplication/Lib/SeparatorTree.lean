import Mathlib.Data.List.Basic
import Mathlib.Data.List.Pairwise
import Mathlib.Order.RelClasses
import Mathlib.Tactic.Simps.Basic

/-!
# Separator trees of uniform depth

A separator tree keeps its entries in leaves of one depth and routes a search by
separators stored in inner nodes. The depth is an index of the type, so a tree whose
leaves lie at different depths cannot be written down, and an inner node is one child
followed by separator-child pairs, so it always has one child more than it has
separators. Every node carries the address at which some store keeps it.

A walk collects something from every node in preorder; the in-order tokens, the leaves
and the node addresses are walks. A context is a tree with a hole, and every walk and
every node-wise property of a tree splits into its part on the context and its part on
the subtree in the hole.
-/

namespace SeparatorTree

open List

variable {A K E C T : Type}

/-- A leaf: its address and its entries in order. -/
structure Leaf (A E : Type) where
  /-- Where the store keeps the leaf. -/
  addr : A
  /-- The entries of the leaf, in order. -/
  entries : List E

/-- An inner node over children of one type: a first child, then separator-child pairs. -/
structure Inner (A K C : Type) where
  /-- Where the store keeps the node. -/
  addr : A
  head : C
  /-- The separators, each with the child to its right. -/
  tail : List (K × C)

namespace Inner

/-- Separators from left to right. -/
def keys (node : Inner A K C) : List K := node.tail.map Prod.fst

/-- Children from left to right. -/
def kids (node : Inner A K C) : List C := node.head :: node.tail.map Prod.snd

end Inner

/-- A tree all of whose leaves lie at the given depth. -/
def Shape (A K E : Type) : Nat → Type
  | 0 => Leaf A E
  | depth + 1 => Inner A K (Shape A K E depth)

/-- What a walk collects from a leaf, from an inner node and from a separator. -/
structure Visit (A K E T : Type) where
  leaf : Leaf A E → List T
  /-- Collected from the address of an inner node. -/
  inner : A → List T
  key : K → List T

/-- An entry or a separator met by an in-order walk. -/
inductive Token (K E : Type) where
  | entry (value : E)
  /-- A separator of an inner node. -/
  | separator (key : K)

namespace Visit

/-- Entries and separators. -/
@[simps] def tokens : Visit A K E (Token K E) :=
  ⟨fun node => node.entries.map .entry, fun _ => [], fun key => [.separator key]⟩

/-- Leaves. -/
@[simps] def leaves : Visit A K E (Leaf A E) := ⟨fun node => [node], fun _ => [], fun _ => []⟩

/-- Addresses of inner nodes. -/
@[simps] def inners : Visit A K E A := ⟨fun _ => [], fun addr => [addr], fun _ => []⟩

end Visit

namespace Shape

variable {depth : Nat}

/-- A leaf is a tree of depth zero. -/
def leaf (leaf : Leaf A E) : Shape A K E 0 := leaf

/-- An inner node over trees of one depth is a tree one deeper. -/
def inner (node : Inner A K (Shape A K E depth)) : Shape A K E (depth + 1) := node

/-- Induction on trees: a property of every leaf that passes from the children of an
inner node to the node holds of every tree. -/
@[elab_as_elim]
theorem treeInduction {motive : {depth : Nat} → Shape A K E depth → Prop}
    (leaf : ∀ node : Leaf A E, motive (leaf node))
    (inner : ∀ {depth : Nat} (node : Inner A K (Shape A K E depth)),
      (∀ kid : Shape A K E depth, motive kid) → motive (inner node)) :
    {depth : Nat} → (shape : Shape A K E depth) → motive shape
  | 0, node => leaf node
  | _ + 1, node => inner node fun kid => treeInduction leaf inner kid

/-- The address of the root node. -/
def addr : {depth : Nat} → Shape A K E depth → A
  | 0, node => Leaf.addr node
  | _ + 1, node => Inner.addr node

/-- The address of a leaf. -/
@[simp] theorem addr_leaf (node : Leaf A E) : (leaf node : Shape A K E 0).addr = node.addr := rfl

/-- That of an inner node. -/
@[simp] theorem addr_inner (node : Inner A K (Shape A K E depth)) :
    (inner node).addr = node.addr := rfl

/-- The preorder walk of a tree. -/
def walk (visit : Visit A K E T) : {depth : Nat} → Shape A K E depth → List T
  | 0, node => visit.leaf node
  | _ + 1, node => visit.inner (Inner.addr node) ++ walk visit (Inner.head node) ++
      (Inner.tail node).flatMap fun pair => visit.key pair.1 ++ walk visit pair.2

/-- A walk of a leaf. -/
@[simp] theorem walk_leaf (visit : Visit A K E T) (node : Leaf A E) :
    (leaf node : Shape A K E 0).walk visit = visit.leaf node := rfl

/-- A walk of an inner node. -/
@[simp] theorem walk_inner (visit : Visit A K E T) (node : Inner A K (Shape A K E depth)) :
    (inner node).walk visit = visit.inner node.addr ++ node.head.walk visit ++
      node.tail.flatMap fun pair => visit.key pair.1 ++ pair.2.walk visit := rfl

/-- Every leaf and every inner node, seen as its separators and the addresses of its
children, has a property. -/
def Every (onLeaf : A → List E → Prop) (onInner : A → List K → List A → Prop) :
    {depth : Nat} → Shape A K E depth → Prop
  | 0, node => onLeaf (Leaf.addr node) (Leaf.entries node)
  | _ + 1, node => onInner (Inner.addr node) (Inner.keys node) ((Inner.kids node).map addr) ∧
      ∀ kid ∈ Inner.kids node, Every onLeaf onInner kid

section Every

variable {onLeaf onLeaf' : A → List E → Prop} {onInner onInner' : A → List K → List A → Prop}

/-- A property of a leaf. -/
@[simp] theorem every_leaf (node : Leaf A E) :
    (leaf node : Shape A K E 0).Every onLeaf onInner ↔ onLeaf node.addr node.entries := Iff.rfl

/-- A property of a node and all below. -/
@[simp] theorem every_inner (node : Inner A K (Shape A K E depth)) :
    (inner node).Every onLeaf onInner ↔ onInner node.addr node.keys (node.kids.map addr) ∧
      ∀ kid ∈ node.kids, kid.Every onLeaf onInner := Iff.rfl

/-- What a walk collects below a child is collected at the node, in the same order. -/
theorem walk_kid_sublist (visit : Visit A K E T) (node : Inner A K (Shape A K E depth))
    (kid : Shape A K E depth) (member : kid ∈ node.kids) :
    (kid.walk visit).Sublist ((inner node).walk visit) := by
  rw [walk_inner]
  rcases mem_cons.mp member with rfl | member
  · exact (sublist_append_right _ _).trans (sublist_append_left _ _)
  · obtain ⟨pair, listed, rfl⟩ := mem_map.mp member
    obtain ⟨before, after, split⟩ := append_of_mem listed
    rw [split, flatMap_append, flatMap_cons]
    refine List.Sublist.trans ?_ (sublist_append_right _ _)
    refine List.Sublist.trans ?_ (sublist_append_right _ _)
    exact (sublist_append_right _ _).trans (sublist_append_left _ _)

variable {shape : Shape A K E depth}

/-- A node-wise property passes to another that follows from it on the nodes of the
tree. -/
theorem Every.imp (every : shape.Every onLeaf onInner) (leaves : ∀ node ∈ shape.walk Visit.leaves,
      onLeaf node.addr node.entries → onLeaf' node.addr node.entries)
    (inners : ∀ addr ∈ shape.walk Visit.inners, ∀ keys kids,
      onInner addr keys kids → onInner' addr keys kids) :
    shape.Every onLeaf' onInner' := by
  induction shape using treeInduction with
  | leaf node => exact leaves node (by simp) every
  | inner node ih =>
    refine ⟨inners node.addr (by simp) _ _ every.1, fun kid member => ?_⟩
    exact ih kid (every.2 kid member)
      (fun leaf listed => leaves leaf ((walk_kid_sublist _ node kid member).subset listed))
      (fun addr listed => inners addr ((walk_kid_sublist _ node kid member).subset listed))

/-- Every leaf met by the walk has the leaf property. -/
theorem Every.onLeaves (every : shape.Every onLeaf onInner)
    (node : Leaf A E) (member : node ∈ shape.walk Visit.leaves) :
    onLeaf node.addr node.entries := by
  induction shape using treeInduction with
  | leaf only =>
    obtain rfl : node = only := by simpa [Visit.leaves] using member
    exact every
  | inner parent ih =>
    obtain ⟨every, kids⟩ := (every_inner parent).mp every
    simp only [walk_inner, Visit.leaves_inner, Visit.leaves_key, nil_append,
      mem_append, mem_flatMap] at member
    rcases member with inside | ⟨pair, listed, inside⟩
    · exact ih parent.head (kids _ (by simp [Inner.kids])) inside
    · have kid : pair.2 ∈ parent.kids := mem_cons_of_mem _ (mem_map_of_mem listed)
      exact ih pair.2 (kids _ kid) inside

end Every

/-- The root is one of the nodes. -/
theorem addr_mem (shape : Shape A K E depth) :
    shape.addr ∈ (shape.walk Visit.leaves).map Leaf.addr ++ shape.walk Visit.inners := by
  induction shape using treeInduction with
  | leaf node => simp
  | inner node ih => simp

/-- Every tree has a leaf. -/
theorem leaves_ne_nil (shape : Shape A K E depth) : shape.walk Visit.leaves ≠ [] := by
  induction shape using treeInduction with
  | leaf node => simp
  | inner node ih => simp [ih node.head]

/-- A tree has at least one inner node for every level above its leaves. -/
theorem depth_le_inners (shape : Shape A K E depth) : depth ≤ (shape.walk Visit.inners).length := by
  induction shape using treeInduction with
  | leaf node => simp
  | inner node ih =>
    have below := ih node.head
    simp only [walk_inner, Visit.inners_inner, length_append, length_cons,
      length_nil]
    omega

/-- The separators of an inner node are met in order. -/
theorem keys_sublist (node : Inner A K (Shape A K E depth)) :
    (node.keys.map Token.separator).Sublist ((inner node).walk Visit.tokens) := by
  obtain ⟨addr, head, tail⟩ := node
  refine List.Sublist.trans ?_ (sublist_append_right _ _)
  simp only [Inner.keys, Visit.tokens_key, map_map]
  induction tail with
  | nil => simp
  | cons pair rest ih =>
    simp only [map_cons, cons_append, nil_append]
    exact (ih.trans (sublist_append_right _ _)).cons_cons _

/-- The entries of all leaves from left to right. -/
def entries (shape : Shape A K E depth) : List E :=
  (shape.walk Visit.leaves).flatMap Leaf.entries

end Shape

namespace Token

/-- The entry a token carries. -/
def asEntry : Token K E → Option E
  | .entry value => some value
  | .separator _ => none

/-- The entries of a token list. -/
def entries (tokens : List (Token K E)) : List E := tokens.filterMap asEntry

/-- No tokens, no entries. -/
@[simp] theorem entries_nil : entries ([] : List (Token K E)) = [] := rfl

/-- Entries in order. -/
@[simp] theorem entries_append (left right : List (Token K E)) :
    entries (left ++ right) = entries left ++ entries right := by
  simp [entries]

/-- A separator is no entry. -/
@[simp] theorem entries_separator (key : K) (rest : List (Token K E)) :
    entries (.separator key :: rest) = entries rest := rfl

/-- An entry is one. -/
@[simp] theorem entries_entry (value : E) (rest : List (Token K E)) :
    entries (.entry value :: rest) = value :: entries rest := rfl

/-- Tokens that are entries. -/
@[simp] theorem entries_map (list : List E) :
    entries (list.map (Token.entry : E → Token K E)) = list := by
  induction list with
  | nil => rfl
  | cons entry rest ih => simp [ih]

/-- The entries among the tokens. -/
@[simp] theorem mem_entries (list : List (Token K E)) (value : E) :
    value ∈ entries list ↔ Token.entry value ∈ list := by
  induction list with
  | nil => simp
  | cons token rest ih => cases token <;> simp [ih]

end Token

/-- The in-order walk meets exactly the entries of the leaves. -/
theorem Shape.entries_tokens {depth : Nat} (shape : Shape A K E depth) :
    Token.entries (shape.walk Visit.tokens) = shape.entries := by
  induction shape using treeInduction with
  | leaf node => simp [Shape.entries, Visit.tokens, Visit.leaves]
  | inner node ih =>
    obtain ⟨addr, head, tail⟩ := node
    simp only [Shape.entries] at ih
    simp only [Shape.entries, walk_inner, Visit.tokens_inner, Visit.tokens_key,
      Visit.leaves_inner, Visit.leaves_key, nil_append, Token.entries_append,
      flatMap_append, ih]
    congr 1
    induction tail with
    | nil => rfl
    | cons pair rest step => simpa [ih] using step

/-- An inner node splits at every separator into a low half that keeps its address and a
high half at a fresh one; the separator between them belongs to neither. -/
theorem Shape.exists_split {depth : Nat} (node : Inner A K (Shape A K E depth)) (middle : Nat)
    (inside : middle < node.keys.length) (fresh : A) :
    ∃ (low : Inner A K (Shape A K E depth)) (key : K) (high : Inner A K (Shape A K E depth)),
      (low.addr = node.addr ∧ low.keys = node.keys.take middle ∧
        low.kids = node.kids.take (middle + 1)) ∧
      node.keys[middle]? = some key ∧
      (high.addr = fresh ∧ high.keys = node.keys.drop (middle + 1) ∧
        high.kids = node.kids.drop (middle + 1)) ∧
      ∀ {T : Type} (visit : Visit A K E T), ∃ back,
        (Shape.inner node).walk visit =
          (Shape.inner low).walk visit ++ visit.key key ++ back ∧
        (Shape.inner high).walk visit = visit.inner fresh ++ back := by
  obtain ⟨addr, head, tail⟩ := node
  have bound : middle < tail.length := by simpa [Inner.keys] using inside
  have whole : tail = tail.take middle ++ tail[middle] :: tail.drop (middle + 1) := by simp
  refine ⟨⟨addr, head, tail.take middle⟩, tail[middle].1,
    ⟨fresh, tail[middle].2, tail.drop (middle + 1)⟩, ⟨rfl, ?_, ?_⟩, ?_, ⟨rfl, ?_, ?_⟩, ?_⟩
  · simp [Inner.keys, map_take]
  · simp [Inner.kids, map_take]
  · simp [Inner.keys, bound]
  · simp [Inner.keys, map_drop]
  · simp only [Inner.kids, drop_succ_cons]
    rw [← map_drop, drop_eq_getElem_cons bound, map_cons]
  · intro T visit
    refine ⟨tail[middle].2.walk visit ++ (tail.drop (middle + 1)).flatMap fun pair =>
      visit.key pair.1 ++ pair.2.walk visit, ?_, by simp⟩
    conv_lhs => rw [whole]
    simp only [Shape.walk_inner, flatMap_append, flatMap_cons, append_assoc]

/-! ## Nodes with a hole -/

/-- Inserting at the end of the left half of a list. -/
theorem insertIdx_append {α : Type} (left right : List α) (value : α) :
    (left ++ right).insertIdx left.length value = left ++ value :: right := by
  induction left with
  | nil => simp
  | cons head rest ih => simpa using ih

/-- An inner node without one of its children. -/
structure Frame (A K C : Type) where
  /-- Where the store keeps the node. -/
  addr : A
  /-- Children left of the hole, each with the separator to its right. -/
  left : List (C × K)
  /-- Separators right of the hole, each with the child to its right. -/
  right : List (K × C)

/-- Put a child between the two sides of a hole. -/
def join : List (C × K) → C → List (K × C) → C × List (K × C)
  | [], kid, right => (kid, right)
  | (first, key) :: left, kid, right =>
    (first, (key, (join left kid right).1) :: (join left kid right).2)

/-- The keys of a list with a gap filled. -/
theorem join_keys (left : List (C × K)) (kid : C) (right : List (K × C)) :
    (join left kid right).2.map Prod.fst = left.map Prod.snd ++ right.map Prod.fst := by
  induction left with
  | nil => rfl
  | cons pair left ih => simp [join, ih]

/-- The kids of a list with a gap filled. -/
theorem join_kids (left : List (C × K)) (kid : C) (right : List (K × C)) :
    (join left kid right).1 :: (join left kid right).2.map Prod.snd =
      left.map Prod.fst ++ kid :: right.map Prod.snd := by
  induction left with
  | nil => rfl
  | cons pair left ih => simp [join, ih]

namespace Frame

/-- The node with its hole filled. -/
def fill (frame : Frame A K C) (kid : C) : Inner A K C :=
  ⟨frame.addr, (join frame.left kid frame.right).1, (join frame.left kid frame.right).2⟩

/-- Separators of the node. -/
def keys (frame : Frame A K C) : List K := frame.left.map Prod.snd ++ frame.right.map Prod.fst

/-- Filling keeps the address. -/
@[simp] theorem fill_addr (frame : Frame A K C) (kid : C) :
    (frame.fill kid).addr = frame.addr := rfl

/-- Filling keeps the separators. -/
@[simp] theorem fill_keys (frame : Frame A K C) (kid : C) : (frame.fill kid).keys = frame.keys :=
  join_keys _ _ _

/-- The child comes into the hole. -/
@[simp] theorem fill_kids (frame : Frame A K C) (kid : C) :
    (frame.fill kid).kids = frame.left.map Prod.fst ++ kid :: frame.right.map Prod.snd :=
  join_kids _ _ _

/-- Every inner node with a child at a position is a frame around that child. -/
theorem exists_fill (node : Inner A K C) (index : Nat) (kid : C)
    (found : node.kids[index]? = some kid) :
    ∃ frame : Frame A K C, frame.fill kid = node ∧ frame.left.length = index := by
  obtain ⟨addr, head, tail⟩ := node
  simp only [Inner.kids] at found
  induction tail generalizing index head with
  | nil =>
    cases index with
    | zero =>
      obtain rfl : head = kid := by simpa using found
      exact ⟨⟨addr, [], []⟩, rfl, rfl⟩
    | succ index => simp at found
  | cons pair rest ih =>
    cases index with
    | zero =>
      obtain rfl : head = kid := by simpa using found
      exact ⟨⟨addr, [], pair :: rest⟩, rfl, rfl⟩
    | succ index =>
      obtain ⟨frame, filled, length⟩ := ih index pair.2 (by simpa using found)
      refine ⟨⟨addr, (head, pair.1) :: frame.left, frame.right⟩, ?_, by simp [length]⟩
      have first : (join frame.left kid frame.right).1 = pair.2 := congrArg Inner.head filled
      have later : (join frame.left kid frame.right).2 = rest := congrArg Inner.tail filled
      simp [fill, join, first, later]

section Walk

variable {depth : Nat}

/-- What a walk collects before the hole. -/
def before (visit : Visit A K E T) (frame : Frame A K (Shape A K E depth)) : List T :=
  visit.inner frame.addr ++
    frame.left.flatMap fun pair => pair.1.walk visit ++ visit.key pair.2

/-- What a walk collects after the hole. -/
def after (visit : Visit A K E T) (frame : Frame A K (Shape A K E depth)) : List T :=
  frame.right.flatMap fun pair => visit.key pair.1 ++ pair.2.walk visit

/-- The walk of a filled node passes its left side, the filled child and its right side. -/
theorem fill_walk (visit : Visit A K E T) (frame : Frame A K (Shape A K E depth))
    (kid : Shape A K E depth) :
    (Shape.inner (frame.fill kid)).walk visit =
      frame.before visit ++ kid.walk visit ++ frame.after visit := by
  obtain ⟨addr, left, right⟩ := frame
  simp only [Shape.walk_inner, fill, before, after, append_assoc, append_cancel_left_eq]
  induction left with
  | nil => rfl
  | cons pair left ih => simp [join, ih, append_assoc]

/-- The frame with a separator and a child added right of the hole. -/
def insertRight (frame : Frame A K C) (key : K) (kid : C) : Frame A K C :=
  { frame with right := (key, kid) :: frame.right }

/-- The address stays. -/
@[simp] theorem insertRight_addr (frame : Frame A K C) (key : K) (kid : C) :
    (frame.insertRight key kid).addr = frame.addr := rfl

/-- The separators of a node that gained a child right of the hole. -/
theorem insertRight_keys (frame : Frame A K C) (key : K) (kid : C) :
    (frame.insertRight key kid).keys = frame.keys.insertIdx frame.left.length key := by
  simp only [keys, insertRight, map_cons]
  simpa using (insertIdx_append (frame.left.map Prod.snd) (frame.right.map Prod.fst) key).symm

/-- The addresses of the children of a node that gained a child right of the hole. -/
theorem insertRight_kids (frame : Frame A K (Shape A K E depth)) (key : K)
    (hole kid : Shape A K E depth) :
    ((frame.insertRight key kid).fill hole).kids.map Shape.addr =
      ((frame.fill hole).kids.map Shape.addr).insertIdx (frame.left.length + 1) kid.addr := by
  have inserted := insertIdx_append ((frame.left.map Prod.fst).map Shape.addr ++ [hole.addr])
    ((frame.right.map Prod.snd).map Shape.addr) kid.addr
  simpa [insertRight] using inserted.symm

/-- A child added right of the hole is walked after the hole. -/
theorem insertRight_walk (visit : Visit A K E T) (frame : Frame A K (Shape A K E depth)) (key : K)
    (hole kid : Shape A K E depth) :
    (Shape.inner ((frame.insertRight key kid).fill hole)).walk visit =
      frame.before visit ++ hole.walk visit ++ visit.key key ++ kid.walk visit ++
        frame.after visit := by
  rw [fill_walk]
  simp only [before, after, insertRight, flatMap_cons, append_assoc]

end Walk

end Frame

/-! ## Contexts -/

/-- A tree of the second depth with a hole for a subtree of the first: the frames from
the hole up to the root. -/
inductive Context (A K E : Type) : Nat → Nat → Type where
  | root {depth : Nat} : Context A K E depth depth
  | under {depth height : Nat} (frame : Frame A K (Shape A K E depth))
      (up : Context A K E (depth + 1) height) : Context A K E depth height

namespace Context

variable {depth height : Nat}

/-- Put a subtree into the hole. -/
def plug : {depth : Nat} → Context A K E depth height → Shape A K E depth → Shape A K E height
  | _, .root, shape => shape
  | _, .under frame up, shape => plug up (Shape.inner (frame.fill shape))

/-- What a walk collects before the hole. -/
def before (visit : Visit A K E T) : {depth : Nat} → Context A K E depth height → List T
  | _, .root => []
  | _, .under frame up => before visit up ++ frame.before visit

/-- What a walk collects after the hole. -/
def after (visit : Visit A K E T) : {depth : Nat} → Context A K E depth height → List T
  | _, .root => []
  | _, .under frame up => frame.after visit ++ after visit up

/-- The path from the hole to the root: the address of each frame with the number of
children left of the hole. -/
def path : {depth : Nat} → Context A K E depth height → List (A × Nat)
  | _, .root => []
  | _, .under frame up => (frame.addr, frame.left.length) :: path up

/-- Every node outside the hole has a property, given the address of the subtree in the
hole. -/
def Every (onLeaf : A → List E → Prop) (onInner : A → List K → List A → Prop) :
    {depth : Nat} → Context A K E depth height → A → Prop
  | _, .root, _ => True
  | _, .under frame up, addr =>
    onInner frame.addr frame.keys ((frame.left.map Prod.fst).map Shape.addr ++
      addr :: (frame.right.map Prod.snd).map Shape.addr) ∧
    (∀ kid ∈ frame.left.map Prod.fst, kid.Every onLeaf onInner) ∧
    (∀ kid ∈ frame.right.map Prod.snd, kid.Every onLeaf onInner) ∧
    Every onLeaf onInner up frame.addr

/-- A walk of the whole tree. -/
theorem plug_walk (visit : Visit A K E T) (context : Context A K E depth height)
    (shape : Shape A K E depth) :
    (context.plug shape).walk visit =
      context.before visit ++ shape.walk visit ++ context.after visit := by
  induction context with
  | root => simp [plug, before, after]
  | under frame up ih =>
    simp only [plug, before, after, ih, Frame.fill_walk, append_assoc]

/-- A node-wise property of a plugged tree. -/
theorem plug_every {onLeaf : A → List E → Prop} {onInner : A → List K → List A → Prop}
    (context : Context A K E depth height) (shape : Shape A K E depth) :
    (context.plug shape).Every onLeaf onInner ↔
      shape.Every onLeaf onInner ∧ context.Every onLeaf onInner shape.addr := by
  induction context with
  | root => simp [plug, Every]
  | under frame up ih =>
    simp only [plug, ih, Shape.every_inner, Frame.fill_addr, Frame.fill_keys, Frame.fill_kids,
      Shape.addr_inner, Every, map_append, map_cons, mem_append, mem_cons]
    constructor
    · rintro ⟨⟨node, kids⟩, above⟩
      exact ⟨kids _ (.inr (.inl rfl)), node, fun kid member => kids kid (.inl member),
        fun kid member => kids kid (.inr (.inr member)), above⟩
    · rintro ⟨hole, node, left, right, above⟩
      refine ⟨⟨node, fun kid member => ?_⟩, above⟩
      rcases member with member | rfl | member
      · exact left kid member
      · exact hole
      · exact right kid member

/-- Entries before the hole, from left to right. -/
def entriesBefore (context : Context A K E depth height) : List E :=
  (context.before Visit.leaves).flatMap Leaf.entries

/-- Entries after the hole, from left to right. -/
def entriesAfter (context : Context A K E depth height) : List E :=
  (context.after Visit.leaves).flatMap Leaf.entries

section

variable (context : Context A K E depth height)
include context

/-- The entries of the whole tree. -/
theorem plug_entries (shape : Shape A K E depth) :
    (context.plug shape).entries =
      context.entriesBefore ++ shape.entries ++ context.entriesAfter := by
  simp only [Shape.entries, plug_walk, flatMap_append, entriesBefore, entriesAfter]

/-- The tokens before the hole carry the entries before it. -/
theorem entries_before :
    Token.entries (context.before Visit.tokens) = context.entriesBefore := by
  unfold entriesBefore
  induction context with
  | root => rfl
  | under frame up ih =>
    simp only [before, Frame.before, Visit.tokens_inner, Visit.tokens_key, Visit.leaves_inner,
      Visit.leaves_key, nil_append, append_nil, Token.entries_append,
      flatMap_append, ih]
    congr 1
    induction frame.left with
    | nil => rfl
    | cons pair rest step =>
      simp only [flatMap_cons, Token.entries_append, Shape.entries_tokens, step,
        flatMap_append, Shape.entries, Token.entries_separator, Token.entries_nil,
        append_nil]

/-- The tokens after the hole carry the entries after it. -/
theorem entries_after :
    Token.entries (context.after Visit.tokens) = context.entriesAfter := by
  unfold entriesAfter
  induction context with
  | root => rfl
  | under frame up ih =>
    simp only [after, Frame.after, Visit.tokens_key, Visit.leaves_key, nil_append,
      Token.entries_append, flatMap_append, ih]
    congr 1
    induction frame.right with
    | nil => rfl
    | cons pair rest step =>
      simp only [flatMap_cons, Token.entries_append, Shape.entries_tokens, step,
        flatMap_append, Shape.entries, Token.entries_separator, Token.entries_nil,
        nil_append]

/-- The address of the root only depends on the address of the subtree in the hole. -/
theorem plug_addr {first second : Shape A K E depth}
    (same : first.addr = second.addr) : (context.plug first).addr = (context.plug second).addr := by
  induction context with
  | root => exact same
  | under frame up ih => exact ih rfl

/-- The root of a plugged tree is the root of the subtree or a node before the hole. -/
theorem plug_addr_mem (shape : Shape A K E depth) :
    (context.plug shape).addr = shape.addr ∨
      (context.plug shape).addr ∈ context.before Visit.inners := by
  induction context with
  | root => exact .inl rfl
  | under frame up ih =>
    refine .inr ?_
    simp only [before, Frame.before, mem_append]
    rcases ih (Shape.inner (frame.fill shape)) with same | member
    · rw [plug, same]
      exact .inr (.inl (by simp))
    · exact .inl member

end

/-- A property of the nodes outside the hole passes to another that follows from it
there. -/
theorem Every.imp {onLeaf onLeaf' : A → List E → Prop}
    {onInner onInner' : A → List K → List A → Prop}
    {context : Context A K E depth height} {addr : A} (every : context.Every onLeaf onInner addr)
    (leaves : ∀ node ∈ context.before Visit.leaves ++ context.after Visit.leaves, onLeaf node.addr
      node.entries → onLeaf' node.addr node.entries)
    (inners : ∀ other ∈ context.before Visit.inners ++ context.after Visit.inners, ∀ keys kids,
      onInner other keys kids → onInner' other keys kids) :
    context.Every onLeaf' onInner' addr := by
  induction context generalizing addr with
  | root => trivial
  | under frame up ih =>
    obtain ⟨node, left, right, above⟩ := every
    simp only [before, after, Frame.before, Frame.after, mem_append, mem_flatMap]
      at leaves inners
    refine ⟨inners _ (by simp) _ _ node, fun kid member => ?_, fun kid member => ?_,
      ih above (fun leaf listed => leaves leaf ?_) (fun other listed => inners other ?_)⟩
    · obtain ⟨pair, listed, rfl⟩ := mem_map.mp member
      refine (left _ member).imp (fun leaf inside => leaves leaf ?_)
        (fun other inside => inners other ?_)
      · exact .inl (.inr (.inr ⟨pair, listed, .inl inside⟩))
      · exact .inl (.inr (.inr ⟨pair, listed, .inl inside⟩))
    · obtain ⟨pair, listed, rfl⟩ := mem_map.mp member
      refine (right _ member).imp (fun leaf inside => leaves leaf ?_)
        (fun other inside => inners other ?_)
      · exact .inr (.inl ⟨pair, listed, .inr inside⟩)
      · exact .inr (.inl ⟨pair, listed, .inr inside⟩)
    · rcases mem_append.mp listed with listed | listed
      · exact .inl (.inl listed)
      · exact .inr (.inr listed)
    · rcases mem_append.mp listed with listed | listed
      · exact .inl (.inl listed)
      · exact .inr (.inr listed)

end Context

/-! ## Search order -/

section Order

variable (lt : K → K → Prop) (keyOf : E → K)

namespace Token

/-- A token that a search for the key leaves on its left. -/
def Below (target : K) : Token K E → Prop
  | .entry value => lt (keyOf value) target
  | .separator key => ¬ lt target key

/-- A token that a search for the key leaves on its right. -/
def Above (target : K) : Token K E → Prop
  | .entry value => lt target (keyOf value)
  | .separator key => lt target key

/-- Two tokens in search order: a separator is above every key to its left and not above
any key to its right. -/
def Precedes (first second : Token K E) : Prop :=
  match second with
  | .entry value => first.Below lt keyOf (keyOf value)
  | .separator key =>
    match first with
    | .entry value => lt (keyOf value) key
    | .separator other => lt other key

/-- A token list in search order. -/
abbrev Ordered (tokens : List (Token K E)) : Prop := tokens.Pairwise (Precedes lt keyOf)

variable {lt keyOf}

/-- Tokens before an entry. -/
@[simp] theorem precedes_entry (first : Token K E) (value : E) :
    Precedes lt keyOf first (.entry value) ↔ first.Below lt keyOf (keyOf value) := Iff.rfl

/-- Tokens after an entry. -/
@[simp] theorem entry_precedes (value : E) (second : Token K E) :
    Precedes lt keyOf (.entry value) second ↔ second.Above lt keyOf (keyOf value) := by
  cases second <;> rfl

/-- Entries in search order have increasing keys. -/
theorem Ordered.entries {tokens : List (Token K E)} (ordered : Ordered lt keyOf tokens) :
    (Token.entries tokens).Pairwise fun first second => lt (keyOf first) (keyOf second) := by
  refine List.Pairwise.filterMap _ ?_ ordered
  rintro (first | first) (second | second) before one found other next <;>
    simp_all [asEntry, Below]

section Total

variable [IsStrictTotalOrder K lt] {target : K}

/-- What precedes a separator not above the target is below the target. -/
theorem Precedes.below {token : Token K E} {key : K}
    (precedes : Precedes lt keyOf token (.separator key)) (low : ¬ lt target key) :
    token.Below lt keyOf target := by
  cases token with
  | entry value => exact trans_trichotomous_right precedes low
  | separator other => exact fun above => low (trans_of lt above precedes)

/-- What follows a separator above the target is above the target. -/
theorem Precedes.above {token : Token K E} {key : K}
    (precedes : Precedes lt keyOf (.separator key) token) (high : lt target key) :
    token.Above lt keyOf target := by
  cases token with
  | entry value => exact trans_trichotomous_right high precedes
  | separator other => exact trans_of lt high precedes

/-- The key of an entry that follows another entry may be put before it as a separator. -/
theorem Ordered.insert_separator {before after : List (Token K E)} {first second : E}
    (ordered : Ordered lt keyOf (before ++ .entry first :: .entry second :: after)) :
    Ordered lt keyOf
      (before ++ .entry first :: .separator (keyOf second) :: .entry second :: after) := by
  simp only [Ordered, pairwise_append, pairwise_cons, mem_cons, forall_eq_or_imp]
    at ordered ⊢
  obtain ⟨left, ⟨⟨step, inner⟩, ⟨outer, right⟩⟩, across⟩ := ordered
  refine ⟨left, ⟨⟨step, step, inner⟩, ⟨irrefl_of lt _, ?_⟩, outer, right⟩, fun token member => ?_⟩
  · intro token member
    have above := (entry_precedes second token).mp (outer token member)
    cases token with
    | entry value => exact fun below => irrefl_of lt _ (trans_of lt above below)
    | separator key => exact above
  · obtain ⟨toFirst, toSecond, rest⟩ := across token member
    refine ⟨toFirst, ?_, toSecond, rest⟩
    cases token with
    | entry value => exact toSecond
    | separator key =>
      rcases trichotomous_of lt key (keyOf first) with below | rfl | above
      · exact trans_of lt below step
      · exact step
      · exact absurd above toFirst

end Total

end Token

namespace Frame

variable {lt keyOf} [IsStrictTotalOrder K lt] {depth : Nat} {target : K}

/-- The separators of the frame send a search for the key into the hole. -/
def Routes (lt : K → K → Prop) (target : K) (frame : Frame A K C) : Prop :=
  (∀ key ∈ frame.left.map Prod.snd, ¬ lt target key) ∧
    ∀ key ∈ frame.right.map Prod.fst, lt target key

variable {frame : Frame A K (Shape A K E depth)}

/-- Everything left of the hole is below the target. -/
theorem Routes.below (routes : frame.Routes lt target)
    (ordered : Token.Ordered lt keyOf (frame.before Visit.tokens)) :
    ∀ token ∈ frame.before Visit.tokens, token.Below lt keyOf target := by
  intro token member
  simp only [before, Visit.tokens_inner, Visit.tokens_key, nil_append, mem_flatMap]
    at ordered member
  obtain ⟨pair, listed, inside⟩ := member
  have low : ¬ lt target pair.2 := routes.1 _ (mem_map_of_mem listed)
  have part := (pairwise_flatMap.mp ordered).1 pair listed
  rcases mem_append.mp inside with inside | inside
  · exact ((pairwise_append.mp part).2.2 token inside _ (by simp)).below low
  · obtain rfl : token = .separator pair.2 := by simpa using inside
    exact low

/-- Everything right of the hole is above the target. -/
theorem Routes.above (routes : frame.Routes lt target)
    (ordered : Token.Ordered lt keyOf (frame.after Visit.tokens)) :
    ∀ token ∈ frame.after Visit.tokens, token.Above lt keyOf target := by
  intro token member
  simp only [after, Visit.tokens_key, mem_flatMap] at ordered member
  obtain ⟨pair, listed, inside⟩ := member
  have high : lt target pair.1 := routes.2 _ (mem_map_of_mem listed)
  have part := (pairwise_flatMap.mp ordered).1 pair listed
  rcases mem_append.mp inside with inside | inside
  · obtain rfl : token = .separator pair.1 := by simpa using inside
    exact high
  · exact ((pairwise_append.mp part).2.2 _ (by simp) token inside).above high

end Frame

namespace Context

variable {depth height : Nat}

/-- Every frame of the context sends a search for the key into the hole. -/
def Routes (lt : K → K → Prop) (target : K) : {depth : Nat} → Context A K E depth height → Prop
  | _, .root => True
  | _, .under frame up => frame.Routes lt target ∧ Routes lt target up

variable {lt keyOf} [IsStrictTotalOrder K lt] {target : K} {context : Context A K E depth height}

/-- A search that reaches the hole leaves everything before the hole below the key. -/
theorem Routes.below (routes : context.Routes lt target)
    (ordered : Token.Ordered lt keyOf (context.before Visit.tokens)) :
    ∀ token ∈ context.before Visit.tokens, token.Below lt keyOf target := by
  induction context with
  | root => simp [before]
  | under frame up ih =>
    intro token member
    have parts := pairwise_append.mp ordered
    rcases mem_append.mp member with member | member
    · exact ih routes.2 parts.1 token member
    · exact routes.1.below parts.2.1 token member

/-- A search that reaches the hole leaves everything after the hole above the key. -/
theorem Routes.above (routes : context.Routes lt target)
    (ordered : Token.Ordered lt keyOf (context.after Visit.tokens)) :
    ∀ token ∈ context.after Visit.tokens, token.Above lt keyOf target := by
  induction context with
  | root => simp [after]
  | under frame up ih =>
    intro token member
    have parts := pairwise_append.mp ordered
    rcases mem_append.mp member with member | member
    · exact routes.1.above parts.1 token member
    · exact ih routes.2 parts.2.1 token member

/-- The keys before the hole are less than a key routed into it. -/
theorem Routes.entriesBefore_lt (routes : context.Routes lt target)
    (ordered : Token.Ordered lt keyOf (context.before Visit.tokens)) :
    ∀ entry ∈ context.entriesBefore, lt (keyOf entry) target := by
  intro entry member
  rw [← entries_before, Token.mem_entries] at member
  exact routes.below ordered _ member

/-- The keys after the hole are greater than a key routed into it. -/
theorem Routes.lt_entriesAfter (routes : context.Routes lt target)
    (ordered : Token.Ordered lt keyOf (context.after Visit.tokens)) :
    ∀ entry ∈ context.entriesAfter, lt target (keyOf entry) := by
  intro entry member
  rw [← entries_after, Token.mem_entries] at member
  exact routes.above ordered _ member

end Context

end Order

end SeparatorTree
