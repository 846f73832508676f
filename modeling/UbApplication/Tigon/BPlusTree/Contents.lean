import Mathlib.Data.List.Nodup
import UbApplication.Tigon.BPlusTree.Scan

/-!
# What a tree holds and what it shows

A key holds the state and the value of the tuple of its row; it shows the value while the
row is visible. Calls from above the tree rewrite single tuples: they lock and unlock
them, publish placeholders, bury rows and store values.
-/

namespace UbApplication.Tigon.BPlusTree

open SeparatorTree List
open Function (update update_of_ne update_self)

variable {K V : Type} {config : Config K} {tree : Tree K V} {entries : List (LeafEntry K)}

/-- What a key holds: nothing, or a state and a value. -/
abbrev Contents (K V : Type) := K → Option (TupleState × V)

def contentsOf (config : Config K) (tree : Tree K V) (entries : List (LeafEntry K)) :
    Contents K V :=
  fun key => (rowOf config entries key).map fun entry =>
    ((tree.tuples entry.tupleOffset).header.valid, (tree.tuples entry.tupleOffset).value)

variable {entry : LeafEntry K} {key : K} {left right : List (LeafEntry K)}

/-- A row of another key does not matter. -/
theorem rowOf_insert (other : entry.key ≠ key) :
    rowOf config (left ++ entry :: right) key = rowOf config (left ++ right) key := by
  have differs : config.comparator entry.key key ≠ 0 := fun equal =>
    other ((config.compare_eq_zero _ _).mp equal)
  simp [rowOf, find?_append, differs]

/-- A row has its key. -/
theorem rowOf_key (row : rowOf config entries key = some entry) : entry.key = key :=
  (config.compare_eq_zero _ _).mp (by simpa using find?_some row)

/-- Rows of different keys have different tuples. -/
theorem Rows.offset_ne (rows : Rows config tree entries) {first second : K}
    {one other : LeafEntry K} (oneRow : rowOf config entries first = some one)
    (otherRow : rowOf config entries second = some other) (apart : first ≠ second) :
    one.tupleOffset ≠ other.tupleOffset := by
  intro same
  have equal := inj_on_of_nodup_map (nodup_cons.mp rows.distinct).2
    (mem_of_find?_eq_some oneRow) (mem_of_find?_eq_some otherRow) same
  exact apart (by rw [← rowOf_key oneRow, ← rowOf_key otherRow, equal])

/-- A fresh row divides the others. -/
theorem divides_fresh (config : Config K) (entries : List (LeafEntry K)) (key : K)
    (fresh : Offset) :
    Divides config key (below config entries key) (some ⟨key, fresh⟩)
      (above config entries key) where
  small_lt entry member := by simpa [below] using (mem_filter.mp member).2
  same_eq entry member := by
    obtain rfl : entry = ⟨key, fresh⟩ := by simpa using member.symm
    rfl
  lt_great entry member := by simpa [above] using (mem_filter.mp member).2

/-- The row of an entry is the entry. -/
theorem Represents.rowOf_eq (represents : Represents config tree entries)
    (member : entry ∈ entries) : rowOf config entries entry.key = some entry := by
  have present : (rowOf config entries entry.key).isSome := by
    refine find?_isSome.mpr ⟨entry, member, ?_⟩
    simpa using (config.compare_eq_zero _ _).mpr rfl
  obtain ⟨other, row⟩ := Option.isSome_iff_exists.mp present
  have distinct : (entries.map LeafEntry.key).Nodup := by
    refine pairwise_map.mpr (represents.sorted.imp fun less equal => ?_)
    exact irrefl_of config.Lt _ (equal ▸ less)
  rw [row, inj_on_of_nodup_map distinct (mem_of_find?_eq_some row) member (rowOf_key row)]

/-- A tuple belongs to one row. -/
theorem Represents.offset_inj (represents : Represents config tree entries)
    {first second : LeafEntry K} (one : first ∈ entries) (two : second ∈ entries)
    (same : first.tupleOffset = second.tupleOffset) : first = second :=
  inj_on_of_nodup_map (nodup_cons.mp represents.rows.distinct).2 one two same

variable {tuple : TupleNode K V} {after : Tree K V}

section Rewrite

variable [DecidableEq K]

/-- One tuple is rewritten. -/
theorem contentsOf_rewrite
    (rows : Rows config tree entries) (row : rowOf config entries key = some entry)
    (tuples : after.tuples = update tree.tuples entry.tupleOffset tuple) :
    contentsOf config after entries = update (contentsOf config tree entries) key
      (some (tuple.header.valid, tuple.value)) := by
  funext other
  by_cases same : other = key
  · subst same
    simp [contentsOf, row, tuples]
  · rw [update_of_ne same, contentsOf, contentsOf]
    cases found : rowOf config entries other with
    | none => rfl
    | some second =>
      have apart := rows.offset_ne found row same
      simp [tuples, update_of_ne apart]

/-- One row is inserted. -/
theorem contentsOf_insert {fresh : Offset} (rows : Rows config tree (left ++ right))
    (divides : Divides config key left (some ⟨key, fresh⟩) right)
    (unused : ¬ Allocated config tree.allocations fresh)
    (tuples : after.tuples = update tree.tuples fresh tuple) :
    contentsOf config after (left ++ ⟨key, fresh⟩ :: right) =
      update (contentsOf config tree (left ++ right)) key
        (some (tuple.header.valid, tuple.value)) := by
  have whole : left ++ ⟨key, fresh⟩ :: right =
      left ++ (some (⟨key, fresh⟩ : LeafEntry K)).toList ++ right := by simp
  funext other
  by_cases same : other = key
  · subst same
    rw [contentsOf, whole, divides.rowOf_eq]
    simp [tuples]
  · rw [update_of_ne same, contentsOf, contentsOf,
      rowOf_insert fun equal => same equal.symm]
    cases found : rowOf config (left ++ right) other with
    | none => rfl
    | some second =>
      have apart : second.tupleOffset ≠ fresh := fun equal => unused (equal ▸ rows.allocated _
        (mem_cons_of_mem _ (mem_map_of_mem (mem_of_find?_eq_some found))))
      simp [tuples, update_of_ne apart]

end Rewrite

/-! ## What a key shows -/

/-- The value a state and a value show. -/
def showing : TupleState × V → Option V
  | (.visible, value) => some value
  | _ => none

/-- The value `search` finds for a key. -/
def visibleValue (config : Config K) (tree : Tree K V) (key : K) : Option V :=
  match search config tree key with
  | .ok (some offset) => some (tree.tuples offset).value
  | _ => none

/-- The visible value of the contents. -/
theorem Represents.visibleValue (represents : Represents config tree entries) (key : K) :
    visibleValue config tree key = (contentsOf config tree entries key).bind showing := by
  rw [BPlusTree.visibleValue, represents.search, contentsOf]
  cases rowOf config entries key with
  | none => rfl
  | some entry =>
    cases state : (tree.tuples entry.tupleOffset).header.valid <;>
      simp [Option.filter, isVisible, state, showing]

/-- The visible values after one key changes. -/
theorem Represents.visibleValue_update [DecidableEq K] {later : List (LeafEntry K)}
    (represents : Represents config tree entries) (still : Represents config after later)
    {held : TupleState × V}
    (contents : contentsOf config after later = update (contentsOf config tree entries) key
      (some held)) :
    BPlusTree.visibleValue config after =
      update (BPlusTree.visibleValue config tree) key (showing held) := by
  funext other
  rw [still.visibleValue, contents]
  by_cases here : other = key
  · subst here
    rw [update_self, update_self, Option.bind_some]
  · rw [update_of_ne here, update_of_ne here, represents.visibleValue]

/-! ## Visible rows -/

def visibleRows (tree : Tree K V) (entries : List (LeafEntry K)) : List (LeafEntry K) :=
  entries.filter fun entry => isVisible tree.tuples entry.tupleOffset

/-- The visible value of the visible rows. -/
theorem Represents.visibleValue_rows (represents : Represents config tree entries) (key : K) :
    BPlusTree.visibleValue config tree key =
      (rowOf config (visibleRows tree entries) key).map fun entry =>
        (tree.tuples entry.tupleOffset).value := by
  rw [BPlusTree.visibleValue, represents.search]
  cases row : rowOf config entries key with
  | none =>
    have none : rowOf config (visibleRows tree entries) key = none :=
      find?_eq_none.mpr fun entry member =>
        find?_eq_none.mp row entry (mem_of_mem_filter member)
    rw [none]
    rfl
  | some entry =>
    have member := mem_of_find?_eq_some row
    by_cases visible : isVisible tree.tuples entry.tupleOffset
    · have found : rowOf config (visibleRows tree entries) key = some entry := by
        have present : (rowOf config (visibleRows tree entries) key).isSome :=
          find?_isSome.mpr ⟨entry, mem_filter.mpr ⟨member, visible⟩,
            by simpa using (config.compare_eq_zero _ _).mpr (rowOf_key row)⟩
        obtain ⟨other, seen⟩ := Option.isSome_iff_exists.mp present
        have inside := mem_of_mem_filter (mem_of_find?_eq_some seen)
        have same := represents.rowOf_eq inside
        rw [rowOf_key seen, row] at same
        rw [seen, ← same]
      rw [found]
      simp [Option.filter, visible]
    · have none : rowOf config (visibleRows tree entries) key = none := by
        refine rowOf_eq_none fun other inside same => ?_
        obtain ⟨inside, seen⟩ := mem_filter.mp inside
        have equal := represents.rowOf_eq inside
        rw [same, row] at equal
        exact visible (Option.some.inj equal ▸ seen)
      rw [none]
      simp [Option.filter, visible]

/-- Only locks and versions differ. -/
def Relocked (before after : Tuples K V) : Prop :=
  ∀ offset, (after offset).key = (before offset).key ∧
    (after offset).header.valid = (before offset).header.valid ∧
    (after offset).value = (before offset).value

namespace Relocked

variable {before middle after : Tuples K V}

/-- No change. -/
theorem refl (tuples : Tuples K V) : Relocked tuples tuples := fun _ => ⟨rfl, rfl, rfl⟩

/-- One change after the other. -/
theorem trans (first : Relocked before middle) (second : Relocked middle after) :
    Relocked before after := fun offset =>
  ⟨(second offset).1.trans (first offset).1, (second offset).2.1.trans (first offset).2.1,
    (second offset).2.2.trans (first offset).2.2⟩

/-- Relocking keeps the rows. -/
theorem keeps (relocked : Relocked before after) : KeepsRows before after := fun offset =>
  ⟨(relocked offset).1, (relocked offset).2.1⟩

end Relocked

/-- A call that no reader can see: rows may be new, but the visible rows and their values are
the same. -/
structure Quiet (tree : Tree K V) (entries : List (LeafEntry K)) (after : Tree K V)
    (entries' : List (LeafEntry K)) : Prop where
  rows : ∀ entry ∈ entries, entry ∈ entries'
  endGapOffset : after.endGapOffset = tree.endGapOffset
  visibleRows : visibleRows after entries' = visibleRows tree entries
  values : ∀ entry ∈ BPlusTree.visibleRows tree entries,
    (after.tuples entry.tupleOffset).value = (tree.tuples entry.tupleOffset).value

namespace Quiet

variable {after : Tree K V} {entries' : List (LeafEntry K)}

/-- One change after the other. -/
theorem trans {final : Tree K V} {entries'' : List (LeafEntry K)}
    (first : Quiet tree entries after entries') (second : Quiet after entries' final entries'') :
    Quiet tree entries final entries'' where
  rows entry member := second.rows entry (first.rows entry member)
  endGapOffset := second.endGapOffset.trans first.endGapOffset
  visibleRows := second.visibleRows.trans first.visibleRows
  values entry member := (second.values entry (first.visibleRows ▸ member)).trans
    (first.values entry member)

/-- Relocking shows nothing. -/
theorem relocked {tuples : Tuples K V} (changed : Relocked tree.tuples tuples) :
    Quiet tree entries { tree with tuples } entries where
  rows _ member := member
  endGapOffset := rfl
  visibleRows := by simp only [BPlusTree.visibleRows, changed.keeps.isVisible]
  values _ _ := (changed _).2.2

/-- A tuple that stays hidden. -/
theorem rewrite (tuples : after.tuples = update tree.tuples entry.tupleOffset tuple)
    (endGapOffset : after.endGapOffset = tree.endGapOffset)
    (before : (tree.tuples entry.tupleOffset).header.valid ≠ .visible)
    (later : tuple.header.valid ≠ .visible) : Quiet tree entries after entries where
  rows _ inside := inside
  endGapOffset := endGapOffset
  visibleRows := by
    refine filter_congr fun other inside => ?_
    by_cases same : other.tupleOffset = entry.tupleOffset
    · simp [isVisible, tuples, same, before, later]
    · simp [isVisible, tuples, update_of_ne same]
  values other inside := by
    obtain ⟨-, seen⟩ := mem_filter.mp inside
    have differs : other.tupleOffset ≠ entry.tupleOffset := by
      intro same
      rw [same] at seen
      exact before (by simpa [isVisible] using seen)
    rw [tuples, update_of_ne differs]

/-- A row that is hidden. -/
theorem insert {fresh : Offset}
    (represents : Represents config tree entries) (absent : rowOf config entries key = none)
    (unused : ¬ Allocated config tree.allocations fresh)
    (tuples : after.tuples = update tree.tuples fresh tuple)
    (endGapOffset : after.endGapOffset = tree.endGapOffset)
    (hidden : tuple.header.valid ≠ .visible) :
    Quiet tree entries after
      (below config entries key ++ ⟨key, fresh⟩ :: above config entries key) := by
  have whole := represents.absent absent
  have apart : ∀ other ∈ entries, other.tupleOffset ≠ fresh := fun other inside same =>
    unused (same ▸ represents.rows.allocated _ (mem_cons_of_mem _ (mem_map_of_mem inside)))
  have kept : ∀ list : List (LeafEntry K), (∀ other ∈ list, other ∈ entries) →
      list.filter (fun other => isVisible after.tuples other.tupleOffset) =
        list.filter fun other => isVisible tree.tuples other.tupleOffset := by
    intro list inside
    refine filter_congr fun other member => ?_
    simp only [isVisible, tuples, update_of_ne (apart other (inside other member))]
  refine ⟨fun other inside => ?_, endGapOffset, ?_, fun other inside => ?_⟩
  · rw [whole] at inside
    rcases mem_append.mp inside with left | right
    · exact mem_append_left _ left
    · exact mem_append_right _ (mem_cons_of_mem _ right)
  · have dropped : isVisible after.tuples fresh = false := by simpa [isVisible, tuples] using hidden
    have small := kept (below config entries key) fun _ => mem_of_mem_filter
    have great := kept (above config entries key) fun _ => mem_of_mem_filter
    rw [BPlusTree.visibleRows, BPlusTree.visibleRows, filter_append, filter_cons, dropped]
    simp only [Bool.false_eq_true, if_false]
    rw [small, great, ← filter_append, ← whole]
  · rw [tuples, update_of_ne (apart other (mem_of_mem_filter inside))]

/-- The visible values stay. -/
theorem visibleValue (quiet : Quiet tree entries after entries')
    (represents : Represents config tree entries) (still : Represents config after entries') :
    visibleValue config after = visibleValue config tree := by
  funext key
  rw [represents.visibleValue_rows, still.visibleValue_rows, quiet.visibleRows]
  cases row : rowOf config (BPlusTree.visibleRows tree entries) key with
  | none => rfl
  | some entry =>
    rw [Option.map_some, Option.map_some, quiet.values entry (mem_of_find?_eq_some row)]

end Quiet

/-! ## Rewriting tuples -/

/-- The tree after callbacks that keep the rows. -/
theorem Represents.keep (represents : Represents config tree entries) {tuples : Tuples K V}
    (kept : KeepsRows tree.tuples tuples) : Represents config { tree with tuples } entries := by
  obtain ⟨⟨height, shape, indexes, whole⟩, rows⟩ := represents
  exact ⟨⟨height, shape, indexes.congr rfl rfl rfl rfl Nat.le.refl, whole⟩,
    rows.congr rfl rfl Nat.le.refl fun offset _ => kept offset⟩

/-- The tree after one tuple is rewritten. -/
theorem Represents.rewrite (represents : Represents config tree entries)
    (member : entry ∈ entries) (key : tuple.key = entry.key)
    (inUse : (tree.tuples entry.tupleOffset).header.valid ≠ .tombstone) :
    Represents config
      { tree with tuples := update tree.tuples entry.tupleOffset tuple } entries := by
  obtain ⟨⟨height, shape, indexes, whole⟩, rows⟩ := represents
  refine ⟨⟨height, shape, indexes.congr rfl rfl rfl rfl Nat.le.refl, whole⟩,
    rows.rewrite member Nat.le.refl rfl rfl key ?_⟩
  rw [if_pos inUse]
  exact Nat.add_le_add_left (by split <;> omega) _

end UbApplication.Tigon.BPlusTree
