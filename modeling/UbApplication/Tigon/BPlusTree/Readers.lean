import UbApplication.Tigon.BPlusTree.Refinement

/-!
# What readers of the tree see

A range scan hands out exactly the visible rows of the range and then the row that protects it. An
insertion that fails leaves searches and scans as they were, unless the allocation of an inner node
fails: by then the leaf is split, and its right half is not in the index.
-/

namespace UbApplication.Tigon.BPlusTree

open SeparatorTree List
open Function (update_of_ne)

variable {K V σ : Type} {config : Config K} {tree after : Tree K V} {entries : List (LeafEntry K)}

/-! ## Range scans -/

/-- The rows that a scan returns out of the visible rows from its lower bound on: those up to the
upper bound, and no more than the limit unless that is zero. -/
def returnedRows (config : Config K) (maxKey : K) (limit : Nat) (rows : List (LeafEntry K)) :
    List (LeafEntry K) :=
  let inside := rows.filter fun row => !decide (config.Lt maxKey row.key)
  if limit = 0 then inside else inside.take limit

/-- The plan of a scan over sorted rows. -/
theorem scanPlan_eq {maxKey : K} {limit left emitted : Nat} {rows : List (LeafEntry K)}
    (sorted : Sorted config rows) (budget : limit ≠ 0 → emitted + left = limit) :
    scanPlan config maxKey limit rows emitted =
      let inside := rows.filter fun row => !decide (config.Lt maxKey row.key)
      let returned := if limit = 0 then inside else inside.take left
      (returned, rows[returned.length]?) := by
  induction rows generalizing emitted left with
  | nil => simp [scanPlan]
  | cons row rows ih =>
    obtain ⟨first, sorted⟩ := pairwise_cons.mp sorted
    have greater : 0 < config.comparator row.key maxKey ↔ config.Lt maxKey row.key :=
      (config.compare_swap maxKey row.key).symm
    by_cases beyond : config.Lt maxKey row.key
    · -- the rows are sorted, so those behind are past the range too
      have none : (row :: rows).filter (fun row => !decide (config.Lt maxKey row.key)) = [] := by
        refine filter_eq_nil_iff.mpr fun other member => ?_
        rcases mem_cons.mp member with rfl | member
        · simp [beyond]
        · simp [config.compare_trans _ _ _ beyond (first other member), Config.Lt]
      simp [scanPlan, pastEnd, greater, beyond, none]
    · by_cases spent : limit ≠ 0 ∧ emitted = limit
      · have empty : left = 0 := by
          have := budget spent.1
          omega
        simp [scanPlan, pastEnd, spent, empty]
      · have later : limit ≠ 0 → emitted + 1 + (left - 1) = limit := by
          intro positive
          have := budget positive
          omega
        have next : pastEnd config maxKey limit emitted row.key = false := by
          simpa [pastEnd, greater, beyond] using spent
        have here : (row :: rows).filter (fun row => !decide (config.Lt maxKey row.key)) =
            row :: rows.filter fun row => !decide (config.Lt maxKey row.key) := by
          simp [beyond]
        simp only [scanPlan, next, ih sorted later, here]
        by_cases unlimited : limit = 0
        · simp [unlimited]
        · obtain ⟨fewer, rfl⟩ : ∃ fewer, left = fewer + 1 := Nat.exists_eq_succ_of_ne_zero (by
            have := budget unlimited
            omega)
          simp [unlimited]

/-- `scan_range` passes over the rows from the lower bound on in ascending order, across leaves, and
hands out those that are visible when it comes to them. With a callback that changes neither keys
nor states these are the visible rows of the range, up to the limit, and then the visible row that
follows them, or the end gap, as the protection row. It stops when the callback refuses. -/
theorem scan_range_exact (represents : Represents config tree entries)
    (processor : ScanProcessor K V σ) (minKey maxKey : K) (limit : Nat) (captured : σ) :
    let passed := entries.filter fun entry => fromKey config minKey entry.key
    let rows := chosenRows tree entries (fromKey config minKey)
    let returned := returnedRows config maxKey limit rows
    Sorted config passed ∧
      scanRange config tree minKey maxKey limit processor captured =
        .ok ((scanSlots config maxKey limit processor passed 0 captured tree.tuples).conclude tree
          processor) ∧
      (processor.KeepsRows → scanRange config tree minKey maxKey limit processor captured =
        .ok (attempt processor (returned.map LeafEntry.tupleOffset)
          (offsetOf tree rows[returned.length]?) captured tree.tuples)) := by
  have sorted : ∀ chosen : LeafEntry K → Bool, Sorted config (entries.filter chosen) :=
    fun chosen =>
    represents.sorted.sublist filter_sublist
  refine ⟨sorted _, represents.scanRange minKey maxKey limit processor captured, fun keeps => ?_⟩
  have visible : Sorted config (chosenRows tree entries (fromKey config minKey)) := sorted _
  rw [represents.scanRange_plan keeps, scanPlan_eq visible fun _ => Nat.zero_add limit]
  rfl

/-- A callback that notes the rows it is handed. -/
def noting : ScanProcessor Nat Nat (List (Nat × Bool)) := fun offset protection seen tuples =>
  (true, seen ++ [((tuples offset).key, protection)], tuples)

/-- A scan of the sample. -/
theorem scan_range_exact_sample : ∃ (tree : Tree Nat Nat) (entries : List (LeafEntry Nat)),
    Represents numbers tree entries ∧
      let rows := chosenRows tree entries (fromKey numbers 1)
      let returned := returnedRows numbers 4 2 rows
      scanRange numbers tree 1 4 2 noting [] =
        .ok (attempt noting (returned.map LeafEntry.tupleOffset)
          (offsetOf tree rows[returned.length]?) [] tree.tuples) := by
  obtain ⟨tree, entries, -, refines⟩ := createAndRun_refines numbers_succeeds blank sampleCalls
  exact ⟨tree, entries, refines.represents,
    (scan_range_exact refines.represents noting 1 4 2 []).2.2 fun _ _ _ _ _ => ⟨rfl, rfl⟩⟩

example : (scanRange numbers (runOn (createAndRun numbers sampleCalls) blank).2 1 9 2 noting []).map
    (fun result => result.2.1) = .ok [(1, false), (4, false), (5, true)] := by
  decide +kernel

/-! ## Failed insertions -/

/-- The index is untouched, and the tuples that were allocated before read the same. -/
structure Unlinked (config : Config K) (tree after : Tree K V) : Prop where
  frame : ∃ tuples allocations allocatedTuples,
    after = { tree with tuples, allocations, allocatedTuples } ∧ tree.allocations ≤ allocations
  same : ∀ offset, Allocated config tree.allocations offset →
    (after.tuples offset).key = (tree.tuples offset).key ∧
      (after.tuples offset).header.valid = (tree.tuples offset).header.valid ∧
      (after.tuples offset).value = (tree.tuples offset).value

/-- A call leaves what searches and scans show, and its key is not there. -/
structure Kept (config : Config K) (tree after : Tree K V) (key : K) : Prop where
  shown : ∀ other, shown after (searchIncludingInvalid config after other) =
    shown tree (searchIncludingInvalid config tree other)
  scanned : ∀ minKey maxKey limit, scanned config after minKey maxKey limit =
    scanned config tree minKey maxKey limit
  absent : search config after key = .ok none

/-- A call was refused memory on its third request or a later one. An insertion asks for the tuple
first, for a leaf next and then for inner nodes, a new root last. -/
def InnerRefused (tree after : Tree K V) (result : Except Failure Bool) : Prop :=
  result = .error .badAlloc ∧ tree.allocations + 2 < after.allocations

section Unlinked

variable (unlinked : Unlinked config tree after) (represents : Represents config tree entries)
include unlinked represents

/-- The tree is as before. -/
theorem Unlinked.still : Represents config after entries := by
  obtain ⟨⟨height, shape, indexes, whole⟩, rows⟩ := represents
  obtain ⟨⟨tuples, allocations, allocatedTuples, rfl, later⟩, same⟩ := unlinked
  refine ⟨⟨height, shape, indexes.congr rfl rfl rfl rfl later, whole⟩, ?_⟩
  exact rows.congr rfl rfl later fun offset allocated =>
    ⟨(same offset allocated).1, (same offset allocated).2.1⟩

/-- The rows are as before. -/
theorem Unlinked.row {entry : LeafEntry K} (member : entry ∈ entries) :
    (after.tuples entry.tupleOffset).key = (tree.tuples entry.tupleOffset).key ∧
      (after.tuples entry.tupleOffset).header.valid = (tree.tuples entry.tupleOffset).header.valid ∧
      (after.tuples entry.tupleOffset).value = (tree.tuples entry.tupleOffset).value :=
  unlinked.same _ (represents.rows.allocated _ (mem_cons_of_mem _ (mem_map_of_mem member)))

/-- Searches are as before. -/
theorem Unlinked.shown (key : K) : shown after (searchIncludingInvalid config after key) =
    shown tree (searchIncludingInvalid config tree key) := by
  rw [represents.searchIncludingInvalid, (unlinked.still represents).searchIncludingInvalid]
  cases row : rowOf config entries key with
  | none => rfl
  | some entry =>
    obtain ⟨key, state, value⟩ := unlinked.row represents (mem_of_find?_eq_some row)
    simp [BPlusTree.shown, Except.map, key, state, value]

/-- Scans are as before. -/
theorem Unlinked.scanned (minKey maxKey : K) (limit : Nat) :
    scanned config after minKey maxKey limit = scanned config tree minKey maxKey limit := by
  have chosen : chosenRows after entries (fromKey config minKey) =
      chosenRows tree entries (fromKey config minKey) :=
    filter_congr fun entry member => by
      simp only [isVisible, (unlinked.row represents member).2.1]
  rw [represents.scanned, (unlinked.still represents).scanned, chosen]
  refine congrArg _ (map_congr_left fun entry planned => ?_)
  have member : entry ∈ entries :=
    scanPlan_entries config tree entries minKey maxKey limit (by simp [planned])
  rw [(unlinked.row represents member).1, (unlinked.row represents member).2.2]

/-- Nothing is lost. -/
theorem Unlinked.kept {key : K} (free : Free config tree entries key) :
    Kept config tree after key := by
  refine ⟨unlinked.shown represents, unlinked.scanned represents, ?_⟩
  rw [(unlinked.still represents).search]
  cases row : rowOf config entries key with
  | none => rfl
  | some entry =>
    have dead := (unlinked.row represents (mem_of_find?_eq_some row)).2.1.trans (free entry row)
    simp [Option.filter, isVisible, dead]

end Unlinked

section Stuck

variable {depth height : Nat} {context : Context Offset K (LeafEntry K) depth height}
  {left right : TreeShape K depth} {separator : K}
  (splitting : Splitting config tree context left separator right)
include splitting

/-- The descent reaches the left half of a split under way and what is around it. -/
theorem Splitting.searchable : Searchable config tree (context.plug left) := by
  have part : ∀ {T : Type} (visit : Visit Offset K (LeafEntry K) T),
      ((context.plug left).walk visit).Sublist
        (pendingWalk context left separator right T visit) := by
    intro T visit
    rw [context.plug_walk, pendingWalk, append_assoc _ (visit.key separator)]
    exact (sublist_append_left _ _).append (Sublist.refl _)
  refine ⟨splitting.root, (context.plug_every _).mpr ⟨splitting.leftStored,
    splitting.contextStored⟩,
    splitting.outline.ordered.sublist (part _), fun addr member => ?_, ?_⟩
  · refine splitting.nonnull addr ?_
    exact (((part Visit.leaves).map _).append (part Visit.inners)).subset member
  · rw [splitting.outline.innerCount]
    exact Nat.le_trans (Shape.depth_le_inners _) (part Visit.inners).length_le

/-- The rows of a tree with a split under way, those of the right half among them. -/
theorem Splitting.sorted : Sorted config (context.entriesBefore ++ left.entries ++ right.entries ++
    context.entriesAfter) := by
  simpa [pendingWalk, Shape.entries_tokens, context.entries_before, context.entries_after] using
    splitting.outline.ordered.entries

/-- No row of the right half is found. -/
theorem Splitting.search_right {entry : LeafEntry K} (member : entry ∈ right.entries) :
    searchIncludingInvalid config tree entry.key = .ok none := by
  have sorted := splitting.sorted
  have other : rowOf config (context.plug left).entries entry.key = none := by
    refine rowOf_eq_none fun reached present equal => irrefl_of config.Lt entry.key ?_
    rw [context.plug_entries] at present
    obtain ⟨front, -, behind⟩ := pairwise_append.mp sorted
    rcases mem_append.mp present with before | after
    · exact equal ▸ (pairwise_append.mp front).2.2 reached before entry member
    · exact equal ▸ behind entry (mem_append_right _ member) reached after
  rw [splitting.searchable.searchIncludingInvalid, other]
  rfl

/-- The right half has two rows at least. -/
theorem Splitting.two_le_right : 2 ≤ right.entries.length := by
  obtain ⟨leaf, member⟩ := exists_mem_of_ne_nil _ right.leaves_ne_nil
  have filled := (splitting.rightFilled.onLeaves leaf member).1
    (splitting.nonnull _ (Splitting.right_subset (leaf_mem_addresses member)))
  have capacity := config.leafCapacity_ge
  obtain ⟨front, back, split⟩ := append_of_mem member
  rw [Shape.entries, split, flatMap_append, flatMap_cons, length_append, length_append]
  omega

end Stuck

/-- A split that was left under way hides a row that was found before. -/
theorem StuckRows.not_kept {tuples : Tuples K V} {key : K} {fresh : Offset}
    (stuck : StuckRows config { tree with tuples } after
      (below config entries key ++ ⟨key, fresh⟩ :: above config entries key))
    (represents : Represents config tree entries) : ¬ Kept config tree after key := by
  obtain ⟨leaves, ⟨⟨depth, height, context, left, separator, right, splitting, walked⟩, -⟩,
    whole⟩ := stuck
  have sorted : Sorted config right.entries :=
    (pairwise_append.mp (pairwise_append.mp splitting.sorted).1).2.1
  -- the new row may be one of the two, so the other one is old
  obtain ⟨entry, member, other⟩ : ∃ entry ∈ right.entries, entry.key ≠ key := by
    match rows : right.entries, splitting.two_le_right with
    | first :: second :: _, _ =>
      have less : config.Lt first.key second.key := by
        rw [rows] at sorted
        exact (pairwise_cons.mp sorted).1 second (by simp)
      by_cases same : first.key = key
      · refine ⟨second, by simp, fun same' => irrefl_of config.Lt key ?_⟩
        rwa [same, same'] at less
      · exact ⟨first, by simp, same⟩
  have old : entry ∈ entries := by
    have listed : entry ∈ leaves.flatMap Leaf.entries := by
      simp only [← walked, pendingWalk, flatMap_append, mem_append]
      exact .inl (.inr member)
    rw [whole] at listed
    rcases mem_append.mp listed with small | great
    · exact (mem_filter.mp small).1
    · rcases mem_cons.mp great with rfl | great
      · exact absurd rfl other
      · exact (mem_filter.mp great).1
  intro kept
  have shown := kept.shown entry.key
  rw [splitting.search_right member, represents.searchIncludingInvalid,
    represents.rowOf_eq old] at shown
  simp [BPlusTree.shown, Except.map] at shown

section Insert

variable [Inhabited K] {key : K} {value : V} {state : TupleState}
  {nextProcessor : Option (NextProcessor K V)} {adjacentProcessor : Option (AdjacentProcessor K V)}

/-- An insertion waits for the lock of the tombstone it revives. -/
theorem insertImpl_blocked (represents : Represents config tree entries)
    (inUse : state ≠ .tombstone) {entry : LeafEntry K} (row : rowOf config entries key = some entry)
    (dead : (tree.tuples entry.tupleOffset).header.valid = .tombstone) {tuples : Tuples K V}
    (accepted : consulted config tree entries key nextProcessor adjacentProcessor = (true, tuples))
    (locked : (tuples entry.tupleOffset).header.lock ≠ 0) :
    runOn (insertImpl config key value state nextProcessor adjacentProcessor) tree =
      (.error .blocked, { tree with tuples }) := by
  obtain ⟨⟨height, shape, indexes, rfl⟩, -⟩ := represents
  obtain ⟨-, leaf, node, -, reviving⟩ := insertImpl_tombstone value indexes inUse row dead accepted
  simp [reviving, reviveTuple, lockExclusive, tryLock, locked]

/-- An insertion of a free key that does not succeed has linked nothing and made two requests at
most, or it was refused an inner node and left a split under way. -/
theorem insertImpl_failed (represents : Represents config tree entries)
    (free : Free config tree entries key) {answer : Bool} {tuples : Tuples K V}
    (asked : consulted config tree entries key nextProcessor adjacentProcessor = (answer, tuples))
    (relocked : Relocked tree.tuples tuples) {result : Except Failure Bool}
    (ran : runOn (insertImpl config key value state nextProcessor adjacentProcessor) tree =
      (result, after)) (failed : result ≠ .ok true) :
    Unlinked config tree after ∧ after.allocations ≤ tree.allocations + 2 ∨
      InnerRefused tree after result ∧ ∃ fresh, StuckRows config { tree with tuples } after
        (below config entries key ++ ⟨key, fresh⟩ :: above config entries key) := by
  have asking : Unlinked config tree { tree with tuples } :=
    ⟨⟨tuples, _, _, rfl, Nat.le_refl _⟩, fun offset _ => relocked offset⟩
  by_cases inUse : state = .tombstone
  · have refuses : runOn (insertImpl config key value state nextProcessor adjacentProcessor) tree =
        (.ok false, tree) := by
      simp [insertImpl, inUse]
    rw [refuses] at ran
    cases ran
    exact .inl ⟨⟨⟨_, _, _, rfl, Nat.le_refl _⟩, fun _ _ => ⟨rfl, rfl, rfl⟩⟩, Nat.le_add_right _ _⟩
  cases answer with
  | false =>
    rw [insertImpl_refused value represents inUse free asked] at ran
    cases ran
    exact .inl ⟨asking, Nat.le_add_right _ _⟩
  | true =>
    cases row : rowOf config entries key with
    | some entry =>
      by_cases unlocked : (tuples entry.tupleOffset).header.lock = 0
      · obtain ⟨_, done, -⟩ := insertImpl_revived value represents inUse row (free entry row) asked
          relocked.keeps unlocked
        rw [done] at ran
        cases ran
        exact absurd rfl failed
      · rw [insertImpl_blocked represents inUse row (free entry row) asked unlocked] at ran
        cases ran
        exact .inl ⟨asking, Nat.le_add_right _ _⟩
    | none =>
      obtain ⟨_, _, done, ⟨rfl, -, stored, requests, _, few, rfl, same⟩ | ⟨fresh, -, ⟨rfl, -⟩ |
        ⟨rfl, more, pending⟩⟩⟩ :=
        insertImpl_outcome value represents inUse row asked relocked.keeps
      all_goals
        rw [done] at ran
        cases ran
      · refine .inl ⟨⟨⟨_, _, _, rfl, Nat.le_add_right _ _⟩, fun offset allocated => ?_⟩,
          Nat.add_le_add_left few _⟩
        simpa only [same offset allocated] using relocked offset
      · exact absurd rfl failed
      · exact .inr ⟨⟨rfl, more⟩, fresh, pending⟩

end Insert

/-- A callback that refuses. -/
def refusing : NextProcessor Nat Nat := fun _ tuples => (false, tuples)

/-- Memory that ends before the root of the second level. -/
def tight : Config Nat :=
  { numbers with
    allocate := fun request => if request < 7 then numbers.allocate request else none
    allocate_ne_zero := fun request => by simp [numbers]
    allocate_fresh := fun first second offset one other =>
      numbers.allocate_fresh first second offset (Option.ite_none_right_eq_some.mp one).2
        (Option.ite_none_right_eq_some.mp other).2 }

end UbApplication.Tigon.BPlusTree
