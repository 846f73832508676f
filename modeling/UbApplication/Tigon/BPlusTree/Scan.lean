import UbApplication.Tigon.BPlusTree.Operations

/-!
# Range scans

`scan_range` hands the visible rows of a range to a callback and ends with the protection
row: the first visible row it did not return, or the end gap. The callback works on tuple
locks and on variables it captures. Which rows it is handed depends on the visible rows
alone, so a scan is a plan made from them and an attempt to carry it out.
-/

namespace UbApplication.Tigon.BPlusTree

open SeparatorTree List

variable {K V σ : Type}

/-- A callback on the rows of a range, told whether the row is the protection row; `σ` is
what it captures. -/
abbrev ScanProcessor (K V σ : Type) := Offset → Bool → σ → Tuples K V → Bool × σ × Tuples K V

/-- What a pass over the slots of a leaf comes to. -/
inductive ScanPass (K V σ : Type) where
  /-- `scan_range` returns. -/
  | returns (result : Bool) (captured : σ) (tuples : Tuples K V)
  /-- The scan goes on with the next leaf. -/
  | goesOn (emitted : Nat) (captured : σ) (tuples : Tuples K V)

/-- Whether the row is past the range or past the limit. -/
def pastEnd (config : Config K) (maxKey : K) (limit emitted : Nat) (key : K) : Bool :=
  0 < config.comparator key maxKey || (limit ≠ 0 && emitted = limit)

/-- The loop of `scan_range` over the slots of a leaf. -/
def scanSlots (config : Config K) (maxKey : K) (limit : Nat) (processor : ScanProcessor K V σ) :
    List (LeafEntry K) → Nat → σ → Tuples K V → ScanPass K V σ
  | [], emitted, captured, tuples => .goesOn emitted captured tuples
  | slot :: slots, emitted, captured, tuples =>
    if isVisible tuples slot.tupleOffset then
      if pastEnd config maxKey limit emitted (tuples slot.tupleOffset).key then
        match processor slot.tupleOffset true captured tuples with
        | (result, captured, tuples) => .returns result captured tuples
      else
        match processor slot.tupleOffset false captured tuples with
        | (false, captured, tuples) => .returns false captured tuples
        | (true, captured, tuples) =>
          scanSlots config maxKey limit processor slots (emitted + 1) captured tuples
    else scanSlots config maxKey limit processor slots emitted captured tuples

/-- The loop of `scan_range` over the leaves; the fuel is the number of leaves. -/
def scanLeaves (config : Config K) (tree : Tree K V) (maxKey : K) (limit : Nat)
    (processor : ScanProcessor K V σ) :
    Nat → LeafNode K → Nat → Nat → σ → Tuples K V → Except Failure (Bool × σ × Tuples K V)
  | 0, _, _, _, _, _ => .error .diverges
  | fuel + 1, leaf, position, emitted, captured, tuples =>
    match scanSlots config maxKey limit processor (leaf.entries.drop position) emitted captured
      tuples with
    | .returns result captured tuples => .ok (result, captured, tuples)
    | .goesOn emitted captured tuples =>
      match leafFromOffset tree leaf.nextOffset with
      | some next => scanLeaves config tree maxKey limit processor fuel next 0 emitted captured
          tuples
      | none => .ok (processor tree.endGapOffset true captured tuples)

/-- `scan_range`: the result, what the callback captured and the tuples it leaves. -/
def scanRange (config : Config K) (tree : Tree K V) (minKey maxKey : K) (limit : Nat)
    (processor : ScanProcessor K V σ) (captured : σ) :
    Except Failure (Bool × σ × Tuples K V) := do
  let (_, leaf, _) ← findLeaf config tree minKey
  scanLeaves config tree maxKey limit processor tree.leafCount leaf
    (leafLowerBound config leaf.entries minKey) 0 captured tree.tuples

/-- The row `insert_impl` hands to its callbacks as the one after the key. -/
def rowAfter (config : Config K) (tree : Tree K V) (key : K) : Except Failure Offset := do
  let (_, leaf, _) ← findLeaf config tree key
  nextVisible tree tree.leafCount leaf
    (leafLowerBound config leaf.entries key + (slotOf config leaf.entries key).toList.length)

/-- The row after a key. -/
theorem Represents.rowAfter {config : Config K} {tree : Tree K V} {entries : List (LeafEntry K)}
    (represents : Represents config tree entries) (key : K) :
    rowAfter config tree key = .ok (nextRow config tree entries key) := by
  obtain ⟨height, shape, indexes, rfl⟩ := represents.indexed
  obtain ⟨context, leaf, node, reached, located⟩ := findLeaf_located indexes.searchable key
  have next := located.nextRow indexes rfl
  rw [← located.slot indexes.searchable] at next
  simp only [BPlusTree.rowAfter, reached]
  exact next

/-! ## The plan of a scan -/

/-- The rows a scan returns out of the visible rows from its lower bound on, and the row it
stops at; nothing when it runs into the end gap. -/
def scanPlan (config : Config K) (maxKey : K) (limit : Nat) :
    List (LeafEntry K) → Nat → List (LeafEntry K) × Option (LeafEntry K)
  | [], _ => ([], none)
  | row :: rows, emitted =>
    if pastEnd config maxKey limit emitted row.key then ([], some row)
    else
      let (returned, stop) := scanPlan config maxKey limit rows (emitted + 1)
      (row :: returned, stop)

/-- Hand the returned rows to the callback, then the protection row, until it refuses. -/
def attempt (processor : ScanProcessor K V σ) :
    List Offset → Offset → σ → Tuples K V → Bool × σ × Tuples K V
  | [], protection, captured, tuples => processor protection true captured tuples
  | row :: rows, protection, captured, tuples =>
    match processor row false captured tuples with
    | (false, captured, tuples) => (false, captured, tuples)
    | (true, captured, tuples) => attempt processor rows protection captured tuples

/-- The tuple of a row, or the end gap. -/
def offsetOf (tree : Tree K V) (row : Option (LeafEntry K)) : Offset :=
  row.elim tree.endGapOffset LeafEntry.tupleOffset

/-- The visible rows whose keys are chosen, in order. -/
def chosenRows (tree : Tree K V) (entries : List (LeafEntry K)) (chosen : K → Bool) :
    List (LeafEntry K) :=
  entries.filter fun entry => chosen entry.key && isVisible tree.tuples entry.tupleOffset

/-- The visible rows whose keys are chosen, closed by the end gap. -/
def followers (tree : Tree K V) (entries : List (LeafEntry K)) (chosen : K → Bool) :
    List (Option (LeafEntry K)) :=
  (chosenRows tree entries chosen).map some ++ [none]

/-- Keys not less than the lower bound of a scan. -/
def fromKey (config : Config K) (minKey key : K) : Bool := !decide (config.Lt key minKey)

/-- Keys greater than a key. -/
def pastKey (config : Config K) (low key : K) : Bool := decide (config.Lt low key)

/-- What a scan that only looks returns: the keys and values of the rows of its plan. -/
def scanned (config : Config K) (tree : Tree K V) (minKey maxKey : K) (limit : Nat) :
    Except Failure (List (K × V)) := do
  let (_, rows, _) ← scanRange config tree minKey maxKey limit
    (fun offset protection rows tuples => (true,
      (if protection then rows else rows ++ [((tuples offset).key, (tuples offset).value)]),
      tuples)) []
  return rows

section Plan

variable {config : Config K} {tree : Tree K V} {entries : List (LeafEntry K)}

/-- What is visible stays visible. -/
theorem KeepsRows.isVisible {before after : Tuples K V} (kept : KeepsRows before after)
    (offset : Offset) : isVisible after offset = isVisible before offset := by
  simp only [BPlusTree.isVisible, (kept offset).2]

/-- A callback that changes neither keys nor states. -/
def ScanProcessor.KeepsRows (processor : ScanProcessor K V σ) : Prop :=
  ∀ offset protection captured tuples,
    BPlusTree.KeepsRows tuples (processor offset protection captured tuples).2.2

/-- The end of a pass over all rows. -/
def ScanPass.conclude (tree : Tree K V) (processor : ScanProcessor K V σ) :
    ScanPass K V σ → Bool × σ × Tuples K V
  | .returns result captured tuples => (result, captured, tuples)
  | .goesOn _ captured tuples => processor tree.endGapOffset true captured tuples

/-- A scan over two parts. -/
theorem scanSlots_append (maxKey : K) (limit : Nat) (processor : ScanProcessor K V σ)
    (left right : List (LeafEntry K)) (emitted : Nat) (captured : σ) (tuples : Tuples K V) :
    scanSlots config maxKey limit processor (left ++ right) emitted captured tuples =
      match scanSlots config maxKey limit processor left emitted captured tuples with
      | .returns result captured tuples => .returns result captured tuples
      | .goesOn emitted captured tuples =>
        scanSlots config maxKey limit processor right emitted captured tuples := by
  induction left generalizing emitted captured tuples with
  | nil => rfl
  | cons slot left ih =>
    simp only [cons_append, scanSlots]
    split
    · split
      · rfl
      · rcases processor slot.tupleOffset false captured tuples with ⟨_ | _, captured, tuples⟩
        · rfl
        · exact ih ..
    · exact ih ..

/-- A scan across leaves. -/
theorem Follows.scanLeaves (maxKey : K) (limit : Nat) (processor : ScanProcessor K V σ)
    {leaves : List (Leaf Offset (LeafEntry K))} {node : LeafNode K}
    (follows : Follows tree node leaves)
    (position : Nat) {fuel : Nat} (enough : leaves.length < fuel) (emitted : Nat) (captured : σ)
    (tuples : Tuples K V) :
    scanLeaves config tree maxKey limit processor fuel node position emitted captured tuples =
      .ok ((scanSlots config maxKey limit processor
        (node.entries.drop position ++ leaves.flatMap Leaf.entries) emitted captured
        tuples).conclude tree processor) := by
  induction follows generalizing position fuel emitted captured tuples with
  | last last =>
    obtain ⟨fuel, rfl⟩ : ∃ smaller, fuel = smaller + 1 := ⟨fuel - 1, by omega⟩
    rw [BPlusTree.scanLeaves, last, leafFromOffset_zero, flatMap_nil, append_nil]
    cases scanSlots config maxKey limit processor _ emitted captured tuples <;> rfl
  | more found entries rest ih =>
    obtain ⟨fuel, rfl⟩ : ∃ smaller, fuel = smaller + 1 := ⟨fuel - 1, by omega⟩
    rw [BPlusTree.scanLeaves, found, scanSlots_append, flatMap_cons]
    cases scanSlots config maxKey limit processor _ emitted captured tuples with
    | returns result captured tuples => rfl
    | goesOn emitted captured tuples =>
      simpa [entries] using ih 0 (by simpa using enough) emitted captured tuples

/-- The rows from the lower bound on. -/
theorem Located.rows_from {height : Nat} {shape : TreeShape K height} {key : K}
    {context : Context Offset K (LeafEntry K) 0 height} {leaf : Leaf Offset (LeafEntry K)}
    {node : LeafNode K} (located : Located config tree shape key context leaf node)
    (indexes : Indexes config tree shape) :
    leaf.entries.drop (leafLowerBound config node.entries key) ++ context.entriesAfter =
      shape.entries.filter fun entry => fromKey config key entry.key := by
  obtain ⟨-, small, great⟩ := leafLowerBound_spec config (located.sorted indexes.searchable) key
  rw [located.entries, located.rows, append_assoc]
  conv_rhs => rw [← take_append_drop (leafLowerBound config leaf.entries key) leaf.entries]
  have before : context.entriesBefore.filter (fun entry => fromKey config key entry.key) = [] :=
    filter_eq_nil_iff.mpr fun entry member => by
      simpa [fromKey] using located.before indexes.searchable entry member
  have left : (leaf.entries.take (leafLowerBound config leaf.entries key)).filter
      (fun entry => fromKey config key entry.key) = [] :=
    filter_eq_nil_iff.mpr fun entry member => by simpa [fromKey] using small entry member
  have right : (leaf.entries.drop (leafLowerBound config leaf.entries key)).filter
      (fun entry => fromKey config key entry.key) =
        leaf.entries.drop (leafLowerBound config leaf.entries key) :=
    filter_eq_self.mpr fun entry member => by simpa [fromKey] using great entry member
  have after : context.entriesAfter.filter (fun entry => fromKey config key entry.key) =
      context.entriesAfter :=
    filter_eq_self.mpr fun entry member => by
      simpa [fromKey] using asymm_of config.Lt (located.after indexes.searchable entry member)
  rw [filter_append, filter_append, filter_append, before, left, right, after]
  rfl

/-- A scan is a pass over the rows. -/
theorem Represents.scanRange (represents : Represents config tree entries) (minKey maxKey : K)
    (limit : Nat) (processor : ScanProcessor K V σ) (captured : σ) :
    scanRange config tree minKey maxKey limit processor captured =
      .ok ((scanSlots config maxKey limit processor
        (entries.filter fun entry => fromKey config minKey entry.key) 0 captured
        tree.tuples).conclude tree processor) := by
  obtain ⟨height, shape, indexes, rfl⟩ := represents.indexed
  obtain ⟨context, leaf, node, reached, located⟩ := findLeaf_located indexes.searchable minKey
  obtain ⟨follows, enough⟩ := located.follows indexes
  rw [← located.rows_from indexes, ← located.entries]
  simp only [BPlusTree.scanRange, reached]
  exact follows.scanLeaves maxKey limit processor _ enough 0 captured tree.tuples

variable {processor : ScanProcessor K V σ}

/-- With such a callback it follows the plan. -/
theorem scanSlots_plan (keeps : processor.KeepsRows)
    (maxKey : K) (limit : Nat) (slots : List (LeafEntry K)) (emitted : Nat) (captured : σ)
    (tuples : Tuples K V) (keys : ∀ slot ∈ slots, (tuples slot.tupleOffset).key = slot.key) :
    (scanSlots config maxKey limit processor slots emitted captured tuples).conclude tree
      processor =
      let plan := scanPlan config maxKey limit
        (slots.filter fun slot => isVisible tuples slot.tupleOffset) emitted
      attempt processor (plan.1.map LeafEntry.tupleOffset) (offsetOf tree plan.2) captured
        tuples := by
  induction slots generalizing emitted captured tuples with
  | nil => rfl
  | cons slot slots ih =>
    have here := keys slot (by simp)
    have later : ∀ other ∈ slots, (tuples other.tupleOffset).key = other.key := fun other member =>
      keys other (mem_cons_of_mem _ member)
    by_cases visible : isVisible tuples slot.tupleOffset
    · by_cases past : pastEnd config maxKey limit emitted slot.key
      · simp [scanSlots, visible, here, past, scanPlan, attempt, offsetOf, ScanPass.conclude]
      · have kept := keeps slot.tupleOffset false captured tuples
        simp only [scanSlots, visible, here, past, scanPlan, filter_cons_of_pos, if_true,
          Bool.false_eq_true, if_false, map_cons, attempt]
        generalize processor slot.tupleOffset false captured tuples = answer at kept ⊢
        obtain ⟨_ | _, next, after⟩ := answer
        · rfl
        · have kept : BPlusTree.KeepsRows tuples after := kept
          have same : (fun other : LeafEntry K => isVisible after other.tupleOffset) =
              fun other => isVisible tuples other.tupleOffset := by
            funext other
            exact kept.isVisible other.tupleOffset
          have rest := ih (emitted + 1) next after fun other member =>
            (kept other.tupleOffset).1.trans (later other member)
          rw [same] at rest
          exact rest
    · simp only [scanSlots, visible, filter_cons_of_neg, if_false, Bool.false_eq_true,
        not_false_eq_true]
      exact ih emitted captured tuples later

/-- The plan of a whole scan. -/
theorem Represents.scanRange_plan (represents : Represents config tree entries)
    (keeps : processor.KeepsRows) (minKey maxKey : K)
    (limit : Nat) (captured : σ) :
    BPlusTree.scanRange config tree minKey maxKey limit processor captured =
      let plan := scanPlan config maxKey limit (chosenRows tree entries (fromKey config minKey)) 0
      .ok (attempt processor (plan.1.map LeafEntry.tupleOffset) (offsetOf tree plan.2) captured
        tree.tuples) := by
  rw [represents.scanRange, scanSlots_plan keeps]
  · simp only [chosenRows, filter_filter, Bool.and_comm]
  · exact fun slot member => represents.rows.keys slot (mem_of_mem_filter member)

/-- The rows of a plan come first among the rows it is made from, and the row it stops at
follows them. -/
theorem scanPlan_split (config : Config K) (maxKey : K) (limit : Nat) (rows : List (LeafEntry K))
    (emitted : Nat) :
    ∃ rest, rows.map some ++ [none] =
      (scanPlan config maxKey limit rows emitted).1.map some ++
        (scanPlan config maxKey limit rows emitted).2 :: rest := by
  induction rows generalizing emitted with
  | nil => exact ⟨[], rfl⟩
  | cons row rows ih =>
    by_cases past : pastEnd config maxKey limit emitted row.key
    · exact ⟨rows.map some ++ [none], by simp [scanPlan, past]⟩
    · obtain ⟨rest, split⟩ := ih (emitted + 1)
      exact ⟨rest, by simp [scanPlan, past, split]⟩

/-- The plan has rows of the range only. -/
theorem scanPlan_entries (config : Config K) (tree : Tree K V) (entries : List (LeafEntry K))
    (minKey maxKey : K) (limit : Nat) {row : LeafEntry K} :
    let plan := scanPlan config maxKey limit (chosenRows tree entries (fromKey config minKey)) 0
    some row ∈ plan.1.map some ++ [plan.2] → row ∈ entries := by
  intro plan planned
  obtain ⟨rest, whole⟩ := scanPlan_split config maxKey limit
    (chosenRows tree entries (fromKey config minKey)) 0
  have member : some row ∈ plan.1.map some ++ plan.2 :: rest := by
    rw [append_cons]
    exact mem_append_left _ planned
  rw [← whole] at member
  have listed : row ∈ chosenRows tree entries (fromKey config minKey) := by simpa using member
  exact mem_of_mem_filter listed

/-- Rows that the plan does not reach. -/
theorem scanPlan_congr (maxKey : K) (limit : Nat) {rows others : List (LeafEntry K)} {emitted : Nat}
    {rest : List (Option (LeafEntry K))}
    (same : others.map some ++ [none] = (scanPlan config maxKey limit rows emitted).1.map some ++
      (scanPlan config maxKey limit rows emitted).2 :: rest) :
    scanPlan config maxKey limit others emitted = scanPlan config maxKey limit rows emitted := by
  induction rows generalizing others emitted with
  | nil =>
    cases others with
    | nil => rfl
    | cons other others => simp [scanPlan] at same
  | cons row rows ih =>
    by_cases past : pastEnd config maxKey limit emitted row.key
    · cases others with
      | nil => simp [scanPlan, past] at same
      | cons other others =>
        simp only [scanPlan, past, if_true, map_nil, nil_append, map_cons,
          cons_append, List.cons.injEq, Option.some.injEq] at same
        simp [scanPlan, same.1, past]
    · cases others with
      | nil => simp [scanPlan, past] at same
      | cons other others =>
        simp only [scanPlan, past, Bool.false_eq_true, if_false, map_cons, cons_append,
          List.cons.injEq, Option.some.injEq] at same
        obtain ⟨rfl, same⟩ := same
        simp [scanPlan, past, ih same]

/-- What a scan reads. -/
theorem Represents.scanned (represents : Represents config tree entries) (minKey maxKey : K)
    (limit : Nat) :
    scanned config tree minKey maxKey limit = .ok
      ((scanPlan config maxKey limit (chosenRows tree entries (fromKey config minKey)) 0).1.map
        fun entry => ((tree.tuples entry.tupleOffset).key,
          (tree.tuples entry.tupleOffset).value)) := by
  have looks : ∀ (offsets : List Offset) (protection : Offset) (rows : List (K × V)),
      attempt (fun offset protection rows tuples => (true,
        (if protection then rows else rows ++ [((tuples offset).key, (tuples offset).value)]),
        tuples)) offsets protection rows tree.tuples = (true, rows ++ offsets.map fun offset =>
          ((tree.tuples offset).key, (tree.tuples offset).value), tree.tuples) := by
    intro offsets
    induction offsets with
    | nil => simp [attempt]
    | cons offset offsets ih =>
      intro protection rows
      simp [attempt, ih]
  rw [BPlusTree.scanned, represents.scanRange_plan (fun _ _ _ _ _ => ⟨rfl, rfl⟩)]
  simp [looks]

end Plan

end UbApplication.Tigon.BPlusTree
