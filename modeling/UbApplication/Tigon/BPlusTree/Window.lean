import UbApplication.Tigon.BPlusTree.Contents

/-!
# The rows after a bound

From a bound on, the visible rows and the end gap follow each other. A scan returns the
first of them and stops at the next; an insert looks at the first one after its key. As
long as the rows they looked at stay where they are, a row that appears or disappears
behind them changes nothing for them. A row that appears comes right before the row that
its insert looked at.
-/

namespace UbApplication.Tigon.BPlusTree

open List

variable {K V : Type} {config : Config K} {tree after : Tree K V} {entries : List (LeafEntry K)}

/-- A choice of keys from a bound on. -/
def UpwardClosed (config : Config K) (chosen : K → Bool) : Prop :=
  ∀ low high, config.Lt low high → chosen low → chosen high

/-- Keys from a bound on. -/
theorem fromKey_upwardClosed (minKey : K) : UpwardClosed config (fromKey config minKey) := by
  intro low high less chosen
  simp only [fromKey, Bool.not_eq_true', decide_eq_false_iff_not] at chosen ⊢
  exact fun before => chosen (config.compare_trans _ _ _ less before)

/-- Keys past a key. -/
theorem pastKey_upwardClosed (key : K) : UpwardClosed config (pastKey config key) := by
  intro low high less chosen
  simp only [pastKey, decide_eq_true_eq] at chosen ⊢
  exact config.compare_trans _ _ _ chosen less

/-- The next row comes first. -/
theorem nextRow_followers (config : Config K) (tree : Tree K V) (entries : List (LeafEntry K))
    (key : K) : ∃ row rest, followers tree entries (pastKey config key) = row :: rest ∧
      offsetOf tree row = nextRow config tree entries key := by
  have same : nextRow config tree entries key =
      offsetOf tree (chosenRows tree entries (pastKey config key)).head? := by
    have found : firstVisible tree.tuples (above config entries key) =
        (chosenRows tree entries (pastKey config key)).head?.map LeafEntry.tupleOffset := by
      rw [firstVisible, above, chosenRows, find?_map, head?_filter, find?_filter]
      simp [pastKey]
    rw [nextRow, found]
    cases (chosenRows tree entries (pastKey config key)).head? <;> rfl
  rw [same, followers]
  cases chosenRows tree entries (pastKey config key) with
  | nil => exact ⟨none, [], rfl, rfl⟩
  | cons row rows => exact ⟨some row, rows.map some ++ [none], rfl, rfl⟩

/-- One row may have changed from one state to the other, all others are as visible as before. -/
def SameBeside (tree after : Tree K V) (entries : List (LeafEntry K)) (entry : LeafEntry K) :
    Prop :=
  ∀ other ∈ entries, other ≠ entry →
    isVisible after.tuples other.tupleOffset = isVisible tree.tuples other.tupleOffset

variable {entry : LeafEntry K} {chosen : K → Bool}

/-- A row appears among those chosen. -/
theorem chosenRows_appear (sorted : Sorted config entries) (member : entry ∈ entries)
    (closed : UpwardClosed config chosen) (here : chosen entry.key)
    (hidden : isVisible tree.tuples entry.tupleOffset = false)
    (shown : isVisible after.tuples entry.tupleOffset = true)
    (beside : SameBeside tree after entries entry) :
    ∃ front, chosenRows tree entries chosen =
        front ++ chosenRows tree entries (pastKey config entry.key) ∧
      chosenRows after entries chosen =
        front ++ entry :: chosenRows tree entries (pastKey config entry.key) := by
  obtain ⟨left, right, rfl⟩ := append_of_mem member
  obtain ⟨-, ordered, smaller⟩ := pairwise_append.mp sorted
  have smaller : ∀ other ∈ left, config.Lt other.key entry.key := fun other low =>
    smaller other low entry mem_cons_self
  have greater : ∀ other ∈ right, config.Lt entry.key other.key :=
    (pairwise_cons.mp ordered).1
  have keptLeft : chosenRows after left chosen = chosenRows tree left chosen := by
    refine filter_congr fun other low => ?_
    rw [beside other (mem_append_left _ low) fun same => ?_]
    exact irrefl _ (same ▸ smaller other low)
  have keptRight : chosenRows after right chosen = chosenRows tree right chosen := by
    refine filter_congr fun other high => ?_
    rw [beside other (mem_append_right _ (mem_cons_of_mem _ high)) fun same => ?_]
    exact irrefl _ (same ▸ greater other high)
  have past : chosenRows tree (left ++ entry :: right) (pastKey config entry.key) =
      chosenRows tree right chosen := by
    have none : chosenRows tree left (pastKey config entry.key) = [] := by
      refine filter_eq_nil_iff.mpr fun other low => ?_
      simp [pastKey, asymm (smaller other low)]
    have all : chosenRows tree right (pastKey config entry.key) = chosenRows tree right chosen := by
      refine filter_congr fun other high => ?_
      simp [pastKey, greater other high, closed _ _ (greater other high) here]
    rw [← all, ← nil_append (chosenRows tree right _), ← none]
    simp [chosenRows, hidden]
  refine ⟨chosenRows tree left chosen, ?_, ?_⟩
  · rw [past]
    simp [chosenRows, hidden]
  · rw [past, ← keptLeft, ← keptRight]
    simp [chosenRows, here, shown]

/-- A part that ends before an element. -/
theorem prefix_before {A : Type} {front before behind : List A} {element : A}
    (initial : front <+: before ++ element :: behind) (apart : element ∉ front) :
    front <+: before := by
  rcases prefix_or_prefix_of_prefix initial (prefix_append _ _) with short | long
  · exact short
  · obtain ⟨more, rfl⟩ := long
    rw [prefix_append_right_inj] at initial
    cases more with
    | nil => simp
    | cons first more =>
      obtain ⟨rfl, -⟩ := cons_prefix_cons.mp initial
      exact absurd (by simp) apart

/-- The same rows are visible. -/
theorem followers_congr {entries' : List (LeafEntry K)}
    (same : visibleRows after entries' = visibleRows tree entries) (chosen : K → Bool) :
    followers after entries' chosen = followers tree entries chosen := by
  have chosenSame := congrArg (List.filter fun entry => chosen entry.key) same
  simp only [visibleRows, filter_filter] at chosenSame
  rw [followers, followers, chosenRows, chosenRows, chosenSame]

/-- A row that is not chosen. -/
theorem chosenRows_beside (beside : SameBeside tree after entries entry)
    (away : chosen entry.key = false) :
    chosenRows after entries chosen = chosenRows tree entries chosen := by
  refine filter_congr fun other inside => ?_
  by_cases same : other = entry
  · rw [same, away, Bool.false_and, Bool.false_and]
  · rw [beside other inside same]

variable {front : List (Option (LeafEntry K))}

/-- A row appears. -/
theorem followers_appear (sorted : Sorted config entries) (member : entry ∈ entries)
    (closed : UpwardClosed config chosen) (hidden : isVisible tree.tuples entry.tupleOffset = false)
    (shown : isVisible after.tuples entry.tupleOffset = true)
    (beside : SameBeside tree after entries entry)
    (initial : front <+: followers tree entries chosen)
    (apart : ∀ row ∈ front, offsetOf tree row ≠ nextRow config tree entries entry.key) :
    front <+: followers after entries chosen := by
  cases here : chosen entry.key with
  | false =>
    rw [followers, chosenRows_beside beside here]
    exact initial
  | true =>
    obtain ⟨before, whole, later⟩ := chosenRows_appear sorted member closed here hidden shown beside
    obtain ⟨row, rest, past, next⟩ := nextRow_followers config tree entries entry.key
    have split : followers tree entries chosen = before.map some ++ row :: rest := by
      rw [← past, followers, whole, map_append, append_assoc, followers]
    rw [split] at initial
    have short := prefix_before initial fun inside => apart row inside next
    rw [followers, later, map_append, append_assoc]
    exact short.trans (prefix_append _ _)

/-- A row vanishes. -/
theorem followers_vanish (sorted : Sorted config entries)
    (member : entry ∈ entries) (closed : UpwardClosed config chosen)
    (shown : isVisible tree.tuples entry.tupleOffset = true)
    (hidden : isVisible after.tuples entry.tupleOffset = false)
    (beside : SameBeside tree after entries entry)
    (initial : front <+: followers tree entries chosen)
    (apart : some entry ∉ front) : front <+: followers after entries chosen := by
  have beside' : SameBeside after tree entries entry := fun other inside differs =>
    (beside other inside differs).symm
  cases here : chosen entry.key with
  | false =>
    rw [followers, chosenRows_beside beside here]
    exact initial
  | true =>
    obtain ⟨before, later, whole⟩ :=
      chosenRows_appear sorted member closed here hidden shown beside'
    have split : followers tree entries chosen = before.map some ++
        some entry :: followers after entries (pastKey config entry.key) := by
      rw [followers, whole, map_append, append_assoc, followers]
      rfl
    rw [split] at initial
    have short := prefix_before initial apart
    rw [followers, later, map_append, append_assoc]
    exact short.trans (prefix_append _ _)

/-- The rows of a scan come first. -/
theorem scanPlan_prefix (config : Config K) (tree : Tree K V) (entries : List (LeafEntry K))
    (minKey maxKey : K) (limit : Nat) :
    let plan := scanPlan config maxKey limit (chosenRows tree entries (fromKey config minKey)) 0
    plan.1.map some ++ [plan.2] <+: followers tree entries (fromKey config minKey) := by
  intro plan
  obtain ⟨rest, whole⟩ := scanPlan_split config maxKey limit
    (chosenRows tree entries (fromKey config minKey)) 0
  exact ⟨rest, by rw [followers, whole, append_assoc]; rfl⟩

/-! ## Steps seen from the front -/

/-- Rows at the front stay there unless one of them is touched. -/
structure Moves (config : Config K) (tree : Tree K V) (entries : List (LeafEntry K))
    (after : Tree K V) (entries' : List (LeafEntry K)) (Touched : Offset → Prop) : Prop where
  endGapOffset : after.endGapOffset = tree.endGapOffset
  front : ∀ chosen, UpwardClosed config chosen → ∀ front, front <+: followers tree entries chosen →
    (∀ row ∈ front, ¬ Touched (offsetOf tree row)) → front <+: followers after entries' chosen

variable {tuple : TupleNode K V}

namespace Moves

variable {entries' : List (LeafEntry K)} {Touched : Offset → Prop}

/-- Nothing visible changes. -/
theorem quiet (quiet : Quiet tree entries after entries') :
    Moves config tree entries after entries' Touched where
  endGapOffset := quiet.endGapOffset
  front chosen _ front initial _ := by
    rw [followers_congr quiet.visibleRows]
    exact initial

section

variable (represents : Represents config tree entries) (member : entry ∈ entries)
include represents member

variable (tuples : after.tuples = Function.update tree.tuples entry.tupleOffset tuple)
  (endGapOffset : after.endGapOffset = tree.endGapOffset)

include tuples in
/-- The other rows stay. -/
theorem sameBeside :
    SameBeside tree after entries entry := by
  intro other inside differs
  have apart : other.tupleOffset ≠ entry.tupleOffset := fun same =>
    differs (represents.offset_inj inside member same)
  simp only [isVisible, tuples, Function.update_of_ne apart]

include tuples endGapOffset in
/-- A row that is as visible as before. -/
theorem rewrite
    (same : isVisible after.tuples entry.tupleOffset = isVisible tree.tuples entry.tupleOffset) :
    Moves config tree entries after entries Touched where
  endGapOffset := endGapOffset
  front chosen _ front initial _ := by
    have visible : visibleRows after entries = visibleRows tree entries := by
      refine filter_congr fun other inside => ?_
      by_cases here : other = entry
      · rw [here, same]
      · rw [sameBeside represents member tuples other inside here]
    rw [followers_congr visible]
    exact initial

include tuples endGapOffset in
/-- A row becomes visible. -/
theorem appear (hidden : isVisible tree.tuples entry.tupleOffset = false)
    (shown : tuple.header.valid = .visible)
    (touched : Touched (nextRow config tree entries entry.key)) :
    Moves config tree entries after entries Touched where
  endGapOffset := endGapOffset
  front chosen closed front initial apart := by
    refine followers_appear represents.sorted member closed hidden ?_
      (sameBeside represents member tuples) initial fun row inside same => ?_
    · simp [isVisible, tuples, shown]
    · exact apart row inside (same ▸ touched)

include tuples endGapOffset in
/-- A row becomes hidden. -/
theorem vanish (shown : isVisible tree.tuples entry.tupleOffset = true)
    (hidden : tuple.header.valid ≠ .visible) (touched : Touched entry.tupleOffset) :
    Moves config tree entries after entries Touched where
  endGapOffset := endGapOffset
  front chosen closed front initial apart := by
    refine followers_vanish represents.sorted member closed shown ?_
      (sameBeside represents member tuples) initial fun inside => apart _ inside touched
    simpa [isVisible, tuples] using hidden

end

/-- The next row stays if it was not touched. -/
theorem nextRow (moves : Moves config tree entries after entries' Touched) {key : K}
    (apart : ¬ Touched (nextRow config tree entries key)) :
    BPlusTree.nextRow config after entries' key = BPlusTree.nextRow config tree entries key := by
  obtain ⟨row, rest, first, next⟩ := nextRow_followers config tree entries key
  obtain ⟨row', rest', first', next'⟩ := nextRow_followers config after entries' key
  have kept := moves.front _ (pastKey_upwardClosed key) [row] (first ▸ ⟨rest, rfl⟩)
    (by simpa [next] using apart)
  rw [first', cons_prefix_cons] at kept
  rw [← next, ← next', ← kept.1, offsetOf, offsetOf, moves.endGapOffset]

/-- A scan that is repeated returns the same rows unless one of them or the row it stops at is
touched. -/
theorem scanPlan (moves : Moves config tree entries after entries' Touched) {minKey maxKey : K}
    {limit : Nat} {returned : List (LeafEntry K)} {stop : Option (LeafEntry K)}
    (plan : scanPlan config maxKey limit (chosenRows tree entries (fromKey config minKey)) 0 =
      (returned, stop))
    (rows : ∀ row ∈ returned, ¬ Touched row.tupleOffset) (last : ¬ Touched (offsetOf tree stop)) :
    BPlusTree.scanPlan config maxKey limit (chosenRows after entries' (fromKey config minKey)) 0 =
      (returned, stop) := by
  have first := scanPlan_prefix config tree entries minKey maxKey limit
  obtain ⟨rest, whole⟩ := moves.front _ (fromKey_upwardClosed minKey) _ first (by
    rw [plan]
    intro row inside
    rcases mem_append.mp inside with inner | final
    · obtain ⟨entry, member, rfl⟩ := mem_map.mp inner
      exact rows entry member
    · rw [mem_singleton.mp final]
      exact last)
  rw [append_assoc] at whole
  exact plan ▸ scanPlan_congr maxKey limit whole.symm

end Moves

end UbApplication.Tigon.BPlusTree
