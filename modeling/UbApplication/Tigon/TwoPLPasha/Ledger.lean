import UbApplication.Tigon.BPlusTree.Contents
import UbApplication.Tigon.TwoPLPasha.Model

/-!
# The ledger of a table

Which locks of a table are held, and which keys are reserved by placeholders, is known from
the transactions. The ledger says that the tuples agree: every lock word counts its
holders, only visible rows and the end gap are locked, and every reserved key has a
placeholder with its value. Each step of a transaction on the table is an entry into the
ledger.
-/

namespace UbApplication.Tigon.TwoPLPasha

open BPlusTree List
open Function (update update_self update_of_ne)

variable {K V : Type} {config : Config K} {tree : Tree K V} {entries : List (LeafEntry K)}
  {holds : List (LockMode × Offset)} {reserves : List (K × V)}

/-- The tuples of a table that can be locked: the end gap and the rows. -/
def lockable (tree : Tree K V) (entries : List (LeafEntry K)) : List Offset :=
  tree.endGapOffset :: entries.map LeafEntry.tupleOffset

/-- The tuples of a table agree with the locks held and the keys reserved. -/
structure Ledger (config : Config K) (tree : Tree K V) (entries : List (LeafEntry K))
    (holds : List (LockMode × Offset)) (reserves : List (K × V)) : Prop where
  represents : Represents config tree entries
  words : ∀ offset ∈ lockable tree entries, HeldBy (tree.tuples offset).header.lock
    (holds.count (.shared, offset)) (holds.count (.exclusive, offset))
  visible : ∀ hold ∈ holds, hold.2 ∈ lockable tree entries ∧ isVisible tree.tuples hold.2
  reserved : ∀ reserve ∈ reserves, ∃ entry ∈ entries, entry.key = reserve.1 ∧
    (tree.tuples entry.tupleOffset).header.valid = .placeholder ∧
    (tree.tuples entry.tupleOffset).value = reserve.2
  apart : (reserves.map Prod.fst).Nodup

variable {holds' : List (LockMode × Offset)} {offset : Offset} {reserves' : List (K × V)}

namespace Ledger

/-- The order does not matter. -/
theorem perm (ledger : Ledger config tree entries holds reserves) (sameHolds : holds'.Perm holds)
    (sameReserves : reserves'.Perm reserves) : Ledger config tree entries holds' reserves' where
  represents := ledger.represents
  words offset member := by
    rw [sameHolds.count_eq, sameHolds.count_eq]
    exact ledger.words offset member
  visible hold member := ledger.visible hold (sameHolds.mem_iff.mp member)
  reserved reserve member := ledger.reserved reserve (sameReserves.mem_iff.mp member)
  apart := (sameReserves.map Prod.fst).nodup_iff.mpr ledger.apart

/-- A writer is alone. -/
theorem writer_alone (ledger : Ledger config tree entries ((.exclusive, offset) :: holds) reserves)
    (mode : LockMode) : (mode, offset) ∉ holds := by
  intro member
  have inside : offset ∈ lockable tree entries := (ledger.visible _ mem_cons_self).1
  obtain ⟨single, alone⟩ := (ledger.words offset inside).exclusive
  have writers : ((LockMode.exclusive, offset) :: holds).count (.exclusive, offset) =
      holds.count (.exclusive, offset) + 1 := count_cons_self
  cases mode with
  | exclusive =>
    have positive : 0 < holds.count (LockMode.exclusive, offset) := count_pos_iff.mpr member
    omega
  | shared =>
    have positive : 0 < ((LockMode.exclusive, offset) :: holds).count (.shared, offset) :=
      count_pos_iff.mpr (mem_cons_of_mem _ member)
    have none := alone (by omega)
    omega

/-- A hidden row is not locked. -/
theorem unlocked (ledger : Ledger config tree entries holds reserves)
    (member : offset ∈ lockable tree entries) (hidden : ¬ isVisible tree.tuples offset) :
    (tree.tuples offset).header.lock = 0 := by
  have none : ∀ mode, holds.count (mode, offset) = 0 := fun mode =>
    count_eq_zero.mpr fun held => hidden (ledger.visible _ held).2
  have word := ledger.words offset member
  rw [none, none] at word
  exact word.word_eq_zero

/-- Every row can be locked. -/
theorem row_lockable {entry : LeafEntry K} (member : entry ∈ entries) :
    entry.tupleOffset ∈ lockable tree entries :=
  mem_cons_of_mem _ (mem_map_of_mem member)

end Ledger

/-! ## Locks -/

variable {header : TupleHeader} {readers writers : Nat} {tuples : Tuples K V}

/-- A header that stays as valid. -/
theorem relocked_setHeader (valid : header.valid = (tuples offset).header.valid) :
    Relocked tuples (setHeader tuples offset header) := by
  intro other
  by_cases here : other = offset
  · subst here
    simp [setHeader, valid]
  · simp [setHeader, here]

/-- The header of a tuple whose lock is asked for: the lock is taken and the tuple is visible,
or the header is as it was. -/
theorem readLock_cases (held : HeldBy header.lock readers writers) :
    (∃ word, readLock header = (some header.version, { header with lock := word }) ∧
      header.valid = .visible ∧ HeldBy word (readers + 1) writers) ∨
    readLock header = (none, header) := by
  unfold readLock
  cases tried : tryLockShared header.lock with
  | mk success locked =>
    cases success with
    | false => exact .inr rfl
    | true =>
      have more := held.tryLockShared tried
      by_cases visible : header.valid = .visible
      · exact .inl ⟨locked, by simp [visible], visible, more⟩
      · obtain ⟨free, undone, back⟩ := more.unlockShared
        right
        simp [visible, undone, Except.toOption, back.unique held]

/-- A write lock is taken or refused. -/
theorem writeLock_cases (held : HeldBy header.lock readers writers) :
    (∃ word, writeLock header = (some header.version, { header with lock := word }) ∧
      header.valid = .visible ∧ HeldBy word readers (writers + 1)) ∨
    writeLock header = (none, header) := by
  unfold writeLock
  cases tried : tryLock header.lock with
  | mk success locked =>
    cases success with
    | false => exact .inr rfl
    | true =>
      have more := held.tryLock tried
      by_cases visible : header.valid = .visible
      · exact .inl ⟨locked, by simp [visible], visible, more⟩
      · obtain ⟨free, undone, back⟩ := more.unlock
        right
        simp [visible, undone, Except.toOption, back.unique held]

/-- No change. -/
@[simp] theorem setHeader_self (tuples : Tuples K V) (offset : Offset) :
    setHeader tuples offset (tuples offset).header = tuples :=
  Function.update_eq_self offset tuples

/-- A lock is taken on a visible tuple, and its word counts one holder more, or nothing
changes. -/
theorem lockTuple_cases (mode : LockMode)
    (held : HeldBy (tuples offset).header.lock readers writers) :
    (∃ word, lockTuple mode offset tuples = (some (tuples offset).header.version,
        setHeader tuples offset { (tuples offset).header with lock := word }) ∧
      (tuples offset).header.valid = .visible ∧
      HeldBy word (readers + if mode = .shared then 1 else 0)
        (writers + if mode = .exclusive then 1 else 0)) ∨
    lockTuple mode offset tuples = (none, tuples) := by
  cases mode with
  | shared =>
    rcases readLock_cases held with ⟨word, taken, visible, more⟩ | refused
    · exact .inl ⟨word, by simp [lockTuple, taken], visible, more⟩
    · exact .inr (by simp [lockTuple, refused])
  | exclusive =>
    rcases writeLock_cases held with ⟨word, taken, visible, more⟩ | refused
    · exact .inl ⟨word, by simp [lockTuple, taken], visible, more⟩
    · exact .inr (by simp [lockTuple, refused])

/-- A held lock can be released. -/
theorem releaseLock_spec (mode : LockMode) (version : Option Nat) (header : TupleHeader)
    (held : HeldBy header.lock (readers + if mode = .shared then 1 else 0)
      (writers + if mode = .exclusive then 1 else 0)) :
    ∃ after, releaseLock mode version header = .ok after ∧ after.valid = header.valid ∧
      HeldBy after.lock readers writers := by
  cases mode with
  | shared =>
    obtain ⟨free, undone, less⟩ := HeldBy.unlockShared (by simpa using held)
    exact ⟨{ header with lock := free }, by simp [releaseLock, undone, Except.map], rfl, less⟩
  | exclusive =>
    obtain ⟨free, undone, less⟩ := HeldBy.unlock (by simpa using held)
    exact ⟨{ header with lock := free, version := version.getD header.version },
      by simp [releaseLock, undone, Except.map], rfl, less⟩

variable {after : Tree K V}

namespace Ledger

variable (ledger : Ledger config tree entries holds reserves)
  {offset : Offset} {key : K} {value : V} {entry : LeafEntry K}

include ledger in
/-- One lock word changes. -/
theorem relock {header : TupleHeader} (valid : header.valid = (tree.tuples offset).header.valid)
    (here : HeldBy header.lock (holds'.count (.shared, offset)) (holds'.count (.exclusive, offset)))
    (elsewhere : ∀ mode other, other ≠ offset →
      holds'.count (mode, other) = holds.count (mode, other))
    (visible : ∀ hold ∈ holds', hold.2 ∈ lockable tree entries ∧ isVisible tree.tuples hold.2) :
    Ledger config { tree with tuples := setHeader tree.tuples offset header } entries holds'
      reserves where
  represents := ledger.represents.keep (relocked_setHeader valid).keeps
  words other member := by
    by_cases same : other = offset
    · subst same
      simpa [setHeader] using here
    · rw [elsewhere _ _ same, elsewhere _ _ same]
      simpa [setHeader, same] using ledger.words other member
  visible hold member := by
    obtain ⟨inside, seen⟩ := visible hold member
    exact ⟨inside, by rw [(relocked_setHeader valid).keeps.isVisible]; exact seen⟩
  reserved reserve member := by
    obtain ⟨entry, inside, key, state, value⟩ := ledger.reserved reserve member
    have relocked : Relocked tree.tuples (setHeader tree.tuples offset header) :=
      relocked_setHeader valid
    have same := relocked entry.tupleOffset
    exact ⟨entry, inside, key, same.2.1.trans state, same.2.2.trans value⟩
  apart := ledger.apart

/-- One lock more. -/
theorem count_cons (mode mode' : LockMode) (offset other : Offset)
    (holds : List (LockMode × Offset)) :
    ((mode, offset) :: holds).count (mode', other) =
      holds.count (mode', other) + if mode = mode' ∧ offset = other then 1 else 0 := by
  rw [List.count_cons]
  simp only [beq_iff_eq, Prod.mk.injEq]

include ledger in
/-- A lock is taken or refused. -/
theorem lock (mode : LockMode) (member : offset ∈ lockable tree entries) :
    (∃ after, lockTuple mode offset tree.tuples =
        (some (tree.tuples offset).header.version, after) ∧
      isVisible tree.tuples offset ∧ Relocked tree.tuples after ∧
      Ledger config { tree with tuples := after } entries ((mode, offset) :: holds) reserves) ∨
    lockTuple mode offset tree.tuples = (none, tree.tuples) := by
  rcases lockTuple_cases mode (ledger.words offset member) with
    ⟨word, taken, visible, more⟩ | refused
  · have seen : isVisible tree.tuples offset := by simp [isVisible, visible]
    refine .inl ⟨_, taken, seen, relocked_setHeader rfl, ledger.relock rfl ?_ ?_ ?_⟩
    · rw [count_cons, count_cons]
      simpa using more
    · intro mode' other apart
      rw [count_cons, if_neg fun same => apart same.2.symm]
      omega
    · intro hold inside
      rcases mem_cons.mp inside with rfl | inside
      · exact ⟨member, seen⟩
      · exact ledger.visible hold inside
  · exact .inr refused

/-- A lock is released. -/
theorem release {mode : LockMode}
    (ledger : Ledger config tree entries ((mode, offset) :: holds) reserves)
    (version : Option Nat) :
    ∃ header, releaseLock mode version (tree.tuples offset).header = .ok header ∧
      header.valid = (tree.tuples offset).header.valid ∧
      Ledger config { tree with tuples := setHeader tree.tuples offset header } entries holds
        reserves := by
  have inside : offset ∈ lockable tree entries := (ledger.visible _ mem_cons_self).1
  have held := ledger.words offset inside
  rw [count_cons, count_cons] at held
  simp only [and_true] at held
  obtain ⟨header, undone, valid, less⟩ := releaseLock_spec mode version _ held
  refine ⟨header, undone, valid, ledger.relock valid less ?_ ?_⟩
  · intro mode' other apart
    rw [count_cons, if_neg fun same => apart same.2.symm]
    rfl
  · exact fun hold member => ledger.visible hold (mem_cons_of_mem _ member)

/-! ## Rows -/

section

variable (ledger : Ledger config tree entries holds reserves)
include ledger

variable {entry : LeafEntry K}

/-- A tuple is rewritten. -/
theorem rewrite (still : Represents config after entries)
    (endGap : after.endGapOffset = tree.endGapOffset) (member : entry ∈ entries)
    {tuple : TupleNode K V} (tuples : after.tuples = update tree.tuples entry.tupleOffset tuple)
    (here : HeldBy tuple.header.lock (holds'.count (.shared, entry.tupleOffset)) (holds'.count
      (.exclusive, entry.tupleOffset)))
    (elsewhere : ∀ mode other, other ≠ entry.tupleOffset → holds'.count (mode, other) = holds.count
      (mode, other))
    (visible : ∀ mode, (mode, entry.tupleOffset) ∈ holds' → tuple.header.valid = .visible)
    (reserved : ∀ reserve ∈ reserves', (reserve.1 = entry.key ∧ tuple.header.valid = .placeholder ∧
      tuple.value = reserve.2) ∨ (reserve.1 ≠ entry.key ∧ reserve ∈ reserves))
    (apart : (reserves'.map Prod.fst).Nodup) : Ledger config after entries holds' reserves' where
  represents := still
  words other inside := by
    rw [lockable, endGap] at inside
    rw [tuples]
    by_cases same : other = entry.tupleOffset
    · subst same
      rwa [update_self]
    · rw [update_of_ne same, elsewhere _ _ same, elsewhere _ _ same]
      exact ledger.words other inside
  visible hold inside := by
    obtain ⟨mode, other⟩ := hold
    rw [lockable, endGap, tuples]
    by_cases same : other = entry.tupleOffset
    · subst same
      exact ⟨row_lockable member, by simp [isVisible, visible mode inside]⟩
    · have before : (mode, other) ∈ holds := by
        rw [← count_pos_iff, ← elsewhere _ _ same, count_pos_iff]
        exact inside
      obtain ⟨locked, seen⟩ := ledger.visible _ before
      exact ⟨locked, by simpa [isVisible, update_of_ne same] using seen⟩
  reserved reserve inside := by
    rcases reserved reserve inside with ⟨key, state, value⟩ | ⟨other, before⟩
    · exact ⟨entry, member, key.symm, by rw [tuples, update_self]; exact ⟨state, value⟩⟩
    · obtain ⟨row, there, key, state, value⟩ := ledger.reserved reserve before
      have differs : row.tupleOffset ≠ entry.tupleOffset := fun same =>
        other (key ▸ congrArg LeafEntry.key (ledger.represents.offset_inj there member same))
      exact ⟨row, there, key, by rw [tuples, update_of_ne differs]; exact ⟨state, value⟩⟩
  apart := apart

/-- The lock word of a row. -/
theorem row_word (member : entry ∈ entries) :
    HeldBy (tree.tuples entry.tupleOffset).header.lock (holds.count (.shared, entry.tupleOffset))
      (holds.count (.exclusive, entry.tupleOffset)) :=
  ledger.words _ (row_lockable member)

/-- A row in use is not reserved. -/
theorem reserve_ne (member : entry ∈ entries)
    (state : (tree.tuples entry.tupleOffset).header.valid ≠ .placeholder) {reserve : K × V}
    (inside : reserve ∈ reserves) : reserve.1 ≠ entry.key := by
  intro same
  obtain ⟨row, there, key, placeholder, -⟩ := ledger.reserved reserve inside
  have equal : row = entry := by
    have found := ledger.represents.rowOf_eq there
    rw [key, same, ledger.represents.rowOf_eq member] at found
    exact (Option.some.inj found).symm
  exact state (equal ▸ placeholder)

/-- The tree after a rewrite. -/
theorem rewritten (member : entry ∈ entries) (header : TupleHeader) (value : V)
    (inUse : (tree.tuples entry.tupleOffset).header.valid ≠ .tombstone) :
    Represents config { tree with
        tuples := update tree.tuples entry.tupleOffset
          ⟨header, (tree.tuples entry.tupleOffset).key, value⟩ }
      entries :=
  ledger.represents.rewrite member (ledger.represents.rows.keys entry member) inUse

end

/-- A placeholder is published. -/
theorem publish (ledger : Ledger config tree entries holds ((key, value) :: reserves)) :
    ∃ entry ∈ entries, entry.key = key ∧
      (tree.tuples entry.tupleOffset).header.valid = .placeholder ∧
      (tree.tuples entry.tupleOffset).value = value ∧
      Ledger config { tree with
          tuples := setHeader tree.tuples entry.tupleOffset
            (modifyTupleValidBit true (tree.tuples entry.tupleOffset).header) }
        entries holds reserves := by
  obtain ⟨entry, member, rfl, state, same⟩ := ledger.reserved _ mem_cons_self
  refine ⟨entry, member, rfl, state, same, ?_⟩
  have distinct := ledger.apart
  rw [map_cons, nodup_cons] at distinct
  have still := ledger.rewritten member
    (modifyTupleValidBit true (tree.tuples entry.tupleOffset).header)
    (tree.tuples entry.tupleOffset).value (by simp [state])
  refine ledger.rewrite still rfl member rfl (ledger.row_word member) (fun _ _ _ => rfl)
    (fun _ _ => rfl) (fun reserve inside => .inr ⟨fun equal => ?_, mem_cons_of_mem _ inside⟩)
    distinct.2
  exact distinct.1 (mem_map.mpr ⟨reserve, inside, equal⟩)

/-- A placeholder is discarded. -/
theorem discard (ledger : Ledger config tree entries holds ((key, value) :: reserves)) :
    ∃ entry ∈ entries, entry.key = key ∧
      (tree.tuples entry.tupleOffset).header.valid = .placeholder ∧
      runOn (discardPlaceholder config key) tree = (.ok true, buried tree entry.tupleOffset) ∧
      Ledger config (buried tree entry.tupleOffset) entries holds reserves := by
  obtain ⟨entry, member, rfl, state, -⟩ := ledger.reserved _ mem_cons_self
  have row := ledger.represents.rowOf_eq member
  have hidden : ¬ isVisible tree.tuples entry.tupleOffset := by simp [isVisible, state]
  have free := ledger.unlocked (row_lockable member) hidden
  have nobody : ∀ mode, (mode, entry.tupleOffset) ∉ holds := fun mode held =>
    hidden (ledger.visible _ held).2
  refine ⟨entry, member, rfl, state, (discardPlaceholder_retires ledger.represents _).present entry
    row state free, ?_⟩
  have distinct := ledger.apart
  rw [map_cons, nodup_cons] at distinct
  have word := ledger.row_word member
  rw [free] at word
  refine ledger.rewrite (ledger.represents.bury row (by simp [state])) rfl member rfl word
    (fun _ _ _ => rfl) (fun mode held => absurd held (nobody mode))
    (fun reserve inside => .inr ⟨fun equal => ?_, mem_cons_of_mem _ inside⟩) distinct.2
  exact distinct.1 (mem_map.mpr ⟨reserve, inside, equal⟩)

/-- A row becomes a tombstone. -/
theorem bury (member : entry ∈ entries)
    (ledger : Ledger config tree entries ((.exclusive, entry.tupleOffset) :: holds) reserves) :
    ∃ header, releaseLock .exclusive none
        (modifyTupleValidBit false (tree.tuples entry.tupleOffset).header) = .ok header ∧
      header.valid = .tombstone ∧
      Ledger config { tree with tuples := setHeader tree.tuples entry.tupleOffset header } entries
        holds reserves := by
  have seen := (ledger.visible _ mem_cons_self).2
  have visible : (tree.tuples entry.tupleOffset).header.valid = .visible := by
    simpa [isVisible] using seen
  have held := ledger.row_word member
  rw [count_cons, count_cons] at held
  obtain ⟨header, undone, valid, less⟩ := releaseLock_spec .exclusive none
    (modifyTupleValidBit false (tree.tuples entry.tupleOffset).header)
    (by simpa [modifyTupleValidBit] using held)
  have gone : header.valid = .tombstone := by rw [valid]; rfl
  have still := ledger.rewritten member header (tree.tuples entry.tupleOffset).value
    (by simp [visible])
  refine ⟨header, undone, gone, ledger.rewrite still rfl member rfl less ?_ ?_ ?_ ledger.apart⟩
  · intro mode other apart
    rw [count_cons, if_neg fun same => apart same.2.symm]
    rfl
  · exact fun mode inside => absurd inside (ledger.writer_alone mode)
  · exact fun reserve inside =>
      .inr ⟨ledger.reserve_ne member (by simp [visible]) inside, inside⟩

include ledger in
/-- A value is stored. -/
theorem store (member : entry ∈ entries) (visible : isVisible tree.tuples entry.tupleOffset)
    (value : V) :
    Ledger config { tree with
        tuples := update tree.tuples entry.tupleOffset
          { tree.tuples entry.tupleOffset with value } }
      entries holds reserves := by
  have visible : (tree.tuples entry.tupleOffset).header.valid = .visible := by
    simpa [isVisible] using visible
  have still := ledger.rewritten member (tree.tuples entry.tupleOffset).header value
    (by simp [visible])
  exact ledger.rewrite still rfl member rfl (ledger.row_word member) (fun _ _ _ => rfl)
    (fun _ _ => visible)
    (fun reserve inside => .inr ⟨ledger.reserve_ne member (by simp [visible]) inside, inside⟩)
    ledger.apart

/-! ## Placeholders -/

/-- The next row can be locked. -/
theorem nextRow_lockable (config : Config K) (tree : Tree K V) (entries : List (LeafEntry K))
    (key : K) :
    nextRow config tree entries key ∈ lockable tree entries := by
  rw [nextRow, lockable]
  cases found : firstVisible tree.tuples (above config entries key) with
  | none => exact mem_cons_self
  | some offset =>
    obtain ⟨entry, inside, same⟩ := mem_map.mp (mem_of_find?_eq_some found)
    exact mem_cons_of_mem _ (mem_map.mpr ⟨entry, mem_of_mem_filter inside, same⟩)

include ledger in
/-- A fresh placeholder. -/
theorem fresh {fresh : Offset} (absent : rowOf config entries key = none)
    (unused : ¬ Allocated config tree.allocations fresh) (still : Represents config after
      (below config entries key ++ ⟨key, fresh⟩ :: above config entries key))
    (tuples : after.tuples = update tree.tuples fresh ⟨⟨0, 0, .placeholder⟩, key, value⟩)
    (endGap : after.endGapOffset = tree.endGapOffset) :
    Ledger config after (below config entries key ++ ⟨key, fresh⟩ :: above config entries key)
      holds ((key, value) :: reserves) := by
  have whole := ledger.represents.absent absent
  have apart : ∀ offset ∈ lockable tree entries, offset ≠ fresh := fun offset member same =>
    unused (same ▸ ledger.represents.rows.allocated offset member)
  have old : ∀ entry ∈ entries,
      entry ∈ below config entries key ++ ⟨key, fresh⟩ :: above config entries key := by
    intro entry member
    rw [whole] at member
    rcases mem_append.mp member with left | right
    · exact mem_append_left _ left
    · exact mem_append_right _ (mem_cons_of_mem _ right)
  have locked : ∀ offset, offset ∈ lockable after (below config entries key ++
      ⟨key, fresh⟩ :: above config entries key) ↔
      offset = fresh ∨ offset ∈ lockable tree entries := by
    intro offset
    rw [lockable, lockable, endGap]
    conv_rhs => rw [whole]
    simp only [map_append, map_cons, mem_cons, mem_append]
    tauto
  have nobody : ∀ mode, (mode, fresh) ∉ holds := fun mode held =>
    apart _ (ledger.visible _ held).1 rfl
  refine ⟨still, fun offset member => ?_, fun hold member => ?_, fun reserve member => ?_, ?_⟩
  · rw [tuples]
    rcases (locked offset).mp member with rfl | before
    · rw [update_self, count_eq_zero.mpr (nobody _),
        count_eq_zero.mpr (nobody _)]
      exact HeldBy.zero
    · rw [update_of_ne (apart offset before)]
      exact ledger.words offset before
  · obtain ⟨before, seen⟩ := ledger.visible hold member
    refine ⟨(locked _).mpr (.inr before), ?_⟩
    rw [isVisible, tuples, update_of_ne (apart _ before)]
    exact seen
  · rcases mem_cons.mp member with rfl | member
    · exact ⟨⟨key, fresh⟩, mem_append_right _ mem_cons_self, rfl, by simp [tuples]⟩
    · obtain ⟨entry, inside, same, state⟩ := ledger.reserved reserve member
      have differs := apart _ (row_lockable inside)
      exact ⟨entry, old entry inside, same, by rw [tuples, update_of_ne differs]; exact state⟩
  · rw [map_cons, nodup_cons]
    refine ⟨fun member => ?_, ledger.apart⟩
    obtain ⟨reserve, inside, same⟩ := mem_map.mp member
    obtain ⟨entry, there, key', -⟩ := ledger.reserved reserve inside
    have found := ledger.represents.rowOf_eq there
    rw [key', same, absent] at found
    exact Option.some_ne_none _ found.symm

include ledger in
/-- A tombstone comes back. -/
theorem revived {version : Nat} (member : entry ∈ entries)
    (dead : (tree.tuples entry.tupleOffset).header.valid = .tombstone)
    (still : Represents config after entries)
    (tuples : after.tuples = update tree.tuples entry.tupleOffset ⟨⟨0, version, .placeholder⟩,
      entry.key, value⟩) (endGap : after.endGapOffset = tree.endGapOffset) :
    Ledger config after entries holds ((entry.key, value) :: reserves) := by
  have hidden : ¬ isVisible tree.tuples entry.tupleOffset := by simp [isVisible, dead]
  have word := ledger.row_word member
  rw [ledger.unlocked (row_lockable member) hidden] at word
  have other : ∀ reserve ∈ reserves, reserve.1 ≠ entry.key := fun reserve inside =>
    ledger.reserve_ne member (by simp [dead]) inside
  refine ledger.rewrite still endGap member tuples word (fun _ _ _ => rfl)
    (fun mode held => absurd (ledger.visible _ held).2 hidden) (fun reserve inside => ?_) ?_
  · rcases mem_cons.mp inside with rfl | inside
    · exact .inl ⟨rfl, rfl, rfl⟩
    · exact .inr ⟨other reserve inside, inside⟩
  · rw [map_cons, nodup_cons]
    refine ⟨fun inside => ?_, ledger.apart⟩
    obtain ⟨reserve, there, same⟩ := mem_map.mp inside
    exact other reserve there same

/-- An accepted insert is refused memory or reserves its key. -/
theorem insert_accepted [Inhabited K] (value : V)
    {processor : Option (NextProcessor K V)}
    (represents : Represents config tree entries) (free : Free config tree entries key)
    (accepted : consulted config tree entries key processor none = (true, tuples))
    (relocked : Relocked tree.tuples tuples)
    (ledger : Ledger config { tree with tuples } entries holds reserves) :
    (runOn (insertImpl config key value .placeholder processor none) tree).1 = .error .badAlloc ∨
    ∃ after entries',
      runOn (insertImpl config key value .placeholder processor none) tree = (.ok true, after) ∧
      Quiet tree entries after entries' ∧
      Ledger config after entries' holds ((key, value) :: reserves) := by
  have locks : Quiet tree entries { tree with tuples } entries := Quiet.relocked relocked
  have inUse : TupleState.placeholder ≠ .tombstone := by simp
  cases row : rowOf config entries key with
  | none =>
    obtain ⟨_, after, ran, ⟨rfl, -⟩ | ⟨fresh, unused, ⟨rfl, still, stored, endGap, -⟩ |
      ⟨rfl, -⟩⟩⟩ := insertImpl_outcome value represents inUse row accepted relocked.keeps
    · exact .inl (by rw [ran])
    · exact .inr ⟨after, _, ran,
        locks.trans (Quiet.insert ledger.represents row unused stored endGap (by simp)),
        ledger.fresh row unused still stored endGap⟩
    · exact .inl (by rw [ran])
  | some entry =>
    obtain ⟨member, rfl⟩ : entry ∈ entries ∧ entry.key = key :=
      ⟨mem_of_find?_eq_some row, rowOf_key row⟩
    have dead := free entry row
    have still : (tuples entry.tupleOffset).header.valid = .tombstone :=
      (relocked entry.tupleOffset).2.1.trans dead
    obtain ⟨after, ran, represents', stored, endGap, -⟩ := insertImpl_revived value represents
      inUse row dead accepted relocked.keeps
      (ledger.unlocked (row_lockable member) (by simp [isVisible, still]))
    exact .inr ⟨after, entries, ran,
      locks.trans (Quiet.rewrite stored endGap (by simp [still]) (by simp)),
      ledger.revived member still represents' stored endGap⟩

include ledger in
/-- An insert: it is refused memory, or the key is in use or its next row is locked and nothing
changes, or the key is reserved and the next row is locked when that is asked for. -/
theorem insert [Inhabited K] {Table : Type} (insertKey : InsertKey Table K V) :
    (runOn (insertCall config insertKey) tree).1 = .error .badAlloc ∨
    runOn (insertCall config insertKey) tree = (.ok false, tree) ∨
    ∃ after entries', runOn (insertCall config insertKey) tree = (.ok true, after) ∧
      Quiet tree entries after entries' ∧
      Ledger config after entries' ((if insertKey.requireLockNextKey then
          [(.exclusive, nextRow config tree entries insertKey.key)] else []) ++ holds)
        ((insertKey.key, insertKey.value) :: reserves) := by
  have represents := ledger.represents
  have call : insertCall config insertKey = (insertImpl config insertKey.key insertKey.value
      .placeholder (if insertKey.requireLockNextKey then some nextKeyProcessor else none) none :
        TreeM K V Bool) := by
    unfold insertCall
    split <;> rfl
  rw [call]
  by_cases free : Free config tree entries insertKey.key
  · by_cases require : insertKey.requireLockNextKey = true
    · simp only [require, if_true]
      rcases ledger.lock .exclusive (nextRow_lockable config tree entries insertKey.key) with
        ⟨tuples, taken, -, relocked, locked⟩ | refused
      · have accepted : consulted config tree entries insertKey.key (some nextKeyProcessor) none =
            (true, tuples) := by
          simp [consulted, consult, nextKeyProcessor, taken]
        exact (insert_accepted insertKey.value represents free accepted relocked locked).imp_right
          .inr
      · have answer : consulted config tree entries insertKey.key (some nextKeyProcessor) none =
            (false, tree.tuples) := by
          simp [consulted, consult, nextKeyProcessor, refused]
        exact .inr (.inl (insertImpl_refused insertKey.value represents (by simp) free answer))
    · simp only [require]
      exact (insert_accepted insertKey.value represents free rfl (.refl _) ledger).imp_right .inr
  · simp only [Free, not_forall] at free
    obtain ⟨entry, row, taken⟩ := free
    exact .inr (.inl (insertImpl_taken insertKey.value represents row taken))

/-! ## Scans -/

/-- The locks a scan takes on the rows it returns. -/
def rowHolds (mode : LockMode) (rows : List (LeafEntry K)) : List (LockMode × Offset) :=
  rows.map fun row => (mode, row.tupleOffset)

/-- The rows of a plan are locked one after the other until one refuses; then the protection
row is. -/
theorem attempt (mode : LockMode) (rows : List (LeafEntry K)) (protection : Offset)
    (inside : ∀ row ∈ rows, row ∈ entries) (last : protection ∈ lockable tree entries)
    (ledger : Ledger config tree entries holds reserves) (results : List (RowEntity K))
    (nextRow : Offset) :
    ∃ tuples, Relocked tree.tuples tuples ∧
      ((BPlusTree.attempt (scanProcessor mode) (rows.map LeafEntry.tupleOffset) protection
          (results, nextRow) tree.tuples = (true, (results ++ rows, protection), tuples) ∧
        Ledger config { tree with tuples } entries
          ((mode, protection) :: ((rowHolds mode rows).reverse ++ holds)) reserves) ∨
      ∃ taken, taken <+: rows ∧
        BPlusTree.attempt (scanProcessor mode) (rows.map LeafEntry.tupleOffset) protection
          (results, nextRow) tree.tuples = (false, (results ++ taken, nextRow), tuples) ∧
        Ledger config { tree with tuples } entries ((rowHolds mode taken).reverse ++ holds)
          reserves) := by
  induction rows generalizing tree holds results with
  | nil =>
    rcases ledger.lock mode last with ⟨tuples, taken, -, relocked, locked⟩ | refused
    · refine ⟨tuples, relocked, .inl ⟨?_, locked⟩⟩
      simp [BPlusTree.attempt, scanProcessor, taken]
    · refine ⟨tree.tuples, .refl _, .inr ⟨[], nil_prefix, ?_, ledger⟩⟩
      simp [BPlusTree.attempt, scanProcessor, refused]
  | cons row rows ih =>
    have member := inside row mem_cons_self
    rcases ledger.lock mode (row_lockable member) with
      ⟨locked, taken, -, relocked, entered⟩ | refused
    · have key : (locked row.tupleOffset).key = row.key :=
        (relocked _).1.trans (ledger.represents.rows.keys row member)
      have pushed : results ++ [(⟨(locked row.tupleOffset).key, row.tupleOffset⟩ : RowEntity K)] ++
          rows = results ++ row :: rows := by
        rw [key, append_assoc]
        rfl
      have later : protection ∈ lockable { tree with tuples := locked } entries := last
      obtain ⟨tuples, more, outcome⟩ := ih (fun other there => inside other
        (mem_cons_of_mem _ there)) later entered
        (results ++ [⟨(locked row.tupleOffset).key, row.tupleOffset⟩])
      refine ⟨tuples, relocked.trans more, ?_⟩
      rcases outcome with ⟨done, ledger'⟩ | ⟨prior, initial, done, ledger'⟩
      · left
        refine ⟨?_, by simpa [rowHolds] using ledger'⟩
        simp only [map_cons, BPlusTree.attempt, scanProcessor, taken, Bool.false_eq_true,
          if_false]
        rw [← pushed]
        exact done
      · right
        refine ⟨row :: prior, cons_prefix_cons.mpr ⟨rfl, initial⟩, ?_,
          by simpa [rowHolds] using ledger'⟩
        simp only [map_cons, BPlusTree.attempt, scanProcessor, taken, Bool.false_eq_true,
          if_false]
        rw [done, key, append_assoc]
        rfl
    · refine ⟨tree.tuples, .refl _, .inr ⟨[], nil_prefix, ?_, ledger⟩⟩
      simp [BPlusTree.attempt, scanProcessor, refused]

end Ledger

end UbApplication.Tigon.TwoPLPasha
