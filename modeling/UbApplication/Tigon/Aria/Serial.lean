import Mathlib.Data.List.Nodup
import UbApplication.Tigon.Aria.Decision
import UbApplication.Tigon.Aria.Writes

/-!
# Batches are serializable

Every transaction has read the snapshot, so it must come before the writers of what it has read. Of
the transactions that commit, those that have read what a smaller transaction writes come first, the
larger ones before the smaller ones: no smaller transaction has read what they write. The others
follow by increasing id. Read-only transactions that have not been analyzed come before all.
-/

namespace UbApplication.Tigon.Aria

open List

variable {Key Value : Type}

/-- An execution depends on what it reads. -/
theorem Program.execute_congr {db db' : Database Key Value} (program : Program Key Value)
    (same : ∀ r ∈ (program.execute db).reads, db' r.key = db r.key) :
    program.execute db' = program.execute db := by
  induction program with
  | read readKey next ih =>
    have here : db' readKey.key = db readKey.key := same readKey mem_cons_self
    have later := ih (db readKey.key) fun r member => same r (mem_cons_of_mem _ member)
    show ({ (next (db' readKey.key)).execute db' with
      readSet := (readKey, db' readKey.key) :: ((next (db' readKey.key)).execute db').readSet } :
      Execution Key Value) = _
    rw [here, later]
    rfl
  | commit writes => rfl
  | abortNoRetry => rfl

variable {t : Txn Key Value} {t' : Txn Key Value}

namespace Batch

variable (b : Batch Key Value) (options : Options) (words : Key → Word)

/-- The first transaction writes nothing that the second has read. -/
def Precedes (first second : Txn Key Value) : Prop :=
  ∀ r ∈ (b.execution second).reads, r.key ∉ (b.execution first).writes

/-- The committed transactions that have not been analyzed. -/
def exempted : List (Txn Key Value) :=
  (b.committed options words).filter fun t => (b.execution t).exempt options

/-- The committed transactions that have read what a smaller one writes, the larger ones first. -/
def backward : List (Txn Key Value) :=
  ((b.committed options words).filter fun t =>
    !(b.execution t).exempt options && b.raw options words t).mergeSort fun t t' =>
      decide (t'.id ≤ t.id)

/-- The other committed transactions, the smaller ones first. -/
def forward : List (Txn Key Value) :=
  ((b.committed options words).filter fun t =>
    !(b.execution t).exempt options && !b.raw options words t).mergeSort fun t t' =>
      decide (t.id ≤ t'.id)

def order : List (Txn Key Value) :=
  b.exempted options words ++ (b.backward options words ++ b.forward options words)

/-- The order has all that commit. -/
theorem order_perm : (b.order options words).Perm (b.committed options words) := by
  have parts := filter_append_perm (fun t => (b.execution t).exempt options)
    (b.committed options words)
  have rest := filter_append_perm (fun t => b.raw options words t)
    ((b.committed options words).filter fun t => !(b.execution t).exempt options)
  rw [filter_filter, filter_filter] at rest
  refine List.Perm.trans (List.Perm.append_left _ ?_) parts
  refine List.Perm.trans (List.Perm.append ?_ ?_) rest
  · exact (mergeSort_perm ..).trans (by simp only [Bool.and_comm]; exact .rfl)
  · exact (mergeSort_perm ..).trans (by simp only [Bool.and_comm]; exact .rfl)

variable {b options words}

/-- When a transaction commits. -/
theorem commits_iff : b.commits options words t = true ↔
    (b.execution t).abortNoRetry = false ∧ ((b.execution t).exempt options = true ∨
      b.waw options words t = false ∧ (b.raw options words t = false ∨
        options.reorderingOptimization = true ∧ b.war options words t = false)) := by
  unfold commits
  cases (b.execution t).abortNoRetry
  · cases (b.execution t).exempt options
    · cases b.waw options words t <;> cases options.reorderingOptimization <;>
        cases b.raw options words t <;> cases b.war options words t <;> simp
    · simp
  · simp

/-- A writer that commits has reserved. -/
theorem reserves_of_writes (committed : b.commits options words t = true)
    {key : Key} (written : key ∈ (b.execution t).writes) :
    (b.footprint t).reserves options = true := by
  have known := commits_iff.mp committed
  have notEmpty : (b.execution t).writes.isEmpty = false := by
    cases here : (b.execution t).writes with
    | nil =>
      rw [here] at written
      cases written
    | cons => rfl
  show (!((b.execution t).abortNoRetry || options.readOnlyOptimization &&
    (b.execution t).writes.isEmpty)) = true
  rw [known.1, notEmpty, Bool.and_false]
  rfl

/-- So has one that was analyzed. -/
theorem reserves_of_analyzed (committed : b.commits options words t = true)
    (analyzed : (b.execution t).exempt options = false) :
    (b.footprint t).reserves options = true := by
  have known := commits_iff.mp committed
  show (!((b.execution t).abortNoRetry || (b.execution t).exempt options)) = true
  rw [known.1, analyzed]
  rfl

/-- What commits is of the batch. -/
theorem mem_committed :
    t ∈ b.committed options words ↔ t ∈ b.txns ∧ b.commits options words t = true := mem_filter

/-- What comes backward has no reader before it. -/
theorem mem_backward (member : t ∈ b.backward options words) :
    t ∈ b.committed options words ∧ (b.execution t).exempt options = false ∧
      b.war options words t = false := by
  have inside := mem_filter.mp ((mergeSort_perm ..).mem_iff.mp member)
  have flags := Bool.and_eq_true_iff.mp inside.2
  have analyzed : (b.execution t).exempt options = false := by simpa using flags.1
  refine ⟨inside.1, analyzed, ?_⟩
  cases (commits_iff.mp (mem_committed.mp inside.1).2).2 with
  | inl isExempt => rw [analyzed] at isExempt; cases isExempt
  | inr rest =>
    cases rest.2 with
    | inl notRaw => rw [flags.2] at notRaw; cases notRaw
    | inr both => exact both.2

/-- What comes forward has read nothing written before it. -/
theorem mem_forward (member : t ∈ b.forward options words) :
    t ∈ b.committed options words ∧ (b.execution t).exempt options = false ∧
      b.raw options words t = false := by
  have inside := mem_filter.mp ((mergeSort_perm ..).mem_iff.mp member)
  simpa using inside

/-- Disjoint sets make one precede the other. -/
theorem precedes_of_checked (member : t ∈ b.txns) (member' : t' ∈ b.txns)
    (apart : ∀ key ∈ (b.execution t').checkedReads, key ∉ (b.execution t).writes) :
    b.Precedes t t' := by
  intro r inside
  by_cases isLocal : r.localIndexRead = true
  · exact b.readOnlyIndex t' member' r inside isLocal t member
  · apply apart
    apply mem_map_of_mem
    exact mem_filter.mpr ⟨inside, by simpa using isLocal⟩

/-- The ids of a part are distinct. -/
theorem ids_pairwise {part : List (Txn Key Value)} {chosen : Txn Key Value → Bool}
    (perm : part.Perm ((b.committed options words).filter chosen)) :
    part.Pairwise fun t t' => t.id ≠ t'.id := by
  have sub : (((b.committed options words).filter chosen).map Txn.id).Nodup :=
    b.distinct.sublist ((filter_sublist.trans filter_sublist).map _)
  exact pairwise_map.mp ((perm.map Txn.id).nodup_iff.mpr sub)

variable [DecidableEq Key] {db : Database Key Value}

/-- In such an order all read the snapshot. -/
theorem serial_eq {order : List (Txn Key Value)} (ordered : order.Pairwise b.Precedes)
    (same : ∀ t ∈ order, ∀ r ∈ (b.execution t).reads, db r.key = b.snapshot r.key) :
    serial db order =
      (order.map b.execution,
        applyWrites db (order.map fun t => (b.execution t).writeSet).flatten) := by
  induction order generalizing db with
  | nil => rfl
  | cons t order ih =>
    have split := pairwise_cons.mp ordered
    have here : t.program.execute db = b.execution t :=
      t.program.execute_congr (same t mem_cons_self)
    have kept : ∀ other ∈ order, ∀ r ∈ (b.execution other).reads,
        applyWrites db (b.execution t).writeSet r.key = b.snapshot r.key := by
      intro other member r inside
      rw [applyWrites_of_not_mem (split.1 other member r inside)]
      exact same other (mem_cons_of_mem _ member) r inside
    have later := ih split.2 kept
    show (t.program.execute db :: (serial (applyWrites db (t.program.execute db).writeSet) order).1,
      (serial (applyWrites db (t.program.execute db).writeSet) order).2) = _
    rw [here, later, map_cons, map_cons, flatten_cons, applyWrites_append]

section

variable (reserved : b.Reserved options words)
include reserved

/-- Two that commit write different keys. -/
theorem Reserved.committed_apart
    (member : t ∈ b.txns) (member' : t' ∈ b.txns) (committed : b.commits options words t = true)
    (committed' : b.commits options words t' = true) (differ : t.id ≠ t'.id) :
    Apart (b.execution t).writeSet (b.execution t').writeSet := by
  -- the larger of the two would have found the smaller one
  have larger {u u' : Txn Key Value} (inBatch : u ∈ b.txns)
    (commits : b.commits options words u = true)
      (commits' : b.commits options words u' = true) (less : u.id < u'.id) {key : Key}
      (written : key ∈ (b.execution u).writes) (written' : key ∈ (b.execution u').writes) :
        False := by
    have found : b.smaller .write (words key) u'.id = true :=
      reserved.smaller_iff.mpr ⟨b.footprint u, mem_map_of_mem inBatch,
        reserves_of_writes commits written, less, written⟩
    have takesPart := reserves_of_writes commits' written'
    have known := commits_iff.mp commits'
    have analyzed : (b.execution u').exempt options = false := by
      have both : (!((b.execution u').abortNoRetry || (b.execution u').exempt options)) = true :=
        takesPart
      rw [known.1] at both
      simpa using both
    have isWaw : b.waw options words u' = true := by
      unfold waw
      rw [analyzed]
      exact any_eq_true.mpr ⟨key, written', found⟩
    cases known.2 with
    | inl isExempt => rw [analyzed] at isExempt; cases isExempt
    | inr rest => rw [isWaw] at rest; cases rest.1
  intro key written written'
  cases Nat.lt_or_gt_of_ne differ with
  | inl less => exact larger member committed committed' less written written'
  | inr less => exact larger member' committed' committed less written' written

/-- A read after a smaller write is found. -/
theorem Reserved.raw_of_conflict (member : t ∈ b.txns)
    (committed : b.commits options words t = true)
    (analyzed : (b.execution t').exempt options = false) (less : t.id < t'.id) {key : Key}
    (written : key ∈ (b.execution t).writes) (isRead : key ∈ (b.execution t').checkedReads) :
    b.raw options words t' = true := by
  unfold raw
  rw [analyzed]
  apply any_eq_true.mpr
  exact ⟨key, isRead, reserved.smaller_iff.mpr ⟨b.footprint t, mem_map_of_mem member,
    reserves_of_writes committed written, less, written⟩⟩

/-- A write after a smaller read is found. -/
theorem Reserved.war_of_conflict (member' : t' ∈ b.txns)
    (committed' : b.commits options words t' = true)
    (analyzed : (b.execution t).exempt options = false)
    (analyzed' : (b.execution t').exempt options = false) (less : t'.id < t.id) {key : Key}
    (written : key ∈ (b.execution t).writes) (isRead : key ∈ (b.execution t').checkedReads) :
    b.war options words t = true := by
  unfold war
  rw [analyzed]
  apply any_eq_true.mpr
  exact ⟨key, written, reserved.smaller_iff.mpr ⟨b.footprint t', mem_map_of_mem member',
    reserves_of_analyzed committed' analyzed', less, isRead⟩⟩

/-- The backward part is in order. -/
theorem Reserved.backward_pairwise :
    (b.backward options words).Pairwise b.Precedes := by
  have sorted : (b.backward options words).Pairwise fun t t' => decide (t'.id ≤ t.id) = true :=
    pairwise_mergeSort (fun _ _ _ => by simp only [decide_eq_true_eq]; omega)
      (fun _ _ => by simp only [Bool.or_eq_true, decide_eq_true_eq]; omega) _
  have distinct := ids_pairwise (mergeSort_perm ((b.committed options words).filter fun t =>
    !(b.execution t).exempt options && b.raw options words t) fun t t' => decide (t'.id ≤ t.id))
  refine (sorted.and distinct).imp_of_mem ?_
  intro t t' member member' less
  have known := mem_backward member
  have known' := mem_backward member'
  have inBatch := mem_committed.mp known.1
  have inBatch' := mem_committed.mp known'.1
  apply precedes_of_checked inBatch.1 inBatch'.1
  intro key isRead written
  have smaller : t'.id < t.id := Nat.lt_of_le_of_ne (of_decide_eq_true less.1) less.2.symm
  have found := reserved.war_of_conflict inBatch'.1 inBatch'.2 known.2.1 known'.2.1 smaller written
    isRead
  rw [known.2.2] at found
  cases found

/-- The forward part is in order. -/
theorem Reserved.forward_pairwise :
    (b.forward options words).Pairwise b.Precedes := by
  have sorted : (b.forward options words).Pairwise fun t t' => decide (t.id ≤ t'.id) = true :=
    pairwise_mergeSort (fun _ _ _ => by simp only [decide_eq_true_eq]; omega)
      (fun _ _ => by simp only [Bool.or_eq_true, decide_eq_true_eq]; omega) _
  have distinct := ids_pairwise (mergeSort_perm ((b.committed options words).filter fun t =>
    !(b.execution t).exempt options && !b.raw options words t) fun t t' => decide (t.id ≤ t'.id))
  refine (sorted.and distinct).imp_of_mem ?_
  intro t t' member member' less
  have known' := mem_forward member'
  have inBatch := mem_committed.mp (mem_forward member).1
  apply precedes_of_checked inBatch.1 (mem_committed.mp known'.1).1
  intro key isRead written
  have smaller : t.id < t'.id := Nat.lt_of_le_of_ne (of_decide_eq_true less.1) less.2
  have found := reserved.raw_of_conflict inBatch.1 inBatch.2 known'.2.1 smaller written isRead
  rw [known'.2.2] at found
  cases found

/-- The backward part precedes the forward part. -/
theorem Reserved.backward_forward
    (member : t ∈ b.backward options words) (member' : t' ∈ b.forward options words) :
    b.Precedes t t' := by
  have known := mem_backward member
  have known' := mem_forward member'
  have inBatch := mem_committed.mp known.1
  have inBatch' := mem_committed.mp known'.1
  apply precedes_of_checked inBatch.1 inBatch'.1
  intro key isRead written
  cases Nat.lt_trichotomy t.id t'.id with
  | inl less =>
    have found := reserved.raw_of_conflict inBatch.1 inBatch.2 known'.2.1 less written isRead
    rw [known'.2.2] at found
    cases found
  | inr rest =>
    cases rest with
    | inl same =>
      -- a transaction is not in both parts
      have isSame := inj_on_of_nodup_map b.distinct inBatch.1 inBatch'.1 same
      have flags := mem_filter.mp ((mergeSort_perm ..).mem_iff.mp member)
      have isRaw := (Bool.and_eq_true_iff.mp flags.2).2
      rw [isSame, known'.2.2] at isRaw
      cases isRaw
    | inr less =>
      have found := reserved.war_of_conflict inBatch'.1 inBatch'.2 known.2.1 known'.2.1 less written
        isRead
      rw [known.2.2] at found
      cases found

/-- The whole order. -/
theorem Reserved.order_pairwise :
    (b.order options words).Pairwise b.Precedes := by
  have nothing {t : Txn Key Value} (member : t ∈ b.exempted options words) (t' : Txn Key Value) :
      b.Precedes t t' := by
    intro r _ written
    have isExempt := (mem_filter.mp member).2
    have empty : (b.execution t).writes = [] := isEmpty_iff.mp (Bool.and_eq_true_iff.mp isExempt).2
    rw [empty] at written
    cases written
  apply pairwise_append.mpr
  refine ⟨?_, ?_, fun t member t' _ => nothing member t'⟩
  · exact pairwise_iff_forall_sublist.mpr fun inside =>
      nothing (inside.subset mem_cons_self) _
  · apply pairwise_append.mpr
    exact ⟨reserved.backward_pairwise, reserved.forward_pairwise,
      fun t member t' member' => reserved.backward_forward member member'⟩

/-- The write sets are apart. -/
theorem Reserved.writes_apart :
    ((b.committed options words).map fun t => (b.execution t).writeSet).Pairwise Apart := by
  have all : (b.committed options words).Perm ((b.committed options words).filter fun _ =>
    true) := by
    rw [filter_true]
  have distinct := ids_pairwise all
  apply pairwise_map.mpr
  refine distinct.imp_of_mem ?_
  intro t t' member member' differ
  have inBatch := mem_committed.mp member
  have inBatch' := mem_committed.mp member'
  exact reserved.committed_apart inBatch.1 inBatch'.1 inBatch.2 inBatch'.2 differ

end

/-- What the commit phase leaves. -/
theorem Written.eq (written : b.Written options words db)
    (apart : ((b.committed options words).map fun t => (b.execution t).writeSet).Pairwise Apart) :
    db = applyWrites b.snapshot
      ((b.committed options words).map fun t => (b.execution t).writeSet).flatten := by
  obtain ⟨labels, s, taken, done, rfl⟩ := written
  have leads := Machine.run_invariant (fun _ => True) (Writing.Leads (applyWrites b.snapshot
    ((b.committed options words).map fun t => (b.execution t).writeSet).flatten))
    (fun _ index _ before _ stepped => before.step index stepped) (fun _ _ => trivial)
      ⟨apart, rfl⟩ taken
  have empty : s.pending.flatten = [] := flatten_eq_nil_iff.mpr done
  rw [← leads.2, empty]
  rfl

end Batch

/-- Which transactions of a batch commit is decided by the ids and the read and write sets, and one
after the other, in some order, they read from the snapshot what they have read in the batch and
leave the database that the batch leaves. -/
theorem batch_serializable [DecidableEq Key] (b : Batch Key Value) (options : Options)
    {words : Key → Word} (reserved : b.Reserved options words) :
    (∀ t, b.commits options words t = Footprint.survives options b.footprints (b.footprint t)) ∧
    ∀ db, b.Written options words db → ∃ order, order.Perm (b.committed options words) ∧
      serial b.snapshot order = (order.map b.execution, db) := by
  refine ⟨reserved.commits_eq, fun db written => ?_⟩
  have apart := reserved.writes_apart
  have perm := b.order_perm options words
  refine ⟨b.order options words, perm, ?_⟩
  rw [Batch.serial_eq reserved.order_pairwise (fun _ _ _ _ => rfl), written.eq apart,
    applyWrites_flatten_perm apart (perm.symm.map _)]

namespace Sample

/-- The first transaction writes the key that the second has read. -/
def writer : Txn Bool Nat := ⟨1, .commit [(false, 5)]⟩

def reader : Txn Bool Nat := ⟨2, .read ⟨false, false⟩ fun value => .commit [(true, value + 1)]⟩

def batch : Batch Bool Nat where
  txns := [writer, reader]
  epoch := 3
  snapshot _ := 7
  words _ := setRts (setEpoch 0 2) 9
  distinct := by decide
  positive := by decide
  narrow := by decide
  epochNarrow := by decide
  leftOver := by decide
  readOnlyIndex := by decide

/-- The reservations overlap, and one exchange fails and is tried again. -/
def schedule : List ReserveLabel :=
  [.load 0, .load 1, .exchange 1 false, .exchange 0 false, .load 2, .exchange 2 true, .load 0,
    .exchange 0 false, .load 2, .exchange 2 false]

def left : Bool → Word
  | false => setWts (setRts (setEpoch 0 3) 2) 1
  | true => setWts (setEpoch 0 3) 2

def after : Database Bool Nat
  | false => 5
  | true => 8

/-- The sample makes all its reservations. -/
theorem schedule_reserved : batch.Reserved ⟨true, true⟩ left := by
  obtain ⟨s, taken, finished, words⟩ : ∃ s,
      Machine.run (Reserving.step batch.epoch (batch.reservations ⟨true, true⟩)) batch.reserving
        schedule = some s ∧
      (∀ index < (batch.reservations ⟨true, true⟩).length, s.progress index = .finished) ∧
      ∀ key, s.words key = left key := by
    decide +kernel
  exact ⟨schedule, s, taken, finished, funext words⟩

/-- The sample applies all its writes. -/
theorem schedule_written : batch.Written ⟨true, true⟩ left after := by
  obtain ⟨s, taken, empty, db⟩ : ∃ s, Machine.run Writing.step ⟨batch.snapshot,
      (batch.committed ⟨true, true⟩ left).map fun t => (batch.execution t).writeSet⟩ [1, 0] =
        some s ∧
      (∀ rest ∈ s.pending, rest = []) ∧ ∀ key, s.db key = after key := by
    decide +kernel
  exact ⟨[1, 0], s, taken, empty, funext db⟩

/-- Both transactions commit, and the second comes before the first, whose write it has not seen. -/
theorem batch_serializable_pair :
    (∀ t, batch.commits ⟨true, true⟩ left t =
      Footprint.survives ⟨true, true⟩ batch.footprints (batch.footprint t)) ∧
    ∃ order, order.Perm (batch.committed ⟨true, true⟩ left) ∧
      serial batch.snapshot order = (order.map batch.execution, after) := by
  have both := batch_serializable batch ⟨true, true⟩ schedule_reserved
  exact ⟨both.1, both.2 after schedule_written⟩

end Sample

end UbApplication.Tigon.Aria
