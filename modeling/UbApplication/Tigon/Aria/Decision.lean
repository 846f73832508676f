import UbApplication.Tigon.Aria.Reservation

/-!
# Which transactions commit

A transaction finds a smaller one in the words exactly when a smaller one of the batch has made the
reservation. So which transactions commit is a function of the ids and the read and write sets of
the batch, whatever the interleaving and whatever earlier epochs have left.
-/

namespace UbApplication.Tigon.Aria

variable {Key Value : Type} [DecidableEq Key]

/-- What the decision depends on: the id of a transaction, the keys that it reads (other than from a
local index) and writes, and whether it has ended without a result. -/
structure Footprint (Key : Type) where
  id : Nat
  reads : List Key
  writes : List Key
  abortNoRetry : Bool
deriving DecidableEq, Repr

namespace Footprint

/-- Read-only transactions are not analyzed under the optimization. -/
def exempt (options : Options) (f : Footprint Key) : Bool :=
  options.readOnlyOptimization && f.writes.isEmpty

/-- The transaction takes part in the reservations. -/
def reserves (options : Options) (f : Footprint Key) : Bool := !(f.abortNoRetry || f.exempt options)

def keys (f : Footprint Key) : Access → List Key
  | .read => f.reads
  | .write => f.writes

/-- A smaller transaction of the batch reserves one of some keys. -/
def meets (options : Options) (all : List (Footprint Key)) (access : Access) (keys : List Key)
    (tid : Nat) : Bool :=
  keys.any fun key => all.any fun f =>
    f.reserves options && decide (f.id < tid) && decide (key ∈ f.keys access)

/-- Whether a transaction commits, from the footprints of the batch. -/
def survives (options : Options) (all : List (Footprint Key)) (f : Footprint Key) : Bool :=
  if f.abortNoRetry then false
  else if f.exempt options then true
  else if meets options all .write f.writes f.id then false
  else if options.reorderingOptimization then
    !meets options all .read f.writes f.id || !meets options all .write f.reads f.id
  else !meets options all .write f.reads f.id

end Footprint

namespace Batch

variable (b : Batch Key Value) (options : Options)

def footprint (t : Txn Key Value) : Footprint Key :=
  ⟨t.id, (b.execution t).checkedReads, (b.execution t).writes, (b.execution t).abortNoRetry⟩

def footprints : List (Footprint Key) := b.txns.map b.footprint

variable {b options} {words : Key → Word}

omit [DecidableEq Key] in
/-- A reservation comes from a footprint. -/
theorem mem_reservations {r : Reservation Key} :
    r ∈ b.reservations options ↔ ∃ f ∈ b.footprints, f.reserves options = true ∧ f.id = r.tid ∧
      r.key ∈ f.keys r.access := by
  unfold reservations footprints
  rw [List.mem_flatMap]
  simp only [List.mem_map, exists_exists_and_eq_and]
  apply exists_congr
  intro t
  apply and_congr_right
  intro _
  unfold reservationsOf
  by_cases out : ((b.execution t).abortNoRetry || (b.execution t).exempt options) = true
  · have apart : (b.footprint t).reserves options = false := by
      show (!((b.execution t).abortNoRetry || (b.execution t).exempt options)) = false
      rw [out]
      rfl
    simp [out, apart]
  · have takesPart : (b.footprint t).reserves options = true := by
      show (!((b.execution t).abortNoRetry || (b.execution t).exempt options)) = true
      simpa using out
    simp only [out, Bool.false_eq_true, if_false, takesPart, true_and]
    obtain ⟨tid, key, access⟩ := r
    cases access with
    | read => simp [footprint, Footprint.keys, and_comm]
    | write => simp [footprint, Footprint.keys, and_comm]

omit [DecidableEq Key] in
/-- The ids of reservations fit into their fields. -/
theorem reservations_range : ∀ r ∈ b.reservations options, 0 < r.tid ∧ r.tid < 2 ^ 20 := by
  intro r member
  obtain ⟨f, inBatch, _, same, _⟩ := mem_reservations.mp member
  obtain ⟨t, isTxn, rfl⟩ := List.mem_map.mp inBatch
  rw [← same]
  exact ⟨b.positive t isTxn, b.narrow t isTxn⟩

omit [DecidableEq Key] in
/-- Nothing is reserved at the start. -/
theorem reserving_sound : b.reserving.Sound b.epoch (b.reservations options) where
  bounded key := Nat.le_of_lt (b.leftOver key)
  owned key _ same := absurd same (Nat.ne_of_lt (b.leftOver key))
  made _ _ _ wrong := by cases wrong
  tried _ _ _ _ _ wrong := by cases wrong
  checked _ wrong := by cases wrong

section

variable (reserved : b.Reserved options words)
include reserved

/-- A key has a smaller reservation of the batch. -/
theorem Reserved.smaller_iff {access : Access} {key : Key} {tid : Nat} :
    b.smaller access (words key) tid = true ↔
      ∃ f ∈ b.footprints, f.reserves options = true ∧ f.id < tid ∧ key ∈ f.keys access := by
  obtain ⟨labels, s, taken, finished, rfl⟩ := reserved
  have sound : s.Sound b.epoch (b.reservations options) :=
    Machine.run_invariant (fun _ => True) (Reserving.Sound b.epoch (b.reservations options))
      (fun _ label _ before _ stepped => before.step b.epochNarrow reservations_range label stepped)
      (fun _ _ => trivial) reserving_sound taken
  unfold smaller
  rw [decide_eq_true_eq]
  constructor
  · intro found
    obtain ⟨r, member, rfl, rfl, same⟩ := sound.owned key access found.1 found.2.2
    obtain ⟨f, inBatch, takesPart, isTid, isKey⟩ := mem_reservations.mp member
    exact ⟨f, inBatch, takesPart, by omega, isKey⟩
  · intro found
    obtain ⟨f, inBatch, takesPart, less, isKey⟩ := found
    have member : ⟨f.id, key, access⟩ ∈ b.reservations options :=
      mem_reservations.mpr ⟨f, inBatch, takesPart, rfl, isKey⟩
    obtain ⟨index, bound, isHere⟩ := List.getElem_of_mem member
    have made := sound.made index _ (List.getElem?_eq_some_iff.mpr ⟨bound, isHere⟩)
      (finished index bound)
    exact ⟨made.1, Nat.lt_of_le_of_lt made.2.2 less, made.2.1⟩

/-- So for a set of keys. -/
theorem Reserved.any_smaller {access : Access} {keys : List Key} {tid : Nat} :
    (keys.any fun key => b.smaller access (words key) tid) =
      Footprint.meets options b.footprints access keys tid := by
  unfold Footprint.meets
  apply congrArg keys.any
  funext key
  rw [Bool.eq_iff_iff, reserved.smaller_iff, List.any_eq_true]
  simp [and_assoc]

/-- The decision is that of the footprints. -/
theorem Reserved.commits_eq (t : Txn Key Value) :
    b.commits options words t = Footprint.survives options b.footprints (b.footprint t) := by
  have exempt : (b.footprint t).exempt options = (b.execution t).exempt options := rfl
  have abort : (b.footprint t).abortNoRetry = (b.execution t).abortNoRetry := rfl
  unfold commits Footprint.survives raw war waw
  rw [reserved.any_smaller, reserved.any_smaller, reserved.any_smaller, exempt, abort]
  cases (b.execution t).exempt options with
  | true => simp
  | false => rfl

end

end Batch

end UbApplication.Tigon.Aria
