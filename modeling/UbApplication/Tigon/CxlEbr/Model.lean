import Mathlib.Data.Fintype.Prod
import Mathlib.Logic.Function.Basic
import UbApplication.Lib.Machine

/-!
# Epoch-based reclamation across hosts

`CXL_EBR` keeps a global epoch and one local epoch for each thread in shared memory. A retired
object is put into the list of the retiring thread's local epoch, and the lists are reused modulo
three. A thread enters its next critical section by single accesses to the epochs, with those of
other threads in between. The epochs are 64-bit counters that go up by one and are numbers here. The
statistics of the garbage sizes are left out.
-/

namespace UbApplication.Tigon.CxlEbr

/-- `max_epoch`: the number of lists of retired objects of a thread. -/
def maxEpoch : Nat := 3

/-- `epoch_advance_threshold`: the garbage from which a thread tries to advance the global epoch. -/
def epochAdvanceThreshold : Nat := 100

/-- `max_coordinator_num`: the rows of `cxl_ebr_meta_vec`. -/
def maxCoordinatorNum : Nat := 8

/-- `max_thread_num`: the words of a row. -/
def maxThreadNum : Nat := 5

/-- The hosts and the threads of each. The array of the local epochs has a fixed size, and nothing
checks the numbers against it: with more threads in a host than a row has words, the last ones would
share their words with the threads of the next host. -/
structure Pod where
  coordinatorNum : Nat
  threadNum : Nat
  hostsFit : coordinatorNum ≤ maxCoordinatorNum
  threadsFit : threadNum ≤ maxThreadNum
deriving DecidableEq, Repr

abbrev Pod.Thread (pod : Pod) : Type := Fin pod.coordinatorNum × Fin pod.threadNum

/-- A shared object, by its pointer. -/
abbrev Object : Type := Nat

/-- The checks of `enter_critical_section`. -/
inductive Check where
  /-- `CHECK(cur_global_epoch > cur_local_epoch)`. -/
  | globalAhead
  /-- `CHECK(cur_local_epoch == cur_global_epoch - 1)`. -/
  | oneBehind
  /-- `CHECK(epoch_to_reclaim == local_ebr_meta.last_freed_epoch + 1)`. -/
  | nextReclaimed
deriving DecidableEq, Repr

/-- Where a thread is: in its transaction, or before the next access of `enter_critical_section`. -/
inductive Phase where
  | running
  | loadGlobal (curLocal : Nat)
  | scan (curLocal curGlobal i j : Nat) (advance : Bool)
  | swap (curLocal curGlobal : Nat)
  | reload (curLocal : Nat)
  | store (curLocal curGlobal : Nat)
  | reclaim (epoch i : Nat)
  | failed (check : Check)
deriving DecidableEq, Repr

/-- A thread: its `EBRMetaLocal`, where it is, and the objects that it may still use. -/
structure Local where
  phase : Phase
  lastFreedEpoch : Nat
  /-- `retired_objects`, by epoch modulo `max_epoch`. -/
  retiredObjects : Nat → List Object
  held : List Object

/-- A retirement: who retired which object in which local epoch. -/
structure Retirement (pod : Pod) where
  thread : pod.Thread
  epoch : Nat
  object : Object
deriving DecidableEq

/-- The shared epochs, the threads, and what has become of the objects. -/
structure State (pod : Pod) where
  globalEpoch : Nat
  localEpoch : pod.Thread → Nat
  own : pod.Thread → Local
  unlinked : List Object
  retired : List (Retirement pod)
  /-- The objects given to `cxlalloc_free`, in their order. -/
  freed : List Object

/-- What may happen. -/
inductive Label (pod : Pod) where
  /-- A thread reaches an object, and may use it from then on. -/
  | reach (t : pod.Thread) (o : Object)
  /-- A thread takes an object out of the shared structures. -/
  | unlink (t : pod.Thread) (o : Object)
  /-- A thread calls `add_retired_object`. -/
  | retire (t : pod.Thread) (o : Object)
  /-- A thread makes its next access of `enter_critical_section`. -/
  | access (t : pod.Thread)
deriving DecidableEq

variable {pod : Pod}

namespace State

def withOwn (s : State pod) (t : pod.Thread) (own : Local) : State pod :=
  { s with own := Function.update s.own t own }

def withPhase (s : State pod) (t : pod.Thread) (phase : Phase) : State pod :=
  s.withOwn t { s.own t with phase := phase }

/-- The start: every epoch is zero and nothing is retired. -/
def initial (pod : Pod) : State pod :=
  ⟨0, fun _ => 0, fun _ => ⟨.running, 0, fun _ => [], []⟩, [], [], []⟩

def addRetiredObject (s : State pod) (t : pod.Thread) (o : Object) : State pod :=
  let own := s.own t
  let curLocal := s.localEpoch t
  let list := own.retiredObjects (curLocal % maxEpoch)
  { s.withOwn t { own with
      retiredObjects := Function.update own.retiredObjects (curLocal % maxEpoch)
        (list ++ [o]) } with
    retired := s.retired ++ [⟨t, curLocal, o⟩] }

/-- After the first load of the global epoch. -/
def compared (own : Local) (curLocal curGlobal : Nat) : Phase :=
  if curGlobal = curLocal then
    if epochAdvanceThreshold ≤ (own.retiredObjects (curLocal % maxEpoch)).length then
      .scan curLocal curGlobal 0 0 true
    else .reload curLocal
  else if curLocal < curGlobal then .reload curLocal
  else .failed .globalAhead

/-- The loop over the local epochs. A late thread ends the loop over the threads of its host
only. -/
def scanned (s : State pod) (curLocal curGlobal i j : Nat) (advance : Bool) : Phase :=
  if here : i < pod.coordinatorNum ∧ j < pod.threadNum then
    if s.localEpoch (⟨i, here.1⟩, ⟨j, here.2⟩) < curGlobal then .scan curLocal curGlobal
      (i + 1) 0 false
    else .scan curLocal curGlobal i (j + 1) advance
  else if i < pod.coordinatorNum then .scan curLocal curGlobal (i + 1) 0 advance
  else if advance then .swap curLocal curGlobal
  else .reload curLocal

/-- Whether there is garbage to reclaim in the epoch that has been entered. -/
def entered (own : Local) (curGlobal : Nat) : Phase :=
  if 2 ≤ curGlobal ∧ own.lastFreedEpoch < curGlobal - 2 then
    if curGlobal - 2 = own.lastFreedEpoch + 1 then .reclaim (curGlobal - 2) 0
    else .failed .nextReclaimed
  else .running

/-- The reclamation has come to the end of its list. -/
def reclaimed (own : Local) (epoch : Nat) : Local :=
  { own with
    phase := .running
    lastFreedEpoch := epoch
    retiredObjects := Function.update own.retiredObjects (epoch % maxEpoch) [] }

/-- The next access of `enter_critical_section`, with the local work that follows it. -/
def access (s : State pod) (t : pod.Thread) : Option (State pod) :=
  let own := s.own t
  match own.phase with
  | .running => some (s.withOwn t { own with phase := .loadGlobal (s.localEpoch t), held := [] })
  | .loadGlobal curLocal => some (s.withPhase t (compared own curLocal s.globalEpoch))
  | .scan curLocal curGlobal i j advance =>
    some (s.withPhase t (s.scanned curLocal curGlobal i j advance))
  | .swap curLocal curGlobal =>
    some { s.withPhase t (.reload curLocal) with
      globalEpoch := if s.globalEpoch = curGlobal then curGlobal + 1 else s.globalEpoch }
  | .reload curLocal => some (s.withPhase t (.store curLocal s.globalEpoch))
  | .store curLocal curGlobal =>
    if curLocal < curGlobal then
      if curLocal = curGlobal - 1 then
        some { s.withPhase t (entered own curGlobal) with
          localEpoch := Function.update s.localEpoch t curGlobal }
      else some (s.withPhase t (.failed .oneBehind))
    else some (s.withPhase t (entered own curGlobal))
  | .reclaim epoch i =>
    match (own.retiredObjects (epoch % maxEpoch))[i]? with
    | some o => some { s.withPhase t (.reclaim epoch (i + 1)) with freed := s.freed ++ [o] }
    | none => some (s.withOwn t (reclaimed own epoch))
  | .failed _ => none

/-- One step. Only a thread in its transaction reaches, unlinks and retires objects; what is
unlinked cannot be reached, and an object is retired once. -/
def step (s : State pod) : Label pod → Option (State pod)
  | .reach t o =>
    if (s.own t).phase = .running ∧ o ∉ s.unlinked then
      some (s.withOwn t { s.own t with held := o :: (s.own t).held })
    else none
  | .unlink t o =>
    if (s.own t).phase = .running ∧ o ∉ s.unlinked then some { s with unlinked := o :: s.unlinked }
    else none
  | .retire t o =>
    if (s.own t).phase = .running ∧ o ∈ s.unlinked ∧ o ∉ s.retired.map Retirement.object then
      some (s.addRetiredObject t o)
    else none
  | .access t => s.access t

/-- No thread is stopped by a check. -/
def ChecksHold (s : State pod) : Prop := ∀ t check, (s.own t).phase ≠ .failed check

/-- No object is freed that some thread may still use. -/
def NoneFreedInUse (s : State pod) : Prop := ∀ t, ∀ o ∈ (s.own t).held, o ∉ s.freed

/-- No object is freed twice, and only retired objects are freed. -/
def FreedAtMostOnce (s : State pod) : Prop :=
  s.freed.Nodup ∧ ∀ o ∈ s.freed, o ∈ s.retired.map Retirement.object

/-- How many epochs after that of a retirement the object is freed: two, and five for epoch zero,
whose list is only freed with that of epoch three. -/
def lateEnough (epoch : Nat) : Nat := if epoch = 0 then 5 else epoch + 2

/-- An object has been freed exactly once when its thread has entered an epoch that is late
enough. -/
def FreedExactlyOnce (s : State pod) : Prop :=
  ∀ r ∈ s.retired, (s.own r.thread).phase = .running →
    lateEnough r.epoch ≤ s.localEpoch r.thread → s.freed.count r.object = 1

end State

/-- When an object is retired no thread that may still use it is in a later epoch than the thread
that retires it. -/
def NotAhead (s : State pod) : Label pod → Prop
  | .retire t o => ∀ u, o ∈ (s.own u).held → s.localEpoch u ≤ s.localEpoch t
  | _ => True

instance decidableNotAhead (s : State pod) : ∀ label, Decidable (NotAhead s label)
  | .reach _ _ => .isTrue trivial
  | .unlink _ _ => .isTrue trivial
  | .retire t o =>
    inferInstanceAs (Decidable (∀ u, o ∈ (s.own u).held → s.localEpoch u ≤ s.localEpoch t))
  | .access _ => .isTrue trivial

end UbApplication.Tigon.CxlEbr
