import UbApplication.Lib.Machine
import Mathlib.Data.Fintype.Pi
import Mathlib.Logic.Function.Basic

/-!
# The descriptor queue between two endpoints

`UBSpscQueue` is a ring of descriptors between one producer and one consumer, with counters modulo
2^64. Each side takes one access to shared memory at a time; the words of a descriptor are stored
and loaded one by one, in any order. What the ring holds is always what was enqueued and not yet
received.
-/

namespace UbApplication.Erpc

open List
open Function (update update_self update_of_ne)

/-- `UBMessageDescriptor`, by its eight words. -/
abbrev Descriptor := Fin 8 → BitVec 64

/-- `kSpscQueueDepth`. -/
def spscQueueDepth : BitVec 64 := 64

/-- Where the producer is in `try_enqueue`. -/
inductive Producer where
  | idle
  /-- The queue looks full, and the head is loaded next. -/
  | refreshing (descriptor : Descriptor)
  /-- Some words of the descriptor are stored. -/
  | writing (descriptor : Descriptor) (stored : List (Fin 8))

/-- Where the consumer is in `try_dequeue`. -/
inductive Consumer where
  | idle
  /-- Some words of the descriptor are loaded. -/
  | reading (descriptor : Descriptor) (loaded : List (Fin 8))

/-- `UBSpscQueue`, the variables of its two users, and what was enqueued and received. -/
structure SpscQueue where
  head : BitVec 64
  tail : BitVec 64
  slots : BitVec 64 → Descriptor
  producerTail : BitVec 64
  cachedConsumerHead : BitVec 64
  consumerHead : BitVec 64
  producer : Producer
  consumer : Consumer
  enqueued : List Descriptor
  received : List Descriptor

/-- The accesses to shared memory, and the beginning of `try_enqueue`. -/
inductive SpscLabel where
  | tryEnqueue (descriptor : Descriptor)
  | loadHead
  | storeWord (word : Fin 8)
  | storeTail
  /-- `try_dequeue` loads the tail; it has a descriptor to fill or a null pointer. -/
  | tryDequeue (descriptor : Option Descriptor)
  | loadWord (word : Fin 8)
  | storeHead

namespace SpscQueue

/-- An empty queue. -/
def start (counter : BitVec 64) (slots : BitVec 64 → Descriptor) : SpscQueue where
  head := counter
  tail := counter
  slots := slots
  producerTail := counter
  cachedConsumerHead := counter
  consumerHead := counter
  producer := .idle
  consumer := .idle
  enqueued := []
  received := []

/-- The slot of a counter. -/
def slot (counter : BitVec 64) : BitVec 64 := counter &&& (spscQueueDepth - 1)

variable (q : SpscQueue)

/-- `try_enqueue` compares with the head that it knows; `full` is what comes next without room. -/
def compareHead (descriptor : Descriptor) (full : Producer) : SpscQueue :=
  if spscQueueDepth ≤ q.producerTail - q.cachedConsumerHead then { q with producer := full }
  else { q with producer := .writing descriptor [] }

def storeWord (descriptor : Descriptor) (stored : List (Fin 8)) (word : Fin 8) : SpscQueue :=
  let place := slot q.producerTail
  { q with
    slots := update q.slots place (update (q.slots place) word (descriptor word))
    producer := .writing descriptor (word :: stored) }

def storeTail (descriptor : Descriptor) : SpscQueue :=
  { q with
    producerTail := q.producerTail + 1
    tail := q.producerTail + 1
    producer := .idle
    enqueued := q.enqueued ++ [descriptor] }

def loadWord (descriptor : Descriptor) (loaded : List (Fin 8)) (word : Fin 8) : SpscQueue :=
  let value := q.slots (slot q.consumerHead) word
  { q with consumer := .reading (update descriptor word value) (word :: loaded) }

def storeHead (descriptor : Descriptor) : SpscQueue :=
  { q with
    consumerHead := q.consumerHead + 1
    head := q.consumerHead + 1
    consumer := .idle
    received := q.received ++ [descriptor] }

/-- One step. A counter is stored when all words of the descriptor are. -/
def step (label : SpscLabel) : Option SpscQueue :=
  match label, q.producer, q.consumer with
  | .tryEnqueue descriptor, .idle, _ => some (q.compareHead descriptor (.refreshing descriptor))
  | .loadHead, .refreshing descriptor, _ =>
    some ({ q with cachedConsumerHead := q.head }.compareHead descriptor .idle)
  | .storeWord word, .writing descriptor stored, _ => some (q.storeWord descriptor stored word)
  | .storeTail, .writing descriptor stored, _ =>
    if ∀ word, word ∈ stored then some (q.storeTail descriptor) else none
  | .tryDequeue none, _, .idle => some q
  | .tryDequeue (some descriptor), _, .idle =>
    if q.consumerHead = q.tail then some q else some { q with consumer := .reading descriptor [] }
  | .loadWord word, _, .reading descriptor loaded => some (q.loadWord descriptor loaded word)
  | .storeHead, _, .reading descriptor loaded =>
    if ∀ word, word ∈ loaded then some (q.storeHead descriptor) else none
  | _, _, _ => none

/-- How many descriptors there are between two counters. -/
def distance (head tail : BitVec 64) : Nat := (tail - head).toNat

/-- What shared memory holds between the head and the tail. -/
def queued : List Descriptor :=
  (List.range (distance q.head q.tail)).map fun i => q.slots (slot (q.head + BitVec.ofNat 64 i))

/-- What holds between two accesses. -/
structure Sound (q : SpscQueue) : Prop where
  producerTail : q.producerTail = q.tail
  consumerHead : q.consumerHead = q.head
  /-- A head that was cached is behind the head, and never more than the depth behind the tail. -/
  behind : distance q.head q.tail ≤ distance q.cachedConsumerHead q.tail
  room : distance q.cachedConsumerHead q.tail ≤ 64
  writing : ∀ descriptor stored, q.producer = .writing descriptor stored →
    distance q.cachedConsumerHead q.tail < 64 ∧
      ∀ word ∈ stored, q.slots (slot q.tail) word = descriptor word
  reading : ∀ descriptor loaded, q.consumer = .reading descriptor loaded →
    0 < distance q.head q.tail ∧ ∀ word ∈ loaded, descriptor word = q.slots (slot q.head) word
  whole : q.received ++ q.queued = q.enqueued

variable {q} {head tail cached : BitVec 64}

/-- The place of a counter in the ring. -/
theorem slot_toNat (counter : BitVec 64) : (slot counter).toNat = counter.toNat % 64 := by
  show (counter &&& 63).toNat = _
  rw [BitVec.toNat_and]
  exact Nat.and_two_pow_sub_one_eq_mod _ 6

/-- The slot that the producer writes is none of those in use. -/
theorem slot_ne {i : Nat} (inside : i < distance head tail) (room : distance head tail < 64) :
    slot (head + BitVec.ofNat 64 i) ≠ slot tail := by
  intro same
  have places := congrArg BitVec.toNat same
  simp only [slot_toNat, BitVec.toNat_add, BitVec.toNat_ofNat] at places
  simp only [distance, BitVec.toNat_sub] at inside room
  omega

/-- The distance after an enqueue. -/
theorem distance_succ (room : distance cached tail < 64) :
    distance cached (tail + 1) = distance cached tail + 1 := by
  unfold distance at *
  bv_omega

/-- The distance before a dequeue. -/
theorem distance_pred (some : 0 < distance head tail) :
    distance head tail = distance (head + 1) tail + 1 := by
  unfold distance at *
  bv_omega

/-- The tail is the head and the distance. -/
theorem add_distance (head tail : BitVec 64) :
    head + BitVec.ofNat 64 (distance head tail) = tail := by
  rw [distance, BitVec.ofNat_toNat, BitVec.setWidth_eq]
  bv_omega

/-- How many descriptors are queued. -/
theorem queued_length : q.queued.length = distance q.head q.tail := by
  simp [queued]

/-- The first descriptor in the queue. -/
theorem queued_cons (some : 0 < distance q.head q.tail) :
    q.queued = q.slots (slot q.head) :: { q with head := q.head + 1 }.queued := by
  simp only [queued, distance_pred some, range_succ_eq_map, map_cons, map_map]
  congr 1
  · rw [BitVec.add_zero]
  · refine map_congr_left fun i _ => ?_
    simp only [Function.comp_apply, Nat.succ_eq_add_one, BitVec.ofNat_add]
    congr 2
    bv_omega

section Steps

variable (sound : q.Sound) {descriptor : Descriptor}
include sound

/-- Comparing with the cached head. -/
theorem Sound.compareHead {full : Producer}
    (outside : ∀ other stored, full ≠ .writing other stored) :
    (q.compareHead descriptor full).Sound := by
  unfold SpscQueue.compareHead
  split
  case isTrue =>
    exact { sound with writing := fun other stored same => absurd same (outside other stored) }
  case isFalse less =>
    refine { sound with writing := fun other stored same => ?_ }
    cases same
    refine ⟨?_, by simp⟩
    rw [sound.producerTail] at less
    unfold spscQueueDepth at less
    unfold distance
    bv_omega

/-- Loading the head. -/
theorem Sound.loadHead (found : q.producer = .refreshing descriptor) :
    { q with cachedConsumerHead := q.head }.Sound :=
  { sound with
    behind := Nat.le_refl _
    room := Nat.le_trans sound.behind sound.room
    writing := fun other stored same => by cases found.symm.trans same }

variable {stored : List (Fin 8)}

/-- Storing a word of a descriptor. -/
theorem Sound.storeWord (found : q.producer = .writing descriptor stored) (word : Fin 8) :
    (q.storeWord descriptor stored word).Sound := by
  obtain ⟨room, written⟩ := sound.writing _ _ found
  have kept (i : Nat) (inside : i < distance q.head q.tail) (value : Descriptor) :
      update q.slots (slot q.tail) value (slot (q.head + BitVec.ofNat 64 i)) =
        q.slots (slot (q.head + BitVec.ofNat 64 i)) :=
    update_of_ne (slot_ne inside (Nat.lt_of_le_of_lt sound.behind room)) _ _
  simp only [SpscQueue.storeWord, sound.producerTail]
  refine { sound with
    producerTail := rfl
    writing := fun other stored' same => ?_
    reading := fun copy loaded same => ?_
    whole := ?_ }
  · cases same
    refine ⟨room, fun other member => ?_⟩
    simp only [update_self]
    by_cases here : other = word
    · rw [here, update_self]
    · rw [update_of_ne here]
      exact written other ((mem_cons.mp member).resolve_left here)
  · obtain ⟨some, copied⟩ := sound.reading copy loaded same
    refine ⟨some, fun other member => ?_⟩
    have first := kept 0 some (update (q.slots (slot q.tail)) word (descriptor word))
    rw [BitVec.add_zero] at first
    exact (copied other member).trans (congrFun first.symm other)
  · rw [← sound.whole]
    refine congrArg (q.received ++ ·) (map_congr_left fun i member => ?_)
    exact kept i (mem_range.mp member) _

/-- Storing the tail. -/
theorem Sound.storeTail (found : q.producer = .writing descriptor stored)
    (all : ∀ word, word ∈ stored) : (q.storeTail descriptor).Sound := by
  obtain ⟨room, written⟩ := sound.writing _ _ found
  have behind := sound.behind
  have here : q.slots (slot q.tail) = descriptor := funext fun word => written word (all word)
  have cached := distance_succ room
  have longer : distance q.head (q.tail + 1) = distance q.head q.tail + 1 :=
    distance_succ (by omega)
  simp only [SpscQueue.storeTail, sound.producerTail]
  refine { sound with
    producerTail := rfl
    behind := by simp only; omega
    room := by simp only; omega
    writing := fun _ _ same => by cases same
    reading := fun copy loaded same => ⟨by simp only; omega, (sound.reading copy loaded same).2⟩
    whole := ?_ }
  rw [← sound.whole, append_assoc]
  simp only [queued, longer, range_succ, map_append, map_singleton, add_distance, here]

variable {loaded : List (Fin 8)} (found : q.consumer = .reading descriptor loaded)
include found

/-- Loading a word of a descriptor. -/
theorem Sound.loadWord (word : Fin 8) : (q.loadWord descriptor loaded word).Sound := by
  obtain ⟨some, copied⟩ := sound.reading _ _ found
  refine { sound with reading := fun _ _ same => ?_ }
  cases same
  refine ⟨some, fun other member => ?_⟩
  rw [sound.consumerHead]
  by_cases here : other = word
  · rw [here, update_self]
    rfl
  · rw [update_of_ne here]
    exact copied other ((mem_cons.mp member).resolve_left here)

/-- Storing the head. -/
theorem Sound.storeHead (all : ∀ word, word ∈ loaded) : (q.storeHead descriptor).Sound := by
  obtain ⟨some, copied⟩ := sound.reading _ _ found
  have behind := sound.behind
  have shorter := distance_pred some
  have here : descriptor = q.slots (slot q.head) := funext fun word => copied word (all word)
  simp only [SpscQueue.storeHead, sound.consumerHead]
  refine { sound with
    consumerHead := rfl
    behind := by simp only; omega
    reading := fun _ _ same => by cases same
    whole := ?_ }
  rw [← sound.whole, queued_cons some, append_assoc, here]
  rfl

end Steps

/-- Every access keeps soundness. -/
theorem Sound.step (sound : q.Sound) {label : SpscLabel} {next : SpscQueue}
    (stepped : q.step label = some next) : next.Sound := by
  unfold SpscQueue.step at stepped
  split at stepped
  case h_1 =>
    cases stepped
    exact sound.compareHead (by simp)
  case h_2 found =>
    cases stepped
    exact (sound.loadHead found).compareHead (by simp)
  case h_3 found =>
    cases stepped
    exact sound.storeWord found _
  case h_4 found =>
    obtain ⟨all, ⟨⟩⟩ := Option.ite_none_right_eq_some.mp stepped
    exact sound.storeTail found all
  case h_5 =>
    cases stepped
    exact sound
  case h_6 =>
    split at stepped
    case isTrue =>
      cases stepped
      exact sound
    case isFalse apart =>
      cases stepped
      refine { sound with reading := fun _ _ same => ?_ }
      cases same
      rw [sound.consumerHead] at apart
      refine ⟨?_, by simp⟩
      unfold distance
      bv_omega
  case h_7 found =>
    cases stepped
    exact sound.loadWord found _
  case h_8 found =>
    obtain ⟨all, ⟨⟩⟩ := Option.ite_none_right_eq_some.mp stepped
    exact sound.storeHead found all
  case h_9 => contradiction

/-- The queue holds what was enqueued and not received, in order; `try_enqueue` refuses only when it
holds as much as it can, and `try_dequeue` finds nothing only when it is empty. -/
structure Exact (q : SpscQueue) : Prop where
  whole : q.received ++ q.queued = q.enqueued
  fits : q.queued.length ≤ 64
  refuses : ∀ next, q.step .loadHead = some next → next.producer = .idle → q.queued.length = 64
  finds : ∀ descriptor next, q.step (.tryDequeue (some descriptor)) = some next →
    (next.consumer = .idle ↔ q.queued = [])

/-- What soundness says of the descriptors. -/
theorem Sound.exact (sound : q.Sound) : q.Exact where
  whole := sound.whole
  fits := queued_length.trans_le (Nat.le_trans sound.behind sound.room)
  refuses next stepped refused := by
    have fits := Nat.le_trans sound.behind sound.room
    cases found : q.producer with
    | refreshing descriptor =>
      simp only [SpscQueue.step, found, Option.some.injEq] at stepped
      rw [← stepped, SpscQueue.compareHead] at refused
      split at refused
      case isTrue full =>
        simp only [sound.producerTail, spscQueueDepth] at full
        rw [queued_length]
        unfold distance at *
        bv_omega
      case isFalse => cases refused
    | _ => simp [SpscQueue.step, found] at stepped
  finds descriptor next stepped := by
    rw [← length_eq_zero_iff, queued_length]
    cases found : q.consumer with
    | idle =>
      simp only [SpscQueue.step, found, sound.consumerHead] at stepped
      split at stepped
      case isTrue empty =>
        cases stepped
        simp [found, empty, distance]
      case isFalse apart =>
        cases stepped
        refine iff_of_false (by simp) fun none => apart ?_
        unfold distance at none
        bv_omega
    | reading => simp [SpscQueue.step, found] at stepped

/-- Two descriptors across the end of the counters: the second is stored while the first is
loaded. -/
def wrapping : List SpscLabel :=
  .tryEnqueue (fun _ => 5) :: (List.finRange 8).map .storeWord ++ [.storeTail, .tryEnqueue fun _ =>
    6, .tryDequeue (some fun _ => 0)] ++ (List.finRange 8).flatMap (fun word => [.storeWord word,
    .loadWord word]) ++ [.storeTail, .storeHead]

end SpscQueue

end UbApplication.Erpc
