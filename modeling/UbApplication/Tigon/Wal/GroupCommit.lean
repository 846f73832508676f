import Mathlib.Algebra.Group.Nat.Defs
import Mathlib.Data.List.Infix
import Mathlib.Logic.Function.Basic
import UbApplication.Lib.Machine

/-!
# Group commit of the write-ahead log

`BufferedDirectFileWriter` gathers bytes in a buffer and writes the buffer out in whole blocks.
Callers of `GroupCommitLogger` append under a mutex and wait until the synced position has reached
theirs. The flush thread takes the same mutex; callers change the count of waiting syncs and read
the synced position without it, so a step of theirs may fall between any two steps of `do_sync`.
`::write` may take fewer bytes than it is given, and `flush` only checks that the count is not
negative.
-/

namespace UbApplication.Tigon.Wal

open List Option

/-- Sizes of a writer. With an emulated latency it does not write whole blocks. -/
structure Sizes where
  bufferSize : Nat
  blockSize : Nat
  emulated : Bool

/-- What one `::write` put into the file: bytes of the log and the number of stale bytes that fill
the last block. -/
structure Chunk where
  bytes : List UInt8
  padding : Nat
deriving DecidableEq

/-- `BufferedDirectFileWriter`; `fdatasync` has been called after the first `durable` chunks. -/
structure Writer where
  buffer : List UInt8
  file : List Chunk
  durable : Nat
deriving DecidableEq

def roundUp (numToRound multiple : Nat) : Nat :=
  if multiple = 0 then numToRound
  else if numToRound % multiple = 0 then numToRound
  else numToRound + multiple - numToRound % multiple

/-- The file gets the first `count` of these bytes and of the fill behind them. -/
def Chunk.taken (bytes : List UInt8) (count : Nat) : Chunk :=
  ⟨bytes.take count, count - bytes.length⟩

/-- A whole write takes all bytes. -/
theorem Chunk.taken_bytes {bytes : List UInt8} {count : Nat} (whole : bytes.length ≤ count) :
    (Chunk.taken bytes count).bytes = bytes := take_of_length_le whole

namespace Writer

variable (sizes : Sizes) (writer : Writer)

/-- `flush`, with its checks; `sync` is `flush` and a sleep. `count` is what `::write` returns. -/
def flush (count : Nat) : Option Writer :=
  if writer.buffer = [] then some writer
  else
    let ioSize := if sizes.emulated then writer.buffer.length
      else roundUp writer.buffer.length sizes.blockSize
    if (sizes.emulated = true ∨ ioSize ≤ sizes.bufferSize) ∧ count ≤ ioSize then
      some ⟨[], writer.file ++ [.taken writer.buffer count], writer.file.length + 1⟩
    else none

/-- The buffer that `write` flushes when a record fills it. -/
def filled (str : List UInt8) : List UInt8 :=
  writer.buffer ++ str.take (sizes.bufferSize - writer.buffer.length)

/-- `write`. A record that leaves a whole buffer over fails a check. -/
def write (str : List UInt8) (count : Nat) : Option Writer :=
  if writer.buffer.length + str.length < sizes.bufferSize then
    some { writer with buffer := writer.buffer ++ str }
  else
    let rest := str.drop (sizes.bufferSize - writer.buffer.length)
    (flush sizes { writer with buffer := writer.filled sizes str } count).bind fun flushed =>
      if sizes.bufferSize ≤ rest.length then none else some { flushed with buffer := rest }

/-- A `::write` within `write` takes the whole buffer. -/
def Whole (str : List UInt8) (count : Nat) : Prop :=
  sizes.bufferSize ≤ writer.buffer.length + str.length → (writer.filled sizes str).length ≤ count

instance (str : List UInt8) (count : Nat) : Decidable (writer.Whole sizes str count) :=
  inferInstanceAs (Decidable (_ → _))

/-- The bytes that are in the file, in order, without the fill. -/
def written : List UInt8 := writer.file.flatMap Chunk.bytes

/-- The bytes that `fdatasync` has forced to the file. -/
def forced : List UInt8 := (writer.file.take writer.durable).flatMap Chunk.bytes

/-- The bytes that the writer has been given. -/
def stream : List UInt8 := writer.written ++ writer.buffer

variable {sizes writer} {next : Writer} {count : Nat}

section

variable (all : writer.durable = writer.file.length)
include all

/-- All that was written is forced. -/
theorem forced_eq_written : writer.forced = writer.written := by
  rw [forced, all, take_length, written]

/-- A whole flush. -/
theorem flush_spec (whole : writer.buffer.length ≤ count)
    (done : flush sizes writer count = some next) :
    next.durable = next.file.length ∧ next.written = writer.stream ∧ next.buffer = [] := by
  unfold flush at done
  split at done
  case isTrue empty =>
    cases done
    exact ⟨all, by rw [stream, empty, append_nil], empty⟩
  case isFalse =>
    have room := ite_none_right_eq_some.mp done
    cases room.2
    refine ⟨by rw [length_append, length_singleton], ?_, rfl⟩
    simp only [written, stream, flatMap_append, flatMap_singleton, Chunk.taken_bytes whole]

/-- A whole write. -/
theorem write_spec {str : List UInt8} (whole : writer.Whole sizes str count)
    (done : write sizes writer str count = some next) :
    next.durable = next.file.length ∧ next.stream = writer.stream ++ str ∧
      writer.written.length ≤ next.written.length := by
  unfold write at done
  split at done
  case isTrue =>
    cases done
    exact ⟨all, by simp only [stream, written, append_assoc], Nat.le_refl _⟩
  case isFalse overflow =>
    obtain ⟨flushed, out, rest⟩ := bind_eq_some_iff.mp done
    have spec := flush_spec (by exact all) (whole (Nat.le_of_not_lt overflow)) out
    have fits := ite_none_left_eq_some.mp rest
    cases fits.2
    refine ⟨spec.1, ?_, ?_⟩
    · change flushed.written ++ _ = _
      rw [spec.2.1]
      simp only [stream, written, filled, append_assoc, take_append_drop]
    · change _ ≤ flushed.written.length
      rw [spec.2.1, stream, length_append]
      exact Nat.le_add_right _ _

end

end Writer

/-- Where a caller of the logger is. -/
inductive Caller where
  | idle
  /-- `write` has given the mutex back and is about to wait for its end. -/
  | persisting (append lsn : Nat)
  /-- In the loop of `sync`, for an append or for a caller of its own. -/
  | waiting (lsn : Nat) (append : Option Nat)
deriving DecidableEq

/-- What a caller inside `write` is going to return, with the number of its append. -/
def Caller.promised : Caller → List (Nat × Nat)
  | idle => []
  | persisting append lsn => [(append, lsn)]
  | waiting lsn append => append.toList.map fun index => (index, lsn)

/-- Where `do_sync` is; it holds the mutex unless it is idle. -/
inductive Flusher where
  | idle
  | entered
  | captured (flushLsn : Nat) (waitingSyncCnt : Int)
  | flushed (flushLsn : Nat) (waitingSyncCnt : Int)
  | settled (flushLsn : Nat)
deriving DecidableEq

/-- What `do_sync` is going to take from the count of waiting syncs. -/
def Flusher.count : Flusher → Int
  | captured _ waitingSyncCnt | flushed _ waitingSyncCnt => waitingSyncCnt
  | idle | entered | settled _ => 0

/-- Before the flush `do_sync` holds the end of the log, afterwards a position that is in the
file. -/
def Flusher.Holds (writeLsn written : Nat) : Flusher → Prop
  | idle | entered => True
  | captured flushLsn _ => flushLsn = writeLsn
  | flushed flushLsn _ | settled flushLsn => flushLsn ≤ written

/-- `GroupCommitLogger` and its callers, with the appends in the order of the mutex and what `write`
has returned for each. -/
structure Logger (T : Type) where
  writer : Writer
  writeLsn : Nat
  syncLsn : Nat
  waitingSyncs : Int
  flusher : Flusher
  callers : T → Caller
  appends : List (List UInt8)
  returns : List (Nat × Nat)

/-- A step of a caller or of the flush thread. -/
inductive LogOp (T : Type) where
  /-- `write` under the mutex; `count` is what `::write` returns if the buffer is full. -/
  | append (caller : T) (str : List UInt8) (persist : Bool) (count : Nat)
  /-- `sync` counts itself, called by `write` or with a position of the caller's choice. -/
  | persist (caller : T)
  | sync (caller : T) (lsn : Nat)
  /-- `sync` sees that the synced position has reached its own. -/
  | wake (caller : T)
  /-- `do_sync` takes the mutex; `due` says that the latency has passed. -/
  | enter (due : Bool)
  | capture
  /-- `count` is what `::write` returns. -/
  | flush (count : Nat)
  | settle
  | publish

namespace Logger

variable {T : Type}

/-- The logger after its constructor. -/
def initial : Logger T := ⟨⟨[], [], 0⟩, 0, 0, 0, .idle, fun _ => .idle, [], []⟩

variable [DecidableEq T] (sizes : Sizes) (groupCommitTxnCnt : Nat)

/-- One step; nothing when it is not the caller's or the flusher's turn or a check fails. -/
def step (s : Logger T) : LogOp T → Option (Logger T)
  | .append caller str persist count =>
    if s.callers caller = .idle ∧ s.flusher = .idle then
      (s.writer.write sizes str count).map fun writer =>
        let endLsn := (s.writeLsn + str.length) % 2 ^ 64
        { s with
          writer := writer
          writeLsn := endLsn
          appends := s.appends ++ [str]
          callers := if persist then
              Function.update s.callers caller (.persisting s.appends.length endLsn) else s.callers
          returns := if persist then s.returns else s.returns ++ [(s.appends.length, endLsn)] }
    else none
  | .persist caller =>
    match s.callers caller with
    | .persisting append lsn => some { s with
        waitingSyncs := s.waitingSyncs + 1
        callers := Function.update s.callers caller (.waiting lsn (some append)) }
    | _ => none
  | .sync caller lsn =>
    if s.callers caller = .idle then some { s with
      waitingSyncs := s.waitingSyncs + 1
      callers := Function.update s.callers caller (.waiting lsn none) }
    else none
  | .wake caller =>
    match s.callers caller with
    | .waiting lsn append =>
      if lsn ≤ s.syncLsn then some { s with
        callers := Function.update s.callers caller .idle
        returns := s.returns ++ append.toList.map fun index => (index, lsn) }
      else none
    | _ => none
  | .enter due =>
    if s.flusher = .idle then
      if s.waitingSyncs < groupCommitTxnCnt ∧ due = false then some s
      else some { s with flusher := .entered }
    else none
  | .capture =>
    if s.flusher = .entered then some { s with flusher := .captured s.writeLsn s.waitingSyncs }
      else none
  | .flush count =>
    match s.flusher with
    | .captured flushLsn waitingSyncCnt =>
      if s.syncLsn < s.writeLsn then
        (s.writer.flush sizes count).map fun writer =>
          { s with writer := writer, flusher := .flushed flushLsn waitingSyncCnt }
      else some { s with flusher := .flushed flushLsn waitingSyncCnt }
    | _ => none
  | .settle =>
    match s.flusher with
    | .flushed flushLsn count => some { s with
        waitingSyncs := s.waitingSyncs - count, flusher := .settled flushLsn }
    | _ => none
  | .publish =>
    match s.flusher with
    | .settled flushLsn => some { s with syncLsn := flushLsn, flusher := .idle }
    | _ => none

/-- Every `::write` takes the whole buffer, and the position does not wrap. -/
def Complete (s : Logger T) : LogOp T → Prop
  | .append _ str _ count => s.writer.Whole sizes str count ∧ s.writeLsn + str.length < 2 ^ 64
  | .flush count => s.writer.buffer.length ≤ count
  | _ => True

instance (s : Logger T) : (op : LogOp T) → Decidable (s.Complete sizes op)
  | .append .. => inferInstanceAs (Decidable (_ ∧ _))
  | .flush count => inferInstanceAs (Decidable (s.writer.buffer.length ≤ count))
  | .persist _ | .sync .. | .wake _ | .enter _ | .capture | .settle | .publish => .isTrue trivial

/-- A position returned for an append is the number of bytes up to the end of that append. -/
def EndsAt (appends : List (List UInt8)) (result : Nat × Nat) : Prop :=
  result.1 < appends.length ∧ result.2 = (appends.take (result.1 + 1)).flatten.length

/-- What holds between any two steps. -/
structure Sound (s : Logger T) : Prop where
  durable : s.writer.durable = s.writer.file.length
  stream : s.writer.stream = s.appends.flatten
  position : s.writeLsn = s.appends.flatten.length
  synced : s.syncLsn ≤ s.writer.written.length
  promised : ∀ caller, ∀ result ∈ (s.callers caller).promised, EndsAt s.appends result
  returned : ∀ result ∈ s.returns, EndsAt s.appends result
  holds : s.flusher.Holds s.writeLsn s.writer.written.length
  counted : 0 ≤ s.flusher.count ∧ s.flusher.count ≤ s.waitingSyncs

omit [DecidableEq T]

/-- Ends of earlier appends. -/
theorem EndsAt.append {appends : List (List UInt8)} {result : Nat × Nat}
    (ends : EndsAt appends result) (str : List UInt8) : EndsAt (appends ++ [str]) result := by
  have inside := ends.1
  constructor
  · rw [length_append]
    omega
  · rw [take_append_of_le_length (by omega)]
    exact ends.2

/-- The end of the last append. -/
theorem endsAt_last (appends : List (List UInt8)) (str : List UInt8) :
    EndsAt (appends ++ [str]) (appends.length, appends.flatten.length + str.length) := by
  have whole : (appends ++ [str]).take (appends.length + 1) = appends ++ [str] := by
    rw [take_of_length_le]
    simp
  constructor
  · rw [length_append, length_singleton]
    omega
  · rw [whole, flatten_append, length_append, flatten_singleton]

/-- The start is sound. -/
theorem sound_initial : (initial : Logger T).Sound where
  durable := rfl
  stream := rfl
  position := rfl
  synced := Nat.le_refl _
  promised := by intro _ _ member; cases member
  returned := by intro _ member; cases member
  holds := trivial
  counted := ⟨Int.le_refl _, Int.le_refl _⟩

namespace Sound

variable {s next : Logger T} (sound : s.Sound)
include sound

/-- Returns that are right. -/
theorem answered {results : List (Nat × Nat)}
    (right : ∀ result ∈ results, EndsAt s.appends result) :
    ({ s with returns := s.returns ++ results } : Logger T).Sound :=
  { sound with returned := forall_mem_append.mpr ⟨sound.returned, right⟩ }

variable [DecidableEq T] {sizes groupCommitTxnCnt}

/-- One caller moves on, and may have been counted. -/
theorem moved (caller : T) {now : Caller} {count : Int}
    (promised : ∀ result ∈ now.promised, EndsAt s.appends result) (grown : s.waitingSyncs ≤ count) :
    ({ s with
      waitingSyncs := count
      callers := Function.update s.callers caller now } : Logger T).Sound :=
  { sound with
    promised := (Function.forall_update_iff s.callers
      fun _ now => ∀ result ∈ now.promised, EndsAt s.appends result).mpr
        ⟨promised, fun other _ => sound.promised other⟩
    counted := ⟨sound.counted.1, Int.le_trans sound.counted.2 grown⟩ }

variable {caller : T}

/-- An append. -/
theorem append {str : List UInt8} {persist : Bool} {count : Nat}
    (complete : s.Complete sizes (.append caller str persist count))
    (taken : step sizes groupCommitTxnCnt s (.append caller str persist count) = some next) :
    next.Sound := by
  have turn := ite_none_right_eq_some.mp taken
  obtain ⟨writer, wrote, out⟩ := map_eq_some_iff.mp turn.2
  simp only [Nat.mod_eq_of_lt complete.2] at out
  have spec := Writer.write_spec sound.durable complete.1 wrote
  have last := endsAt_last s.appends str
  rw [← sound.position] at last
  have here : ({ s with
      writer := writer
      writeLsn := s.writeLsn + str.length
      appends := s.appends ++ [str] } : Logger T).Sound :=
    { durable := spec.1
      stream := by
        rw [spec.2.1, sound.stream, flatten_append, flatten_singleton]
      position := by
        rw [sound.position, flatten_append, length_append, flatten_singleton]
      synced := Nat.le_trans sound.synced spec.2.2
      promised := fun other result member => (sound.promised other result member).append str
      returned := fun result member => (sound.returned result member).append str
      holds := by
        change s.flusher.Holds _ _
        rw [turn.1.2]
        trivial
      counted := sound.counted }
  have promised : ∀ result ∈ [(s.appends.length, s.writeLsn + str.length)],
      EndsAt (s.appends ++ [str]) result := forall_mem_singleton.mpr last
  cases out
  cases persist with
  | false => exact here.answered promised
  | true => exact here.moved caller promised (Int.le_refl _)

/-- A caller asks to persist. -/
theorem persist
    (taken : step sizes groupCommitTxnCnt s (.persist caller) = some next) : next.Sound := by
  simp only [step] at taken
  split at taken
  case h_1 append lsn inside =>
    have promised := sound.promised caller
    rw [inside] at promised
    cases taken
    exact sound.moved caller promised (by omega)
  case h_2 => cases taken

/-- A caller waits. -/
theorem sync {lsn : Nat}
    (taken : step sizes groupCommitTxnCnt s (.sync caller lsn) = some next) : next.Sound := by
  have turn := ite_none_right_eq_some.mp taken
  cases turn.2
  exact sound.moved caller (by intro _ member; cases member) (by omega)

/-- A caller wakes up. -/
theorem wake (taken : step sizes groupCommitTxnCnt s (.wake caller) = some next) : next.Sound := by
  simp only [step] at taken
  split at taken
  case h_1 lsn append inside =>
    have promised := sound.promised caller
    rw [inside] at promised
    have turn := ite_none_right_eq_some.mp taken
    cases turn.2
    exact (sound.answered promised).moved caller (by intro _ member; cases member) (Int.le_refl _)
  case h_2 => cases taken

/-- The flush thread begins. -/
theorem enter {due : Bool} (taken : step sizes groupCommitTxnCnt s (.enter due) = some next) :
    next.Sound := by
  have turn := ite_none_right_eq_some.mp taken
  have counted := sound.counted
  rw [turn.1] at counted
  have out := turn.2
  split at out
  case isTrue =>
    cases out
    exact sound
  case isFalse =>
    cases out
    exact { sound with holds := trivial, counted := counted }

/-- It reads the end of the log. -/
theorem capture (taken : step sizes groupCommitTxnCnt s .capture = some next) :
    next.Sound := by
  have turn := ite_none_right_eq_some.mp taken
  have counted := sound.counted
  rw [turn.1] at counted
  cases turn.2
  exact { sound with holds := rfl, counted := ⟨counted.2, Int.le_refl _⟩ }

/-- It flushes. -/
theorem flush {count : Nat} (complete : s.Complete sizes (.flush count))
    (taken : step sizes groupCommitTxnCnt s (.flush count) = some next) : next.Sound := by
  simp only [step] at taken
  split at taken
  case h_1 lsn _ inside =>
    have counted := sound.counted
    have holds := sound.holds
    rw [inside] at counted holds
    split at taken
    case isTrue behind =>
      obtain ⟨writer, wrote, out⟩ := map_eq_some_iff.mp taken
      have spec := Writer.flush_spec sound.durable complete wrote
      have whole : writer.written = s.appends.flatten := spec.2.1.trans sound.stream
      have all : writer.written.length = s.writeLsn := by rw [whole, sound.position]
      cases out
      exact { sound with
        durable := spec.1
        stream := by rw [Writer.stream, spec.2.2, append_nil, whole]
        synced := Nat.le_trans (Nat.le_of_lt behind) (Nat.le_of_eq all.symm)
        holds := Nat.le_of_eq (holds.trans all.symm)
        counted := counted }
    case isFalse reached =>
      -- Nothing is flushed where the end of the log has been synced before.
      have ends : lsn ≤ s.syncLsn := Nat.le_trans (Nat.le_of_eq holds) (Nat.le_of_not_lt reached)
      cases taken
      exact { sound with holds := Nat.le_trans ends sound.synced, counted := counted }
  case h_2 => cases taken

/-- It settles the count. -/
theorem settle (taken : step sizes groupCommitTxnCnt s .settle = some next) :
    next.Sound := by
  simp only [step] at taken
  split at taken
  case h_1 lsn count inside =>
    have counted := sound.counted
    have holds := sound.holds
    rw [inside] at counted holds
    cases taken
    exact { sound with holds := holds, counted := ⟨Int.le_refl _, Int.sub_nonneg.mpr counted.2⟩ }
  case h_2 => cases taken

/-- It publishes the position. -/
theorem publish (taken : step sizes groupCommitTxnCnt s .publish = some next) :
    next.Sound := by
  simp only [step] at taken
  split at taken
  case h_1 lsn inside =>
    have counted := sound.counted
    have holds := sound.holds
    rw [inside] at counted holds
    cases taken
    exact { sound with synced := holds, holds := trivial, counted := counted }
  case h_2 => cases taken

/-- Every complete step. -/
theorem step {op : LogOp T} (complete : s.Complete sizes op)
    (taken : s.step sizes groupCommitTxnCnt op = some next) : next.Sound := by
  cases op with
  | append => exact sound.append complete taken
  | persist => exact sound.persist taken
  | sync => exact sound.sync taken
  | wake => exact sound.wake taken
  | enter => exact sound.enter taken
  | capture => exact sound.capture taken
  | flush => exact sound.flush complete taken
  | settle => exact sound.settle taken
  | publish => exact sound.publish taken

end Sound

/-- The bytes up to the position that a call waits for are forced to the file, in the order of the
appends. -/
structure Durable (s : Logger T) (lsn : Nat) : Prop where
  reached : s.appends.flatten.take lsn <+: s.writer.forced
  ordered : s.writer.forced <+: s.appends.flatten

/-- If every `::write` takes the whole buffer and fewer than 2^64 bytes are appended, the count of
waiting syncs is not negative, every position that `write` returned is the number of bytes up to the
end of its append, and a call that is about to return from the wait for a position finds the bytes
up to there forced to the file, in the order of the appends. -/
theorem sync_returns_durable [DecidableEq T] (sizes : Sizes) (groupCommitTxnCnt : Nat)
    {ops : List (LogOp T)} {s : Logger T}
    (complete : Machine.Admits (Complete sizes) (step sizes groupCommitTxnCnt) initial ops)
    (taken : Machine.run (step sizes groupCommitTxnCnt) initial ops = some s) :
    0 ≤ s.waitingSyncs ∧ (∀ result ∈ s.returns, EndsAt s.appends result) ∧
      ∀ caller lsn append next, s.callers caller = .waiting lsn append →
        step sizes groupCommitTxnCnt s (.wake caller) = some next → s.Durable lsn := by
  have sound : s.Sound := Machine.run_admitted Sound
    (fun _ _ _ sound complete taken => sound.step complete taken) complete sound_initial taken
  refine ⟨Int.le_trans sound.counted.1 sound.counted.2, sound.returned, ?_⟩
  intro caller lsn append next inside woken
  have reached : lsn ≤ s.syncLsn := by
    simp only [step, inside] at woken
    exact (ite_none_right_eq_some.mp woken).1
  have within : s.writer.forced <+: s.appends.flatten := by
    rw [Writer.forced_eq_written sound.durable, ← sound.stream]
    exact prefix_append _ _
  have long : lsn ≤ s.writer.forced.length := by
    rw [Writer.forced_eq_written sound.durable]
    exact Nat.le_trans reached sound.synced
  constructor
  · rw [prefix_iff_eq_take.mp within]
    exact take_isPrefix_take.mpr (.inl long)
  · exact within

/-- A record that waits is flushed in the middle of the next one; the last `::write` returns some
count. -/
def sample (count : Nat) : List (LogOp Bool) :=
  [.append true [1, 2, 3] true 0, .persist true, .append false [4, 5] false 4, .enter true,
    .capture, .flush count, .settle, .publish]

/-- A waiting caller returns. -/
theorem sync_returns_durable_sample : ∃ s next,
    Machine.run (step ⟨4, 2, false⟩ 8) initial (sample 2) = some s ∧
    step ⟨4, 2, false⟩ 8 s (.wake true) = some next ∧ [1, 2, 3] <+: s.writer.forced := by
  obtain ⟨s, taken, waits, appends, next, woken, -⟩ : ∃ s,
      Machine.run (step ⟨4, 2, false⟩ 8) initial (sample 2) = some s ∧
      s.callers true = .waiting 3 (some 0) ∧ s.appends = [[1, 2, 3], [4, 5]] ∧
      ∃ next, step ⟨4, 2, false⟩ 8 s (.wake true) = some next ∧ True := by decide +kernel
  have durable := (sync_returns_durable _ _ (by decide +kernel) taken).2.2 true 3
    (some 0) next waits woken
  have reached := durable.reached
  rw [appends] at reached
  exact ⟨s, next, taken, woken, reached⟩

/-- One record, and `::write` takes one of its two blocks. -/
def short : List (LogOp Bool) :=
  [.append true [1, 2, 3] true 0, .persist true, .enter true, .capture, .flush 2, .settle, .publish]

/-- The check lets a short count pass, and the call returns though its last byte is nowhere. -/
theorem sync_returns_early : ∃ s next, Machine.run (step ⟨4, 2, false⟩ 8) initial short = some s ∧
    s.callers true = .waiting 3 (some 0) ∧ step ⟨4, 2, false⟩ 8 s (.wake true) = some next ∧
    s.writer.forced = [1, 2] ∧ s.writer.buffer = [] ∧ ¬ s.Durable 3 := by
  obtain ⟨s, taken, waits, appends, forced, empty, next, woken, -⟩ : ∃ s,
      Machine.run (step ⟨4, 2, false⟩ 8) initial short = some s ∧
      s.callers true = .waiting 3 (some 0) ∧ s.appends = [[1, 2, 3]] ∧ s.writer.forced = [1, 2] ∧
      s.writer.buffer = [] ∧
      ∃ next, step ⟨4, 2, false⟩ 8 s (.wake true) = some next ∧ True := by decide +kernel
  refine ⟨s, next, taken, waits, woken, forced, empty, fun durable => ?_⟩
  have reached := durable.reached
  rw [appends, forced] at reached
  exact absurd reached (by decide)

end Logger

end UbApplication.Tigon.Wal
