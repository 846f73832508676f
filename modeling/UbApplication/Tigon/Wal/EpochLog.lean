import UbApplication.Tigon.Wal.GroupCommit

/-!
# Epoch logging of Pasha

A worker writes records to the buffer of its slave logger and hands the buffer to the master through
a queue when the global epoch has moved on or the buffer is full. The master drains one queue after
the other and writes each buffer to the file, where nothing checks how many bytes `::write` takes.
Closing a slave does nothing and destroying it deletes the buffer.
-/

namespace UbApplication.Tigon.Wal

open List Option

/-- A record with the epoch that `write` has seen. -/
abbrev Record := Nat × List UInt8

/-- The bytes of a `LogBuffer`. -/
def bytesOf (buffer : List Record) : List UInt8 := buffer.flatMap Prod.snd

/-- `PashaGroupCommitLoggerSlave` with its queue, what it was given and what it has handed over. A
slave that has been destroyed still shows the buffer that went with it. -/
structure Slave where
  curLogBuffer : List Record
  lastEpoch : Nat
  logBufferQueue : List (List Record)
  /-- `write` has loaded the epoch. -/
  writing : Option Record
  closed : Bool
  written : List Record
  handed : List (List Record)

/-- Where `do_sync` of the master is. -/
inductive Master (n : Nat) where
  | idle
  | draining (queue : Nat)
  /-- A buffer has been popped. -/
  | holding (queue : Fin n) (buffer : List Record)

/-- The slaves, the master, its `DirectFileWriter`, and the buffers that the master has written. -/
structure EpochLog (n : Nat) where
  epoch : Nat
  slaves : Fin n → Slave
  master : Master n
  /-- What `::write` has put into the file; `fdatasync` follows each. -/
  file : List Chunk
  disk : List (Fin n × List Record)

/-- A step of a worker or of the master. -/
inductive EpochOp (n : Nat) where
  | advance
  | load (slave : Fin n) (str : List UInt8)
  | write (slave : Fin n)
  /-- `close` or the destructor. -/
  | close (slave : Fin n)
  | doSync
  | drain
  /-- The buffer is written; `count` is what `::write` takes, nothing if it fails. -/
  | flush (count : Nat)

/-- The sizes of a log buffer, of a queue and of a block of the file. -/
structure Limits where
  maxBufferSize : Nat
  maxLogBufferQueueSize : Nat
  blockSize : Nat

/-- `write` after the load. The push waits for room in the queue, and no bytes leave nothing in a
buffer. -/
def Slave.write (limits : Limits) (slave : Slave) (record : Record) : Option Slave :=
  let full := limits.maxBufferSize < (bytesOf slave.curLogBuffer).length + record.2.length
  let entry := if record.2 = [] then [] else [record]
  let after := { slave with writing := none, written := slave.written ++ entry }
  if full ∨ slave.lastEpoch < record.1 then
    if 0 < (bytesOf slave.curLogBuffer).length then
      if slave.logBufferQueue.length < limits.maxLogBufferQueueSize then
        some { after with
          lastEpoch := record.1
          logBufferQueue := slave.logBufferQueue ++ [slave.curLogBuffer]
          handed := slave.handed ++ [slave.curLogBuffer]
          curLogBuffer := entry }
      else none
    else some { after with lastEpoch := record.1, curLogBuffer := slave.curLogBuffer ++ entry }
  else some { after with curLogBuffer := slave.curLogBuffer ++ entry }

namespace EpochLog

variable {n : Nat}

/-- Nothing has been logged. -/
def initial : EpochLog n :=
  ⟨0, fun _ => ⟨[], 0, [], none, false, [], []⟩, .idle, [], []⟩

/-- What the master has popped but not written. -/
def held (s : EpochLog n) : List (Fin n × List Record) :=
  match s.master with
  | .holding queue buffer => [(queue, buffer)]
  | _ => []

/-- The buffers of a slave in a list, in order. -/
def buffersOf (slave : Fin n) (buffers : List (Fin n × List Record)) : List (List Record) :=
  (buffers.filter fun entry => entry.1 = slave).map Prod.snd

/-- The buffers of a slave that the master has popped, in order. -/
def popped (s : EpochLog n) (slave : Fin n) : List (List Record) :=
  buffersOf slave (s.disk ++ s.held)

variable (limits : Limits)

/-- One step; nothing when it is not the turn of the worker or of the master or a check fails. -/
def step (s : EpochLog n) : EpochOp n → Option (EpochLog n)
  | .advance => some { s with epoch := (s.epoch + 1) % 2 ^ 64 }
  | .load i str =>
    if (s.slaves i).writing = none ∧ (s.slaves i).closed = false ∧
      str.length ≤ limits.maxBufferSize then
      some { s with
        slaves := Function.update s.slaves i { s.slaves i with writing := some (s.epoch, str) } }
    else none
  | .write i => (s.slaves i).writing.bind fun record =>
    ((s.slaves i).write limits record).map fun slave =>
      { s with slaves := Function.update s.slaves i slave }
  | .close i =>
    if (s.slaves i).writing = none then
      some { s with slaves := Function.update s.slaves i { s.slaves i with closed := true } }
    else none
  | .doSync =>
    match s.master with
    | .idle => some { s with master := .draining 0 }
    | _ => none
  | .drain =>
    match s.master with
    | .draining queue =>
      if inside : queue < n then
        match (s.slaves ⟨queue, inside⟩).logBufferQueue with
        | [] => some { s with master := .draining (queue + 1) }
        | buffer :: rest => some { s with
            master := .holding ⟨queue, inside⟩ buffer
            slaves := Function.update s.slaves ⟨queue, inside⟩
              { s.slaves ⟨queue, inside⟩ with logBufferQueue := rest } }
      else some { s with master := .idle }
    | _ => none
  | .flush count =>
    match s.master with
    | .holding queue buffer =>
      if count ≤ roundUp (bytesOf buffer).length limits.blockSize then some { s with
        file := s.file ++ [.taken (bytesOf buffer) count]
        disk := s.disk ++ [(queue, buffer)]
        master := .draining queue }
      else none
    | _ => none

/-- Every `::write` takes the whole buffer, and the epoch does not wrap. -/
def Complete (s : EpochLog n) : EpochOp n → Prop
  | .flush count => ∀ entry ∈ s.held, (bytesOf entry.2).length ≤ count
  | .advance => s.epoch + 1 < 2 ^ 64
  | _ => True

instance (s : EpochLog n) : (op : EpochOp n) → Decidable (s.Complete op)
  | .flush count => inferInstanceAs (Decidable (∀ entry ∈ s.held, (bytesOf entry.2).length ≤ count))
  | .advance => inferInstanceAs (Decidable (s.epoch + 1 < 2 ^ 64))
  | .load .. | .write _ | .close _ | .doSync | .drain => .isTrue trivial

end EpochLog

/-- What holds of a slave of which the master has popped some buffers. -/
structure Slave.Sound (epoch : Nat) (popped : List (List Record)) (slave : Slave) : Prop where
  order : slave.handed.flatten ++ slave.curLogBuffer = slave.written
  single : ∀ buffer ∈ slave.handed, ∃ epoch, ∀ record ∈ buffer, record.1 = epoch
  current : ∀ record ∈ slave.curLogBuffer, record.1 = slave.lastEpoch ∧ record.2 ≠ []
  loaded : ∀ record, slave.writing = some record → slave.lastEpoch ≤ record.1 ∧ record.1 ≤ epoch
  known : slave.lastEpoch ≤ epoch
  queued : popped ++ slave.logBufferQueue = slave.handed

/-- A buffer without bytes holds no record. -/
theorem eq_nil_of_bytesOf {buffer : List Record} (bytes : ∀ record ∈ buffer, record.2 ≠ [])
    (empty : ¬ 0 < (bytesOf buffer).length) : buffer = [] := by
  have none : bytesOf buffer = [] := length_eq_zero_iff.mp (by omega)
  rw [eq_nil_iff_forall_not_mem]
  intro record member
  exact bytes record member (flatMap_eq_nil_iff.mp none record member)

/-- A record is written. -/
theorem Slave.Sound.write {epoch : Nat} {popped : List (List Record)} {limits : Limits}
    {slave next : Slave}
    {record : Record} (sound : slave.Sound epoch popped) (loaded : slave.writing = some record)
    (taken : slave.write limits record = some next) : next.Sound epoch popped := by
  have seen := sound.loaded record loaded
  have entry : ∀ other ∈ (if record.2 = [] then [] else [record]), other.1 = record.1 ∧
    other.2 ≠ [] := by
    intro other member
    split at member
    case isTrue => cases member
    case isFalse bytes =>
      cases mem_singleton.mp member
      exact ⟨rfl, bytes⟩
  unfold Slave.write at taken
  simp only at taken
  split at taken
  case isTrue =>
    split at taken
    case isTrue =>
      have room := ite_none_right_eq_some.mp taken
      cases room.2
      exact { order := by simp [← sound.order]
              single := forall_mem_append.mpr ⟨sound.single, forall_mem_singleton.mpr
                ⟨slave.lastEpoch, fun other member => (sound.current other member).1⟩⟩
              current := entry
              loaded := by intro _ wrong; cases wrong
              known := seen.2
              queued := by rw [← append_assoc, sound.queued] }
    case isFalse empty =>
      have nothing := eq_nil_of_bytesOf (fun other member => (sound.current other member).2) empty
      cases taken
      exact { sound with
        order := by rw [← append_assoc, sound.order]
        current := by
          rw [nothing]
          exact entry
        loaded := by intro _ wrong; cases wrong
        known := seen.2 }
  case isFalse same =>
    -- The epoch never goes back, so a record that is not newer is of the epoch of the buffer.
    have here : slave.lastEpoch = record.1 := by omega
    cases taken
    exact { sound with
      order := by rw [← append_assoc, sound.order]
      current := forall_mem_append.mpr ⟨sound.current, here ▸ entry⟩
      loaded := by intro _ wrong; cases wrong }

/-- What holds of a slave whose records have bytes: once it is used there is one in its buffer. -/
structure Slave.Kept (slave : Slave) : Prop where
  loaded : ∀ record, slave.writing = some record → record.2 ≠ []
  buffer : slave.curLogBuffer = [] → slave.written = []

/-- A used buffer stays in use. -/
theorem Slave.Kept.write {limits : Limits} {slave next : Slave} {record : Record}
    (kept : slave.Kept) (loaded : slave.writing = some record)
    (taken : slave.write limits record = some next) : next.Kept := by
  have bytes := kept.loaded record loaded
  unfold Slave.write at taken
  simp only [bytes, if_false] at taken
  split at taken
  case isTrue =>
    split at taken
    case isTrue =>
      cases (ite_none_right_eq_some.mp taken).2
      exact ⟨nofun, nofun⟩
    case isFalse =>
      cases taken
      exact ⟨nofun, by simp⟩
  case isFalse =>
    cases taken
    exact ⟨nofun, by simp⟩

namespace EpochLog

variable {n : Nat} {limits : Limits}

/-- What holds between any two steps. -/
structure Sound (s : EpochLog n) : Prop where
  slaves : ∀ i, (s.slaves i).Sound s.epoch (s.popped i)
  file : s.file.flatMap Chunk.bytes = s.disk.flatMap fun entry => bytesOf entry.2

/-- The start is sound. -/
theorem sound_initial : (initial : EpochLog n).Sound where
  slaves _ := {
    order := rfl
    single := by intro _ member; cases member
    current := by intro _ member; cases member
    loaded := by intro _ wrong; cases wrong
    known := Nat.le_refl _
    queued := rfl }
  file := rfl

namespace Sound

variable {s next : EpochLog n} (sound : s.Sound)
include sound

/-- A worker changes its slave. -/
theorem update {i : Fin n} {slave : Slave} (changed : slave.Sound s.epoch (s.popped i)) :
    ({ s with slaves := Function.update s.slaves i slave } : EpochLog n).Sound :=
  { sound with
    slaves := (Function.forall_update_iff s.slaves fun j slave =>
      slave.Sound s.epoch (s.popped j)).mpr ⟨changed, fun other _ => sound.slaves other⟩ }

/-- The epoch moves on. -/
theorem advance (complete : s.Complete .advance) :
    ({ s with epoch := (s.epoch + 1) % 2 ^ 64 } : EpochLog n).Sound := by
  rw [Nat.mod_eq_of_lt complete]
  exact { sound with
    slaves := fun i => { sound.slaves i with
      loaded := fun record loaded =>
        ((sound.slaves i).loaded record loaded).imp_right Nat.le_succ_of_le
      known := Nat.le_succ_of_le (sound.slaves i).known } }

/-- The master moves on without a buffer in hand. -/
theorem master {now : Master n} (before : s.held = [])
    (after : ({ s with master := now }).held = []) :
    ({ s with master := now } : EpochLog n).Sound :=
  { sound with
    slaves := by
      intro i
      have same : ({ s with master := now } : EpochLog n).popped i = s.popped i := by
        unfold popped
        rw [before, after]
      rw [same]
      exact sound.slaves i }

/-- A worker writes. -/
theorem write {i : Fin n} (taken : step limits s (.write i) = some next) : next.Sound := by
  obtain ⟨record, loaded, rest⟩ := bind_eq_some_iff.mp taken
  obtain ⟨slave, wrote, out⟩ := map_eq_some_iff.mp rest
  have changed := (sound.slaves i).write loaded wrote
  cases out
  exact sound.update changed

/-- The master takes a buffer. -/
theorem drain (taken : step limits s .drain = some next) : next.Sound := by
  simp only [step] at taken
  split at taken
  case h_1 queue position =>
    have before : s.held = [] := by
      unfold held
      rw [position]
    split at taken
    case isTrue inside =>
      split at taken
      case h_1 =>
        cases taken
        exact sound.master before rfl
      case h_2 buffer rest front =>
        have old := sound.slaves ⟨queue, inside⟩
        have queued := old.queued
        simp only [popped, buffersOf, before, append_nil] at queued
        cases taken
        exact { sound with
          slaves := by
            refine (Function.forall_update_iff s.slaves fun j slave => slave.Sound s.epoch _).mpr
              ⟨{ old with queued := ?_ }, fun other different => ?_⟩
            · rw [← queued, front]
              simp [popped, buffersOf, held]
            · have same := sound.slaves other
              simp only [popped, buffersOf, before, append_nil] at same
              simpa [popped, buffersOf, held, different.symm] using same }
    case isFalse =>
      cases taken
      exact sound.master before rfl
  case h_2 => cases taken

/-- The master writes a buffer. -/
theorem flush {count : Nat} (complete : s.Complete (.flush count))
    (taken : step limits s (.flush count) = some next) : next.Sound := by
  simp only [step] at taken
  split at taken
  case h_1 queue buffer position =>
    have fits := ite_none_right_eq_some.mp taken
    have whole : (bytesOf buffer).length ≤ count :=
      complete (queue, buffer) (by simp [held, position])
    cases fits.2
    refine ⟨fun i => ?_, ?_⟩
    · have same := sound.slaves i
      simp only [popped, held, position] at same
      simpa only [popped, held, append_nil] using same
    · simp [sound.file, Chunk.taken_bytes whole]
  case h_2 => cases taken

/-- Every complete step. -/
theorem step {op : EpochOp n} (complete : s.Complete op) (taken : s.step limits op = some next) :
    next.Sound := by
  cases op with
  | advance =>
    cases taken
    exact sound.advance complete
  | load i str =>
    have turn := ite_none_right_eq_some.mp taken
    cases turn.2
    apply sound.update
    refine { sound.slaves i with loaded := ?_ }
    intro record same
    cases same
    exact ⟨(sound.slaves i).known, Nat.le_refl _⟩
  | write => exact sound.write taken
  | close i =>
    have turn := ite_none_right_eq_some.mp taken
    cases turn.2
    apply sound.update
    exact { sound.slaves i with }
  | doSync =>
    simp only [EpochLog.step] at taken
    split at taken
    case h_1 position =>
      cases taken
      apply sound.master _ rfl
      unfold held
      rw [position]
    case h_2 => cases taken
  | drain => exact sound.drain taken
  | flush => exact sound.flush complete taken

end Sound

/-- A used slave stays in use. -/
theorem step_kept {s next : EpochLog n} {i : Fin n} {op : EpochOp n}
    (bytes : ∀ str, op = .load i str → str ≠ []) (kept : (s.slaves i).Kept)
    (taken : s.step limits op = some next) : (next.slaves i).Kept := by
  -- a step changes one slave at most, and another one than this keeps it as it is
  have update {j : Fin n} {slave : Slave} (changed : j = i → slave.Kept) :
      (Function.update s.slaves j slave i).Kept := by
    rw [Function.update_apply]
    split
    case isTrue same => exact changed same.symm
    case isFalse => exact kept
  cases op with
  | advance =>
    cases taken
    exact kept
  | load j str =>
    have turn := ite_none_right_eq_some.mp taken
    cases turn.2
    refine update fun same => ⟨fun record here => ?_, (same ▸ kept).buffer⟩
    cases here
    exact bytes str (by rw [same])
  | write j =>
    obtain ⟨record, loaded, rest⟩ := bind_eq_some_iff.mp taken
    obtain ⟨slave, wrote, out⟩ := map_eq_some_iff.mp rest
    cases out
    exact update fun same => (same ▸ kept).write loaded wrote
  | close j =>
    have turn := ite_none_right_eq_some.mp taken
    cases turn.2
    exact update fun same => ⟨(same ▸ kept).loaded, (same ▸ kept).buffer⟩
  | doSync =>
    simp only [EpochLog.step] at taken
    split at taken
    case h_1 =>
      cases taken
      exact kept
    case h_2 => cases taken
  | drain =>
    simp only [EpochLog.step] at taken
    split at taken
    case h_2 => cases taken
    case h_1 queue _ =>
      split at taken
      case isTrue =>
        split at taken
        case h_1 =>
          cases taken
          exact kept
        case h_2 =>
          cases taken
          exact update fun same => ⟨(same ▸ kept).loaded, (same ▸ kept).buffer⟩
      case isFalse =>
        cases taken
        exact kept
  | flush count =>
    simp only [EpochLog.step] at taken
    split at taken
    case h_1 =>
      cases (ite_none_right_eq_some.mp taken).2
      exact kept
    case h_2 => cases taken

/-- With records that have bytes, a slave that was used has some in its buffer. -/
theorem used_buffer {ops : List (EpochOp n)} {s : EpochLog n} {i : Fin n}
    (bytes : ∀ str, .load i str ∈ ops → str ≠ [])
    (taken : Machine.run (step limits) initial ops = some s)
    (empty : (s.slaves i).curLogBuffer = []) : (s.slaves i).written = [] := by
  have first : ((initial : EpochLog n).slaves i).Kept :=
    ⟨fun _ loaded => (nomatch loaded), fun _ => rfl⟩
  have kept := Machine.run_invariant (fun op => ∀ str, op = .load i str → str ≠ [])
    (fun s : EpochLog n => (s.slaves i).Kept)
    (fun _ _ _ kept bytes taken => step_kept bytes kept taken)
    (fun op member str (same : op = .load i str) => bytes str (by rwa [same] at member)) first taken
  exact kept.buffer empty

/-- The epoch moves on between two records, and the master writes the first of them. -/
def sample (count : Nat) : List (EpochOp 1) :=
  [.load 0 [1], .write 0, .advance, .load 0 [2], .write 0, .doSync, .drain, .flush count]

end EpochLog

end UbApplication.Tigon.Wal
