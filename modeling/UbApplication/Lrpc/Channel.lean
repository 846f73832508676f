import UbApplication.Lrpc.Publication

/-!
# The hand-off between callers and the shadow

`CALL`, `WAIT_CALL` and `RETURN` of `ub_lrpc.c` share one pending flag and one hand-off record per
channel. Each section under the lock of the channel is one step; falling asleep is part of the
section that sets the state of the task, and a task that is woken takes its next step later. A file
is used by one thread, so files and threads have the same numbers.
-/

namespace UbApplication.Lrpc

/-- `struct ub_lrpc_handoff`. -/
structure Handoff where
  procedureId : BitVec 32
  result : BitVec 32
  callerPid : Nat
  callerCpu : Nat
  callEnterNs : BitVec 64
  shadowDispatchNs : BitVec 64
  shadowReturnNs : BitVec 64
  callerResumeNs : BitVec 64
deriving DecidableEq, Repr

/-- Two records hand over the same call. -/
structure Handoff.Same (h g : Handoff) : Prop where
  procedureId : h.procedureId = g.procedureId
  callerPid : h.callerPid = g.callerPid
  callerCpu : h.callerCpu = g.callerCpu
  callEnterNs : h.callEnterNs = g.callEnterNs

/-- `struct ub_lrpc_channel`. -/
structure Channel where
  /-- `shadow_owner`, which is also `shadow_task`. -/
  shadowOwner : Option Nat
  callerTask : Option Nat
  shadowMm : Nat
  shadowCpu : Nat
  callPending : Bool
  handoff : Handoff
deriving DecidableEq, Repr

/-- Where a thread is. -/
inductive Phase where
  | user
  /-- In the loop of `CALL`, for the call of that number. -/
  | calling (call : Nat)
  | waiting
  /-- In `RETURN`, after its section under the lock, with the result it was given. -/
  | returning (result : BitVec 32)
deriving DecidableEq, Repr

/-- The sleeps of `WAIT_CALL` and `RETURN` are interruptible. -/
def Phase.interruptible : Phase → Bool
  | .waiting | .returning _ => true
  | .user | .calling _ => false

/-- A thread and its file. -/
structure Task where
  role : Role
  bound : Option (BitVec 32)
  mm : Nat
  cpu : Nat
  pinned : Bool
  phase : Phase
  asleep : Bool
  signalled : Bool
deriving DecidableEq, Repr

/-- How a call was answered. -/
inductive Answer where
  | returned (result : BitVec 32)
  | broken
deriving DecidableEq, Repr

/-- What the caller is to get: the result, or `-EPIPE`. -/
def Answer.result : Answer → BitVec 32
  | .returned result => result
  | .broken => -32

/-- A channel, the threads, and the history of its calls. -/
structure System where
  channel : Channel
  tasks : Nat → Task
  accepted : List Handoff
  answers : Nat → Option Answer
  received : Nat → List Handoff
  /-- How often, and with what, each call returned; nothing when the answer could not be written. -/
  returned : Nat → List (Option Handoff)

/-- Threads that have not opened the device; `mm` says which process each of them belongs to. -/
def System.start (mm : Nat → Nat) : System where
  channel := ⟨none, none, 0, 0, false, ⟨0, 0, 0, 0, 0, 0, 0, 0⟩⟩
  tasks t := ⟨.none, none, mm t, 0, false, .user, false, false⟩
  accepted := []
  answers _ := none
  received _ := []
  returned _ := []

namespace System

variable (s : System)

/-- The number of the last call that was accepted. -/
def last : Nat := s.accepted.length - 1

def setTask (t : Nat) (task : Task) : System := { s with tasks := Function.update s.tasks t task }

/-- `wake_up_process`. -/
def wake (t : Nat) : System := s.setTask t { s.tasks t with asleep := false }

/-- `UB_LRPC_IOC_SET_ROLE`. -/
def setRole (t : Nat) (role : Role) : System :=
  if role = .none ∨ (s.tasks t).role ≠ .none then s
  else s.setTask t { s.tasks t with role := role }

/-- A `UB_LRPC_IOC_BIND` that finds its procedure on the channel. -/
def bind (t : Nat) (procedure : BitVec 32) : System :=
  let task := s.tasks t
  if (task.role ≠ .caller ∧ task.role ≠ .shadow) ∨ task.bound.isSome then s
  else s.setTask t { task with bound := some procedure }

/-- `UB_LRPC_IOC_REGISTER_SHADOW`. -/
def registerShadow (t : Nat) : System :=
  let task := s.tasks t
  if task.role ≠ .shadow ∨ task.bound = none ∨ task.pinned = false then s
  else if s.channel.shadowOwner.isSome then s
  else { s with channel := { s.channel with
      shadowOwner := some t
      shadowMm := task.mm
      shadowCpu := task.cpu } }

/-- A call is accepted: it is handed over, its caller goes to sleep, and the shadow is woken. -/
def accept (t shadow : Nat) (procedure : BitVec 32) (now : BitVec 64) : System :=
  let task := s.tasks t
  let handoff : Handoff := ⟨procedure, 0, t, task.cpu, now, 0, 0, 0⟩
  let s := { s with
    channel := { s.channel with callerTask := some t, handoff := handoff, callPending := true }
    accepted := s.accepted ++ [handoff] }
  (s.setTask t { task with phase := .calling s.last, asleep := true }).wake shadow

/-- `UB_LRPC_IOC_CALL` up to its sleep; `copied` says that the argument can be read. -/
def call (t : Nat) (copied : Bool) (now : BitVec 64) : System :=
  let task := s.tasks t
  match task.role, task.bound, s.channel.shadowOwner with
  | .caller, some procedure, some shadow =>
    if copied = false ∨ task.mm = s.channel.shadowMm ∨ task.pinned = false ∨
        task.cpu ≠ s.channel.shadowCpu ∨ s.channel.callPending then s
    else s.accept t shadow procedure now
  | _, _, _ => s

/-- A caller that was woken: it returns, or sleeps again when a call is pending. -/
def resume (t call : Nat) (copied : Bool) (now : BitVec 64) : System :=
  let task := s.tasks t
  if s.channel.callPending then s.setTask t { task with asleep := true }
  else
    let handoff := { s.channel.handoff with callerResumeNs := now }
    { s.setTask t { task with phase := .user } with
      channel := { s.channel with handoff := handoff }
      returned := Function.update s.returned call
        (s.returned call ++ [if copied then some handoff else none]) }

/-- The loop of `UB_LRPC_IOC_WAIT_CALL` once more; `copied` says that the answer can be written. -/
def wait (t : Nat) (copied : Bool) (now : BitVec 64) : System :=
  let task := s.tasks t
  if s.channel.shadowOwner ≠ some t then s.setTask t { task with phase := .user }
  else if s.channel.callPending then
    let handoff := { s.channel.handoff with shadowDispatchNs := now }
    { s.setTask t { task with phase := .user } with
      channel := { s.channel with handoff := handoff }
      received := if copied then
        Function.update s.received s.last (s.received s.last ++ [handoff]) else s.received }
  else s.setTask t { task with phase := .waiting, asleep := !task.signalled }

/-- A pending call is answered and its caller is woken. -/
def answer (answer : Answer) (caller : Nat) : System :=
  { s with
    channel := { s.channel with
      callPending := false
      handoff := { s.channel.handoff with result := answer.result } }
    answers := Function.update s.answers s.last (some answer) }.wake caller

/-- `UB_LRPC_IOC_RETURN` up to its sleep. Without a caller to wake it would fault. -/
def ret (t : Nat) (result : BitVec 32) (copied : Bool) (now : BitVec 64) : Option System :=
  if copied = false ∨ s.channel.shadowOwner ≠ some t ∨ s.channel.callPending = false then some s
  else do
    let caller ← s.channel.callerTask
    let task := s.tasks t
    let s := s.setTask t { task with phase := .returning result, asleep := !task.signalled }
    let s := { s with
      channel := { s.channel with handoff := { s.channel.handoff with shadowReturnNs := now } } }
    some (s.answer (.returned result) caller)

/-- The shadow gives up the channel; a pending call is answered with `-EPIPE`. -/
def unregister : System :=
  let caller := s.channel.callerTask
  let s := { s with channel := { s.channel with shadowOwner := none, callerTask := none } }
  if s.channel.callPending then
    match caller with
    | some caller => s.answer .broken caller
    | none =>
      { s with
        channel := { s.channel with
          callPending := false
          handoff := { s.channel.handoff with result := Answer.broken.result } }
        answers := Function.update s.answers s.last (some .broken) }
  else s

/-- `ub_lrpc_release`. -/
def release (t : Nat) : System :=
  let s := if s.channel.shadowOwner = some t then s.unregister else s
  s.setTask t { s.tasks t with role := .none, bound := none }

/-- A signal ends an interruptible sleep. -/
def signal (t : Nat) : System :=
  let task := s.tasks t
  s.setTask t { task with
    signalled := true
    asleep := if task.phase.interruptible then false else task.asleep }

end System

/-- The steps of the threads. -/
inductive SystemLabel where
  | setRole (t : Nat) (role : Role)
  | bind (t : Nat) (procedure : BitVec 32)
  /-- `sched_setaffinity`. -/
  | pin (t : Nat) (cpu : Nat) (pinned : Bool)
  | registerShadow (t : Nat)
  | call (t : Nat) (copied : Bool) (now : BitVec 64)
  /-- A caller goes on after its sleep. -/
  | resume (t : Nat) (copied : Bool) (now : BitVec 64)
  | waitCall (t : Nat) (copied : Bool) (now : BitVec 64)
  /-- A thread goes on in `WAIT_CALL`. -/
  | waitAgain (t : Nat) (copied : Bool) (now : BitVec 64)
  | ret (t : Nat) (result : BitVec 32) (copied : Bool) (now : BitVec 64)
  /-- A thread goes on in `RETURN`. If a signal came, `RETURN` gives `-ERESTARTSYS`, and `restart`
  says that it is executed again with the same argument. -/
  | retEnd (t : Nat) (restart copied : Bool) (now : BitVec 64)
  | release (t : Nat)
  | signal (t : Nat)

/-- One step. An ioctl begins in the program of its thread; a thread that sleeps takes no step.
`WAIT_CALL` and `RETURN` use the channel of a file without looking whether it has one, and would
fault on a file that is not bound. -/
def System.step (s : System) : SystemLabel → Option System
  | .setRole t role => if (s.tasks t).phase = .user then some (s.setRole t role) else none
  | .bind t procedure => if (s.tasks t).phase = .user then some (s.bind t procedure) else none
  | .pin t cpu pinned =>
    if (s.tasks t).phase = .user then
      some (s.setTask t { s.tasks t with cpu := cpu, pinned := pinned })
    else none
  | .registerShadow t => if (s.tasks t).phase = .user then some (s.registerShadow t) else none
  | .call t copied now => if (s.tasks t).phase = .user then some (s.call t copied now) else none
  | .resume t copied now =>
    match (s.tasks t).phase, (s.tasks t).asleep with
    | .calling call, false => some (s.resume t call copied now)
    | _, _ => none
  | .waitCall t copied now =>
    if (s.tasks t).phase = .user then
      if (s.tasks t).role ≠ .shadow then some s
      else if (s.tasks t).bound = none then none
      else some (s.wait t copied now)
    else none
  | .waitAgain t copied now =>
    if (s.tasks t).phase = .waiting ∧ (s.tasks t).asleep = false then
      if (s.tasks t).signalled then
        some (s.setTask t { s.tasks t with phase := .user, signalled := false })
      else some (s.wait t copied now)
    else none
  | .ret t result copied now =>
    if (s.tasks t).phase = .user ∧ (s.tasks t).bound.isSome then s.ret t result copied now else none
  | .retEnd t restart copied now =>
    match (s.tasks t).phase, (s.tasks t).asleep with
    | .returning result, false =>
      let next := s.setTask t { s.tasks t with phase := .user, signalled := false }
      if (s.tasks t).signalled ∧ restart then next.ret t result copied now else some next
    | _, _ => none
  | .release t => if (s.tasks t).phase = .user then some (s.release t) else none
  | .signal t => some (s.signal t)

end UbApplication.Lrpc
