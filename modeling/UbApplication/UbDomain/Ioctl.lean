import UbApplication.UbDomain.Commit

/-!
# The ioctls of a session

`ud_ioctl` of `domain.c`. The lock of the session makes ioctls of one session follow each other;
between them the peer may change its memory and other sessions the ledger and the banks, so every
ioctl comes with its own environment.
-/

namespace UbApplication.UbDomain

open Fallible

/-- What an ioctl finds. -/
structure Environment where
  platform : Platform
  seen : Import
  write : Words
  fuel : Nat
  cpu : BitVec 32
  cpuAgain : BitVec 32
  elapsed : BitVec 64

/-- `struct ud_tlb_probe`, as far as the kernel reads it. -/
structure TlbProbe where
  a : BitVec 64
  b : BitVec 64
  procedure : Nat
  flush : BitVec 32

/-- The ioctls; what the caller passes is `none` when it cannot be read. -/
inductive Request where
  /-- `UD_SET_CODE_MODE`. -/
  | setCodeMode (mode : Option (BitVec 32))
  /-- `UD_SET_PROFILE`. -/
  | setProfile (profile : Option (BitVec 32))
  /-- `UD_SET_NESTED_PATH`. -/
  | setNestedPath (path : Option (BitVec 32))
  /-- `UD_PREPARE`. -/
  | prepare (input : Option Nat) (copied : Bool)
  /-- `UD_POOL_PREPARE`. -/
  | poolPrepare (input : Option PoolPrepare) (copied : Bool)
  /-- `UD_COMMIT`. -/
  | commit (memory : Bool)
  /-- `UD_CALL`. -/
  | call (input : Option Call) (copied : Bool)
  /-- `UD_TRACE_CALL`, where it is built in. -/
  | traceCall (input : Option Call) (copied : Bool)
  /-- `UD_MAPPED_CALL`. -/
  | mappedCall (procedure : Nat)
  /-- `UD_SOCIAL_CALL`. -/
  | socialCall
  /-- `UD_TLB_PROBE`. -/
  | tlbProbe (input : Option TlbProbe) (copied : Bool)
  /-- `UD_CONNECTION_INFO`. -/
  | connectionInfo (copied : Bool)
  /-- `UD_SOCIAL_EXTRA_INFO`. -/
  | socialExtraInfo (copied : Bool)
  | other

def codeModeOf (mode : BitVec 32) : Option CodeMode :=
  if mode = 0 then some .legacy
  else if mode = 1 then some .remoteVerified
  else if mode = 2 then some .remoteSocial
  else none

def profileOf (profile : BitVec 32) : Option Profile :=
  if profile = 0 then some .micro
  else if profile = 1 then some .social
  else if profile = 2 then some .socialWrite
  else if profile = 3 then some .socialShared
  else none

def nestedPathOf (path : BitVec 32) : Option NestedPath :=
  if path = 0 then some .legacy else if path = 1 then some .fused else none

/-- The value of an input that the caller passes, or an error. -/
def input {α : Type} (value : Option α) (error : Errno) : Ioctl α :=
  attempt (value.elim (.error error) .ok)

/-- `UD_SET_CODE_MODE`. -/
def setCodeMode (platform : Platform) (number : Option (BitVec 32)) : Ioctl Unit := do
  let dev ← get
  refuse (dev.s.prepared = true) .ebusy
  let number ← input number .efault
  let mode ← input (codeModeOf number) .einval
  refuse (mode = .legacy ∧ dev.s.session.profile = .social) .eopnotsupp
  refuse (mode ≠ .legacy ∧ (platform.allowRemoteCode = false ∨
    dev.s.session.profile ≠ if mode = .remoteSocial then .social else .micro)) .eopnotsupp
  modify fun dev => dev.withSession fun s =>
    { s with session := { s.session with codeMode := mode } }

/-- `UD_SET_PROFILE`. -/
def setProfile (number : Option (BitVec 32)) : Ioctl Unit := do
  let dev ← get
  refuse (dev.s.prepared = true) .ebusy
  let number ← input number .efault
  let profile ← input (profileOf number) .einval
  refuse ((dev.s.session.codeMode = .remoteVerified ∧ profile ≠ .micro) ∨
    (dev.s.session.codeMode = .remoteSocial ∧ profile ≠ .social)) .einval
  modify fun dev => dev.withSession fun s =>
    { s with session := { s.session with profile := profile } }

/-- `UD_SET_NESTED_PATH`. -/
def setNestedPath (number : Option (BitVec 32)) : Ioctl Unit := do
  let dev ← get
  refuse (dev.s.prepared = true) .ebusy
  let number ← input number .efault
  let path ← input (nestedPathOf number) .einval
  modify fun dev => dev.withSession fun s =>
    { s with session := { s.session with nestedPath := path } }

/-- A commit leaves the ledger and the banks alone. -/
def commitDevice (seen : Import) (memory : Bool) : Ioctl Unit := fun dev =>
  match udCommit seen memory dev.s with
  | .ok value s => .ok value { dev with s := s }
  | .error error s => .error error { dev with s := s }

/-- What an ioctl leaves. -/
structure Answer where
  /-- The error code, `none` for success. -/
  rc : Option Errno
  dev : Device

def answer (m : Ioctl Unit) (dev : Device) : Answer :=
  match m dev with
  | .ok _ dev => ⟨none, dev⟩
  | .error error dev => ⟨some error, dev⟩

/-- The result of `ud_mapping` for a call. -/
def mappingError (seen : Import) (dev : Device) : Option Errno :=
  (answer (udMapping seen false) dev).rc

namespace Environment

def checks (env : Environment) (dev : Device) : Checks where
  mapping := mappingError env.seen dev
  supported := env.platform.supported

def socialChecks (env : Environment) (dev : Device) : SocialChecks where
  mapping := mappingError env.seen dev
  supported := env.platform.supported
  cpu := env.cpu
  elapsed := env.elapsed

def imported (env : Environment) : Imported := ⟨env.seen.heap, env.write⟩

end Environment

def Errno.number : Errno → BitVec 32
  | .eio => 5 | .eagain => 11 | .enomem => 12 | .eacces => 13 | .efault => 14 | .ebusy => 16
  | .exdev => 18 | .einval => 22 | .enotty => 25 | .enospc => 28 | .erange => 34 | .eproto => 71
  | .ebadmsg => 74 | .eprotonosupport => 93 | .eopnotsupp => 95 | .enotconn => 107
  | .ealready => 114 | .estale => 116

def statusOf (rc : Option Errno) : BitVec 32 := rc.elim 0 Errno.number

/-- A call of the micro profile on the device. -/
def runDevice (env : Environment) (call : Call) (mapped : Bool) (dev : Device) :
    Option (Answer × Call) :=
  (dev.s.session.udRun env.fuel (env.checks dev) env.imported call mapped).map fun outcome =>
    (⟨outcome.rc, dev.withSession fun s => { s with session := outcome.session }⟩, outcome.call)

/-- A call of the micro profile with its results cleared. -/
def Call.cleared (call : Call) : Call :=
  { call with result := 0, esr := 0, far := 0, transitions := 0 }

/-- The answer when the result cannot be copied to the caller. -/
def Answer.copiedOut (answer : Answer) (copied : Bool) : Answer :=
  if copied then answer else { answer with rc := some .efault }

/-- The record of a mapped call in the argument page: `struct ud_mapped`. -/
def mappedRecord (env : Environment) (procedure : Nat) (rc : Option Errno) (call : Call)
    (completion : BitVec 64) (page : Words) : Words :=
  let page := set64 (set64 (set64 page 8 env.elapsed) 10 call.esr) 12 call.far
  let page := Function.update (Function.update page 14 (BitVec.ofNat 32 procedure)) 15
    (BitVec.ofNat 32 call.transitions)
  let page := Function.update (Function.update page 16 env.cpu) 17 (statusOf rc)
  set64 page 6 completion

/-- `UD_MAPPED_CALL`. -/
def mappedCall (env : Environment) (procedure : Nat) (dev : Device) : Option Answer :=
  if dev.s.session.committed = false ∨ procedure < 1 ∨ 3 < procedure then some ⟨some .einval, dev⟩
  else
    let d := procedureDomain procedure
    let page := dev.s.session.args d
    (runDevice env ⟨word64 page 0, word64 page 2, 0, 0, 0, procedure, 0, 0⟩ true dev).map
      fun (answer, call) =>
        { answer with
          dev := answer.dev.withSession fun s =>
            { s with
              session := s.session.withArgs d
                (mappedRecord env procedure answer.rc call (s.completion + 1) (s.session.args d))
              completion := s.completion + 1 } }

/-- `UD_SOCIAL_CALL`. -/
def socialCall (env : Environment) (dev : Device) : Option Answer :=
  if dev.s.session.committed = false ∨ dev.s.session.profile = .micro then
    some ⟨some .enotconn, dev⟩
  else
    (dev.s.session.udRunSocial env.fuel (env.socialChecks dev) env.imported).map fun outcome =>
      { rc := outcome.rc
        dev := dev.withSession fun s =>
          { s with
            session := outcome.session.edit fun page =>
              set64 (Function.update page 17 (statusOf outcome.rc)) 6 (s.completion + 1)
            completion := s.completion + 1 } }

/-- `UD_TLB_PROBE`: two calls with the same arguments. -/
def tlbProbe (env : Environment) (value : Option TlbProbe) (copied : Bool) (dev : Device) :
    Option Answer :=
  if dev.s.session.committed = false then some ⟨some .enotconn, dev⟩
  else match value with
    | none => some ⟨some .efault, dev⟩
    | some probe =>
      if (probe.procedure ≠ 1 ∧ probe.procedure ≠ 2) ∨ 1 < probe.flush then
        some ⟨some .einval, dev⟩
      else do
        let call : Call := ⟨probe.a, probe.b, 0, 0, 0, probe.procedure, 0, 0⟩
        let (first, _) ← runDevice env call false dev
        match first.rc with
        | some _ => some (first.copiedOut copied)
        | none =>
          let (second, _) ← runDevice env call false first.dev
          let rc := if second.rc = none ∧ env.cpu ≠ env.cpuAgain then some .exdev else second.rc
          some (Answer.copiedOut ⟨rc, second.dev⟩ copied)

/-- `ud_ioctl`; `none` when a domain does not stop. -/
def ioctl (env : Environment) (request : Request) (dev : Device) : Option Answer :=
  match request with
  | .setCodeMode mode => some (answer (setCodeMode env.platform mode) dev)
  | .setProfile profile => some (answer (setProfile profile) dev)
  | .setNestedPath path => some (answer (setNestedPath path) dev)
  | .prepare value copied => some (answer (prepareSession env.platform env.seen value copied) dev)
  | .poolPrepare value copied => some (answer (preparePool env.platform env.seen value copied) dev)
  | .commit memory => some (answer (commitDevice env.seen memory) dev)
  | .call none _ => some ⟨some .efault, dev⟩
  | .call (some call) copied =>
    (runDevice env call.cleared false dev).map fun (answer, _) => answer.copiedOut copied
  | .traceCall none _ => some ⟨some .efault, dev⟩
  | .traceCall (some call) copied =>
    if call.procedure ≠ 1 ∧ call.procedure ≠ 2 then some ⟨some .einval, dev⟩
    else
      (runDevice env { call.cleared with reserved := 0 } false dev).map fun (answer, _) =>
        answer.copiedOut copied
  | .mappedCall procedure => mappedCall env procedure dev
  | .socialCall => socialCall env dev
  | .tlbProbe value copied => tlbProbe env value copied dev
  | .connectionInfo copied => some (Answer.copiedOut ⟨none, dev⟩ copied)
  | .socialExtraInfo copied =>
    if dev.s.prepared = false ∨ dev.s.hasExtras = false then some ⟨some .eopnotsupp, dev⟩
    else some (Answer.copiedOut ⟨none, dev⟩ copied)
  | .other => some ⟨some .enotty, dev⟩

end UbApplication.UbDomain
