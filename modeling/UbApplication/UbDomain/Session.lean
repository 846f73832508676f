import UbApplication.UbDomain.RemoteCode

/-!
# Sessions and the gate

The part of `struct ud_session` that calls read, and what the gate of `gate.S` and
`gate_nested.S` does for the C code: it runs a domain until an exception and records the
exception in `struct ud_regs`.
-/

namespace UbApplication.UbDomain

open AArch64

/-- The error codes that the module returns. -/
inductive Errno where
  | eagain | eacces | ealready | ebadmsg | ebusy | efault | einval | eio | enomem | enospc
  | enotconn | enotty | eopnotsupp | eproto | eprotonosupport | erange | estale | exdev
  deriving DecidableEq, Repr

/-- The profiles of a connection, `UD_PROFILE_*`. -/
inductive Profile where
  /-- `UD_PROFILE_MICRO`. -/
  | micro
  /-- `UD_PROFILE_SOCIAL`. -/
  | social
  /-- `UD_PROFILE_SOCIAL_WRITE`. -/
  | socialWrite
  /-- `UD_PROFILE_SOCIAL_SHARED`. -/
  | socialShared
  deriving DecidableEq, Repr

/-- Where the code of the domains comes from, `UD_CODE_*`. -/
inductive CodeMode where
  /-- `UD_CODE_LEGACY`: the services built into the module. -/
  | legacy
  /-- `UD_CODE_REMOTE_VERIFIED`. -/
  | remoteVerified
  /-- `UD_CODE_REMOTE_SOCIAL`. -/
  | remoteSocial
  deriving DecidableEq, Repr

/-- How a nested call changes domains, `UD_NESTED_*`. -/
inductive NestedPath where
  /-- `UD_NESTED_LEGACY`: each domain is entered and left by C code. -/
  | legacy
  /-- `UD_NESTED_FUSED`: the gate changes from one domain to the other. -/
  | fused
  deriving DecidableEq, Repr

/-- The entries of a session: its domains and the extra nginx domains. -/
inductive Entry where
  | base (domain : Domain)
  /-- One of the `UD_SOCIAL_EXTRA_DOMAINS` extra domains. -/
  | extra (index : Fin 4)
  deriving DecidableEq, Repr

/-- `ud_social_base_entry`: the domain whose code an entry runs. -/
def Entry.domain : Entry → Domain
  | .base domain => domain
  | .extra index => if index.val % 2 = 1 then .leaf else .middle

abbrev Words := Nat → BitVec 32

/-- The pages of the peer that domains see. -/
structure Imported where
  heap : Words
  write : Words

/-- What a call reads of a session. -/
structure Session where
  profile : Profile
  codeMode : CodeMode
  nestedPath : NestedPath
  remoteService : Nat
  socialNginxCount : Nat
  remoteWords : Domain → Nat
  initial : Domain → Initial
  committed : Bool
  code : Entry → Words
  stack : Entry → Words
  args : Domain → Words

namespace Session

/-- The argument page that a domain sees: routing domains share one. -/
def argsOf (session : Session) (domain : Domain) : Domain :=
  if session.profile = .micro then domain else .direct

/-- The pages an entry sees. -/
def pages (session : Session) (imported : Imported) (entry : Entry) : DomainPages where
  code := session.code entry
  stack := session.stack entry
  heap := imported.heap
  args := session.args (session.argsOf entry.domain)
  write := if entry = .base .middle ∧
      (session.profile = .socialWrite ∨ session.profile = .socialShared) then
    some imported.write else none

end Session

/-- The words that a program leaves in a page. -/
def leftWords (space : Space) (page : Nat) (before : Words) : Words :=
  match space page with
  | none => before
  | some left => left.word

/-! ## The gate -/

/-- `struct ud_regs`, without the saved processor state, which nothing reads. -/
structure Regs where
  x : Nat → BitVec 64
  sp : BitVec 64
  pc : BitVec 64
  esr : BitVec 64
  far : BitVec 64
  vector : BitVec 64

/-- The exception syndrome: the class of the exception, and the number of a breakpoint. -/
def syndrome : Stop → BitVec 64
  | .brk imm => 0xf2000000 + imm.setWidth 64
  | .undefined => 0x02000000
  | .instructionAbort => 0x82000000
  | .dataAbort _ => 0x92000000

def faultAddress (state : State) : Stop → BitVec 64
  | .dataAbort address => address
  | .instructionAbort => state.pc
  | _ => 0

namespace Regs

def state (regs : Regs) (pages : DomainPages) : State where
  x := regs.x
  sp := regs.sp
  pc := regs.pc
  zero := false
  space := domainSpace pages
  accesses := []

/-- The exception is recorded, as the trap of the gate does. -/
def trapped (regs : Regs) (left : State) (stop : Stop) : Regs :=
  { regs with
    vector := 8
    pc := left.pc
    esr := syndrome stop
    far := faultAddress left stop }

def saved (regs : Regs) (left : State) : Regs := { regs with x := left.x, sp := left.sp }

/-- The recorded exception is the breakpoint with that number, at that place. -/
def brkAt (regs : Regs) (imm pc : BitVec 64) : Bool :=
  regs.vector == 8 && regs.esr >>> 26 == 0x3c && regs.esr &&& 0xffff == imm && regs.pc == pc

end Regs

namespace Session

/-- `ud_initial_regs`. -/
def initialRegs (session : Session) (domain : Domain) : Regs where
  x := UbDomain.initialRegs (session.initial domain)
  sp := (session.initial domain).sp
  pc := (session.initial domain).pc
  esr := 0
  far := 0
  vector := 0

/-- The session after a program ran in an entry and left its pages. -/
def put (session : Session) (entry : Entry) (space : Space) : Session :=
  { session with
    stack := Function.update session.stack entry (leftWords space stackPage (session.stack entry))
    args := Function.update session.args (session.argsOf entry.domain)
      (leftWords space argsPage (session.args (session.argsOf entry.domain))) }

/-- What is left when a program stops. -/
structure Exit where
  session : Session
  imported : Imported
  left : State
  stop : Stop

/-- A domain runs until an exception; `none` when it does not stop. -/
def execute (fuel : Nat) (session : Session) (imported : Imported) (entry : Entry) (regs : Regs) :
    Option Exit :=
  ((regs.state (session.pages imported entry)).run fuel).map fun (left, stop) =>
    { session := session.put entry left.space
      imported := { imported with write := leftWords left.space writePage imported.write }
      left := left
      stop := stop }

/-- What the gate leaves. -/
structure Gated where
  session : Session
  imported : Imported
  regs : Regs

/-- `ud_enter`: a domain is entered with some registers and left at an exception. The registers of
the program are only saved at the nested trap of the middle domain. -/
def enter (fuel : Nat) (session : Session) (imported : Imported) (entry : Entry) (regs : Regs)
    (saveMiddle : Bool) : Option Gated :=
  (session.execute fuel imported entry regs).map fun exit =>
    let trapped := regs.trapped exit.left exit.stop
    { session := exit.session
      imported := exit.imported
      regs :=
        if saveMiddle && trapped.brkAt 0x4c1 (regs.pc + 12) then trapped.saved exit.left
        else trapped }

end Session

/-- `struct ud_nested_gate`; the roots and the argument pages are named by what they belong to. -/
structure NestedGate where
  middle : Regs
  leaf : Regs
  middleRoot : Entry
  leafRoot : Entry
  leafArgs : Domain
  callPc : BitVec 64
  leafPc : BitVec 64
  returnPc : BitVec 64
  transitions : Nat
  complete : Nat
  domain : Nat
  social : Bool
  socialArgs : Domain
  socialTarget : BitVec 32

namespace Session

/-- The word with the action of a routing message in the argument page. -/
def socialActionWord : Nat := 49

/-- The word with the target of a routing message in the argument page. -/
def socialTargetWord : Nat := 50

/-- What the nested gate leaves. -/
structure NestedGated where
  session : Session
  imported : Imported
  gate : NestedGate

/-- `.Ludn_restore`: the gate returns to the caller. -/
def nestedRestore (session : Session) (imported : Imported) (gate : NestedGate) : NestedGated :=
  ⟨session, imported, { gate with transitions := gate.transitions + 1 }⟩

/-- The first domain is resumed and returns. -/
def nestedReturn (fuel : Nat) (session : Session) (imported : Imported) (gate : NestedGate) :
    Option NestedGated :=
  (session.execute fuel imported gate.middleRoot gate.middle).map fun exit =>
    let gate := { gate with middle := gate.middle.trapped exit.left exit.stop }
    if gate.middle.brkAt 0x4c0 gate.returnPc then
      exit.session.nestedRestore exit.imported { gate with complete := 1 }
    else exit.session.nestedRestore exit.imported gate

/-- The second domain is entered; when it returns, the first one is resumed with its result, or
the chain of routing domains ends. -/
def nestedLeaf (fuel : Nat) (session : Session) (imported : Imported) (gate : NestedGate) :
    Option NestedGated := do
  let gate := { gate with domain := 2, transitions := gate.transitions + 1 }
  let exit ← session.execute fuel imported gate.leafRoot gate.leaf
  let gate := { gate with leaf := gate.leaf.trapped exit.left exit.stop }
  if gate.leaf.brkAt 0x4c0 gate.leafPc then
    if gate.social then exit.session.nestedRestore exit.imported { gate with complete := 1 }
    else
      let result := word64 (exit.session.args gate.leafArgs) 4
      exit.session.nestedReturn fuel exit.imported
        { gate with
          middle :=
            { gate.middle with
              x := Function.update gate.middle.x 2 result
              pc := gate.middle.pc + 4 }
          domain := 1
          transitions := gate.transitions + 1 }
  else exit.session.nestedRestore exit.imported gate

def withArgs (session : Session) (domain : Domain) (words : Words) : Session :=
  { session with args := Function.update session.args domain words }

/-- The argument page of a domain with its first three double words replaced. -/
def setArgs (session : Session) (domain : Domain) (a b result : BitVec 64) : Session :=
  session.withArgs domain (set64 (set64 (set64 (session.args domain) 0 a) 2 b) 4 result)

/-- `ud_enter_nested`: the first domain is entered; at its trap the second one is. -/
def enterNested (fuel : Nat) (session : Session) (imported : Imported) (gate : NestedGate) :
    Option NestedGated := do
  let exit ← session.execute fuel imported gate.middleRoot gate.middle
  let gate :=
    { gate with
      middle := gate.middle.trapped exit.left exit.stop
      transitions := 1
      domain := 1
      complete := 0 }
  if gate.social then
    -- The first routing domain must have chosen the expected second one.
    if gate.middle.brkAt 0x4c0 gate.callPc &&
        exit.session.args gate.socialArgs socialActionWord == 2 &&
        exit.session.args gate.socialArgs socialTargetWord == gate.socialTarget then
      exit.session.nestedLeaf fuel exit.imported gate
    else exit.session.nestedRestore exit.imported gate
  else if gate.middle.brkAt 0x4c1 gate.callPc then
    let session := exit.session.setArgs gate.leafArgs (exit.left.x 2) 0 0
    session.nestedLeaf fuel exit.imported { gate with middle := gate.middle.saved exit.left }
  else exit.session.nestedRestore exit.imported gate

end Session

end UbApplication.UbDomain
