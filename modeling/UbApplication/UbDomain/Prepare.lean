import UbApplication.UbDomain.Device

/-!
# Preparing a session

`ud_prepare_pages` of `domain.c` and the two ioctls that call it. The pages of the peer are looked
up, a slot of the pool is taken, and the pages and ids of the domains are allocated; a failure at
any step gives everything back.
-/

namespace UbApplication.UbDomain

open Fallible
open Function (update)

/-- What an ioctl finds of the platform. -/
structure Platform where
  /-- What is wrong with the processor, `ud_supported`. -/
  supported : Option Errno
  mair : BitVec 64
  mtNormal : Nat
  mtNormalNc : Nat
  /-- `get_random_u64`. -/
  random : BitVec 64
  taskSize : Nat
  /-- The module parameter `allow_remote_code`. -/
  allowRemoteCode : Bool
  alloc : Resource → Option (BitVec 64)

/-- `ud_mair_index`; `none` stands for the negative error code. -/
def mairIndex (mair : BitVec 64) (encoding : BitVec 64) (preferred : Nat) : Option Nat :=
  if (mair >>> (8 * preferred)) &&& 255 = encoding then some preferred
  else (List.range 8).find? fun i => (mair >>> (8 * i)) &&& 255 == encoding

/-- The index as it is stored in the contract: a negative one is stored as a large number. -/
def storedIndex (index : Option Nat) : BitVec 32 := BitVec.ofNat 32 (index.getD (4294967296 - 95))

/-! ## The mapping of the imported region -/

/-- The place of the page for data of a profile, if it has one. -/
def OpenSession.writePlace (s : OpenSession) : Option Nat :=
  match s.session.profile with
  | .socialShared => some udSharedHeap
  | .socialWrite => some (udWriteHeap s.poolSlot)
  | _ => none

/-- The session has the extra nginx domains. -/
def OpenSession.hasExtras (s : OpenSession) : Bool :=
  s.session.profile == .social && s.session.socialNginxCount == 3

def OpenSession.tablePlace (s : OpenSession) (d : Domain) (level : Fin 4) : Nat :=
  if s.multi then udPoolTable s.poolSlot d level else udTable d level

/-- `ud_import_pa`. -/
def importPa (seen : Import) (offset slot : Nat) (fresh : Bool) : Ioctl (BitVec 64) := do
  let dev ← get
  let file ← attempt (seen.vma offset)
  refuse (fresh = false ∧ dev.s.importFile slot ≠ some file) .estale
  refuseWith (seen.pte offset)
  refuse (dev.s.writePlace = some offset ∧ seen.writable offset = false) .eacces
  refuse (paValid (seen.pa offset) = false) .erange
  modify fun dev => if fresh then dev.getFile slot file else dev
  pure (seen.pa offset)

/-- One page of `ud_mapping`: its address is recorded, or compared with the one on record. -/
def mapPage (seen : Import) (fresh : Bool) (offset slot : Nat)
    (recorded : OpenSession → BitVec 64) (record : BitVec 64 → OpenSession → OpenSession) :
    Ioctl Unit := do
  let pa ← importPa seen offset slot fresh
  let dev ← get
  refuse (fresh = false ∧ recorded dev.s ≠ pa) .estale
  modify fun dev => if fresh then dev.withSession (record pa) else dev

namespace OpenSession

def setTable (d : Domain) (level : Fin 4) (pa : BitVec 64) (s : OpenSession) : OpenSession :=
  { s with
    contract := { s.contract with
      tablePa := update s.contract.tablePa d
        (update (s.contract.tablePa d) level pa) } }

def setHeap (pa : BitVec 64) (s : OpenSession) : OpenSession :=
  { s with contract := { s.contract with heapPa := pa } }

def setWrite (pa : BitVec 64) (s : OpenSession) : OpenSession :=
  { s with contract := { s.contract with writePa := pa } }

def setExtraTable (e level : Fin 4) (pa : BitVec 64) (s : OpenSession) : OpenSession :=
  { s with
    extra := { s.extra with
      domain := update s.extra.domain e
        { s.extra.domain e with
          tablePa := update (s.extra.domain e).tablePa level pa } } }

end OpenSession

/-- The tables of a domain in `ud_mapping`. -/
def mapTables (seen : Import) (fresh : Bool) (d : Domain) : Ioctl Unit := do
  let dev ← get
  (List.finRange 4).forM fun level =>
    mapPage seen fresh (dev.s.tablePlace d level) (d.number * 4 + level.val)
      (fun s => s.contract.tablePa d level) (OpenSession.setTable d level)

/-- The page for data in `ud_mapping`. -/
def mapWrite (seen : Import) (fresh : Bool) : Ioctl Unit := do
  let dev ← get
  match dev.s.writePlace with
  | none => pure ()
  | some offset =>
    mapPage seen fresh offset 17 (fun s => s.contract.writePa) OpenSession.setWrite

/-- The tables of the extra domains in `ud_mapping`. -/
def mapExtras (seen : Import) (fresh : Bool) : Ioctl Unit := do
  let dev ← get
  if dev.s.hasExtras then
    (List.finRange 4).forM fun e => (List.finRange 4).forM fun level =>
      mapPage seen fresh (udSocialExtraTable dev.s.poolSlot e level)
        (18 + e.val * 4 + level.val) (fun s => (s.extra.domain e).tablePa level)
        (OpenSession.setExtraTable e level)
  else pure ()

def udMapping (seen : Import) (fresh : Bool) : Ioctl Unit := do
  domains.forM (mapTables seen fresh)
  mapPage seen fresh udHeap 16 (fun s => s.contract.heapPa) OpenSession.setHeap
  mapWrite seen fresh
  mapExtras seen fresh

/-! ## Allocation -/

/-- An allocation; the kernel does not give out what is in use. -/
def tryAlloc (platform : Platform) (r : Resource) : Ioctl Unit :=
  modify fun dev =>
    match platform.alloc r with
    | none => dev
    | some value => if value ∈ dev.ledger.live r.kind then dev else dev.give r value

/-- Something that was to be allocated is missing. -/
def refuseMissing (wanted : List Resource) (error : Errno) : Ioctl Unit := do
  let dev ← get
  refuse (∃ r ∈ wanted, dev.s.held r = none) error

def alloc (platform : Platform) (r : Resource) (error : Errno) : Ioctl Unit := do
  tryAlloc platform r
  refuseMissing [r] error

/-- The slot of a pool session is taken, in the bank of its heap. -/
def takeSlot (seen : Import) : Ioctl Unit := do
  let dev ← get
  if dev.s.multi then do
    let heap ← importPa seen udHeap 16 true
    let dev ← get
    let taken ← attempt (slotsAcquire dev.banks heap dev.s.poolGeneration)
    modify fun dev =>
      { dev with
        banks := taken.2
        s := { dev.s with
          poolBank := taken.1.1
          poolSlot := taken.1.2
          poolReserved := true } }
    -- The reference of the lookup is replaced by the one that the mapping takes.
    modify fun dev => dev.putFile 16
  else pure ()

namespace OpenSession

def pageOf (s : OpenSession) (r : Resource) : BitVec 64 := (s.held r).getD 0

/-- The domain whose argument page a domain sees: routing domains share the first one. -/
def argsDomain (s : OpenSession) (d : Domain) : Domain :=
  if s.session.profile ≠ .micro then .direct else d

/-- The new pages of a domain are zero, and their addresses are put into the contract. -/
def enlist (d : Domain) (s : OpenSession) : OpenSession :=
  { s with
    session := { s.session with
      code := update s.session.code (.base d) (fun _ => 0)
      stack := update s.session.stack (.base d) (fun _ => 0)
      args := update s.session.args d (fun _ => 0) }
    contract := { s.contract with
      codePa := update s.contract.codePa d (s.pageOf (.code (.base d)))
      stackPa := update s.contract.stackPa d (s.pageOf (.stack (.base d)))
      argsPa := update s.contract.argsPa d (s.pageOf (.args (s.argsDomain d))) } }

/-- The record of the extra domains is for the contract. -/
def tagExtra (s : OpenSession) : OpenSession :=
  { s with extra := { s.extra with nonce := s.contract.nonce, abi := 1, domains := 4 } }

/-- The new pages of an extra domain are zero, and their addresses are put on record. -/
def enlistExtra (e : Fin 4) (s : OpenSession) : OpenSession :=
  { s with
    session := { s.session with
      code := update s.session.code (.extra e) (fun _ => 0)
      stack := update s.session.stack (.extra e) (fun _ => 0) }
    extra := { s.extra with
      domain := update s.extra.domain e
        { s.extra.domain e with
          codePa := s.pageOf (.code (.extra e))
          stackPa := s.pageOf (.stack (.extra e)) } } }

end OpenSession

def prepareDomain (platform : Platform) (d : Domain) : Ioctl Unit := do
  alloc platform (.token (.base d)) .enomem
  alloc platform (.asid (.base d)) .enospc
  tryAlloc platform (.code (.base d))
  tryAlloc platform (.stack (.base d))
  tryAlloc platform (.args d)
  refuseMissing [.code (.base d), .stack (.base d), .args d] .enomem
  modify fun dev => dev.withSession (OpenSession.enlist d)

def prepareExtra (platform : Platform) (e : Fin 4) : Ioctl Unit := do
  alloc platform (.token (.extra e)) .enomem
  alloc platform (.asid (.extra e)) .enospc
  tryAlloc platform (.code (.extra e))
  tryAlloc platform (.stack (.extra e))
  refuseMissing [.code (.extra e), .stack (.extra e)] .enomem
  modify fun dev => dev.withSession (OpenSession.enlistExtra e)

def prepareExtras (platform : Platform) : Ioctl Unit := do
  let dev ← get
  if dev.s.hasExtras then do
    modify fun dev => dev.withSession OpenSession.tagExtra
    (List.finRange 4).forM (prepareExtra platform)
  else pure ()

/-- The steps of `ud_prepare_pages` that are undone when one of them fails. -/
def acquirePages (platform : Platform) (seen : Import) : Ioctl Unit := do
  takeSlot seen
  udMapping seen true
  alloc platform .emptyRoot .enomem
  domains.forM (prepareDomain platform)
  prepareExtras platform
  let dev ← get
  refuse (contractValid dev.s.contract = false) .erange

def blankContract : Contract where
  magic := 0
  nonce := 0
  abi := 0
  wbIndex := 0
  ncIndex := 0
  reserved := 0
  tablePa := fun _ _ => 0
  heapPa := 0
  codePa := fun _ => 0
  stackPa := fun _ => 0
  argsPa := fun _ => 0
  writePa := 0

/-- The contract is begun with a new nonce. -/
def OpenSession.beginContract (platform : Platform) (importVa : Nat) (s : OpenSession) :
    OpenSession :=
  { s with
    importVa := importVa
    contract := { blankContract with
      magic := udMagic
      abi := udAbi
      nonce := platform.random ||| 1 } }

def OpenSession.setIndices (platform : Platform) (s : OpenSession) : OpenSession :=
  { s with contract := { s.contract with
      wbIndex := storedIndex (mairIndex platform.mair 0xff platform.mtNormal)
      ncIndex := storedIndex (mairIndex platform.mair 0x44 platform.mtNormalNc) } }

/-- `ud_prepare_pages`. -/
def preparePages (platform : Platform) (seen : Import) (importVa : Nat) : Ioctl Unit := do
  let dev ← get
  refuse (dev.s.prepared = true) .ealready
  refuse (importVa = 0 ∨ importVa % udPage ≠ 0 ∨ platform.taskSize - udBytes < importVa) .einval
  modify fun dev => dev.withSession (OpenSession.beginContract platform importVa)
  refuseWith platform.supported
  modify fun dev => dev.withSession (OpenSession.setIndices platform)
  onFailure (acquirePages platform seen) freePages

/-- The pages are prepared and the answer is written; at last the session is marked. -/
def prepareAnd (platform : Platform) (seen : Import) (importVa : Nat) (copied : Bool)
    (finish : OpenSession → OpenSession) : Ioctl Unit := do
  preparePages platform seen importVa
  onFailure (refuse (copied = false) .efault) freePages
  modify fun dev => dev.withSession finish

namespace OpenSession

/-- The session is to be one outside the pool. -/
def single (s : OpenSession) : OpenSession := { s with multi := false }

/-- The session outside the pool is prepared. -/
def finishSingle (s : OpenSession) : OpenSession := { s with prepared := true }

/-- The session is to be one of the pool. -/
def pooled (generation : BitVec 64) (s : OpenSession) : OpenSession :=
  { s with
    multi := true
    poolGeneration := generation
    poolExposed := false
    poolReusable := false }

/-- The session of the pool is prepared, and its slot is known to the peer. -/
def finishPooled (s : OpenSession) : OpenSession := { s with prepared := true, poolExposed := true }

/-- The number of nginx domains and the kind of read that a manifest names. -/
def setTopology (tag : Nat) (s : OpenSession) : OpenSession :=
  { s with session := { s.session with
      socialNginxCount := remoteSocialCount tag
      remoteService := tag % 256 } }

end OpenSession

/-- The session cannot be prepared at that address. -/
def badRange (platform : Platform) (importVa : Nat) : Prop :=
  importVa = 0 ∨ platform.taskSize - udBytes < importVa

instance (platform : Platform) (importVa : Nat) : Decidable (badRange platform importVa) :=
  inferInstanceAs (Decidable (_ ∨ _))

/-- The manifest is not the one that a session outside the pool needs. -/
def manifestRefused (platform : Platform) (mode : CodeMode) (remote : RemoteManifest) : Bool :=
  if mode = .remoteVerified then
    !platform.allowRemoteCode || remote.magic != udRemoteMagic || remote.abi != udRemoteAbi ||
      remote.mode != 1 || remote.reserved != 0
  else remote.magic != 0 || remote.abi != 0 || remote.mode != 0 || remote.reserved != 0

/-- `ud_prepare_session`: `input` is the address that the caller passes, if it can be read, and
`copied` says that the answer can be written. -/
def prepareSession (platform : Platform) (seen : Import) (input : Option Nat) (copied : Bool) :
    Ioctl Unit := do
  let dev ← get
  refuse (dev.s.prepared = true) .ealready
  refuse (dev.s.session.profile ≠ .micro) .eprotonosupport
  let importVa ← attempt (input.elim (.error .efault) .ok)
  refuse (badRange platform importVa) .einval
  refuse (seen.fault 0 = true) .efault
  refuse (seen.header.magic = udPoolMagic) .eprotonosupport
  refuse (seen.fault udRemoteMetaOffset = true) .efault
  refuse (manifestRefused platform dev.s.session.codeMode seen.manifest = true) .eprotonosupport
  modify fun dev => dev.withSession OpenSession.single
  prepareAnd platform seen importVa copied OpenSession.finishSingle

/-- `struct ud_pool_prepare`, as far as the kernel reads it. -/
structure PoolPrepare where
  importVa : Nat
  generation : BitVec 64
  abi : BitVec 32
  slot : BitVec 32

/-- The profile that the peer publishes is not that of the session. -/
def profileRefused (profile : Profile) (tag : ProfileHeader) : Bool :=
  if tag.magic = udProfileMagic then tag.abi != udPoolAbi || tag.profile != profile.number
  else profile != .micro

/-- The manifest of remote social code is not one the session can use. -/
def socialManifestRefused (remote : RemoteManifest) : Bool :=
  remote.magic != udRemoteMagic || remote.abi != udRemoteAbi || remote.mode != 2 ||
    remoteSocialCount remote.reserved.toNat == 0

/-- The code mode of a pool session: legacy, or social code for the social profile, whose manifest
says how many nginx domains there are. -/
def preparePoolMode (platform : Platform) (seen : Import) : Ioctl Unit := do
  let dev ← get
  refuse (dev.s.session.profile = .social ∧ dev.s.session.codeMode ≠ .remoteSocial) .eprotonosupport
  if dev.s.session.codeMode = .remoteSocial then do
    refuse (platform.allowRemoteCode = false ∨ dev.s.session.profile ≠ .social ∨
      seen.fault udRemoteMetaOffset = true) .eprotonosupport
    refuse (socialManifestRefused seen.manifest = true) .eprotonosupport
    modify fun dev => dev.withSession (OpenSession.setTopology seen.manifest.reserved.toNat)
  else refuse (dev.s.session.codeMode ≠ .legacy) .eprotonosupport

/-- `ud_prepare_pool`. -/
def preparePool (platform : Platform) (seen : Import) (input : Option PoolPrepare) (copied : Bool) :
    Ioctl Unit := do
  let dev ← get
  refuse (dev.s.prepared = true) .ealready
  let input ← attempt (input.elim (.error .efault) .ok)
  refuse (input.abi ≠ udPoolAbi ∨ input.generation = 0 ∨ input.slot ≠ 0 ∨
    badRange platform input.importVa) .einval
  refuse (seen.fault 0 = true) .efault
  refuse (poolHeaderValid seen.header = false ∨ seen.header.generation ≠ input.generation) .estale
  refuse (seen.fault udProfileOffset = true) .efault
  refuse (profileRefused dev.s.session.profile seen.profileHeader = true) .eprotonosupport
  preparePoolMode platform seen
  modify fun dev => dev.withSession (OpenSession.pooled input.generation)
  prepareAnd platform seen input.importVa copied OpenSession.finishPooled

end UbApplication.UbDomain
