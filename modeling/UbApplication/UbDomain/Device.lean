import Mathlib.Data.Finset.Basic
import UbApplication.Lib.Fallible
import UbApplication.UbDomain.Contract
import UbApplication.UbDomain.SocialRun

/-!
# Sessions of the device

An open file of the device is a session. It holds pages, address space ids and file references of
the kernel, and perhaps a slot of the pool; the kernel keeps account of them in a ledger and in the
banks of `pool_slots.h`. What an ioctl finds of the platform and in the memory that the peer
publishes are its environment.
-/

namespace UbApplication.UbDomain

open Translation Fallible
open Function (update)

/-! ## The slots of the pool -/

def udClients : Nat := 8

/-- `struct ud_pool_bank`. -/
structure Bank where
  heap : BitVec 64
  generation : BitVec 64
  used : BitVec 64
  quarantined : BitVec 64
  deriving DecidableEq

def slotBit (slot : Nat) : BitVec 64 := (1 : BitVec 64) <<< slot

/-- `ud_pool_banks`. -/
abbrev Banks := Fin 16 → Bank

/-- The loop of `ud_slots_acquire` over the banks: the bank of the heap, or the first empty one. -/
def scanBanks (banks : Banks) (heap generation : BitVec 64) :
    List (Fin 16) → Option (Fin 16) → Except Errno (Option (Fin 16) × Option (Fin 16))
  | [], empty => .ok (none, empty)
  | i :: rest, empty =>
    if (banks i).heap = 0 then scanBanks banks heap generation rest (empty <|> some i)
    else if (banks i).heap = heap then
      if (banks i).generation ≠ generation then .error .estale else .ok (some i, empty)
    else scanBanks banks heap generation rest empty

/-- The bank that `ud_slots_acquire` takes a slot of; a new one is set up. -/
def chooseBank (banks : Banks) (heap generation : BitVec 64) : Except Errno (Fin 16 × Banks) :=
  match scanBanks banks heap generation (List.finRange 16) none with
  | .error error => .error error
  | .ok (some i, _) => .ok (i, banks)
  | .ok (none, none) => .error .enospc
  | .ok (none, some i) =>
    .ok (i, update banks i { banks i with heap := heap, generation := generation })

/-- `ud_slots_acquire`. -/
def slotsAcquire (banks : Banks) (heap generation : BitVec 64) :
    Except Errno ((Fin 16 × Nat) × Banks) :=
  if heap = 0 ∨ generation = 0 then .error .einval
  else match chooseBank banks heap generation with
    | .error error => .error error
    | .ok (i, banks) =>
      match (List.range udClients).find? fun slot => !(banks i).used.getLsbD slot with
      | none => .error .enospc
      | some slot =>
        .ok ((i, slot),
          update banks i { banks i with used := (banks i).used ||| slotBit slot })

/-- `ud_slots_release`. -/
def slotsRelease (banks : Banks) (i : Fin 16) (slot : Nat) (exposed reusable : Bool) : Banks :=
  let bank : Bank := if exposed && !reusable then
      { banks i with quarantined := (banks i).quarantined ||| slotBit slot }
    else { banks i with used := (banks i).used &&& ~~~slotBit slot }
  let bank := if bank.used = 0 then { bank with heap := 0, generation := 0, quarantined := 0 }
    else bank
  update banks i bank

/-! ## What the peer publishes -/

/-- `struct ud_pool_header`. -/
structure PoolHeader where
  magic : BitVec 64
  generation : BitVec 64
  abi : BitVec 32
  clients : BitVec 32
  domains : BitVec 32
  reserved : BitVec 32

def udPoolMagic : BitVec 64 := 0x5542504f4f4c3031

def udPoolAbi : BitVec 32 := 2

/-- `ud_pool_header_valid`. -/
def poolHeaderValid (header : PoolHeader) : Bool :=
  header.magic == udPoolMagic && header.generation != 0 && header.abi == udPoolAbi &&
    header.clients == 8 && header.domains == 4 && header.reserved == 0

/-- `struct ud_profile_header`. -/
structure ProfileHeader where
  magic : BitVec 64
  abi : BitVec 32
  profile : BitVec 32

def udProfileMagic : BitVec 64 := 0x554250524f463031

/-- `struct ud_publication`, without the count of initialisations, which the kernel does not
compare. -/
structure Publication where
  contract : Contract
  request : BitVec 64
  complete : BitVec 64

/-- `struct ud_pool_publication`. -/
structure PoolPublication where
  pub : Publication
  error : BitVec 32
  reserved : BitVec 32

/-- `struct ud_remote_manifest`. -/
structure RemoteManifest where
  magic : BitVec 64
  abi : BitVec 32
  mode : BitVec 32
  words : Domain → BitVec 32
  reserved : BitVec 32

def udRemoteMagic : BitVec 64 := 0x554452454d4f5445

def udRemoteAbi : BitVec 32 := 1

def CodeMode.number : CodeMode → BitVec 32
  | .legacy => 0
  | .remoteVerified => 1
  | .remoteSocial => 2

def Profile.number : Profile → BitVec 32
  | .micro => 0
  | .social => 1
  | .socialWrite => 2
  | .socialShared => 3

/-! ## Places in the imported region -/

def udBytes : Nat := 0x400000

def udTable (d : Domain) (level : Fin 4) : Nat := 0x10000 + d.number * 0x4000 + level.val * 0x1000

def udHeap : Nat := 0x30000

def udWriteHeap (slot : Nat) : Nat := 0x300000 + slot * udPage

def udSharedHeap : Nat := 0x308000

def udImage (d : Domain) : Nat := 0x40000 + d.number * 0x1000

def udContext (d : Domain) : Nat := 0x50000 + d.number * 0x1000

def udPoolSlot (slot : Nat) : Nat := 0x100000 + slot * 0x1000

def udPoolTable (slot : Nat) (d : Domain) (level : Fin 4) : Nat :=
  0x110000 + slot * 0x10000 + d.number * 0x4000 + level.val * 0x1000

def udSocialExtraSlot (slot : Nat) : Nat := udPoolSlot slot + 0x400

def udSocialExtraTable (slot : Nat) (e level : Fin 4) : Nat :=
  0x200000 + slot * 0x10000 + e.val * 0x4000 + level.val * 0x1000

def udRemoteMetaOffset : Nat := 0x1000

def udProfileOffset : Nat := 64

/-- What an ioctl finds in the region that the caller imports. Places are offsets in the region. -/
structure Import where
  fault : Nat → Bool
  header : PoolHeader
  profileHeader : ProfileHeader
  publication : Publication
  slot : Nat → PoolPublication
  manifest : RemoteManifest
  context : Domain → Initial
  image : Domain → Words
  extra : Nat → SocialExtra
  heap : Words
  vma : Nat → Except Errno Nat
  pte : Nat → Option Errno
  writable : Nat → Bool
  pa : Nat → BitVec 64
  memory : Tables

/-- A page of the region read as a table. -/
def Import.table (seen : Import) (offset : Nat) : Nat → BitVec 64 := seen.memory (seen.pa offset)

/-! ## Sessions -/

/-- What a session may hold of the kernel. -/
inductive Resource where
  | emptyRoot
  /-- `s->asid_token` and `s->social_token`. -/
  | token (entry : Entry)
  /-- `s->asid` and `s->social_asid`. -/
  | asid (entry : Entry)
  /-- `s->code` and `s->social_code`. -/
  | code (entry : Entry)
  /-- `s->stack` and `s->social_stack`. -/
  | stack (entry : Entry)
  | args (domain : Domain)
  deriving DecidableEq, Repr

/-- The kinds of what the kernel allocates. -/
inductive Kind where
  | page
  | token
  | asid
  deriving DecidableEq, Repr

def Resource.kind : Resource → Kind
  | .token _ => .token
  | .asid _ => .asid
  | _ => .page

/-- `struct ud_session`. The part that calls read is `session`; pages are named by their physical
addresses. -/
structure OpenSession where
  session : Session
  prepared : Bool
  multi : Bool
  poolReserved : Bool
  poolExposed : Bool
  poolReusable : Bool
  poolGeneration : BitVec 64
  poolBank : Fin 16
  poolSlot : Nat
  /-- `s->p.import_va`. -/
  importVa : Nat
  /-- `s->p.contract`. -/
  contract : Contract
  /-- `s->social_extra`. -/
  extra : SocialExtra
  held : Resource → Option (BitVec 64)
  importFile : Nat → Option Nat
  completion : BitVec 64

/-- What the kernel has given out. -/
@[ext] structure Ledger where
  live : Kind → Finset (BitVec 64)
  files : Nat → Nat

/-- A session and what it shares with others. -/
structure Device where
  s : OpenSession
  ledger : Ledger
  banks : Banks

/-- Steps of an ioctl. -/
abbrev Ioctl := EStateM Errno Device

namespace Device

def withSession (dev : Device) (f : OpenSession → OpenSession) : Device := { dev with s := f dev.s }

/-- Something new is held. -/
def give (dev : Device) (r : Resource) (value : BitVec 64) : Device :=
  { dev with
    s := { dev.s with held := update dev.s.held r (some value) }
    ledger := { dev.ledger with
      live := update dev.ledger.live r.kind (insert value (dev.ledger.live r.kind)) } }

/-- What is held is given back. -/
def release (dev : Device) (r : Resource) : Device :=
  match dev.s.held r with
  | none => dev
  | some value =>
    { dev with
      s := { dev.s with held := update dev.s.held r none }
      ledger := { dev.ledger with
        live := update dev.ledger.live r.kind ((dev.ledger.live r.kind).erase value) } }

def getFile (dev : Device) (slot file : Nat) : Device :=
  { dev with
    s := { dev.s with importFile := update dev.s.importFile slot (some file) }
    ledger := { dev.ledger with
      files := update dev.ledger.files file (dev.ledger.files file + 1) } }

def putFile (dev : Device) (slot : Nat) : Device :=
  match dev.s.importFile slot with
  | none => dev
  | some file =>
    { dev with
      s := { dev.s with importFile := update dev.s.importFile slot none }
      ledger := { dev.ledger with
        files := update dev.ledger.files file (dev.ledger.files file - 1) } }

def releaseSlot (dev : Device) : Device :=
  if dev.s.poolReserved then
    { dev with
      banks := slotsRelease dev.banks dev.s.poolBank dev.s.poolSlot dev.s.poolExposed
        dev.s.poolReusable
      s := { dev.s with poolReserved := false } }
  else dev

end Device

def domains : List Domain := [.direct, .middle, .leaf, .query]

/-- What `ud_free_pages` gives back, in order. -/
def freeOrder : List Resource :=
  domains.flatMap (fun d => [.asid (.base d), .token (.base d)]) ++
    (List.finRange 4).flatMap (fun e =>
      [.asid (.extra e), .token (.extra e), .code (.extra e), .stack (.extra e)]) ++
    .emptyRoot :: domains.flatMap (fun d => [.code (.base d), .stack (.base d), .args d])

/-- The number of places for file references. -/
def importFiles : Nat := 34

/-- `ud_free_pages`. -/
def freePages (dev : Device) : Device :=
  let dev := freeOrder.foldl Device.release dev
  let dev := (List.range importFiles).foldl Device.putFile dev
  dev.releaseSlot

end UbApplication.UbDomain
