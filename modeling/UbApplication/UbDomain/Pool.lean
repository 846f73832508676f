import UbApplication.UbDomain.Entries

/-!
# The pool across both machines

Sessions of machine A take slots of the pool, publish their contracts there and commit once machine
B has built the tables of the slot. B runs `ud_pool_poll` of `ub_domain_pool.c` over the slots of
its region; A publishes as the client library `ub_domain_client.c` does. A region is named by the
physical address of its heap, as A sees it.
-/

namespace UbApplication.UbDomain

open Function (update)

/-- B handles the publication of a slot. -/
structure Handling where
  slot : Nat
  request : BitVec 64
  contract : Contract
  extra : Option SocialExtra
  accepted : Bool

/-- Both machines. -/
structure Pool where
  /-- `ud_pool_banks` of the kernel of A. -/
  banks : Banks
  sessions : Nat → Option OpenSession
  region : BitVec 64 → Nat → PoolPublication
  tables : BitVec 64 → Nat → Entry → Fin 4 → Nat → BitVec 64
  owner : BitVec 64 → Option Handling

namespace Pool

def start : Pool where
  banks _ := ⟨0, 0, 0, 0⟩
  sessions _ := none
  region _ _ := ⟨⟨blankContract, 0, 0⟩, 0, 0⟩
  tables _ _ _ _ _ := 0
  owner _ := none

def publication (p : Pool) (heap : BitVec 64) (slot : Nat) (pub : PoolPublication) : Pool :=
  { p with region := update p.region heap (update (p.region heap) slot pub) }

def session (p : Pool) (k : Nat) (s : Option OpenSession) : Pool :=
  { p with sessions := update p.sessions k s }

end Pool

/-! ## Machine B -/

/-- The region is one that `ud_pool_poll` handles. -/
def pollReady (seen : Import) : Bool :=
  poolHeaderValid seen.header && seen.profileHeader.magic == udProfileMagic &&
    seen.profileHeader.abi == udPoolAbi && decide (seen.profileHeader.profile ≤ 3)

/-- The profile has a page for data. -/
def pollWrites (seen : Import) : Bool :=
  seen.profileHeader.profile == Profile.socialWrite.number ||
    seen.profileHeader.profile == Profile.socialShared.number

/-- The number of nginx domains that the manifest of the region names. -/
def pollCount (seen : Import) : Nat := remoteSocialCount seen.manifest.reserved.toNat

/-- The record of the extra domains, when they are to be built. -/
def pollExtra (seen : Import) (slot : Nat) : Option SocialExtra :=
  if seen.profileHeader.profile = Profile.social.number ∧ pollCount seen = 3 then
    some (seen.extra slot)
  else none

/-- The checks of `ud_pool_poll` on the social profile. -/
def pollSocialError (seen : Import) (slot : Nat) (c : Contract) : Bool :=
  seen.manifest.magic != udRemoteMagic || seen.manifest.abi != udRemoteAbi ||
    seen.manifest.mode != CodeMode.remoteSocial.number || pollCount seen == 0 ||
    !usHeapValidCount seen.heap (pollCount seen) ||
    (pollCount seen == 3 && (List.finRange 4).any fun e =>
      (socialExtraContract c (seen.extra slot) e).isNone)

/-- The checks of `ud_pool_poll` on a publication. -/
def pollError (seen : Import) (slot : Nat) (pub : PoolPublication) : Bool :=
  let c := pub.pub.contract
  !contractValid c || c.nonce != pub.pub.request || pub.reserved != 0 ||
    (c.writePa != 0) != pollWrites seen ||
    (seen.profileHeader.profile == Profile.social.number && pollSocialError seen slot c)

/-- B finds a request that is not complete and checks it. -/
def Pool.poll (p : Pool) (heap : BitVec 64) (slot : Nat) (seen : Import) : Option Pool :=
  let pub := p.region heap slot
  if (p.owner heap).isSome = true ∨ pollReady seen = false ∨ udClients ≤ slot ∨
      pub.pub.request = 0 ∨ pub.pub.request = pub.pub.complete then none
  else
    let failed := pollError seen slot pub
    let p := p.publication heap slot { pub with error := if failed then 22 else 0 }
    some { p with owner := update p.owner heap (some
      { slot := slot
        request := pub.pub.request
        contract := pub.pub.contract
        extra := pollExtra seen slot
        accepted := !failed }) }

def Handling.table (handling : Handling) (level : Fin 4) : Entry → Option (Nat → BitVec 64)
  | .base d => some (buildTable handling.contract d level)
  | .extra e => handling.extra.map fun extra =>
      buildTable (adaptedContract handling.contract extra e) (Entry.extra e).domain level

def Pool.rewrite (p : Pool) (heap : BitVec 64) (entry : Entry) (level : Fin 4) : Option Pool := do
  let handling ← p.owner heap
  let table ← handling.table level entry
  if handling.accepted then
    some { p with
      tables := update p.tables heap (update (p.tables heap) handling.slot
        (update (p.tables heap handling.slot) entry
          (update (p.tables heap handling.slot entry) level table))) }
  else none

def Pool.complete (p : Pool) (heap : BitVec 64) : Option Pool := do
  let handling ← p.owner heap
  let pub := p.region heap handling.slot
  let p := p.publication heap handling.slot
    { pub with pub := { pub.pub with complete := handling.request } }
  some { p with owner := update p.owner heap none }

/-! ## Machine A -/

/-- An ioctl on the shared banks, in the region of the session. -/
def Label.inPool (label : Label) (p : Pool) (s : OpenSession) : Label :=
  { label with
    banks := p.banks
    env := { label.env with
      seen := { label.env.seen with slot := p.region s.contract.heapPa } } }

def Pool.ioctl (p : Pool) (k : Nat) (label : Label) : Option Pool := do
  let s ← p.sessions k
  let a ← (label.inPool p s).answer s
  some ({ p with banks := a.dev.banks }.session k (some a.dev.s))

/-- `ud_release`. -/
def Pool.close (p : Pool) (k : Nat) (ledger : Ledger) : Option Pool := do
  let s ← p.sessions k
  some ({ p with banks := (freePages ⟨s, ledger, p.banks⟩).banks }.session k none)

/-- The client library publishes the contract of a prepared session, unless the slot is busy. -/
def Pool.publish (p : Pool) (k : Nat) : Option Pool := do
  let s ← p.sessions k
  let pub := p.region s.contract.heapPa s.poolSlot
  if s.prepared = false ∨ s.multi = false ∨ pub.pub.request ≠ pub.pub.complete ∨
      pub.pub.request = s.contract.nonce then none
  else
    some (p.publication s.contract.heapPa s.poolSlot
      { pub with pub := { pub.pub with contract := s.contract, request := s.contract.nonce } })

/-- `ud_open`. -/
def Pool.connect (p : Pool) (k : Nat) : Option Pool :=
  if (p.sessions k).isSome then none else some (p.session k (some opened))

/-- The steps of both machines. -/
inductive PoolLabel where
  | connect (k : Nat)
  /-- A session is prepared, committed, called or asked for something else. -/
  | ioctl (k : Nat) (label : Label)
  | publish (k : Nat)
  | close (k : Nat) (ledger : Ledger)
  | poll (heap : BitVec 64) (slot : Nat) (seen : Import)
  | rewrite (heap : BitVec 64) (entry : Entry) (level : Fin 4)
  | complete (heap : BitVec 64)

def Pool.step (p : Pool) : PoolLabel → Option Pool
  | .connect k => p.connect k
  | .ioctl k label => p.ioctl k label
  | .publish k => p.publish k
  | .close k ledger => p.close k ledger
  | .poll heap slot seen => p.poll heap slot seen
  | .rewrite heap entry level => p.rewrite heap entry level
  | .complete heap => p.complete heap

end UbApplication.UbDomain
