import UbApplication.UbDomain.Prepare

/-!
# Committing a session

`ud_commit` of `domain.c`. The peer has published the contract, the tables, the entry contexts and
the images; the kernel compares them with what it expects and copies the images into the code
pages. What was copied before a check fails stays in the pages.
-/

namespace UbApplication.UbDomain

open Fallible

/-- Steps of a commit, which only touch the session. -/
abbrev Commit := EStateM Errno OpenSession

/-- Two tables have the same descriptors. -/
def sameTable (expected actual : Nat → BitVec 64) : Bool :=
  (List.range 512).all fun i => expected i == actual i

/-- The context that a domain is to be entered with. -/
def expectedContext (profile : Profile) (d : Domain) : Initial :=
  .fixed (if profile = .micro then 0 else usConfigOffset d)

/-- The first words of a page are replaced. -/
def copyWords (count : Nat) (source page : Words) : Words := fun i =>
  if i < count then source i else page i

/-- The publication of a session: that of its slot in the pool, or the only one. -/
def readPublication (seen : Import) : Commit Publication := do
  let s ← get
  refuse (seen.fault 0 = true) .efault
  if s.multi then do
    refuse (poolHeaderValid seen.header = false ∨ seen.header.generation ≠ s.poolGeneration) .estale
    refuse (seen.fault (udPoolSlot s.poolSlot) = true) .efault
    refuse ((seen.slot s.poolSlot).error ≠ 0 ∨ (seen.slot s.poolSlot).reserved ≠ 0) .ebadmsg
    pure (seen.slot s.poolSlot).pub
  else pure seen.publication

/-- The manifest is not the one of the session. -/
def manifestMismatch (session : Session) (remote : RemoteManifest) : Bool :=
  remote.magic != udRemoteMagic || remote.abi != udRemoteAbi ||
    remote.mode != session.codeMode.number ||
    (if session.codeMode = .remoteSocial then
      remoteSocialCount remote.reserved.toNat != session.socialNginxCount ||
        remote.reserved.toNat % 256 != session.remoteService
    else remote.reserved != 0)

def checkManifest (seen : Import) : Commit Unit := do
  let s ← get
  if s.session.codeMode ≠ .legacy then do
    refuse (seen.fault udRemoteMetaOffset = true) .efault
    refuse (manifestMismatch s.session seen.manifest = true) .ebadmsg
  else pure ()

/-- A published table is not the one of the contract. -/
def checkTable (seen : Import) (expected : Nat → BitVec 64) (offset : Nat) : Commit Unit := do
  refuse (seen.fault offset = true) .efault
  refuse (sameTable expected (seen.table offset) = false) .ebadmsg

def imageCount (seen : Import) (session : Session) (d : Domain) : Nat :=
  if session.codeMode ≠ .legacy then (seen.manifest.words d).toNat
  else (profileService session.profile d).length

/-- The image of a domain is not one the code mode admits. -/
def imageRefused (seen : Import) (session : Session) (d : Domain) : Bool :=
  let words := session.code (.base d)
  let count := imageCount seen session d
  match session.codeMode with
  | .legacy => !(List.range count).all fun i =>
      words i == (profileService session.profile d).getD i 0
  | .remoteVerified => !remoteImageValid d words count
  | .remoteSocial =>
    !remoteSocialImageValid d words count ||
      (d == .direct && (words 0 == remoteSocialLb3Word 0) !=
        (remoteSocialCount seen.manifest.reserved.toNat == 3)) ||
      (d == .middle && words 0 != if session.remoteService = 2 then ldrHome else ldrUser)

/-- The entry context of a domain is copied. -/
def copyContext (seen : Import) (d : Domain) (s : OpenSession) : OpenSession :=
  { s with session := { s.session with
      initial := Function.update s.session.initial d (seen.context d) } }

/-- The image of a domain is copied into its code page. -/
def copyImage (seen : Import) (d : Domain) (s : OpenSession) : OpenSession :=
  { s with session := { s.session with
      code := Function.update s.session.code (.base d)
        (copyWords (imageCount seen s.session d) (seen.image d) (s.session.code (.base d))) } }

/-- The length of a remote image is recorded. -/
def recordWords (seen : Import) (d : Domain) (s : OpenSession) : OpenSession :=
  if s.session.codeMode ≠ .legacy then
    { s with session := { s.session with
        remoteWords := Function.update s.session.remoteWords d (seen.manifest.words d).toNat } }
  else s

/-- One domain of `ud_commit`. -/
def commitDomain (seen : Import) (d : Domain) : Commit Unit := do
  let s ← get
  refuse (s.session.codeMode ≠ .legacy ∧
    (seen.manifest.words d = 0 ∨ udRemoteMaxWords < (seen.manifest.words d).toNat)) .einval
  (List.finRange 4).forM fun level =>
    checkTable seen (buildTable s.contract d level) (s.tablePlace d level)
  modify (copyContext seen d)
  refuse (seen.fault (udContext d) = true) .efault
  refuse (seen.context d ≠ expectedContext s.session.profile d) .ebadmsg
  refuse (imageCount seen s.session d = 0 ∨ udPage < 4 * imageCount seen s.session d) .einval
  modify (copyImage seen d)
  refuse (seen.fault (udImage d) = true) .efault
  let s ← get
  refuse (imageRefused seen s.session d = true) .ebadmsg
  modify (recordWords seen d)

/-- The image of an extra domain is copied into its code page. -/
def copyExtra (seen : Import) (e : Fin 4) (s : OpenSession) : OpenSession :=
  let d := (Entry.extra e).domain
  { s with session := { s.session with
      code := Function.update s.session.code (.extra e)
        (copyWords (s.session.remoteWords d) (seen.image d) (s.session.code (.extra e))) } }

/-- One extra domain of `ud_commit`. -/
def commitExtra (seen : Import) (e : Fin 4) : Commit Unit := do
  let s ← get
  let d := (Entry.extra e).domain
  let adapted ← attempt ((socialExtraContract s.contract s.extra e).elim (.error .ebadmsg) .ok)
  (List.finRange 4).forM fun level =>
    checkTable seen (buildTable adapted d level) (udSocialExtraTable s.poolSlot e level)
  modify (copyExtra seen e)
  refuse (seen.fault (udImage d) = true) .efault
  let s ← get
  refuse ((List.range (s.session.remoteWords d)).all (fun i =>
    s.session.code (.base d) i == s.session.code (.extra e) i) = false) .ebadmsg

/-- The extra domains of `ud_commit`. -/
def commitExtras (seen : Import) : Commit Unit := do
  let s ← get
  if s.hasExtras then do
    refuse (seen.fault (udSocialExtraSlot s.poolSlot) = true) .efault
    refuse (seen.extra s.poolSlot ≠ s.extra) .ebadmsg
    (List.finRange 4).forM (commitExtra seen)
  else pure ()

/-- The heap of the micro profile: a factor and a ring of records. -/
def microHeapValid (heap : Words) : Bool :=
  let actual (i : Nat) : BitVec 64 := word64 heap (2 * i)
  actual 0 == 100 && (List.range 32).all fun d =>
    actual (8 + d * 8) == BitVec.ofNat 64 d &&
      actual (9 + d * 8) == BitVec.ofNat 64 ((d + 1) % 32) &&
      actual (10 + d * 8) == BitVec.ofNat 64 (1000 + d)

/-- The heap is one of the profile. -/
def heapValid (session : Session) (heap : Words) : Bool :=
  match session.profile with
  | .micro => microHeapValid heap
  | .social => usHeapValidCount heap session.socialNginxCount
  | _ => usHeapValidCount heap 1

/-- `ud_commit`; `memory` says that the buffers can be allocated. -/
def udCommit (seen : Import) (memory : Bool) : Commit Unit := do
  let s ← get
  refuse (s.prepared = false ∨ s.session.committed = true) .einval
  refuse (memory = false) .enomem
  let pub ← readPublication seen
  refuse (pub.contract ≠ s.contract ∨ pub.request ≠ s.contract.nonce ∨ pub.complete ≠ pub.request)
    .estale
  checkManifest seen
  domains.forM (commitDomain seen)
  commitExtras seen
  refuse (seen.fault udHeap = true) .efault
  refuse (heapValid s.session seen.heap = false) .ebadmsg
  modify fun s => { s with session := { s.session with committed := true }, poolReusable := true }

end UbApplication.UbDomain
