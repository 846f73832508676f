import UbApplication.UbDomain.Run
import UbApplication.UbDomain.SocialCode

/-!
# Calls of the social profiles

`ud_run_social` of `domain.c`. The message and the record of the call are in the first argument
page, which all routing domains share; words of the page are numbered from its start.
-/

namespace UbApplication.UbDomain

open AArch64 AArch64.State
open Function (update update_self update_of_ne update_idem)

/-- `struct us_message`. -/
structure Message where
  source : BitVec 64
  request : BitVec 64
  machine : BitVec 64
  block : BitVec 64
  payloadOffset : BitVec 64
  payloadBytes : BitVec 64
  value : BitVec 64
  ticket : BitVec 64
  type : BitVec 32
  action : BitVec 32
  target : BitVec 32
  status : BitVec 32
  deriving DecidableEq, Repr

def messageOf (page : Words) : Message where
  source := word64 page 32
  request := word64 page 34
  machine := word64 page 36
  block := word64 page 38
  payloadOffset := word64 page 40
  payloadBytes := word64 page 42
  value := word64 page 44
  ticket := word64 page 46
  type := page 48
  action := page 49
  target := page 50
  status := page 51

/-- `call->abi`. -/
def abiWord : Nat := 52

/-- `call->direction`. -/
def directionWord : Nat := 53

/-- `call->entries`. -/
def entriesWord : Nat := 54

/-- `call->domain[0]`. -/
def firstDomainWord : Nat := 55

/-- `call->domain[1]`. -/
def secondDomainWord : Nat := 56

/-- `call->fault_vector`. -/
def faultVectorWord : Nat := 57

/-- `call->transitions`. -/
def transitionsWord : Nat := 58

/-- `call->cpu`. -/
def cpuWord : Nat := 59

/-- The first word of `m->elapsed_ns`. -/
def elapsedWord : Nat := 8

/-- The first word of `m->esr`. -/
def esrWord : Nat := 10

/-- The first word of `m->far`. -/
def farWord : Nat := 12

def usUserReq : BitVec 32 := 9

def usUserResp : BitVec 32 := 10

def usHomeReq : BitVec 32 := 11

def usHomeResp : BitVec 32 := 12

def usWriteReq : BitVec 32 := 13

def usSharedWriteReq : BitVec 32 := 14

def usSharedReadReq : BitVec 32 := 15

def usSharedFetchAddReq : BitVec 32 := 16

/-- `EAGAIN` as a status of a message. -/
def eagain : BitVec 32 := 11

/-- The message is one of the shared page. -/
def Message.shared (message : Message) : Bool :=
  message.type == usSharedWriteReq || message.type == usSharedReadReq ||
    message.type == usSharedFetchAddReq

/-- The type of a message fits the direction and the profile of the call. -/
def typeAllowed (profile : Profile) (direction : BitVec 32) (message : Message) : Bool :=
  message.type == (if direction ≠ 0 then usUserResp else usUserReq) ||
    message.type == (if direction ≠ 0 then usHomeResp else usHomeReq) ||
    (profile == .socialWrite && direction == 0 && message.type == usWriteReq) ||
    (profile == .socialShared && direction == 0 && message.shared)

/-- A request for the shared page names a wrong cell. -/
def sharedRejected (profile : Profile) (message : Message) : Bool :=
  profile == .socialShared &&
    ((message.type == usSharedWriteReq && message.request != 1) ||
      (message.type == usSharedReadReq && message.request != 1 && message.request != 2) ||
      (message.type == usSharedFetchAddReq && (message.request != 2 || message.value != 1)))

/-- The first checks of `ud_run_social`. -/
def messageRejected (profile : Profile) (page : Words) : Bool :=
  let message := messageOf page
  page abiWord != 1 || 1 < (page directionWord).toNat ||
    message.source == 0 || 0xffffffff < message.source.toNat ||
    message.value == 0 || 0xffffffff < message.value.toNat ||
    0xffffffff < message.request.toNat || !typeAllowed profile (page directionWord) message ||
    sharedRejected profile message ||
    message.status != 0 || message.action != 0 || message.target != 0 || message.ticket != 0

/-- What a social call finds of the platform. -/
structure SocialChecks extends Checks where
  cpu : BitVec 32
  elapsed : BitVec 64

/-- What a social call leaves. -/
structure SocialOutcome where
  /-- The error code, `none` for success. -/
  rc : Option Errno
  session : Session
  imported : Imported
  visited : List Entry

/-- The entry of an nginx domain on the way from the client. -/
def nginxForward (nginx : Nat) : Entry :=
  if nginx = 2 then .base .middle else .extra (Fin.ofNat 4 (2 * (nginx - 3)))

/-- The entry of an nginx domain on the way back. -/
def nginxReverse (nginx : Nat) : Entry :=
  if nginx = 2 then .base .leaf else .extra (Fin.ofNat 4 (2 * (nginx - 3) + 1))

/-- What a chain of two routing domains has to do. No domain writes the direction, so it is read
once. -/
structure Route where
  reverse : Bool
  nginx : Nat
  input : Message

namespace Route

def first (route : Route) : Entry :=
  if route.reverse then nginxReverse route.nginx else .base .direct

def second (route : Route) : Entry :=
  if route.reverse then .base .query else nginxForward route.nginx

def firstIdentity (route : Route) : BitVec 32 :=
  if route.reverse then BitVec.ofNat 32 route.nginx else 1

def secondIdentity (route : Route) : BitVec 32 :=
  if route.reverse then 1 else BitVec.ofNat 32 route.nginx

/-- The action that the second domain has to choose. -/
def lastAction (route : Route) : BitVec 32 := if route.reverse then 3 else 1

/-- The target that the second domain has to choose. -/
def lastTarget (route : Route) : BitVec 32 :=
  if route.reverse then 0
  else if route.input.type = usWriteReq then 104
  else if route.input.shared then 105
  else if route.input.type = usHomeReq then 103 else 102

end Route

namespace Session

/-- The shared argument page is changed. -/
def edit (session : Session) (change : Words → Words) : Session :=
  session.withArgs .direct (change (session.args .direct))

/-- The registers that a routing domain is entered with. -/
def socialRegs (session : Session) (entry : Entry) : Regs :=
  let regs := session.initialRegs entry.domain
  { regs with x := update regs.x 0 (regs.x 0 + BitVec.ofNat 64 usMappedOffset) }

/-- The address of the return trap of an entry. -/
def socialReturnPc (session : Session) (entry : Entry) : BitVec 64 :=
  let words := if session.profile = .social then session.remoteWords entry.domain
    else (profileService session.profile entry.domain).length
  addressAt codePage (4 * words - 4)

/-- The nginx domain of a call; `none` when the call names none. -/
def socialNginx (session : Session) (page : Words) : Option Nat :=
  if session.profile = .social ∧ session.socialNginxCount = 3 then
    let nginx := if page directionWord = 0 then
        usSelectNginx ((messageOf page).request.toNat % 0x100000000) session.socialNginxCount
      else (page firstDomainWord).toNat
    if nginx < 2 ∨ 2 + session.socialNginxCount ≤ nginx then none else some nginx
  else some 2

/-- The service of the session is not the one of the message. -/
def serviceRejected (session : Session) (message : Message) : Bool :=
  session.profile == .social &&
    (if message.type = usUserReq ∨ message.type = usUserResp then session.remoteService != 1
      else session.remoteService != 2)

/-- The record of the call is cleared. -/
def clearCall (page : Words) : Words := fun index =>
  if index = entriesWord ∨ index = transitionsWord ∨ index = faultVectorWord ∨
      index = firstDomainWord ∨ index = secondDomainWord ∨
      (elapsedWord ≤ index ∧ index < farWord + 2) then 0
  else page index

/-- The label `timed` of `ud_run_social`. -/
def timed (session : Session) (checks : SocialChecks) : Session :=
  session.edit fun page => set64 page elapsedWord checks.elapsed

/-- What is left of one domain of the chain. -/
structure Leg where
  session : Session
  imported : Imported
  regs : Regs
  failed : Option Errno

/-- The label `bad` of `ud_run_social`. -/
def socialFaulted (leg : Leg) (checks : SocialChecks) (error : Errno) (visited : List Entry) :
    SocialOutcome where
  rc := some error
  session :=
    { (leg.session.edit fun page =>
        update (set64 (set64 page esrWord leg.regs.esr) farWord leg.regs.far)
          faultVectorWord (leg.regs.vector.setWidth 32)).timed checks with
      committed := false }
  imported := leg.imported
  visited := visited

/-- The message after the call may only differ where the domains were to write. -/
def messageKept (input result : Message) : Bool :=
  let result := { result with action := input.action, target := input.target }
  let result := if input.type = usWriteReq ∧ result.ticket = input.value then
    { result with ticket := input.ticket } else result
  let written := input.type != usSharedWriteReq || result.ticket == input.value
  let result := if input.shared then { result with ticket := input.ticket } else result
  let result := if input.type = usSharedFetchAddReq ∧ result.status = eagain then
    { result with status := input.status } else result
  written && result == input

/-- The end of `ud_run_social` when both domains returned. -/
def socialFinished (leg : Leg) (checks : SocialChecks) (input : Message) (visited : List Entry) :
    SocialOutcome :=
  let message := messageOf (leg.session.args .direct)
  if messageKept input message then
    { rc := if message.status = eagain then some .eagain else none
      session := leg.session.timed checks
      imported := leg.imported
      visited := visited }
  else socialFaulted leg checks .eproto visited

/-- One domain of the chain on the legacy path: `slot` is the word that records its identity. -/
def socialLeg (fuel : Nat) (session : Session) (imported : Imported) (entry : Entry) (slot : Nat)
    (identity action target : BitVec 32) : Option Leg :=
  (session.enter fuel imported entry (session.socialRegs entry) false).map fun gated =>
    let session := gated.session.edit fun page =>
      update page transitionsWord (page transitionsWord + 2)
    if gated.regs.brkAt 0x4c0 (session.socialReturnPc entry) then
      let session := session.edit fun page =>
        update (update page slot identity) entriesWord (page entriesWord + 1)
      let message := messageOf (session.args .direct)
      ⟨session, gated.imported, gated.regs,
        if message.action ≠ action ∨ message.target ≠ target then some .eproto else none⟩
    else ⟨session, gated.imported, gated.regs, some .eio⟩

/-- The legacy path: both domains are entered and left by C code. -/
def socialLegacy (fuel : Nat) (session : Session) (imported : Imported) (checks : SocialChecks)
    (route : Route) : Option SocialOutcome := do
  let one ← session.socialLeg fuel imported route.first firstDomainWord route.firstIdentity 2
    (if route.reverse then 1 else BitVec.ofNat 32 route.nginx)
  match one.failed with
  | some error => socialFaulted one checks error [route.first]
  | none =>
    let two ← one.session.socialLeg fuel one.imported route.second secondDomainWord
      route.secondIdentity route.lastAction route.lastTarget
    match two.failed with
    | some error => socialFaulted two checks error [route.first, route.second]
    | none => socialFinished two checks route.input [route.first, route.second]

/-- The gate that `ud_run_social` sets up. -/
def socialGate (session : Session) (route : Route) : NestedGate where
  middle := session.socialRegs route.first
  leaf := session.socialRegs route.second
  middleRoot := route.first
  leafRoot := route.second
  leafArgs := .direct
  callPc := session.socialReturnPc route.first
  leafPc := session.socialReturnPc route.second
  returnPc := 0
  transitions := 0
  complete := 0
  domain := 0
  social := true
  socialArgs := .direct
  socialTarget := if route.reverse then 1 else BitVec.ofNat 32 route.nginx

/-- The fused path: the gate changes from one domain to the other. -/
def socialFused (fuel : Nat) (session : Session) (imported : Imported) (checks : SocialChecks)
    (route : Route) : Option SocialOutcome :=
  (session.enterNested fuel imported (session.socialGate route)).map fun gated =>
    let gate := gated.gate
    let session := gated.session.edit fun page =>
      update page transitionsWord (BitVec.ofNat 32 gate.transitions)
    let regs := if gate.domain = 2 then gate.leaf else gate.middle
    let visited := if gate.domain = 2 then [route.first, route.second] else [route.first]
    if gate.complete = 1 ∧ gate.transitions = 3 ∧ gate.domain = 2 ∧
        regs.brkAt 0x4c0 gate.leafPc = true then
      let session := session.edit fun page =>
        update (update (update page firstDomainWord route.firstIdentity)
          secondDomainWord route.secondIdentity) entriesWord 2
      let message := messageOf (session.args .direct)
      let leg : Leg := ⟨session, gated.imported, regs, none⟩
      if message.action ≠ route.lastAction ∨ message.target ≠ route.lastTarget then
        socialFaulted leg checks .eproto visited
      else socialFinished leg checks route.input visited
    else socialFaulted ⟨session, gated.imported, regs, none⟩ checks .eio visited

/-- `ud_run_social`; `none` when a domain does not stop. -/
def udRunSocial (fuel : Nat) (checks : SocialChecks) (session : Session) (imported : Imported) :
    Option SocialOutcome :=
  let page := session.args .direct
  let input := messageOf page
  if messageRejected session.profile page then some ⟨some .einval, session, imported, []⟩
  else if session.serviceRejected input then
    some ⟨some .eprotonosupport, session, imported, []⟩
  else match session.socialNginx page with
    | none => some ⟨some .einval, session, imported, []⟩
    | some nginx =>
      let route : Route := ⟨page directionWord != 0, nginx, input⟩
      let session := session.edit clearCall
      match checks.mapping, checks.supported with
      | some error, _ => some ⟨some error, session, imported, []⟩
      | none, some error => some ⟨some error, session, imported, []⟩
      | none, none =>
        let session := session.edit fun page => update page cpuWord checks.cpu
        if session.nestedPath = .fused then session.socialFused fuel imported checks route
        else session.socialLegacy fuel imported checks route

/-! ## Committed routing sessions -/

/-- What a commit of remote social code establishes. -/
structure SocialCommitted (session : Session) (heap : Words) : Prop where
  profile : session.profile = .social
  service : session.remoteService = 1 ∨ session.remoteService = 2
  initial : ∀ domain, session.initial domain = .fixed (usConfigOffset domain)
  image : ∀ domain,
    remoteSocialImageValid domain (session.code (.base domain)) (session.remoteWords domain) = true
  balancer : session.code (.base .direct) 0 = remoteSocialLb3Word 0 ↔ session.socialNginxCount = 3
  kind : session.code (.base .middle) 0 = if session.remoteService = 2 then ldrHome else ldrUser
  extra : session.socialNginxCount = 3 → ∀ index i,
    i < session.remoteWords (Entry.extra index).domain →
      session.code (.extra index) i = session.code (.base (Entry.extra index).domain) i
  heap : usHeapValidCount heap session.socialNginxCount = true

/-- The entries that a session has. -/
def HasEntry (session : Session) : Entry → Prop
  | .base _ => True
  | .extra _ => session.socialNginxCount = 3

section Routing

variable {fuel : Nat} {session : Session} {imported : Imported} {entry : Entry}

section

variable {heap : Words} (committed : session.SocialCommitted heap)
include committed

/-- New arguments. -/
theorem SocialCommitted.withArgs
    (domain : Domain) (words : Words) : (session.withArgs domain words).SocialCommitted heap :=
  { committed with }

/-- The shared argument page. -/
theorem SocialCommitted.argsOf
    (domain : Domain) : session.argsOf domain = .direct := by
  rw [Session.argsOf, committed.profile]
  rfl

/-- Every entry has its image. -/
theorem SocialCommitted.entry_image (has : session.HasEntry entry) :
    remoteSocialImageValid entry.domain (session.code entry) (session.remoteWords entry.domain) =
      true := by
  cases entry with
  | base domain => exact committed.image domain
  | extra index =>
    rw [remoteSocialImageValid_congr (committed.extra has index)]
    exact committed.image _

end

/-- What the domain of an entry chooses as the next target. -/
def targetOf (session : Session) (imported : Imported) (entry : Entry) : BitVec 32 :=
  routeTarget entry.domain (session.pages imported entry) session.socialNginxCount

/-- What the domain of an entry chooses as the next action. -/
def actionOf (entry : Entry) : BitVec 32 := (routeAction entry.domain).setWidth 32

/-- An entry runs. -/
theorem SocialCommitted.execute (committed : session.SocialCommitted imported.heap)
    (enough : udRemoteMaxWords ≤ fuel) (has : session.HasEntry entry) :
    ∃ left, session.execute fuel imported entry (session.socialRegs entry) =
        some ⟨session.withArgs .direct (routed (session.args .direct)
          (session.targetOf imported entry) (actionOf entry)), imported, left, .brk 0x4c0⟩ ∧
      left.pc = session.socialReturnPc entry := by
  have here : At (session.pages imported entry) 0
      ((session.socialRegs entry).state (session.pages imported entry)) := by
    refine ⟨rfl, ?_⟩
    simp only [Regs.state, socialRegs, initialRegs, committed.initial]
    rfl
  have message : ((session.socialRegs entry).state (session.pages imported entry)).x 0 =
      addressAt argsPage usMappedOffset := by
    simp only [Regs.state, socialRegs, initialRegs, committed.initial, update_self]
    exact addressAt_add _
  have config : ((session.socialRegs entry).state (session.pages imported entry)).x 1 =
      addressAt dataPage (usConfigOffset entry.domain) := by
    simp only [Regs.state, socialRegs, initialRegs, committed.initial]
    rfl
  have balancer : entry.domain = .direct → ((session.pages imported entry).code 0 =
      remoteSocialLb3Word 0 ↔ session.socialNginxCount = 3) := by
    intro direct
    cases entry with
    | base domain =>
      cases direct
      exact committed.balancer
    | extra index =>
      simp only [Entry.domain] at direct
      split at direct <;> contradiction
  obtain ⟨left, routes⟩ := image_routes (committed.entry_image has) balancer committed.heap here
    message config
  have length := remoteSocialImageValid_length (committed.entry_image has)
  have executed := execute_of_run routes.run routes.space (show _ < fuel by omega)
  have page : (session.pages imported entry).args = session.args .direct := by
    rw [pages, committed.argsOf]
  rw [committed.argsOf, page] at executed
  refine ⟨left, executed, ?_⟩
  have place : 4 * (0 + (session.remoteWords entry.domain - 1 - 0)) =
      4 * session.remoteWords entry.domain - 4 := by omega
  rw [routes.run.final_pc, place, socialReturnPc, if_pos committed.profile]

end Routing

section Messages

variable {page other : Words}

/-- The words of a message. -/
theorem messageOf_congr (same : ∀ i, 32 ≤ i → i < 52 → page i = other i) :
    messageOf page = messageOf other := by
  simp (disch := decide) only [messageOf, word64, same]

/-- A word beside it. -/
theorem messageOf_update {index : Nat} (value : BitVec 32) (outside : index < 32 ∨ 52 ≤ index) :
    messageOf (update page index value) = messageOf page := by
  apply messageOf_congr
  intro i low high
  exact update_of_ne (by omega) _ _

/-- A routed message. -/
theorem messageOf_routed (target action : BitVec 32) :
    messageOf (routed page target action) =
      { messageOf page with target := target, action := action } := by
  simp [messageOf, routed, word64]

/-- A cleared call. -/
theorem messageOf_clearCall : messageOf (clearCall page) = messageOf page := by
  apply messageOf_congr
  intro i low high
  rw [clearCall, if_neg]
  simp only [entriesWord, transitionsWord, faultVectorWord, firstDomainWord, secondDomainWord,
    elapsedWord, farWord]
  omega

end Messages

/-- What the record of the call becomes when a domain of the legacy path returned. -/
def legged (page : Words) (slot : Nat) (identity : BitVec 32) : Words :=
  let page := update page transitionsWord (page transitionsWord + 2)
  update (update page slot identity) entriesWord (page entriesWord + 1)

/-- The record of a leg. -/
theorem messageOf_legged (page : Words) {slot : Nat} (identity : BitVec 32) (outside : 52 ≤ slot) :
    messageOf (legged page slot identity) = messageOf page := by
  rw [legged, messageOf_update _ (Or.inr (by decide)), messageOf_update _ (Or.inr outside),
    messageOf_update _ (Or.inr (by decide))]

/-- The page set. -/
@[simp] theorem edit_withArgs (session : Session) (words : Words) (change : Words → Words) :
    (session.withArgs .direct words).edit change = session.withArgs .direct (change words) := by
  simp only [edit, withArgs, update_self, update_idem]

section Chains

variable {fuel : Nat} {session : Session} {imported : Imported} {entry : Entry}

/-- One leg of a route. -/
theorem SocialCommitted.socialLeg (committed : session.SocialCommitted imported.heap)
    (enough : udRemoteMaxWords ≤ fuel) (has : session.HasEntry entry) {slot : Nat}
    (outside : 52 ≤ slot) (identity : BitVec 32) :
    ∃ regs, session.socialLeg fuel imported entry slot identity (actionOf entry)
        (session.targetOf imported entry) =
      some ⟨session.withArgs .direct (legged (routed (session.args .direct)
        (session.targetOf imported entry) (actionOf entry)) slot identity), imported, regs,
          none⟩ := by
  obtain ⟨left, executed, pc⟩ := committed.execute enough has
  have recognised (words : Words) :
    ((session.socialRegs entry).trapped left (.brk 0x4c0)).brkAt 0x4c0
      ((session.withArgs .direct words).socialReturnPc entry) = true := by
    have same : (session.withArgs .direct words).socialReturnPc entry =
      session.socialReturnPc entry := rfl
    rw [brkAt_trapped, pc, same]
    simp
  refine ⟨(session.socialRegs entry).trapped left (.brk 0x4c0), ?_⟩
  simp only [Session.socialLeg, enter_of_return executed, Option.map_some, edit_withArgs,
    recognised,
    if_true, withArgs_args]
  have message := messageOf_legged (routed (session.args .direct)
    (session.targetOf imported entry) (actionOf entry)) identity outside
  rw [messageOf_routed, legged] at message
  simp only [message, ne_eq, not_true, or_self, if_false, legged]

/-- The domains of a session choose the steps of a route. -/
structure Fits (session : Session) (imported : Imported) (route : Route) : Prop where
  first : session.HasEntry route.first
  second : session.HasEntry route.second
  firstAction : actionOf route.first = 2
  firstTarget : session.targetOf imported route.first =
    if route.reverse then 1 else BitVec.ofNat 32 route.nginx
  secondAction : actionOf route.second = route.lastAction
  secondTarget : ∀ words,
    (session.withArgs .direct words).targetOf imported route.second = route.lastTarget
  read : route.input.type ∉ [usWriteReq, usSharedWriteReq, usSharedReadReq, usSharedFetchAddReq]
  status : route.input.status = 0
  input : messageOf (session.args .direct) = route.input

/-- What a routed call leaves: both domains were visited, the message went where it should, and
nothing else of it changed. -/
structure Routed (session : Session) (route : Route) (outcome : SocialOutcome) : Prop where
  rc : outcome.rc = none
  committed : outcome.session.committed = session.committed
  visited : outcome.visited = [route.first, route.second]
  message : messageOf (outcome.session.args .direct) =
    { route.input with target := route.lastTarget, action := route.lastAction }
  firstDomain : outcome.session.args .direct firstDomainWord = route.firstIdentity
  secondDomain : outcome.session.args .direct secondDomainWord = route.secondIdentity

variable {route : Route} {checks : SocialChecks}

/-- The message is kept. -/
theorem Fits.messageKept (fits : session.Fits imported route) (target action : BitVec 32) :
    messageKept route.input { route.input with target := target, action := action } = true := by
  have read := fits.read
  simp only [List.mem_cons, List.not_mem_nil, or_false, not_or] at read
  simp [Session.messageKept, Message.shared, read]

/-- A route comes to its end. -/
theorem Fits.finished (fits : session.Fits imported route) {words : Words} (regs : Regs)
    (message : messageOf words =
      { route.input with target := route.lastTarget, action := route.lastAction })
    (one : words firstDomainWord = route.firstIdentity)
    (two : words secondDomainWord = route.secondIdentity) :
    session.Routed route (socialFinished ⟨session.withArgs .direct words, imported, regs, none⟩
      checks route.input [route.first, route.second]) := by
  have status : ¬route.input.status = eagain := by
    rw [fits.status]
    decide
  simp only [socialFinished, withArgs_args, message, fits.messageKept, if_true, status, if_false,
    timed, edit_withArgs]
  constructor
  case rc => rfl
  case committed => rfl
  case visited => rfl
  case message =>
    rw [withArgs_args, ← message]
    apply messageOf_congr
    intro i low high
    rw [set64, elapsedWord, update_of_ne (by omega), update_of_ne (by omega)]
  case firstDomain => rw [withArgs_args, ← one]; rfl
  case secondDomain => rw [withArgs_args, ← two]; rfl

section

variable (committed : session.SocialCommitted imported.heap) (enough : udRemoteMaxWords ≤ fuel)
  (fits : session.Fits imported route)
include committed enough fits

/-- The legacy path routes. -/
theorem SocialCommitted.socialLegacy :
    ∃ outcome, session.socialLegacy fuel imported checks route = some outcome ∧
      session.Routed route outcome := by
  obtain ⟨firstRegs, one⟩ := committed.socialLeg enough fits.first
    (show 52 ≤ firstDomainWord by decide) route.firstIdentity
  rw [fits.firstAction, fits.firstTarget] at one
  obtain ⟨words, words_eq⟩ : ∃ words, words = legged (routed (session.args .direct)
    (if route.reverse then 1 else BitVec.ofNat 32 route.nginx) 2) firstDomainWord
      route.firstIdentity := ⟨_, rfl⟩
  rw [← words_eq] at one
  have secondHas : (session.withArgs .direct words).HasEntry route.second := fits.second
  obtain ⟨secondRegs, two⟩ := (committed.withArgs .direct words).socialLeg enough secondHas
    (show 52 ≤ secondDomainWord by decide) route.secondIdentity
  rw [fits.secondAction, fits.secondTarget words] at two
  have twice (other : Words) : (session.withArgs .direct words).withArgs .direct other =
      session.withArgs .direct other := by
    simp only [Session.withArgs, update_idem]
  rw [twice, withArgs_args] at two
  simp only [Session.socialLegacy, one, Option.bind_eq_bind, Option.bind_some, two]
  refine ⟨_, rfl, fits.finished secondRegs ?_ ?_ ?_⟩
  · rw [messageOf_legged _ _ (by decide), messageOf_routed, words_eq,
      messageOf_legged _ _ (by decide), messageOf_routed, fits.input]
  · rw [words_eq]
    rfl
  · rfl

/-- The fused path routes. -/
theorem SocialCommitted.socialFused :
    ∃ outcome, session.socialFused fuel imported checks route = some outcome ∧
      session.Routed route outcome := by
  obtain ⟨firstLeft, one, onePc⟩ := committed.execute enough fits.first
  rw [fits.firstAction, fits.firstTarget] at one
  obtain ⟨words, words_eq⟩ : ∃ words, words = routed (session.args .direct)
    (if route.reverse then 1 else BitVec.ofNat 32 route.nginx) 2 := ⟨_, rfl⟩
  rw [← words_eq] at one
  have secondHas : (session.withArgs .direct words).HasEntry route.second := fits.second
  obtain ⟨secondLeft, two, twoPc⟩ := (committed.withArgs .direct words).execute enough secondHas
  have twice (other : Words) : (session.withArgs .direct words).withArgs .direct other =
      session.withArgs .direct other := by
    simp only [Session.withArgs, update_idem]
  rw [fits.secondAction, fits.secondTarget words, twice, withArgs_args] at two
  have secondRegs : (session.withArgs .direct words).socialRegs route.second =
    session.socialRegs route.second := rfl
  rw [secondRegs] at two
  have oneStops : ((session.socialRegs route.first).trapped firstLeft (.brk 0x4c0)).brkAt 0x4c0
      (session.socialReturnPc route.first) = true := by
    rw [brkAt_trapped, onePc]
    simp
  have twoStops : ((session.socialRegs route.second).trapped secondLeft (.brk 0x4c0)).brkAt 0x4c0
      (session.socialReturnPc route.second) = true := by
    rw [brkAt_trapped, twoPc]
    exact Bool.and_eq_true_iff.mpr ⟨by decide, beq_iff_eq.mpr rfl⟩
  have action : words socialActionWord = 2 := by rw [words_eq]; rfl
  have target : words socialTargetWord =
      if route.reverse then 1 else BitVec.ofNat 32 route.nginx := by
    rw [words_eq]
    rfl
  simp only [Session.socialFused, enterNested, socialGate, one, Option.bind_eq_bind,
    Option.bind_some, if_true, oneStops, withArgs_args, action, target, BEq.rfl, Bool.and_self,
    nestedLeaf, two, twoStops, nestedRestore, Option.map_some, Nat.reduceAdd, and_self,
    edit_withArgs]
  have message : messageOf (update (update (update (update
      (routed words route.lastTarget route.lastAction) transitionsWord 3#32)
      firstDomainWord route.firstIdentity) secondDomainWord route.secondIdentity) entriesWord 2) =
      { route.input with target := route.lastTarget, action := route.lastAction } := by
    rw [messageOf_update _ (Or.inr (by decide)), messageOf_update _ (Or.inr (by decide)),
      messageOf_update _ (Or.inr (by decide)), messageOf_update _ (Or.inr (by decide)),
      messageOf_routed, words_eq, messageOf_routed, fits.input]
  simp only [message, ne_eq, not_true, or_self, if_false]
  exact ⟨_, rfl, fits.finished _ message rfl rfl⟩

end

end Chains

/-! ## All calls -/

/-- The nginx domain that a call goes through: the selected one on the way forward, the named one on
the way back when there are several. -/
def nginxOf (session : Session) (page : Words) : Nat :=
  if page directionWord = 0 then
    usSelectNginx (messageOf page).request.toNat session.socialNginxCount
  else if session.socialNginxCount = 3 then (page firstDomainWord).toNat else 2

def routeOf (session : Session) (page : Words) : Route :=
  ⟨page directionWord != 0, session.nginxOf page, messageOf page⟩

section Accepted

variable {session : Session} {imported : Imported} {page : Words}

/-- What the first checks leave of a message of the social profile. -/
structure AcceptedMessage (page : Words) : Prop where
  request : (messageOf page).request.toNat < 0x100000000
  type : (messageOf page).type =
      (if page directionWord ≠ 0 then usUserResp else usUserReq) ∨
    (messageOf page).type = if page directionWord ≠ 0 then usHomeResp else usHomeReq
  status : (messageOf page).status = 0

/-- An accepted message. -/
theorem acceptedMessage (accepted : messageRejected .social page = false) :
    AcceptedMessage page := by
  have write : (Profile.social == .socialWrite) = false := rfl
  have shared : (Profile.social == .socialShared) = false := rfl
  simp only [messageRejected, typeAllowed, write, shared, Bool.false_and, Bool.or_false,
    Bool.or_eq_false_iff, Bool.not_eq_false', Bool.or_eq_true, beq_iff_eq, decide_eq_false_iff_not,
    bne_eq_false_iff_eq] at accepted
  obtain ⟨⟨⟨⟨⟨⟨⟨_, request⟩, type⟩, _⟩, status⟩, _⟩, _⟩, _⟩ := accepted
  exact ⟨by omega, type, status⟩

/-- The instance of a message. -/
theorem SocialCommitted.nginx_bounds (committed : session.SocialCommitted imported.heap)
    (accepted : AcceptedMessage page) {nginx : Nat}
    (found : session.socialNginx page = some nginx) :
    nginx = session.nginxOf page ∧ 2 ≤ nginx ∧ nginx ≤ 4 ∧
      (nginx ≠ 2 → session.socialNginxCount = 3) := by
  have count := usHeapValidCount_count committed.heap
  rw [socialNginx] at found
  by_cases three : session.socialNginxCount = 3
  · rw [if_pos ⟨committed.profile, three⟩] at found
    have expected : session.nginxOf page = if page directionWord = 0 then
        usSelectNginx (messageOf page).request.toNat 3 else (page firstDomainWord).toNat := by
      rw [nginxOf, three, if_pos rfl]
    simp only [Nat.mod_eq_of_lt accepted.request, three, ← expected] at found
    split at found
    case isTrue => contradiction
    case isFalse inside =>
      cases found
      refine ⟨rfl, by omega, by omega, fun _ => three⟩
  · rw [if_neg (fun both => three both.2)] at found
    cases found
    have one : session.socialNginxCount = 1 := by omega
    refine ⟨?_, by decide, by decide, fun other => absurd rfl other⟩
    rw [nginxOf, one]
    simp [usSelectNginx, Nat.mod_one]

/-- The entries of an instance. -/
theorem nginx_entries {nginx : Nat} (low : 2 ≤ nginx) (high : nginx ≤ 4)
    (several : nginx ≠ 2 → session.socialNginxCount = 3) :
    (nginxForward nginx).domain = .middle ∧ (nginxReverse nginx).domain = .leaf ∧
      session.HasEntry (nginxForward nginx) ∧ session.HasEntry (nginxReverse nginx) := by
  have cases : nginx = 2 ∨ nginx = 3 ∨ nginx = 4 := by omega
  rcases cases with rfl | rfl | rfl
  · exact ⟨rfl, rfl, trivial, trivial⟩
  · exact ⟨rfl, rfl, several (by decide), several (by decide)⟩
  · exact ⟨rfl, rfl, several (by decide), several (by decide)⟩

/-- The service of an entry. -/
theorem SocialCommitted.entry_kind (committed : session.SocialCommitted imported.heap)
    {entry : Entry} (has : session.HasEntry entry) (middle : entry.domain = .middle) :
    session.code entry 0 = if session.remoteService = 2 then ldrHome else ldrUser := by
  cases entry with
  | base domain =>
    cases middle
    exact committed.kind
  | extra index =>
    have length := remoteSocialImageValid_length (committed.image (Entry.extra index).domain)
    rw [committed.extra has index 0 (by omega), middle, committed.kind]

section

variable (committed : session.SocialCommitted imported.heap) (accepted : AcceptedMessage page)
  (service : session.serviceRejected (messageOf page) = false)
include committed accepted service

/-- Where a route ends. -/
theorem SocialCommitted.endpoint (way : page directionWord = 0) (nginx : Nat) :
    (if (if session.remoteService = 2 then ldrHome else ldrUser) = ldrHome then 103 else 102) =
      (Route.mk false nginx (messageOf page)).lastTarget := by
  have profile : (session.profile == .social) = true := by rw [committed.profile]; rfl
  have type := accepted.type
  simp only [way, ne_eq, not_true, if_false] at type
  simp only [serviceRejected, profile, Bool.true_and] at service
  rcases type with type | type
  · have served : session.remoteService = 1 := by simpa [type] using service
    simp only [Route.lastTarget, Message.shared, type, served]
    decide
  · have different : ¬(usHomeReq = usUserReq ∨ usHomeReq = usUserResp) := by decide
    rw [type, if_neg different] at service
    have served : session.remoteService = 2 := by simpa using service
    simp only [Route.lastTarget, Message.shared, type, served]
    decide

/-- A route fits its session. -/
theorem SocialCommitted.fits {nginx : Nat} (found : session.socialNginx page = some nginx)
    {words : Words} (message : messageOf words = messageOf page) :
    (session.withArgs .direct words).Fits imported (session.routeOf page) := by
  obtain ⟨expected, low, high, several⟩ := committed.nginx_bounds accepted found
  rw [expected] at low high several
  obtain ⟨middle, leaf, forward, reverse⟩ := nginx_entries low high several
  have plain : (messageOf page).type ∉
      [usWriteReq, usSharedWriteReq, usSharedReadReq, usSharedFetchAddReq] := by
    rcases accepted.type with type | type
    all_goals
      rw [type]
      split <;> decide
  have pageArgs (entry : Entry) : ((session.withArgs .direct words).pages imported entry).args =
      words := by
    rw [pages, (committed.withArgs .direct words).argsOf, withArgs_args]
  by_cases way : page directionWord = 0
  · have route : session.routeOf page = ⟨false, session.nginxOf page, messageOf page⟩ := by
      rw [routeOf, way]
      rfl
    rw [route]
    constructor
    case first => exact trivial
    case second => exact forward
    case firstAction => rfl
    case firstTarget =>
      have key : word64 words 34 = (messageOf page).request := congrArg Message.request message
      simp only [targetOf, Route.first, Bool.false_eq_true, if_false, Entry.domain, routeTarget,
        pageArgs, key, nginxOf, way, if_true]
      rfl
    case secondAction =>
      simp only [actionOf, Route.second, Bool.false_eq_true, if_false, middle]
      rfl
    case secondTarget =>
      intro others
      rw [← committed.endpoint accepted service way]
      have kind := committed.entry_kind forward middle
      simp only [targetOf, Route.second, Bool.false_eq_true, if_false, middle, routeTarget, pages]
      rw [← kind]
      rfl
    case read => exact plain
    case status => exact accepted.status
    case input => rw [withArgs_args]; exact message
  · have route : session.routeOf page = ⟨true, session.nginxOf page, messageOf page⟩ := by
      rw [routeOf, bne_iff_ne.mpr way]
    rw [route]
    constructor
    case first => exact reverse
    case second => exact trivial
    case firstAction =>
      simp only [actionOf, Route.first, if_true, leaf]
      rfl
    case firstTarget => simp only [targetOf, Route.first, if_true, leaf, routeTarget]
    case secondAction => rfl
    case secondTarget => intro others; rfl
    case read => exact plain
    case status => exact accepted.status
    case input => rw [withArgs_args]; exact message

end

end Accepted

end Session

/-- Routing is exact. A call of a committed social session never takes a bad exit, so the session
stays committed; a call that passes the checks visits the domains of its route, the load balancer
and the nginx of the key on the way forward, nginx and the load balancer on the way back, and ends
with the action and target of its type while the rest of the message stays. -/
theorem social_routing_exact {fuel : Nat} {session : Session} {imported : Imported}
    (checks : SocialChecks) (committed : session.SocialCommitted imported.heap)
    (live : session.committed = true) (enough : udRemoteMaxWords ≤ fuel) :
    ∃ outcome, session.udRunSocial fuel checks imported = some outcome ∧
      outcome.session.committed = true ∧
      (messageRejected session.profile (session.args .direct) = false →
        session.serviceRejected (messageOf (session.args .direct)) = false →
        session.socialNginx (session.args .direct) ≠ none →
        checks.mapping = none → checks.supported = none →
        session.Routed (session.routeOf (session.args .direct)) outcome) := by
  rw [Session.udRunSocial]
  cases rejected : messageRejected session.profile (session.args .direct) with
  | true => exact ⟨_, rfl, live, fun accepted => by contradiction⟩
  | false =>
  cases unserved : session.serviceRejected (messageOf (session.args .direct)) with
  | true => exact ⟨_, rfl, live, fun _ served => by contradiction⟩
  | false =>
  cases found : session.socialNginx (session.args .direct) with
  | none => exact ⟨_, rfl, live, fun _ _ some => absurd rfl some⟩
  | some nginx =>
  cases checks.mapping with
  | some error => exact ⟨_, rfl, live, fun _ _ _ mapping => by contradiction⟩
  | none =>
  cases checks.supported with
  | some error => exact ⟨_, rfl, live, fun _ _ _ _ supported => by contradiction⟩
  | none =>
  rw [committed.profile] at rejected
  have accepted := Session.acceptedMessage rejected
  obtain ⟨expected, _⟩ := committed.nginx_bounds accepted found
  obtain ⟨words, words_eq⟩ : ∃ words, words = update
    (Session.clearCall (session.args .direct)) cpuWord checks.cpu := ⟨_, rfl⟩
  have edited : (session.edit Session.clearCall).edit
      (fun page => update page cpuWord checks.cpu) = session.withArgs .direct words := by
    rw [words_eq]
    exact Session.edit_withArgs _ _ _
  have message : messageOf words = messageOf (session.args .direct) := by
    rw [words_eq, Session.messageOf_update _ (Or.inr (by decide)), Session.messageOf_clearCall]
  have fits := committed.fits accepted unserved found message
  have ready := committed.withArgs .direct words
  have route : (⟨session.args .direct directionWord != 0, nginx, messageOf (session.args .direct)⟩ :
      Route) = session.routeOf (session.args .direct) := by
    rw [expected]
    rfl
  simp only [Bool.false_eq_true, if_false, edited, route]
  split
  · obtain ⟨outcome, ran, result⟩ := ready.socialFused enough fits
    exact ⟨outcome, ran, result.committed.trans live, fun _ _ _ _ _ =>
      { result with }⟩
  · obtain ⟨outcome, ran, result⟩ := ready.socialLegacy enough fits
    exact ⟨outcome, ran, result.committed.trans live, fun _ _ _ _ _ =>
      { result with }⟩

/-- Routing images with one word of padding in each. -/
def sampleSocialImage (nginx : Nat) : Domain → List (BitVec 32)
  | .direct =>
    if nginx = 3 then (List.range lb3Words).map remoteSocialLb3Word ++ [nopWord, brkReturn]
    else [ldrNginx, strTarget, movDomain, strAction, nopWord, brkReturn]
  | .middle => [ldrHome, strTarget, movRpc, strAction, nopWord, brkReturn]
  | .leaf => [ldrReturn, strTarget, movDomain, strAction, nopWord, brkReturn]
  | .query => [movZero, strTarget, movClient, strAction, nopWord, brkReturn]

/-- An argument page with a message for the home timeline. -/
def sampleMessage (reverse : Bool) (named : BitVec 32) : Words := fun index =>
  if index = 32 then 5
  else if index = 34 then 4
  else if index = 44 then 77
  else if index = 48 then if reverse then usHomeResp else usHomeReq
  else if index = abiWord then 1
  else if index = directionWord then if reverse then 1 else 0
  else if index = firstDomainWord then named
  else 0

/-- A committed session with those images and that message. -/
def sampleSocial (nginx : Nat) (path : NestedPath) (page : Words) : Session where
  profile := .social
  codeMode := .remoteSocial
  nestedPath := path
  remoteService := 2
  socialNginxCount := nginx
  remoteWords domain := (sampleSocialImage nginx domain).length
  initial domain := .fixed (usConfigOffset domain)
  committed := true
  code entry index := (sampleSocialImage nginx entry.domain).getD index 0
  stack _ _ := 0
  args _ := page

/-- The routing configuration. -/
def sampleConfig (nginx : Nat) : Imported where
  heap index := (usHeapInitCount nginx).getD index 0
  write _ := 0

/-- The sample is committed. -/
theorem sampleSocial_committed :
    (sampleSocial 3 .fused (sampleMessage false 0)).SocialCommitted (sampleConfig 3).heap where
  profile := rfl
  service := Or.inr rfl
  initial _ := rfl
  image domain := by cases domain <;> decide
  balancer := by decide
  kind := by decide
  extra _ _ _ _ := rfl
  heap := by decide

/-- What the sample platform reports. -/
def sampleChecks : SocialChecks where
  mapping := none
  supported := none
  cpu := 1
  elapsed := 0

/-- With three nginx domains the key 4 is routed through the second one. -/
theorem social_routing_exact_sample :
    ∃ outcome, (sampleSocial 3 .fused (sampleMessage false 0)).udRunSocial 32 sampleChecks
        (sampleConfig 3) = some outcome ∧ outcome.rc = none ∧
      outcome.visited = [.base .direct, .extra 0] := by
  obtain ⟨outcome, ran, _, routed⟩ :=
    social_routing_exact sampleChecks sampleSocial_committed rfl (Nat.le_refl 32)
  have result := routed (by decide) (by decide) (by decide) rfl rfl
  exact ⟨outcome, ran, result.rc, result.visited.trans (by decide)⟩

/-- With one nginx domain the way back goes through it even when the call names another. -/
theorem single_nginx_ignores_named :
    sampleMessage true 3 firstDomainWord = 3 ∧
      ((sampleSocial 1 .legacy (sampleMessage true 3)).udRunSocial 32 sampleChecks
        (sampleConfig 1)).any (fun outcome => outcome.rc = none ∧
          outcome.visited = [.base .leaf, .base .query] ∧
          outcome.session.args .direct firstDomainWord = 2) = true := by
  decide +kernel

end UbApplication.UbDomain
