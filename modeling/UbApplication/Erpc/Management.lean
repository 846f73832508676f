import Mathlib.Logic.Function.Basic
import UbApplication.Lib.Machine
import UbApplication.Lib.Outcome

/-!
# Session management of eRPC

Rpc objects connect and disconnect sessions with management packets over UDP. The handlers of
`rpc_connect_handlers.cc` and `rpc_disconnect_handlers.cc`, the calls of `rpc_sm_api.cc` and the
retransmission of `rpc_pkt_loss.cc` are functions on an Rpc object; everything it sends is recorded
in it. A failed assertion of a handler is told apart from an exception of the transport.
-/

namespace UbApplication.Erpc.Sm

/-- Why a function does not return. -/
inductive Fault where
  /-- An assertion of a handler fails. -/
  | assertion
  | thrown
deriving DecidableEq, Repr

def Fault.IsThrown (fault : Fault) : Prop := fault = .thrown

/-- The fault of an exception is a thrown one. -/
theorem Fault.isThrown : Fault.IsThrown .thrown := rfl

def check (p : Prop) [Decidable p] : Except Fault Unit := Outcome.ensure p .assertion

def rtAssert (p : Prop) [Decidable p] : Except Fault Unit := Outcome.ensure p .thrown

inductive SessionState where
  | connectInProgress
  | connected
  | disconnectInProgress
  | resetInProgress
deriving DecidableEq, Repr

/-- `SmPktType`, without those that do not reach an Rpc object. -/
inductive SmPktType where
  | connectReq
  | connectResp
  | disconnectReq
  | disconnectResp
deriving DecidableEq, Repr

def SmPktType.isReq : SmPktType → Bool
  | .connectReq | .disconnectReq => true
  | .connectResp | .disconnectResp => false

inductive SmErrType where
  | noError
  | srvDisconnected
  | ringExhausted
  | outOfMemory
  | routingResolutionFailure
  | invalidRemoteRpcId
  | invalidTransport
deriving DecidableEq, Repr

/-- Where an Rpc object is reached: the host and the port of its Nexus, and its id there. -/
structure Name where
  hostname : Nat
  smUdpPort : Nat
  rpcId : Nat
deriving DecidableEq, Repr

/-- `kInvalidSessionNum`. -/
def invalidSessionNum : Nat := 65535

/-- A session number as it is stored in sixteen bits. -/
def sessionNumber (size : Nat) : Nat := size % 65536

/-- `SessionEndpoint`. Routing information is not compared and is left out. -/
structure Endpoint where
  transportType : Nat
  name : Name
  sessionNum : Nat
deriving DecidableEq, Repr

structure SmPkt where
  pktType : SmPktType
  errType : SmErrType
  uniqToken : Nat
  client : Endpoint
  server : Endpoint
deriving DecidableEq, Repr

def SmPktType.reqToResp : SmPktType → SmPktType
  | .disconnectReq => .disconnectResp
  | _ => .connectResp

/-- `sm_construct_resp`. -/
def SmPkt.constructResp (pkt : SmPkt) (err : SmErrType) : SmPkt :=
  { pkt with pktType := pkt.pktType.reqToResp, errType := err }

def SmPkt.target (pkt : SmPkt) : Name :=
  if pkt.pktType.isReq then pkt.server.name else pkt.client.name

inductive Role where
  | server
  | client
deriving DecidableEq, Repr

/-- `Session`, as far as session management goes. -/
structure Session where
  role : Role
  uniqToken : Nat
  state : SessionState
  client : Endpoint
  server : Endpoint
  localSessionNum : Nat
  remoteSessionNum : Nat
deriving DecidableEq, Repr

/-- The Rpc id at the other end of a session. -/
def Session.remoteRpcId (session : Session) : Nat :=
  match session.role with
  | .client => session.server.name.rpcId
  | .server => session.client.name.rpcId

/-- A session while it disconnects. -/
def Session.leaving (session : Session) : Session :=
  { session with state := .disconnectInProgress }

def Session.answered (session : Session) (server : Endpoint) : Session :=
  { session with server := server, remoteSessionNum := server.sessionNum, state := .connected }

/-- A session whose server cannot be reached. -/
def Session.unreached (session : Session) (server : Endpoint) : Session :=
  { session with server := server, state := .disconnectInProgress }

/-- How the Rpc objects are built. -/
structure Build where
  ub : Bool
  /-- `kNumRxRingEntries`. -/
  numRxRingEntries : Nat
  /-- The token that the generator of an Rpc object yields for its session of that number. -/
  token : Name → Nat → Nat

/-- `kSessionCredits`. -/
def sessionCredits : Nat := 32

/-- `kMaxRpcEndpoints` of the UB transport. -/
def maxRpcEndpoints : Nat := 64

/-- `Rpc`, as far as session management goes. -/
structure Rpc where
  name : Name
  transportType : Nat
  /-- `retry_connect_on_invalid_rpc_id_`. -/
  retry : Bool
  sessionVec : List (Option Session)
  smPendingReqs : List Nat
  ringEntriesAvailable : Nat
  connReqTokenMap : Nat → Option Nat
  /-- `rx_peer_refcounts_` of the UB transport. -/
  rxPeerRefcounts : Nat → Nat
  sent : List SmPkt
  made : List Session

namespace Rpc

def new (build : Build) (name : Name) (transportType : Nat) (retry : Bool) : Rpc where
  name := name
  transportType := transportType
  retry := retry
  sessionVec := []
  smPendingReqs := []
  ringEntriesAvailable := build.numRxRingEntries
  connReqTokenMap _ := none
  rxPeerRefcounts _ := 0
  sent := []
  made := []

variable (build : Build) (rpc : Rpc)

/-- The session of a number, if there is one and it is not buried. -/
def session? (number : Nat) : Option Session := rpc.sessionVec[number]?.join

/-- `sm_pkt_udp_tx_st`. -/
def smPktUdpTx (pkt : SmPkt) : Rpc := { rpc with sent := rpc.sent ++ [pkt] }

def haveRingEntries : Bool := decide (sessionCredits ≤ rpc.ringEntriesAvailable)

def allocRingEntries : Except Fault Rpc := do
  check (rpc.haveRingEntries = true)
  return { rpc with ringEntriesAvailable := rpc.ringEntriesAvailable - sessionCredits }

def freeRingEntries : Except Fault Rpc := do
  check (rpc.ringEntriesAvailable + sessionCredits ≤ build.numRxRingEntries)
  return { rpc with ringEntriesAvailable := rpc.ringEntriesAvailable + sessionCredits }

def registerRxPeer (peer : Nat) : Except Fault Rpc :=
  if build.ub then do
    rtAssert (peer < maxRpcEndpoints ∧ rpc.rxPeerRefcounts peer ≠ 65535)
    return { rpc with
      rxPeerRefcounts :=
        Function.update rpc.rxPeerRefcounts peer (rpc.rxPeerRefcounts peer + 1) }
  else .ok rpc

def unregisterRxPeer (peer : Nat) : Except Fault Rpc :=
  if build.ub then do
    rtAssert (peer < maxRpcEndpoints ∧ 0 < rpc.rxPeerRefcounts peer)
    return { rpc with
      rxPeerRefcounts :=
        Function.update rpc.rxPeerRefcounts peer (rpc.rxPeerRefcounts peer - 1) }
  else .ok rpc

/-- `prepare_disconnect`, whose effect on the mapping of the peer is left out. -/
def prepareDisconnect (peer : Nat) : Except Fault Unit :=
  if build.ub then rtAssert (peer < maxRpcEndpoints ∧ 0 < rpc.rxPeerRefcounts peer) else .ok ()

/-- `bury_session_st`. -/
def burySession (session : Session) : Except Fault Rpc := do
  let rpc ← rpc.unregisterRxPeer build session.remoteRpcId
  return { rpc with sessionVec := rpc.sessionVec.set session.localSessionNum none }

def setSession (session : Session) : Rpc :=
  { rpc with sessionVec := rpc.sessionVec.set session.localSessionNum (some session) }

/-- The request that a session in progress sends. -/
def smReq (session : Session) : SmPkt where
  pktType := if session.state = .connectInProgress then .connectReq else .disconnectReq
  errType := .noError
  uniqToken := session.uniqToken
  client := session.client
  server := session.server

/-- `send_sm_req_st`. -/
def sendSmReq (session : Session) : Rpc :=
  { rpc with smPendingReqs := rpc.smPendingReqs.insert session.localSessionNum }.smPktUdpTx
    (smReq session)

/-! ## The calls of the program -/

/-- The session that `create_session_st` makes. -/
def newSession (remote : Name) : Session :=
  let number := sessionNumber rpc.sessionVec.length
  { role := .client
    uniqToken := build.token rpc.name rpc.sessionVec.length
    state := .connectInProgress
    client := ⟨rpc.transportType, rpc.name, number⟩
    server := ⟨rpc.transportType, remote, invalidSessionNum⟩
    localSessionNum := number
    remoteSessionNum := 0 }

def pushSession (session : Session) : Rpc :=
  { rpc with
    sessionVec := rpc.sessionVec ++ [some session]
    made := rpc.made ++ [session] }

/-- `create_session_st`. A call that is refused changes nothing. -/
def createSession (remote : Name) : Except Fault Rpc :=
  if remote = rpc.name then .ok rpc
  else if rpc.haveRingEntries = false then .ok rpc
  else do
    let session := rpc.newSession build remote
    let rpc ← rpc.registerRxPeer build remote.rpcId
    let rpc ← rpc.allocRingEntries
    return (rpc.pushSession session).sendSmReq session

/-- `destroy_session_st`; `idle` says that no request is pending in the session. -/
def destroySession (number : Nat) (idle : Bool) : Except Fault Rpc :=
  match rpc.session? number with
  | none => .ok rpc
  | some session =>
    if session.role ≠ .client ∨ idle = false ∨ session.state ≠ .connected then .ok rpc
    else do
      rpc.prepareDisconnect build session.server.name.rpcId
      let session := { session with state := .disconnectInProgress }
      return (rpc.setSession session).sendSmReq session

end Rpc

/-- What a program may call. -/
inductive Api where
  | create (remote : Name)
  | destroy (number : Nat) (idle : Bool)
deriving DecidableEq, Repr

variable {vec : List (Option Session)} {calls : List Api} {number : Nat}

namespace Rpc

variable (build : Build) (rpc : Rpc)

def api : Api → Except Fault Rpc
  | .create remote => rpc.createSession build remote
  | .destroy number idle => rpc.destroySession build number idle

/-- The calls that the session management handler of the program makes. -/
def smHandler (calls : List Api) : Except Fault Rpc :=
  calls.foldlM (fun rpc call => rpc.api build call) rpc

/-! ## The handlers -/

/-- The session that `handle_connect_req_st` makes. -/
def serverSession (pkt : SmPkt) : Session :=
  let number := sessionNumber rpc.sessionVec.length
  { role := .server
    uniqToken := pkt.uniqToken
    state := .connected
    client := pkt.client
    server := { pkt.server with sessionNum := number }
    localSessionNum := number
    remoteSessionNum := pkt.client.sessionNum }

def refuse (pkt : SmPkt) (err : SmErrType) : Rpc := rpc.smPktUdpTx (pkt.constructResp err)

/-- `handle_connect_req_st`; `resolves` says that the routing information of the client can be
resolved, and `allocates` that there is memory for the buffers. -/
def handleConnectReq (pkt : SmPkt) (resolves allocates : Bool) : Except Fault Rpc := do
  check (pkt.server.name.rpcId = rpc.name.rpcId)
  match rpc.connReqTokenMap pkt.uniqToken with
  | some number =>
    check (number < rpc.sessionVec.length)
    match rpc.session? number with
    | none => return rpc
    | some session =>
      if session.state ≠ .connected then return rpc
      else return rpc.smPktUdpTx { pkt.constructResp .noError with server := session.server }
  | none =>
    if pkt.server.transportType ≠ rpc.transportType then return rpc.refuse pkt .invalidTransport
    else if rpc.haveRingEntries = false then return rpc.refuse pkt .ringExhausted
    else if resolves = false then return rpc.refuse pkt .routingResolutionFailure
    else if allocates = false then return rpc.refuse pkt .outOfMemory
    else
      let session := rpc.serverSession pkt
      let rpc := { rpc with
        connReqTokenMap :=
          Function.update rpc.connReqTokenMap pkt.uniqToken (some session.localSessionNum) }
      let rpc ← rpc.registerRxPeer build session.client.name.rpcId
      let rpc ← rpc.allocRingEntries
      return (rpc.pushSession session).smPktUdpTx
        { pkt.constructResp .noError with server := session.server }

/-- A connect response is for a session that waits for one. -/
def connectRespFits (pkt : SmPkt) (session : Session) : Except Fault Unit := do
  check (session.role = .client ∧ session.client = pkt.client)
  check (session.server.name.hostname = pkt.server.name.hostname)
  check (session.server.name.rpcId = pkt.server.name.rpcId)
  check (session.server.sessionNum = invalidSessionNum)

/-- The session of an error response or of a disconnect response is freed; the program is told. -/
def finishSession (session : Session) (calls : List Api) : Except Fault Rpc := do
  let rpc ← rpc.freeRingEntries build
  let rpc ← rpc.smHandler build calls
  rpc.burySession build session

/-- `handle_connect_resp_st`; `calls` are those of the handler of the program. -/
def handleConnectResp (pkt : SmPkt) (resolves : Bool) (calls : List Api) : Except Fault Rpc := do
  check (pkt.client.name.rpcId = rpc.name.rpcId)
  check (pkt.client.sessionNum < rpc.sessionVec.length)
  match rpc.session? pkt.client.sessionNum with
  | none => return rpc
  | some session =>
    if session.state ≠ .connectInProgress then return rpc
    else do
      connectRespFits pkt session
      if pkt.errType = .invalidRemoteRpcId ∧ rpc.retry = true then
        return { rpc with smPendingReqs := rpc.smPendingReqs.insert session.localSessionNum }
      else if pkt.errType ≠ .noError then rpc.finishSession build session calls
      else if resolves = false then
        let session := { session with server := pkt.server, state := .disconnectInProgress }
        return (rpc.setSession session).sendSmReq session
      else
        let session := { session with
          server := pkt.server
          remoteSessionNum := pkt.server.sessionNum
          state := .connected }
        (rpc.setSession session).smHandler build calls

/-- `handle_disconnect_req_st`, without what it asserts of the slots of the session. -/
def handleDisconnectReq (pkt : SmPkt) : Except Fault Rpc := do
  check (pkt.server.name.rpcId = rpc.name.rpcId)
  check (pkt.server.sessionNum < rpc.sessionVec.length)
  match rpc.session? pkt.server.sessionNum with
  | none => return rpc.smPktUdpTx (pkt.constructResp .noError)
  | some session => do
    check (session.role = .server ∧ session.state = .connected)
    check (session.server = pkt.server)
    check (session.client = pkt.client)
    let rpc ← rpc.freeRingEntries build
    let rpc ← rpc.burySession build session
    return rpc.smPktUdpTx (pkt.constructResp .noError)

/-- `handle_disconnect_resp_st`. -/
def handleDisconnectResp (pkt : SmPkt) (calls : List Api) : Except Fault Rpc := do
  check (pkt.client.name.rpcId = rpc.name.rpcId)
  check (pkt.errType = .noError)
  check (pkt.client.sessionNum < rpc.sessionVec.length)
  match rpc.session? pkt.client.sessionNum with
  | none => return rpc
  | some session => do
    check (session.role = .client)
    check (session.state = .disconnectInProgress)
    check (session.client = pkt.client)
    check (session.server = pkt.server)
    rpc.finishSession build session calls

/-- What is not in the hands of an Rpc object when it handles a packet. -/
structure Chance where
  resolves : Bool
  allocates : Bool
  calls : List Api
deriving DecidableEq, Repr

/-- `handle_sm_rx_st` for one packet: a response removes the pending request of its session. -/
def handleSmRx (pkt : SmPkt) (chance : Chance) : Except Fault Rpc :=
  let rpc := if pkt.pktType.isReq then rpc
    else { rpc with smPendingReqs := rpc.smPendingReqs.filter (· ≠ pkt.client.sessionNum) }
  match pkt.pktType with
  | .connectReq => rpc.handleConnectReq build pkt chance.resolves chance.allocates
  | .disconnectReq => rpc.handleDisconnectReq build pkt
  | .connectResp => rpc.handleConnectResp build pkt chance.resolves chance.calls
  | .disconnectResp => rpc.handleDisconnectResp build pkt chance.calls

/-- A pending request is sent again when its time is over. -/
def resend (timedOut : Nat → Bool) (number : Nat) : Rpc :=
  match rpc.session? number with
  | none => rpc
  | some session =>
    if (session.state = .connectInProgress ∨ session.state = .disconnectInProgress) ∧
        timedOut number = true then rpc.sendSmReq session
    else rpc

/-- The management part of `pkt_loss_scan_st`. -/
def pktLossScan (timedOut : Nat → Bool) : Rpc :=
  rpc.smPendingReqs.foldl (fun rpc number => rpc.resend timedOut number) rpc

/-! ## The sessions as a list -/

/-- The sessions after a slot is set. -/
theorem session?_set {other : Nat} {slot : Option Session} :
    ((vec.set number slot)[other]?).join =
      if other = number ∧ number < vec.length then slot else vec[other]?.join := by
  rw [List.getElem?_set]
  by_cases here : number = other
  · subst here
    by_cases inside : number < vec.length
    · simp [inside]
    · simp [inside]
  · simp [here, Ne.symm here]

variable {session : Session}

/-- The sessions after one is pushed. -/
theorem session?_push : ((vec ++ [some session])[number]?).join =
      if number = vec.length then some session else vec[number]?.join := by
  rcases Nat.lt_trichotomy number vec.length with inside | here | beyond
  · rw [List.getElem?_append_left inside, if_neg (Nat.ne_of_lt inside)]
  · simp [here]
  · rw [if_neg (by omega), List.getElem?_eq_none (by simp; omega), List.getElem?_eq_none (by omega)]

/-- A session is within the vector. -/
theorem session?_lt (found : vec[number]?.join = some session) : number < vec.length := by
  by_contra beyond
  rw [List.getElem?_eq_none (by omega)] at found
  contradiction

/-! ## What the calls do -/

section Calls

open Outcome

variable {build rpc} {E : Fault → Prop} {peer : Nat}

/-- A peer has one more session. -/
def PeerGains (build : Build) (peer : Nat) (before after : Nat → Nat) : Prop :=
  build.ub = true → after = Function.update before peer (before peer + 1)

/-- A peer has one session less. -/
def PeerLoses (build : Build) (peer : Nat) (before after : Nat → Nat) : Prop :=
  build.ub = true → 0 < before peer ∧ after = Function.update before peer (before peer - 1)

/-- What `register_rx_peer` ends with. -/
theorem registerRxPeer_ends (thrown : E .thrown) :
    Ends (rpc.registerRxPeer build peer) (fun next => ∃ peers,
      PeerGains build peer rpc.rxPeerRefcounts peers ∧
      next = { rpc with rxPeerRefcounts := peers }) E := by
  unfold registerRxPeer
  split
  case isTrue => exact ends_ensure (fun _ => ends_ok ⟨_, fun _ => rfl, rfl⟩) fun _ => thrown
  case isFalse off => exact ends_ok ⟨_, fun on => absurd on off, rfl⟩

/-- What `unregister_rx_peer` ends with. -/
theorem unregisterRxPeer_ends (thrown : E .thrown) :
    Ends (rpc.unregisterRxPeer build peer) (fun next => ∃ peers,
      PeerLoses build peer rpc.rxPeerRefcounts peers ∧
      next = { rpc with rxPeerRefcounts := peers }) E := by
  unfold unregisterRxPeer
  split
  case isTrue =>
    exact ends_ensure (fun here => ends_ok ⟨_, fun _ => ⟨here.2, rfl⟩, rfl⟩) fun _ => thrown
  case isFalse off => exact ends_ok ⟨_, fun on => absurd on off, rfl⟩

def buried (rpc : Rpc) (session : Session) (peers : Nat → Nat) : Rpc :=
  { rpc with
    rxPeerRefcounts := peers
    sessionVec := rpc.sessionVec.set session.localSessionNum none }

/-- What `bury_session_st` ends with. -/
theorem burySession_ends (thrown : E .thrown) :
    Ends (rpc.burySession build session) (fun next => ∃ peers,
      PeerLoses build session.remoteRpcId rpc.rxPeerRefcounts peers ∧
      next = rpc.buried session peers) E := by
  apply ends_bind (unregisterRxPeer_ends thrown)
  rintro next ⟨peers, loses, rfl⟩
  exact ends_ok ⟨peers, loses, rfl⟩

/-- An Rpc object that has taken the credits of one more session. -/
def charged (rpc : Rpc) (peers : Nat → Nat) : Rpc :=
  { rpc with
    rxPeerRefcounts := peers
    ringEntriesAvailable := rpc.ringEntriesAvailable - sessionCredits }

/-- Enough ring entries are allocated. -/
theorem allocRingEntries_eq (rpc : Rpc) (enough : sessionCredits ≤ rpc.ringEntriesAvailable) :
    rpc.allocRingEntries =
      .ok { rpc with ringEntriesAvailable := rpc.ringEntriesAvailable - sessionCredits } := by
  have here : rpc.haveRingEntries = true := decide_eq_true enough
  rw [allocRingEntries, check, Outcome.ensure, if_pos here]
  rfl

/-- Registering the peer and taking its ring entries. -/
theorem charge_ends {rest : Rpc → Except Fault Rpc} {Q : Rpc → Prop} (thrown : E .thrown)
    (enough : sessionCredits ≤ rpc.ringEntriesAvailable)
    (after : ∀ peers, PeerGains build peer rpc.rxPeerRefcounts peers →
      Ends (rest (rpc.charged peers)) Q E) :
    Ends (do
      let rpc ← rpc.registerRxPeer build peer
      let rpc ← rpc.allocRingEntries
      rest rpc) Q E := by
  apply ends_bind (registerRxPeer_ends thrown)
  rintro next ⟨peers, gains, rfl⟩
  have taken := allocRingEntries_eq { rpc with rxPeerRefcounts := peers } enough
  rw [taken]
  exact after peers gains

/-- `create_session_st` adds a session and asks for it, or changes nothing. -/
theorem createSession_ends {remote : Name} (thrown : E .thrown) :
    Ends (rpc.createSession build remote) (fun next => next = rpc ∨
      remote ≠ rpc.name ∧ sessionCredits ≤ rpc.ringEntriesAvailable ∧ ∃ peers,
        PeerGains build remote.rpcId rpc.rxPeerRefcounts peers ∧
        next = ((rpc.charged peers).pushSession (rpc.newSession build remote)).sendSmReq
          (rpc.newSession build remote)) E := by
  unfold createSession
  split
  case isTrue => exact ends_ok (.inl rfl)
  case isFalse other =>
    split
    case isTrue => exact ends_ok (.inl rfl)
    case isFalse enough =>
      have enough : sessionCredits ≤ rpc.ringEntriesAvailable := by
        simpa [haveRingEntries] using enough
      apply charge_ends thrown enough
      intro peers gains
      exact ends_ok (.inr ⟨other, enough, peers, gains, rfl⟩)

/-- `destroy_session_st` asks a connected session to disconnect, or changes nothing. -/
theorem destroySession_ends {idle : Bool} (thrown : E .thrown) :
    Ends (rpc.destroySession build number idle) (fun next => next = rpc ∨
      ∃ session, rpc.session? number = some session ∧ session.role = .client ∧
        session.state = .connected ∧
        next = (rpc.setSession session.leaving).sendSmReq session.leaving) E := by
  unfold destroySession
  split
  case h_1 => exact ends_ok (.inl rfl)
  case h_2 session found =>
    split
    case isTrue => exact ends_ok (.inl rfl)
    case isFalse allowed =>
      simp only [not_or, not_not] at allowed
      have prepared : Ends (rpc.prepareDisconnect build session.server.name.rpcId)
          (fun _ => True) E := by
        unfold prepareDisconnect
        split
        case isTrue =>
          unfold rtAssert Outcome.ensure
          split
          case isTrue => exact trivial
          case isFalse => exact thrown
        case isFalse => exact trivial
      apply ends_bind prepared
      intro _ _
      exact ends_ok (.inr ⟨session, found, allowed.1, allowed.2.2, rfl⟩)

end Calls

/-! ## Rules for the handlers

Each rule lists the ways in which a handler may end, with what is known there. -/

section Rules

open Outcome

variable {build rpc} {pkt : SmPkt} {Q : Rpc → Prop} {E : Fault → Prop}

/-- The session that a connect request is answered with. -/
def accepted (rpc : Rpc) (pkt : SmPkt) (peers : Nat → Nat) : Rpc :=
  ({ rpc with
      connReqTokenMap :=
        Function.update rpc.connReqTokenMap pkt.uniqToken
          (some (rpc.serverSession pkt).localSessionNum) }.charged peers).pushSession
    (rpc.serverSession pkt)

/-- A connect request of a token that is not known is accepted. -/
def Accepts (rpc : Rpc) (pkt : SmPkt) (resolves allocates : Bool) : Prop :=
  rpc.connReqTokenMap pkt.uniqToken = none ∧ pkt.server.transportType = rpc.transportType ∧
    sessionCredits ≤ rpc.ringEntriesAvailable ∧ resolves = true ∧ allocates = true

instance (rpc : Rpc) (pkt : SmPkt) (resolves allocates : Bool) :
    Decidable (rpc.Accepts pkt resolves allocates) :=
  inferInstanceAs (Decidable (_ ∧ _))

/-- All outcomes of `handle_connect_req_st`. -/
theorem handleConnectReq_ends {resolves allocates : Bool} (thrown : E .thrown)
    (stray : pkt.server.name.rpcId ≠ rpc.name.rpcId → E .assertion)
    (lost : ∀ number, rpc.connReqTokenMap pkt.uniqToken = some number → ¬ number <
      rpc.sessionVec.length → E .assertion) (known : Q rpc)
    (again : ∀ number session, rpc.connReqTokenMap pkt.uniqToken = some number →
      rpc.session? number = some session → session.state = .connected →
      Q (rpc.smPktUdpTx { pkt.constructResp .noError with server := session.server }))
    (refused : ∀ err, err ≠ .noError → rpc.connReqTokenMap pkt.uniqToken = none → Q (rpc.refuse pkt
      err)) (accepts : ∀ peers, rpc.Accepts pkt resolves allocates →
      PeerGains build pkt.client.name.rpcId rpc.rxPeerRefcounts peers →
      Q ((rpc.accepted pkt peers).smPktUdpTx
        { pkt.constructResp .noError with server := (rpc.serverSession pkt).server })) :
    Ends (rpc.handleConnectReq build pkt resolves allocates) Q E := by
  refine ends_ensure (fun _ => ?_) stray
  split
  case h_1 number found =>
    refine ends_ensure (fun _ => ?_) (lost number found)
    split
    case h_1 => exact known
    case h_2 session here =>
      split
      case isTrue => exact known
      case isFalse connected => exact again number session found here (not_not.mp connected)
  case h_2 fresh =>
    split
    case isTrue => exact refused _ nofun fresh
    case isFalse transport =>
      split
      case isTrue => exact refused _ nofun fresh
      case isFalse enough =>
        split
        case isTrue => exact refused _ nofun fresh
        case isFalse resolves =>
          split
          case isTrue => exact refused _ nofun fresh
          case isFalse allocates =>
            have enough : sessionCredits ≤ rpc.ringEntriesAvailable := by
              simpa [haveRingEntries] using enough
            refine charge_ends thrown enough fun peers gains => ?_
            exact accepts peers ⟨fresh, not_not.mp transport, enough, eq_true_of_ne_false resolves,
              eq_true_of_ne_false allocates⟩ gains

/-- What a connect response has in common with its session. -/
structure RespFits (pkt : SmPkt) (session : Session) : Prop where
  role : session.role = .client
  client : session.client = pkt.client
  hostname : session.server.name.hostname = pkt.server.name.hostname
  rpcId : session.server.name.rpcId = pkt.server.name.rpcId
  fresh : session.server.sessionNum = invalidSessionNum

/-- The assertions on a connect response. -/
theorem connectRespFits_ends (misfits : ¬ RespFits pkt session → E .assertion) :
    Ends (connectRespFits pkt session) (fun _ => RespFits pkt session) E := by
  refine ends_ensure (fun first => ?_) fun not => misfits fun fits => not ⟨fits.role, fits.client⟩
  refine ends_ensure (fun hostname => ?_) fun not => misfits fun fits => not fits.hostname
  refine ends_ensure (fun rpcId => ?_) fun not => misfits fun fits => not fits.rpcId
  unfold check Outcome.ensure
  split
  case isTrue fresh => exact ⟨first.1, first.2, hostname, rpcId, fresh⟩
  case isFalse stale => exact misfits fun fits => stale fits.fresh

/-- All outcomes of `handle_connect_resp_st`. -/
theorem handleConnectResp_ends {resolves : Bool}
    (stray : pkt.client.name.rpcId ≠ rpc.name.rpcId → E .assertion)
    (lost : ¬ pkt.client.sessionNum < rpc.sessionVec.length → E .assertion)
    (buried : rpc.session? pkt.client.sessionNum = none → Q rpc)
    (late : ∀ session, rpc.session? pkt.client.sessionNum = some session → session.state ≠
      .connectInProgress → Q rpc)
    (misfits : ∀ session, rpc.session? pkt.client.sessionNum = some session → session.state =
      .connectInProgress → ¬ RespFits pkt session → E .assertion)
    (retried : ∀ session, rpc.session? pkt.client.sessionNum = some session →
      Q { rpc with smPendingReqs := rpc.smPendingReqs.insert session.localSessionNum })
    (failed : ∀ session, rpc.session? pkt.client.sessionNum = some session → session.state =
      .connectInProgress → RespFits pkt session → pkt.errType ≠ .noError → ¬ (pkt.errType =
      .invalidRemoteRpcId ∧ rpc.retry = true) → Ends (rpc.finishSession build session calls) Q E)
    (unreached : ∀ session, rpc.session? pkt.client.sessionNum = some session → session.state =
      .connectInProgress → RespFits pkt session → pkt.errType = .noError → Q ((rpc.setSession
      (session.unreached pkt.server)).sendSmReq (session.unreached pkt.server)))
    (answered : ∀ session, rpc.session? pkt.client.sessionNum = some session → session.state =
      .connectInProgress → RespFits pkt session → pkt.errType = .noError → Ends ((rpc.setSession
      (session.answered pkt.server)).smHandler build calls) Q E) :
    Ends (rpc.handleConnectResp build pkt resolves calls) Q E := by
  refine ends_ensure (fun _ => ?_) stray
  refine ends_ensure (fun _ => ?_) lost
  split
  case h_1 none => exact buried none
  case h_2 session found =>
    split
    case isTrue other => exact late session found other
    case isFalse waits =>
      have waits := not_not.mp waits
      refine ends_bind (connectRespFits_ends (misfits session found waits)) fun _ fits => ?_
      split
      case isTrue => exact retried session found
      case isFalse fatal =>
        split
        case isTrue wrong => exact failed session found waits fits wrong fatal
        case isFalse fine =>
          have fine := not_not.mp fine
          split
          case isTrue => exact unreached session found waits fits fine
          case isFalse => exact answered session found waits fits fine

/-- What a disconnect request has in common with its session. -/
structure ReqFits (pkt : SmPkt) (session : Session) : Prop where
  role : session.role = .server
  state : session.state = .connected
  server : session.server = pkt.server
  client : session.client = pkt.client

/-- The credits of a session are given back. -/
def refunded (rpc : Rpc) : Rpc :=
  { rpc with ringEntriesAvailable := rpc.ringEntriesAvailable + sessionCredits }

/-- All outcomes of `handle_disconnect_req_st`. -/
theorem handleDisconnectReq_ends (thrown : E .thrown)
    (stray : pkt.server.name.rpcId ≠ rpc.name.rpcId → E .assertion)
    (lost : ¬ pkt.server.sessionNum < rpc.sessionVec.length → E .assertion)
    (again : rpc.session? pkt.server.sessionNum = none → Q (rpc.smPktUdpTx (pkt.constructResp
      .noError)))
    (misfits : ∀ session, rpc.session? pkt.server.sessionNum = some session →
      ¬ ReqFits pkt session → E .assertion)
    (full : ∀ session, rpc.session? pkt.server.sessionNum = some session →
      ¬ rpc.ringEntriesAvailable + sessionCredits ≤ build.numRxRingEntries → E .assertion)
    (freed : ∀ session peers, rpc.session? pkt.server.sessionNum = some session →
      ReqFits pkt session → PeerLoses build session.remoteRpcId rpc.rxPeerRefcounts peers →
      Q ((rpc.refunded.buried session peers).smPktUdpTx (pkt.constructResp .noError))) :
    Ends (rpc.handleDisconnectReq build pkt) Q E := by
  refine ends_ensure (fun _ => ?_) stray
  refine ends_ensure (fun _ => ?_) lost
  split
  case h_1 none => exact again none
  case h_2 session found =>
    have misfits := misfits session found
    refine ends_ensure (fun first => ?_) fun not => misfits fun fits => not ⟨fits.role, fits.state⟩
    refine ends_ensure (fun server => ?_) fun not => misfits fun fits => not fits.server
    refine ends_ensure (fun client => ?_) fun not => misfits fun fits => not fits.client
    refine ends_bind (R := (· = rpc.refunded)) ?_ ?_
    · exact ends_ensure (fun _ => ends_ok rfl) (full session found)
    · rintro next rfl
      apply ends_bind (burySession_ends thrown)
      rintro next ⟨peers, loses, rfl⟩
      exact freed session peers found ⟨first.1, first.2, server, client⟩ loses

/-- What a disconnect response has in common with its session. -/
structure LeaveFits (pkt : SmPkt) (session : Session) : Prop where
  role : session.role = .client
  state : session.state = .disconnectInProgress
  client : session.client = pkt.client
  server : session.server = pkt.server

/-- All outcomes of `handle_disconnect_resp_st`. -/
theorem handleDisconnectResp_ends (stray : pkt.client.name.rpcId ≠ rpc.name.rpcId → E .assertion)
    (wrong : pkt.errType ≠ .noError → E .assertion)
    (lost : ¬ pkt.client.sessionNum < rpc.sessionVec.length → E .assertion)
    (buried : rpc.session? pkt.client.sessionNum = none → Q rpc)
    (misfits : ∀ session, rpc.session? pkt.client.sessionNum = some session →
      ¬ LeaveFits pkt session → E .assertion)
    (left : ∀ session, rpc.session? pkt.client.sessionNum = some session → LeaveFits pkt session →
      Ends (rpc.finishSession build session calls) Q E) :
    Ends (rpc.handleDisconnectResp build pkt calls) Q E := by
  refine ends_ensure (fun _ => ?_) stray
  refine ends_ensure (fun _ => ?_) wrong
  refine ends_ensure (fun _ => ?_) lost
  split
  case h_1 none => exact buried none
  case h_2 session found =>
    have misfits := misfits session found
    refine ends_ensure (fun role => ?_) fun not => misfits fun fits => not fits.role
    refine ends_ensure (fun state => ?_) fun not => misfits fun fits => not fits.state
    refine ends_ensure (fun client => ?_) fun not => misfits fun fits => not fits.client
    refine ends_ensure (fun server => ?_) fun not => misfits fun fits => not fits.server
    exact left session found ⟨role, state, client, server⟩

/-- A session is freed: the credits come back, the program makes its calls, and the session is
gone. -/
theorem finishSession_ends (thrown : E .thrown)
    (full : ¬ rpc.ringEntriesAvailable + sessionCredits ≤ build.numRxRingEntries → E .assertion)
    (Between : Rpc → Prop) (told : Ends (rpc.refunded.smHandler build calls) Between E)
    (after : ∀ next peers, Between next → PeerLoses build session.remoteRpcId next.rxPeerRefcounts
      peers → Q (next.buried session peers)) :
    Ends (rpc.finishSession build session calls) Q E := by
  refine ends_bind (R := (· = rpc.refunded)) ?_ ?_
  · exact ends_ensure (fun _ => ends_ok rfl) full
  · rintro next rfl
    apply ends_bind told
    intro next between
    apply (burySession_ends thrown).mono
    rintro last ⟨peers, loses, rfl⟩
    exact after next peers between loses

end Rules

end Rpc

end UbApplication.Erpc.Sm
