import UbApplication.Erpc.Message
import Mathlib.Logic.Function.Iterate
import Mathlib.Data.Fintype.Basic

/-!
# The client side of a session

A client session has eight slots that share its credits. A slot sends the packets of a request
and then a request-for-response for every response packet after the first; each packet costs a
credit, which the packet that answers it gives back. The functions carry the names of the event
loop's. An assertion that fails, like a null pointer that is followed, ends the run: the function
has no result.

The timing wheel is modelled by what it holds of each slot; it may give up any of these packets
at any time. Whether a session is congested follows from measured round trips and is given from
outside. Every packet handed to the transport and every continuation that has run are kept on
record. Session management, statistics and messages of the log are left out.
-/

namespace UbApplication.Erpc

abbrev SlotIndex := Fin sessionReqWindow

/-- The place of a packet number in the arrays of a slot. -/
def creditIndex (pktNum : Nat) : Fin sessionCredits :=
  ⟨pktNum % sessionCredits, Nat.mod_lt _ (by decide)⟩

/-- The client part of a session slot, `SSlot`. -/
structure ClientSlot where
  txMsgbuf : Option MsgBuffer
  curReqNum : Nat
  respMsgbuf : MsgBuffer
  tag : Nat
  /-- Packets up to `numTx - 1` have been sent. -/
  numTx : Nat
  /-- Packets up to `numRx - 1` have been answered. -/
  numRx : Nat
  progressTsc : Nat
  inWheel : Fin sessionCredits → Bool
  wheelCount : Nat
  wheel : List Nat

/-- The arguments of `enqueue_request`; the request buffer is given by its bytes. -/
structure EnqReqArgs where
  reqType : Nat
  reqData : List UInt8
  respMsgbuf : MsgBuffer
  tag : Nat
  deriving DecidableEq, Repr

/-- A continuation that has run. -/
structure Continuation where
  reqNum : Nat
  tag : Nat
  response : List UInt8
  deriving DecidableEq, Repr

/-- A client session, `Session`. -/
structure Session where
  connected : Bool
  remoteSessionNum : Nat
  slots : SlotIndex → ClientSlot
  credits : Nat
  sslotFreeVec : List SlotIndex
  enqReqBacklog : List EnqReqArgs
  uncongested : Bool
  sent : List Packet
  continued : List Continuation

namespace Session

def setSlot (session : Session) (index : SlotIndex) (slot : ClientSlot) : Session :=
  { session with slots := Function.update session.slots index slot }

def bumpCredits (session : Session) : Option Session := do
  guard (session.credits < sessionCredits)
  return { session with credits := session.credits + 1 }

def canBypassWheel (build : Build) (session : Session) (index : SlotIndex) : Bool :=
  !build.ccPacing || ((session.slots index).wheelCount == 0 && session.uncongested)

/-- `enqueue_pkt_tx_burst_st` and `enqueue_hdr_tx_burst_st`: a packet goes to the transport. -/
def enqueueTxBurst (session : Session) (packet : Packet) : Session :=
  { session with sent := session.sent ++ [packet] }

/-- `enqueue_wheel_req_st`. -/
def enqueueWheelReq (session : Session) (index : SlotIndex) (pktNum : Nat) : Session :=
  let slot := session.slots index
  session.setSlot index
    { slot with
      wheel := slot.wheel ++ [pktNum]
      inWheel := Function.update slot.inWheel (creditIndex pktNum) true
      wheelCount := slot.wheelCount + 1 }

/-- `ci.num_tx_++; credits--`. -/
def payCredit (session : Session) (index : SlotIndex) : Session :=
  let slot := session.slots index
  { session.setSlot index { slot with numTx := slot.numTx + 1 } with
    credits := Size.sub session.credits 1 }

/-- The body of the loop of `kick_req_st`. -/
def sendReq (build : Build) (req : MsgBuffer) (bypass : Bool) (index : SlotIndex)
    (session : Session) : Session :=
  let pktNum := (session.slots index).numTx
  (if bypass then session.enqueueTxBurst (req.packet build pktNum)
    else session.enqueueWheelReq index pktNum).payCredit index

/-- `kick_req_st`. -/
def kickReq (build : Build) (session : Session) (index : SlotIndex) : Option Session := do
  guard (0 < session.credits)
  let slot := session.slots index
  let req ← slot.txMsgbuf
  let sending := min session.credits (Size.sub req.numPkts slot.numTx)
  return (sendReq build req (session.canBypassWheel build index) index)^[sending] session

/-- `enqueue_rfr_st`: the packet that asks for the next response packet. -/
def rfrPacket (session : Session) (index : SlotIndex) : Packet :=
  let slot := session.slots index
  { hdr :=
      { reqType := slot.respMsgbuf.pkthdr0.reqType
        msgSize := 0
        destSessionNum := session.remoteSessionNum
        pktType := .rfr
        pktNum := slot.numTx
        reqNum := slot.respMsgbuf.pkthdr0.reqNum
        magic := pktHdrMagic }
    payload := [] }

/-- The body of the loop of `kick_rfr_st`. -/
def sendRfr (index : SlotIndex) (session : Session) : Session :=
  (session.enqueueTxBurst (session.rfrPacket index)).payCredit index

/-- `kick_rfr_st`. -/
def kickRfr (session : Session) (index : SlotIndex) : Option Session := do
  guard (0 < session.credits)
  let slot := session.slots index
  let req ← slot.txMsgbuf
  guard (req.numPkts ≤ slot.numRx)
  guard (slot.numRx < wirePkts req slot.respMsgbuf)
  let sending := min session.credits (Size.sub (wirePkts req slot.respMsgbuf) slot.numTx)
  return (sendRfr index)^[sending] session

/-- `req_pkts_pending(sslot) ? kick_req_st(sslot) : kick_rfr_st(sslot)`. -/
def kick (build : Build) (session : Session) (index : SlotIndex) : Option Session := do
  let slot := session.slots index
  let req ← slot.txMsgbuf
  if slot.numTx < req.numPkts then session.kickReq build index else session.kickRfr index

def inOrderClient (build : Build) (slot : ClientSlot) (hdr : PktHdr) : Bool :=
  hdr.reqNum == slot.curReqNum && hdr.pktNum == slot.numRx && decide (hdr.pktNum < slot.numTx) &&
    !(build.ccPacing && slot.inWheel (creditIndex hdr.pktNum))

/-- A packet in order gives its credit back: `update_timely_rate`, `bump_credits` and
`ci.num_rx_++`. -/
def creditReturned (session : Session) (index : SlotIndex) (tsc : Nat) (uncongested : Bool) :
    Option Session := do
  let session ← bumpCredits { session with uncongested := uncongested }
  let slot := session.slots index
  return session.setSlot index { slot with numRx := slot.numRx + 1, progressTsc := tsc }

/-- `process_expl_cr_st`. -/
def processExplCr (build : Build) (session : Session) (index : SlotIndex) (packet : Packet)
    (tsc : Nat) (uncongested : Bool) : Option Session := do
  guard (packet.hdr.reqNum ≤ (session.slots index).curReqNum)
  if !inOrderClient build (session.slots index) packet.hdr then return session
  let session ← session.creditReturned index tsc uncongested
  let slot := session.slots index
  let req ← slot.txMsgbuf
  if slot.numTx < req.numPkts then session.kickReq build index else return session

/-- The end of `process_resp_one_st`: the slot is free again and the continuation runs. -/
def complete (session : Session) (index : SlotIndex) : Option Session := do
  let slot := session.slots index
  guard (slot.wheelCount = 0)
  some
    { session.setSlot index { slot with txMsgbuf := none } with
      sslotFreeVec := index :: session.sslotFreeVec
      continued := session.continued ++ [⟨slot.curReqNum, slot.tag, slot.respMsgbuf.data⟩] }

def setResp (session : Session) (index : SlotIndex) (resp : MsgBuffer) : Session :=
  session.setSlot index { session.slots index with respMsgbuf := resp }

/-- The part of `process_resp_one_st` for a response of one packet: the header and the data are
copied to the response buffer. -/
def singleResp (build : Build) (session : Session) (index : SlotIndex) (packet : Packet) :
    Session :=
  let resp := (session.slots index).respMsgbuf
  session.setResp index
    { (resp.resize build packet.hdr.msgSize).writeAt 0 packet.hdr.msgSize packet.payload with
      pkthdr0 := packet.hdr }

/-- The first packet of a longer response sizes the response buffer and copies the header. -/
def sizedResp (build : Build) (req resp : MsgBuffer) (packet : Packet) : MsgBuffer :=
  if packet.hdr.pktNum = Size.sub req.numPkts 1 then
    { resp.resize build packet.hdr.msgSize with pkthdr0 := packet.hdr }
  else resp

/-- The part of `process_resp_one_st` for one packet of a longer response; the Boolean says
whether the response is complete. -/
def largeResp (build : Build) (session : Session) (index : SlotIndex) (packet : Packet) :
    Option (Session × Bool) := do
  let req ← (session.slots index).txMsgbuf
  let session := session.setResp index
    (sizedResp build req (session.slots index).respMsgbuf packet)
  let slot := session.slots index
  let session ← if slot.numTx ≠ wirePkts req slot.respMsgbuf then session.kickRfr index
    else some session
  let session := session.setResp index
    ((session.slots index).respMsgbuf.copyData build (respNtoi packet.hdr.pktNum req.numPkts)
      packet)
  let slot := session.slots index
  return (session, slot.numRx == wirePkts req slot.respMsgbuf)

/-- `process_resp_one_st` without the backlog; the Boolean says whether the slot became free. -/
def processResp (build : Build) (session : Session) (index : SlotIndex) (packet : Packet)
    (tsc : Nat) (uncongested : Bool) : Option (Session × Bool) := do
  guard (packet.hdr.reqNum ≤ (session.slots index).curReqNum)
  if !inOrderClient build (session.slots index) packet.hdr then return (session, false)
  let session ← session.creditReturned index tsc uncongested
  let (session, complete) ←
    if build.sharedMemory || packet.hdr.msgSize ≤ build.maxDataPerPkt then
      some (session.singleResp build index packet, true)
    else session.largeResp build index packet
  if complete then return (← session.complete index, true) else return (session, false)

/-- The part of `enqueue_request` that fills in a slot that has been popped. -/
def fillSlot (build : Build) (session : Session) (index : SlotIndex) (args : EnqReqArgs)
    (tsc : Nat) :
    Session :=
  let slot := session.slots index
  let reqNum := slot.curReqNum + sessionReqWindow
  session.setSlot index
    { slot with
      txMsgbuf := some
        { pkthdr0 :=
            { reqType := args.reqType
              msgSize := args.reqData.length
              destSessionNum := session.remoteSessionNum
              pktType := .req
              pktNum := 0
              reqNum := reqNum
              magic := pktHdrMagic }
          data := args.reqData
          numPkts := build.dataSizeToNumPkts args.reqData.length }
      curReqNum := reqNum
      respMsgbuf := args.respMsgbuf
      tag := args.tag
      progressTsc := tsc
      numRx := 0
      numTx := 0 }

/-- The rollback of `pkt_loss_retransmit_st`: the packets outstanding count as not sent. -/
def rollback (session : Session) (index : SlotIndex) (delta tsc : Nat) : Session :=
  let slot := session.slots index
  { session.setSlot index { slot with numTx := slot.numRx, progressTsc := tsc } with
    credits := session.credits + delta }

/-- `pkt_loss_retransmit_st`. -/
def pktLossRetransmit (build : Build) (session : Session) (index : SlotIndex) (stalled : Bool)
    (tsc : Nat) : Option Session := do
  let slot := session.slots index
  guard slot.txMsgbuf.isSome
  let delta := Size.sub slot.numTx slot.numRx
  guard (session.credits + delta ≤ sessionCredits)
  if delta = 0 then return session
  guard !stalled
  if 0 < slot.wheelCount then return session
  (session.rollback index delta tsc).kick build index

/-- A packet of a slot leaves the wheel. -/
def reap (session : Session) (index : SlotIndex) (pktNum : Nat) : Session :=
  let slot := session.slots index
  session.setSlot index
    { slot with
      wheel := slot.wheel.erase pktNum
      wheelCount := Size.sub slot.wheelCount 1
      inWheel := Function.update slot.inWheel (creditIndex pktNum) false }

/-- The body of the loop of `process_wheel_st`: the wheel gives up a packet. -/
def processWheel (build : Build) (session : Session) (index : SlotIndex) (pktNum : Nat) :
    Option Session := do
  let slot := session.slots index
  guard (pktNum ∈ slot.wheel)
  let req ← slot.txMsgbuf
  let packet := if pktNum < req.numPkts then req.packet build pktNum else session.rfrPacket index
  return (session.enqueueTxBurst packet).reap index pktNum

end Session

/-- A slot of a session: the number of the session and the index of the slot. -/
abbrev SlotId := Nat × SlotIndex

/-- The client part of an `Rpc` object. -/
structure Rpc where
  sessions : Nat → Session
  stallq : List SlotId
  activeRpcs : List SlotId
  evLoopTsc : Nat

namespace Rpc

def slot (rpc : Rpc) (id : SlotId) : ClientSlot := (rpc.sessions id.1).slots id.2

def setSession (rpc : Rpc) (number : Nat) (session : Session) : Rpc :=
  { rpc with sessions := Function.update rpc.sessions number session }

/-- `enqueue_request` in the dispatch thread. -/
def enqueueRequest (build : Build) (rpc : Rpc) (number : Nat) (args : EnqReqArgs) : Option Rpc := do
  let session := rpc.sessions number
  guard session.connected
  match session.sslotFreeVec with
  | [] =>
    return rpc.setSession number { session with enqReqBacklog := session.enqReqBacklog ++ [args] }
  | index :: free =>
    guard (session.slots index).txMsgbuf.isNone
    let session := { session with sslotFreeVec := free }.fillSlot build index args rpc.evLoopTsc
    let rpc := { rpc with activeRpcs := rpc.activeRpcs ++ [(number, index)] }
    if 0 < session.credits then
      return rpc.setSession number (← session.kickReq build index)
    else
      return { rpc.setSession number session with stallq := rpc.stallq ++ [(number, index)] }

/-- The loop of `process_credit_stall_queue_st` over the slots that wait. -/
def kickStalled (build : Build) (rpc : Rpc) : List SlotId → Option Rpc
  | [] => return { rpc with stallq := [] }
  | id :: waiting => do
    let session := rpc.sessions id.1
    if 0 < session.credits then
      kickStalled build (rpc.setSession id.1 (← session.kick build id.2)) waiting
    else
      let rest ← kickStalled build rpc waiting
      return { rest with stallq := id :: rest.stallq }

/-- `process_credit_stall_queue_st`. -/
def processCreditStallQueue (build : Build) (rpc : Rpc) : Option Rpc :=
  rpc.kickStalled build rpc.stallq

/-- The body of the loop of `pkt_loss_scan_st`. -/
def pktLossScanOne (build : Build) (rpc : Rpc) (id : SlotId) : Option Rpc := do
  let slot := rpc.slot id
  if slot.numTx = slot.numRx then return rpc
  if build.rpcRtoCycles < Size.sub rpc.evLoopTsc slot.progressTsc then
    return rpc.setSession id.1
      (← (rpc.sessions id.1).pktLossRetransmit build id.2 (rpc.stallq.contains id) rpc.evLoopTsc)
  else return rpc

/-- `pkt_loss_scan_st`. -/
def pktLossScan (build : Build) (rpc : Rpc) : Option Rpc :=
  rpc.activeRpcs.foldlM (pktLossScanOne build) rpc

def slotOf (hdr : PktHdr) : SlotIndex := ⟨hdr.reqNum % sessionReqWindow, Nat.mod_lt _ (by decide)⟩

/-- The end of `process_resp_one_st` for the queues: the slot leaves the active list and takes
the first request of the backlog. -/
def slotFreed (build : Build) (rpc : Rpc) (id : SlotId) : Option Rpc :=
  let rpc := { rpc with activeRpcs := rpc.activeRpcs.erase id }
  let session := rpc.sessions id.1
  match session.enqReqBacklog with
  | [] => some rpc
  | args :: backlog => do
    guard (session.sslotFreeVec.length = 1)
    (rpc.setSession id.1 { session with enqReqBacklog := backlog }).enqueueRequest build id.1 args

/-- The body of the loop of `process_comps_st` for a client: a packet is received. The slots of a
client session are not made for requests and requests-for-response. -/
def processPkt (build : Build) (rpc : Rpc) (packet : Packet) (uncongested : Bool) : Option Rpc := do
  let hdr := packet.hdr
  if hdr.magic ≠ pktHdrMagic then return rpc
  guard (hdr.msgSize ≤ build.maxMsgSize)
  let session := rpc.sessions hdr.destSessionNum
  if !session.connected then return rpc
  let index := slotOf hdr
  match hdr.pktType with
  | .resp =>
    let (session, freed) ← session.processResp build index packet rpc.evLoopTsc uncongested
    let rpc := rpc.setSession hdr.destSessionNum session
    if freed then rpc.slotFreed build (hdr.destSessionNum, index) else return rpc
  | .explCR =>
    return rpc.setSession hdr.destSessionNum
      (← session.processExplCr build index packet rpc.evLoopTsc uncongested)
  | .req => none
  | .rfr => none

/-- What happens to a client. -/
inductive Event where
  | stamp (tsc : Nat)
  /-- The application calls `enqueue_request`. -/
  | enqueueRequest (number : Nat) (args : EnqReqArgs)
  /-- A packet is received; afterwards the session is congested or not. -/
  | receive (packet : Packet) (uncongested : Bool)
  /-- `process_credit_stall_queue_st` runs. -/
  | creditStallQueue
  /-- The wheel gives up a packet of a slot. -/
  | wheel (id : SlotId) (pktNum : Nat)
  /-- `pkt_loss_scan_st` runs. -/
  | pktLossScan

def step (build : Build) (rpc : Rpc) : Event → Option Rpc
  | .stamp tsc => some { rpc with evLoopTsc := tsc }
  | .enqueueRequest number args => rpc.enqueueRequest build number args
  | .receive packet uncongested => rpc.processPkt build packet uncongested
  | .creditStallQueue => rpc.processCreditStallQueue build
  | .wheel id pktNum => do
    return rpc.setSession id.1 (← (rpc.sessions id.1).processWheel build id.2 pktNum)
  | .pktLossScan => rpc.pktLossScan build

end Rpc

def ClientSlot.initial (index : SlotIndex) : ClientSlot where
  txMsgbuf := none
  curReqNum := index
  respMsgbuf := ⟨⟨0, 0, 0, .req, 0, 0, 0⟩, [], 0⟩
  tag := 0
  numTx := 0
  numRx := 0
  progressTsc := 0
  inWheel := fun _ => false
  wheelCount := 0
  wheel := []

def Session.initial (connected : Bool) (remoteSessionNum : Nat) : Session where
  connected := connected
  remoteSessionNum := remoteSessionNum
  slots := ClientSlot.initial
  credits := sessionCredits
  sslotFreeVec := List.finRange sessionReqWindow
  enqReqBacklog := []
  uncongested := true
  sent := []
  continued := []

/-- A client whose sessions have just been set up: which are connected, and their numbers at the
servers. -/
def Rpc.initial (connected : Nat → Bool) (remoteSessionNum : Nat → Nat) : Rpc where
  sessions number := Session.initial (connected number) (remoteSessionNum number)
  stallq := []
  activeRpcs := []
  evLoopTsc := 0

end UbApplication.Erpc
