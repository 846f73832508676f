import UbApplication.Lib.Size

/-!
# Messages and packets

A message is cut into packets of at most `kMaxDataPerPkt` bytes; the shared-memory transports
(CXL and UB) send every message as one packet. A packet is its header and its payload. The
Ethernet headroom and the zero-copy flag of the header are left out: they say how the bytes
travel and not which bytes they are.
-/

namespace UbApplication.Erpc

/-- The credits of a client session, `kSessionCredits`. -/
def sessionCredits : Nat := 32

/-- The number of slots of a session, `kSessionReqWindow`. -/
def sessionReqWindow : Nat := 8

/-- The magic number of packet headers, `kPktHdrMagic`. -/
def pktHdrMagic : Nat := 11

/-- What is fixed when the library is built. -/
structure Build where
  sharedMemory : Bool
  /-- `kMaxDataPerPkt` of the transport. -/
  maxDataPerPkt : Nat
  /-- `kMaxMsgSize`: the most bytes of a message. -/
  maxMsgSize : Nat
  /-- `kCcPacing`: packets may wait in the timing wheel. -/
  ccPacing : Bool
  /-- `rpc_rto_cycles_`: the time after which a packet counts as lost. -/
  rpcRtoCycles : Nat
  maxDataPerPkt_pos : 0 < maxDataPerPkt
  maxMsgSize_fits : maxMsgSize ≤ 0x1000000

def Build.dataSizeToNumPkts (build : Build) (dataSize : Nat) : Nat :=
  if build.sharedMemory then 1
  else if dataSize ≤ build.maxDataPerPkt then 1
  else (dataSize + build.maxDataPerPkt - 1) / build.maxDataPerPkt

/-- A message has a packet. -/
theorem Build.dataSizeToNumPkts_pos (build : Build) (dataSize : Nat) :
    0 < build.dataSizeToNumPkts dataSize := by
  unfold Build.dataSizeToNumPkts
  have positive := build.maxDataPerPkt_pos
  split
  · decide
  · split
    · decide
    · apply Nat.div_pos _ positive
      omega

/-- A message has no more packets than bytes, and one. -/
theorem Build.dataSizeToNumPkts_le (build : Build) (dataSize : Nat) :
    build.dataSizeToNumPkts dataSize ≤ dataSize + 1 := by
  unfold Build.dataSizeToNumPkts
  have positive := build.maxDataPerPkt_pos
  split
  · omega
  · split
    · omega
    · apply Nat.div_le_of_le_mul
      have more : dataSize ≤ build.maxDataPerPkt * dataSize := Nat.le_mul_of_pos_left _ positive
      rw [Nat.mul_add, Nat.mul_one]
      omega

/-- Small messages have one packet. -/
theorem Build.dataSizeToNumPkts_single {build : Build} {dataSize : Nat}
    (single : build.sharedMemory = true ∨ dataSize ≤ build.maxDataPerPkt) :
    build.dataSizeToNumPkts dataSize = 1 := by
  unfold Build.dataSizeToNumPkts
  rcases single with shared | small
  · simp [shared]
  · simp [small]

/-- Larger messages have several packets. -/
theorem Build.dataSizeToNumPkts_large {build : Build} {dataSize : Nat}
    (large : ¬(build.sharedMemory = true ∨ dataSize ≤ build.maxDataPerPkt)) :
    2 ≤ build.dataSizeToNumPkts dataSize := by
  have positive := build.maxDataPerPkt_pos
  simp only [not_or, Nat.not_le] at large
  simp only [Build.dataSizeToNumPkts, large.1, Nat.not_le.mpr large.2, if_false, Bool.false_eq_true]
  apply (Nat.le_div_iff_mul_le positive).mpr
  omega

/-- The types of packets, `PktType`. -/
inductive PktType where
  | req
  | rfr
  | explCR
  | resp
  deriving DecidableEq, Repr

/-- The packet header, `pkthdr_t`. -/
structure PktHdr where
  reqType : Nat
  msgSize : Nat
  destSessionNum : Nat
  pktType : PktType
  pktNum : Nat
  reqNum : Nat
  magic : Nat
  deriving DecidableEq, Repr

/-- A packet: its header and its payload. -/
structure Packet where
  hdr : PktHdr
  payload : List UInt8
  deriving DecidableEq, Repr

/-- A message buffer: the header of its first packet, its bytes and the number of its packets. -/
structure MsgBuffer where
  pkthdr0 : PktHdr
  /-- The data; its length is `data_size_`. -/
  data : List UInt8
  numPkts : Nat
  deriving DecidableEq, Repr

namespace MsgBuffer

/-- `get_pkthdr_n`: the header of a packet, which is that of packet 0 but for its number. -/
def getPkthdrN (buffer : MsgBuffer) (index : Nat) : PktHdr :=
  { buffer.pkthdr0 with pktNum := buffer.pkthdr0.pktNum + index }

/-- The bytes that travel in a packet of a buffer; a single packet has all of them. -/
def pktData (build : Build) (buffer : MsgBuffer) (index : Nat) : List UInt8 :=
  if buffer.numPkts = 1 then buffer.data
  else (buffer.data.drop (index * build.maxDataPerPkt)).take build.maxDataPerPkt

/-- The packet of a buffer at an index. -/
def packet (build : Build) (buffer : MsgBuffer) (index : Nat) : Packet where
  hdr := buffer.getPkthdrN index
  payload := buffer.pktData build index

/-- `resize_msg_buffer`. -/
def resize (build : Build) (buffer : MsgBuffer) (size : Nat) : MsgBuffer :=
  { buffer with
    data := (buffer.data ++ List.replicate size 0).take size
    numPkts := build.dataSizeToNumPkts size }

/-- `memcpy` of some bytes of a packet into a buffer. -/
def writeAt (buffer : MsgBuffer) (offset count : Nat) (bytes : List UInt8) : MsgBuffer :=
  { buffer with
    data := buffer.data.take offset ++ bytes.take count ++ buffer.data.drop (offset + count) }

/-- `copy_data_to_msgbuf`. -/
def copyData (build : Build) (buffer : MsgBuffer) (index : Nat) (packet : Packet) : MsgBuffer :=
  if build.sharedMemory then buffer.writeAt 0 packet.hdr.msgSize packet.payload
  else
    let offset := index * build.maxDataPerPkt
    buffer.writeAt offset (min build.maxDataPerPkt (Size.sub packet.hdr.msgSize offset))
      packet.payload

end MsgBuffer

/-- `wire_pkts`: the packets one endpoint sends for a request. -/
def wirePkts (req resp : MsgBuffer) : Nat := req.numPkts + resp.numPkts - 1

/-- `resp_ntoi`: the index of a response packet in its message. -/
def respNtoi (pktNum numReqPkts : Nat) : Nat := Size.sub pktNum (numReqPkts - 1)

end UbApplication.Erpc
