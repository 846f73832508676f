import UbApplication.Erpc.Client
import Mathlib.Algebra.Order.BigOperators.Group.Finset

/-!
# What a client session does

The credits of a session and the packets it has outstanding add up to its budget. Every function
of the event loop that works on a session keeps these accounts, and what the timing wheel holds
of a slot stays within what the slot has outstanding.
-/

namespace UbApplication.Erpc

open List

/-! ## Accounts of slots and sessions -/

/-- The number of packets sent and not answered. -/
def ClientSlot.outstanding (slot : ClientSlot) : Nat := slot.numTx - slot.numRx

/-- The packets of all slots that are sent and not answered. -/
def Session.outstanding (session : Session) : Nat := ∑ index, (session.slots index).outstanding

/-- What the timing wheel holds of a slot are request packets that were sent and not answered,
each of them marked. -/
structure ClientSlot.Wheeled (build : Build) (slot : ClientSlot) : Prop where
  nodup : slot.wheel.Nodup
  outstanding : ∀ pktNum ∈ slot.wheel, slot.numRx ≤ pktNum ∧ pktNum < slot.numTx
  requests : ∀ req, slot.txMsgbuf = some req → ∀ pktNum ∈ slot.wheel, pktNum < req.numPkts
  count : slot.wheelCount = slot.wheel.length
  marked : ∀ pktNum ∈ slot.wheel, slot.inWheel (creditIndex pktNum) = true
  unpaced : build.ccPacing = false → slot.wheel = []

/-- What holds of a slot between two events. -/
structure ClientSlot.Sound (build : Build) (slot : ClientSlot) : Prop where
  ordered : slot.numRx ≤ slot.numTx
  idle : slot.txMsgbuf = none → slot.numTx = slot.numRx
  request : ∀ req, slot.txMsgbuf = some req → 0 < req.numPkts ∧ req.numPkts ≤ 0x1000001
  /-- Until the first response packet only request packets are sent, then as many as both
  messages need. -/
  wire : ∀ req, slot.txMsgbuf = some req → slot.numTx ≤ req.numPkts ∨
    (req.numPkts ≤ slot.numRx ∧ slot.numTx ≤ wirePkts req slot.respMsgbuf)
  unfinished : ∀ req, slot.txMsgbuf = some req → slot.numRx < req.numPkts ∨
    (slot.numRx < wirePkts req slot.respMsgbuf ∧ slot.respMsgbuf.numPkts ≤ 0x1000001)
  wheeled : slot.Wheeled build

/-- What holds of a session between two events. -/
structure Session.Sound (build : Build) (session : Session) : Prop where
  slots : ∀ index, (session.slots index).Sound build
  conserved : session.credits + session.outstanding = sessionCredits
  free : ∀ index, index ∈ session.sslotFreeVec ↔ (session.slots index).txMsgbuf = none
  freeNodup : session.sslotFreeVec.Nodup

/-- What holds of the backlog of a session between two events. -/
structure Session.Queued (build : Build) (session : Session) : Prop where
  waits : session.sslotFreeVec ≠ [] → session.enqReqBacklog = []
  fits : ∀ args ∈ session.enqReqBacklog, args.reqData.length ≤ build.maxMsgSize

variable {other : SlotIndex}

section Accounts

variable {build : Build} {session after : Session} {index : SlotIndex} {slot : ClientSlot}

/-- The slot set. -/
@[simp] theorem Session.setSlot_self : (session.setSlot index slot).slots index = slot := by
  simp [Session.setSlot]

/-- The other slots stay. -/
theorem Session.setSlot_other (different : other ≠ index) :
    (session.setSlot index slot).slots other = session.slots other := by
  simp [Session.setSlot, different]

/-- The packets outstanding after one slot changes. -/
theorem Session.outstanding_change
    (others : ∀ other ≠ index, after.slots other = session.slots other) :
    after.outstanding + (session.slots index).outstanding =
      session.outstanding + (after.slots index).outstanding := by
  have split : ∀ any : Session, any.outstanding = (any.slots index).outstanding +
      ∑ other ∈ Finset.univ.erase index, (any.slots other).outstanding := by
    intro any
    exact (Finset.add_sum_erase _ (fun other => (any.slots other).outstanding)
      (Finset.mem_univ index)).symm
  have same : ∑ other ∈ Finset.univ.erase index, (after.slots other).outstanding =
      ∑ other ∈ Finset.univ.erase index, (session.slots other).outstanding := by
    apply Finset.sum_congr rfl
    intro other member
    rw [others other (Finset.ne_of_mem_erase member)]
  rw [split after, split session, same]
  omega

/-- The credits and what one slot has outstanding are within the budget. -/
theorem Session.Sound.budget (sound : session.Sound build) (index : SlotIndex) : session.credits +
    ((session.slots index).numTx - (session.slots index).numRx) ≤ sessionCredits := by
  have part : (session.slots index).outstanding ≤ session.outstanding :=
    Finset.single_le_sum (f := fun other => (session.slots other).outstanding)
      (fun _ _ => Nat.zero_le _) (Finset.mem_univ index)
  have conserved := sound.conserved
  simp only [ClientSlot.outstanding] at part
  omega

/-- A slot with packets outstanding has a request. -/
theorem Session.Sound.busy (sound : session.Sound build)
    (outstanding : (session.slots index).numTx ≠ (session.slots index).numRx) :
    (session.slots index).txMsgbuf ≠ none :=
  fun idle => outstanding ((sound.slots index).idle idle)

/-- Soundness after one slot changes. -/
theorem Session.Sound.change (sound : session.Sound build) (index : SlotIndex)
    (others : ∀ other ≠ index, after.slots other = session.slots other)
    (here : (after.slots index).Sound build)
    (paid : after.credits + (after.slots index).outstanding =
      session.credits + (session.slots index).outstanding)
    (still : (after.slots index).txMsgbuf = none ↔ (session.slots index).txMsgbuf = none)
    (sameFree : after.sslotFreeVec = session.sslotFreeVec) : after.Sound build where
  slots other := by
    by_cases same : other = index
    · rw [same]
      exact here
    · rw [others other same]
      exact sound.slots other
  conserved := by
    have total := Session.outstanding_change others
    have before := sound.conserved
    omega
  free other := by
    rw [sameFree, sound.free other]
    by_cases same : other = index
    · rw [same]
      exact still.symm
    · rw [others other same]
  freeNodup := by
    rw [sameFree]
    exact sound.freeNodup

end Accounts

/-! ## Sending -/

/-- A packet that a slot may send for its request. -/
inductive Session.Emits (build : Build) (session : Session) (index : SlotIndex) :
    Packet → Prop where
  | req (req : MsgBuffer) (found : (session.slots index).txMsgbuf = some req) (pktNum : Nat)
      (within : pktNum < req.numPkts) : Emits build session index (req.packet build pktNum)
  /-- A request for a response packet after the first. -/
  | rfr (req : MsgBuffer) (found : (session.slots index).txMsgbuf = some req) (pktNum : Nat)
      (after : req.numPkts ≤ (session.slots index).numRx)
      (late : req.numPkts ≤ pktNum) (within : pktNum <
        wirePkts req (session.slots index).respMsgbuf) :
      Emits build session index
        { session.rfrPacket index with
          hdr := { (session.rfrPacket index).hdr with pktNum := pktNum } }

/-- A slot has sent some packets and nothing else has changed. -/
structure Session.Sends (build : Build) (index : SlotIndex) (before after : Session) : Prop where
  others : ∀ other ≠ index, after.slots other = before.slots other
  kept : ∃ numTx inWheel wheelCount wheel, after.slots index =
    { before.slots index with
      numTx := numTx, inWheel := inWheel, wheelCount := wheelCount, wheel := wheel }
  rest : ∃ slots credits sent, after =
    { before with slots := slots, credits := credits, sent := sent }
  sent : ∀ packet ∈ after.sent, packet ∈ before.sent ∨ before.Emits build index packet
  recorded : ∀ packet ∈ before.sent, packet ∈ after.sent

variable {packet : Packet}

section Sending

variable {build : Build} {session before middle after : Session} {index : SlotIndex}

namespace Session.Sends

/-- Nothing has been sent. -/
theorem refl (session : Session) : Sends build index session session where
  others _ _ := rfl
  kept := ⟨_, _, _, _, rfl⟩
  rest := ⟨_, _, _, rfl⟩
  sent _ member := .inl member
  recorded _ member := member

/-- What sending does not change. -/
theorem same (sends : Sends build index before after) :
    (after.slots index).txMsgbuf = (before.slots index).txMsgbuf ∧
      (after.slots index).numRx = (before.slots index).numRx ∧
      (after.slots index).respMsgbuf = (before.slots index).respMsgbuf ∧
      after.sslotFreeVec = before.sslotFreeVec ∧ after.enqReqBacklog = before.enqReqBacklog ∧
      after.remoteSessionNum = before.remoteSessionNum := by
  obtain ⟨numTx, inWheel, wheelCount, wheel, slot⟩ := sends.kept
  obtain ⟨slots, credits, sent, session⟩ := sends.rest
  rw [slot]
  refine ⟨rfl, rfl, rfl, ?_, ?_, ?_⟩ <;> rw [session]

/-- What is emitted later was allowed before. -/
theorem emits (sends : Sends build index before after)
    (emitted : after.Emits build index packet) : before.Emits build index packet := by
  obtain ⟨sameReq, sameRx, sameResp, -, -, sameRemote⟩ := sends.same
  cases emitted with
  | req req found pktNum within =>
    rw [sameReq] at found
    exact .req req found pktNum within
  | rfr req found pktNum answered late within =>
    rw [sameReq] at found
    rw [sameRx] at answered
    rw [sameResp] at within
    have packet : before.Emits build index _ := .rfr req found pktNum answered late within
    simpa only [rfrPacket, sameResp, sameRemote] using packet

/-- One part after the other. -/
theorem trans (first : Sends build index before middle) (second : Sends build index middle after) :
    Sends build index before after where
  others other different := (second.others other different).trans (first.others other different)
  kept := by
    obtain ⟨_, _, _, _, one⟩ := first.kept
    obtain ⟨_, _, _, _, two⟩ := second.kept
    rw [two, one]
    exact ⟨_, _, _, _, rfl⟩
  rest := by
    obtain ⟨_, _, _, one⟩ := first.rest
    obtain ⟨_, _, _, two⟩ := second.rest
    rw [two, one]
    exact ⟨_, _, _, rfl⟩
  sent packet member := by
    rcases second.sent packet member with old | emitted
    · exact first.sent packet old
    · exact .inr (first.emits emitted)
  recorded packet member := second.recorded packet (first.recorded packet member)

end Session.Sends

/-- Some packets are sent, each for a credit, and the session stays sound. -/
structure Session.Kicked (build : Build) (index : SlotIndex) (count : Nat)
    (before after : Session) :
    Prop where
  sound : after.Sound build
  sends : Sends build index before after
  numTx : (after.slots index).numTx = (before.slots index).numTx + count
  credits : after.credits + count = before.credits

/-- A loop of sends pays a credit for each. -/
theorem Session.Kicked.iterate {send : Session → Session} (limit : Nat)
    (sound : session.Sound build)
    (one : ∀ now, now.Sound build → Sends build index session now → 0 < now.credits → (now.slots
      index).numTx < limit → Kicked build index 1 now (send now)) (count : Nat)
    (paid : count ≤ session.credits) (within : (session.slots index).numTx + count ≤ limit) :
    Kicked build index count session (send^[count] session) := by
  induction count with
  | zero => exact ⟨sound, .refl session, rfl, rfl⟩
  | succ count ih =>
    have earlier := ih (by omega) (by omega)
    rw [Function.iterate_succ_apply']
    have credits := earlier.credits
    have numTx := earlier.numTx
    have last := one _ earlier.sound earlier.sends (by omega) (by omega)
    have lastCredits := last.credits
    have lastTx := last.numTx
    exact ⟨last.sound, earlier.sends.trans last.sends, by omega, by omega⟩

/-- No more credits than the window. -/
theorem Session.Sound.credits_le (sound : session.Sound build) :
    session.credits ≤ sessionCredits := by
  have conserved := sound.conserved
  omega

/-- A packet that is not paced leaves the wheel. -/
theorem ClientSlot.Wheeled.sent {slot : ClientSlot} (wheeled : slot.Wheeled build) :
    { slot with numTx := slot.numTx + 1 }.Wheeled build :=
  { wheeled with
    outstanding := fun pktNum member => by
      have bounds := wheeled.outstanding pktNum member
      exact ⟨bounds.1, Nat.lt_succ_of_lt bounds.2⟩ }

/-- A paced packet goes to the wheel. -/
theorem ClientSlot.Wheeled.wheel {slot : ClientSlot} (wheeled : slot.Wheeled build)
    (paced : build.ccPacing = true) (ordered : slot.numRx ≤ slot.numTx)
    (within : ∀ req, slot.txMsgbuf = some req → slot.numTx < req.numPkts) :
    { slot with
      wheel := slot.wheel ++ [slot.numTx]
      inWheel := Function.update slot.inWheel (creditIndex slot.numTx) true
      wheelCount := slot.wheelCount + 1
      numTx := slot.numTx + 1 }.Wheeled build where
  nodup := by
    apply List.Nodup.append wheeled.nodup (nodup_singleton _)
    intro pktNum member last
    rw [mem_singleton] at last
    have bounds := wheeled.outstanding pktNum member
    omega
  outstanding pktNum member := by
    simp only [mem_append, mem_singleton] at member
    rcases member with old | new
    · have bounds := wheeled.outstanding pktNum old
      exact ⟨bounds.1, Nat.lt_succ_of_lt bounds.2⟩
    · rw [new]
      exact ⟨ordered, Nat.lt_succ_self _⟩
  requests req found pktNum member := by
    simp only [mem_append, mem_singleton] at member
    rcases member with old | new
    · exact wheeled.requests req found pktNum old
    · rw [new]
      exact within req found
  count := by
    simp [wheeled.count]
  marked pktNum member := by
    simp only [mem_append, mem_singleton] at member
    rcases member with old | new
    · have mark := wheeled.marked pktNum old
      by_cases same : creditIndex pktNum = creditIndex slot.numTx
      · simp [same]
      · simp [same, mark]
    · simp [new]
  unpaced off := by
    rw [paced] at off
    contradiction

section

variable (sound : session.Sound build)
include sound

variable {req : MsgBuffer} (found : (session.slots index).txMsgbuf = some req)
include found

/-- A packet is counted and paid for. -/
theorem Session.Sound.advance (positive : 0 < session.credits) (slot : ClientSlot)
    (packets : List Packet) (kept : ∃ inWheel wheelCount wheel, slot =
      { session.slots index with
        numTx := (session.slots index).numTx + 1
        inWheel := inWheel, wheelCount := wheelCount, wheel := wheel })
          (wheeled : slot.Wheeled build)
    (emitted : ∀ packet ∈ packets, session.Emits build index packet)
    (wire : (session.slots index).numTx + 1 ≤ req.numPkts ∨
      (req.numPkts ≤ (session.slots index).numRx ∧ (session.slots index).numTx + 1 ≤
        wirePkts req (session.slots index).respMsgbuf)) :
    Kicked build index 1 session
      { session.setSlot index slot with
        credits := Size.sub session.credits 1, sent := session.sent ++ packets } := by
  have slotSound := sound.slots index
  have ordered := slotSound.ordered
  have paid : Size.sub session.credits 1 + 1 = session.credits := by
    rw [Size.sub_of_le positive (lt_of_le_of_lt sound.credits_le (by decide))]
    omega
  obtain ⟨inWheel, wheelCount, wheel, here⟩ := kept
  have soundHere : slot.Sound build := by
    rw [here]
    refine ⟨Nat.le_succ_of_le ordered, ?_, slotSound.request, ?_, slotSound.unfinished,
      here ▸ wheeled⟩
    · intro idle
      rw [found] at idle
      contradiction
    · intro other same
      rw [found, Option.some.injEq] at same
      rw [← same]
      exact wire
  have others : ∀ other ≠ index, (session.setSlot index slot).slots other = session.slots other :=
    fun _ different => setSlot_other different
  constructor
  · apply sound.change index
    · exact others
    · simpa using soundHere
    · simp only [setSlot_self, here, ClientSlot.outstanding]
      omega
    · simp [here]
    · rfl
  · refine ⟨others, ⟨_, _, _, _, setSlot_self.trans here⟩, ⟨_, _, _, rfl⟩, ?_, ?_⟩
    · intro packet member
      rcases mem_append.mp member with old | new
      · exact .inl old
      · exact .inr (emitted packet new)
    · intro packet member
      exact mem_append_left _ member
  · simp [here]
  · exact paid

/-- A request packet is sent. -/
theorem Session.Sound.sendReq {bypass : Bool} (held : bypass = false → build.ccPacing = true)
    (positive : 0 < session.credits)
    (within : (session.slots index).numTx < req.numPkts) :
    Kicked build index 1 session (session.sendReq build req bypass index) := by
  have slotSound := sound.slots index
  cases bypass with
  | true =>
    apply sound.advance found positive _ [req.packet build (session.slots index).numTx]
    · exact ⟨_, _, _, rfl⟩
    · exact slotSound.wheeled.sent
    · simpa using Emits.req req found _ within
    · exact .inl within
  | false =>
    have put := slotSound.wheeled.wheel (held rfl) slotSound.ordered (by
      intro other same
      rw [found, Option.some.injEq] at same
      rw [← same]
      exact within)
    have kicked := sound.advance found positive _ [] ⟨_, _, _, rfl⟩ put (by simp) (.inl within)
    simpa [Session.sendReq, payCredit, enqueueWheelReq, setSlot] using kicked

section

variable (positive : 0 < session.credits)
include positive

/-- A request for a response packet is sent. -/
theorem Session.Sound.sendRfr (answered : req.numPkts ≤ (session.slots index).numRx)
    (within : (session.slots index).numTx < wirePkts req (session.slots index).respMsgbuf) :
    Kicked build index 1 session (session.sendRfr index) := by
  have slotSound := sound.slots index
  apply sound.advance found positive _ [session.rfrPacket index]
  · exact ⟨_, _, _, rfl⟩
  · exact slotSound.wheeled.sent
  · intro packet member
    have ordered := slotSound.ordered
    rw [mem_singleton.mp member]
    exact Emits.rfr req found _ answered (by omega) within
  · exact .inr ⟨answered, within⟩

/-- `kick_req_st` on a slot with request packets to send. -/
theorem Session.Sound.kickReq (pending : (session.slots index).numTx < req.numPkts) :
    ∃ count after, session.kickReq build index = some after ∧ 0 < count ∧
      Kicked build index count session after := by
  have few := ((sound.slots index).request req found).2
  have left : Size.sub req.numPkts (session.slots index).numTx =
      req.numPkts - (session.slots index).numTx :=
    Size.sub_of_le pending.le (lt_of_le_of_lt few (by decide))
  have taken : session.kickReq build index = some
      ((Session.sendReq build req (session.canBypassWheel build index) index)^[
        min session.credits (req.numPkts - (session.slots index).numTx)] session) := by
    simp [Session.kickReq, guard, positive, found, left]
  refine ⟨min session.credits (req.numPkts - (session.slots index).numTx), _, taken, by omega, ?_⟩
  apply Kicked.iterate req.numPkts sound _ _ (by omega) (by omega)
  intro now nowSound sends nowPositive within
  apply nowSound.sendReq (sends.same.1.trans found) _ nowPositive within
  intro held
  simp only [canBypassWheel, Bool.or_eq_false_iff, Bool.not_eq_false'] at held
  exact held.1

/-- `kick_rfr_st` on a slot with response packets to ask for. -/
theorem Session.Sound.kickRfr (answered : req.numPkts ≤ (session.slots index).numRx)
    (pending : (session.slots index).numTx < wirePkts req (session.slots index).respMsgbuf) :
    ∃ count after, session.kickRfr index = some after ∧ 0 < count ∧
      Kicked build index count session after := by
  have slotSound := sound.slots index
  have ordered := slotSound.ordered
  have few := (slotSound.request req found).2
  have short : (session.slots index).respMsgbuf.numPkts ≤ 0x1000001 := by
    rcases slotSound.unfinished req found with early | late
    · omega
    · exact late.2
  have left : Size.sub (wirePkts req (session.slots index).respMsgbuf) (session.slots index).numTx =
      wirePkts req (session.slots index).respMsgbuf - (session.slots index).numTx := by
    apply Size.sub_of_le pending.le
    simp only [wirePkts, Size.modulus]
    omega
  have unanswered : (session.slots index).numRx <
    wirePkts req (session.slots index).respMsgbuf := by
    omega
  have taken : session.kickRfr index = some
      ((Session.sendRfr index)^[min session.credits
        (wirePkts req (session.slots index).respMsgbuf - (session.slots index).numTx)]
          session) := by
    simp [Session.kickRfr, guard, positive, found, left, answered, unanswered]
  refine ⟨min session.credits
    (wirePkts req (session.slots index).respMsgbuf - (session.slots index).numTx), _, taken,
    by omega, ?_⟩
  apply Kicked.iterate (wirePkts req (session.slots index).respMsgbuf) sound _ _ (by omega)
    (by omega)
  intro now nowSound sends nowPositive within
  obtain ⟨sameReq, sameRx, sameResp, -⟩ := sends.same
  apply nowSound.sendRfr (sameReq.trans found) nowPositive
  · rw [sameRx]
    exact answered
  · rw [sameResp]
    exact within

/-- A slot with nothing outstanding sends again. -/
theorem Session.Sound.kick (still : (session.slots index).numTx = (session.slots index).numRx) :
    ∃ count after, session.kick build index = some after ∧ 0 < count ∧
      Kicked build index count session after := by
  by_cases pending : (session.slots index).numTx < req.numPkts
  · have kicked := sound.kickReq found positive pending
    simpa [Session.kick, found, pending] using kicked
  · have answered : req.numPkts ≤ (session.slots index).numRx := by omega
    have within : (session.slots index).numTx < wirePkts req (session.slots index).respMsgbuf := by
      rcases (sound.slots index).unfinished req found with early | late
      · omega
      · omega
    have kicked := sound.kickRfr found positive answered within
    simpa [Session.kick, found, pending] using kicked

end

end

end Sending

/-! ## Receiving -/

section Receiving

variable {build : Build} {session after : Session} {index : SlotIndex} {slot : ClientSlot}

/-- What a received packet does to a session; the Boolean says whether a slot became free. -/
inductive Session.Receives (build : Build) (index : SlotIndex) (before : Session) :
    Session → Bool → Prop where
  | dropped : Receives build index before before false
  /-- The packet is answered and others are outstanding. -/
  | answered (after : Session) (sound : after.Sound build)
      (others : ∀ other ≠ index, after.slots other = before.slots other)
      (was : (before.slots index).numTx ≠ (before.slots index).numRx)
      (now : (after.slots index).numTx ≠ (after.slots index).numRx)
      (sameFree : after.sslotFreeVec = before.sslotFreeVec)
      (sameBacklog : after.enqReqBacklog = before.enqReqBacklog) :
      Receives build index before after false
  | freed (after : Session) (sound : after.Sound build)
      (others : ∀ other ≠ index, after.slots other = before.slots other)
      (was : (before.slots index).numTx ≠ (before.slots index).numRx)
      (now : (after.slots index).txMsgbuf = none)
      (nowFree : after.sslotFreeVec = index :: before.sslotFreeVec)
      (sameBacklog : after.enqReqBacklog = before.enqReqBacklog)
      (sameConnected : after.connected = before.connected) :
      Receives build index before after true

/-- The slot after a packet in order has been counted. -/
def ClientSlot.counted (slot : ClientSlot) (tsc : Nat) : ClientSlot :=
  { slot with numRx := slot.numRx + 1, progressTsc := tsc }

variable {hdr : PktHdr} {req resp : MsgBuffer}

/-- An accepted packet is the next one that is due. -/
theorem Session.inOrder_outstanding (inOrder : inOrderClient build slot hdr = true) :
    slot.numRx < slot.numTx ∧ hdr.pktNum = slot.numRx ∧ hdr.reqNum = slot.curReqNum := by
  simp only [inOrderClient, Bool.and_eq_true, beq_iff_eq, decide_eq_true_eq] at inOrder
  obtain ⟨⟨⟨number, pktNum⟩, sent⟩, -⟩ := inOrder
  rw [pktNum] at sent
  exact ⟨sent, pktNum, number⟩

/-- The wheel after a packet is counted. -/
theorem ClientSlot.Wheeled.counted (wheeled : slot.Wheeled build)
    (inOrder : Session.inOrderClient build slot hdr = true) (tsc : Nat) :
    (slot.counted tsc).Wheeled build := by
  refine { wheeled with outstanding := fun pktNum member => ?_ }
  have bounds := wheeled.outstanding pktNum member
  have different : pktNum ≠ slot.numRx := by
    rintro rfl
    have mark := wheeled.marked _ member
    have pktNum := (Session.inOrder_outstanding inOrder).2.1
    simp only [Session.inOrderClient, pktNum, mark, Bool.and_true, Bool.and_eq_true,
      Bool.not_eq_true'] at inOrder
    have empty := wheeled.unpaced inOrder.2
    simp [ClientSlot.counted, empty] at member
  simp only [ClientSlot.counted]
  omega

/-- The session after a packet in order has been counted. -/
def Session.counted (session : Session) (index : SlotIndex) (tsc : Nat) (uncongested : Bool) :
    Session :=
  { session.setSlot index ((session.slots index).counted tsc) with
    credits := session.credits + 1, uncongested := uncongested }

/-- The slot counted. -/
@[simp] theorem Session.counted_self (tsc : Nat) (uncongested : Bool) :
    (session.counted index tsc uncongested).slots index = (session.slots index).counted tsc := by
  simp [Session.counted]

/-- The other slots stay. -/
theorem Session.counted_other (tsc : Nat) (uncongested : Bool) (different : other ≠ index) :
    (session.counted index tsc uncongested).slots other = session.slots other :=
  setSlot_other different

/-- The credit that comes back is within the window. -/
theorem Session.Sound.creditReturned (sound : session.Sound build)
    (outstanding : (session.slots index).numRx < (session.slots index).numTx) (tsc : Nat)
    (uncongested : Bool) :
    session.creditReturned index tsc uncongested =
      some (session.counted index tsc uncongested) := by
  have budget := sound.budget index
  have room : session.credits < sessionCredits := by
    omega
  simp [Session.creditReturned, bumpCredits, guard, room, setSlot, Session.counted,
    ClientSlot.counted]

variable {middle : Session}

/-- A packet is received and the slot goes on sending. -/
theorem Session.Receives.kicked {count : Nat} (sound : middle.Sound build)
    (others : ∀ other ≠ index, middle.slots other = session.slots other)
    (was : (session.slots index).numTx ≠ (session.slots index).numRx)
    (sameFree : middle.sslotFreeVec = session.sslotFreeVec)
    (sameBacklog : middle.enqReqBacklog = session.enqReqBacklog) (positive : 0 < count)
    (sent : Kicked build index count middle after) : session.Receives build index after false := by
  obtain ⟨-, numRx, -, free, backlog, -⟩ := sent.sends.same
  have numTx := sent.numTx
  have ordered := (sound.slots index).ordered
  apply Receives.answered after sent.sound
  · intro other different
    exact (sent.sends.others other different).trans (others other different)
  · exact was
  · omega
  · exact free.trans sameFree
  · exact backlog.trans sameBacklog

/-- A packet in order is counted, the response may be sized, and something is still to be
answered. -/
theorem Session.Sound.answer (sound : session.Sound build)
    (inOrder : inOrderClient build (session.slots index) hdr = true) (resp : MsgBuffer)
    (found : (session.slots index).txMsgbuf = some req)
    (wire : (session.slots index).numTx ≤ req.numPkts ∨
      (req.numPkts ≤ (session.slots index).numRx + 1 ∧ (session.slots index).numTx ≤
        wirePkts req resp))
    (unfinished : (session.slots index).numRx + 1 < req.numPkts ∨ ((session.slots index).numRx + 1 <
      wirePkts req resp ∧ resp.numPkts ≤ 0x1000001)) (tsc : Nat) (uncongested : Bool) :
    Session.Sound build
      { session.setSlot index { (session.slots index).counted tsc with respMsgbuf := resp } with
        credits := session.credits + 1, uncongested := uncongested } := by
  have slotSound := sound.slots index
  have outstanding := (inOrder_outstanding inOrder).1
  have wheeled := slotSound.wheeled.counted inOrder tsc
  apply sound.change index
  · intro other different
    exact setSlot_other different
  · simp only [setSlot_self]
    refine ⟨outstanding, ?_, slotSound.request, ?_, ?_, { wheeled with }⟩
    · intro idle
      cases found.symm.trans idle
    · intro other same
      cases found.symm.trans same
      exact wire
    · intro other same
      cases found.symm.trans same
      exact unfinished
  · simp only [setSlot_self, ClientSlot.outstanding, ClientSlot.counted]
    omega
  · simp [ClientSlot.counted]
  · rfl

/-- A credit return is processed. -/
theorem Session.Sound.processExplCr (sound : session.Sound build)
    (issued : packet.hdr.reqNum ≤ (session.slots index).curReqNum)
    (early : packet.hdr.reqNum = (session.slots index).curReqNum → ∀ req, (session.slots
      index).txMsgbuf = some req → packet.hdr.pktNum + 1 < req.numPkts) (tsc : Nat)
        (uncongested : Bool) :
    ∃ after, session.processExplCr build index packet tsc uncongested = some after ∧
      session.Receives build index after false := by
  by_cases inOrder : inOrderClient build (session.slots index) packet.hdr = true
  · obtain ⟨outstanding, pktNum, reqNum⟩ := inOrder_outstanding inOrder
    have slotSound := sound.slots index
    have returned := sound.creditReturned outstanding tsc uncongested
    obtain ⟨req, found⟩ := Option.ne_none_iff_exists'.mp (sound.busy outstanding.ne')
    have notLast := early reqNum req found
    have answered : (session.counted index tsc uncongested).Sound build :=
      sound.answer inOrder (session.slots index).respMsgbuf found
        ((slotSound.wire req found).imp_right fun late => ⟨by omega, late.2⟩) (.inl (by omega))
        tsc uncongested
    have foundNow : ((session.counted index tsc uncongested).slots index).txMsgbuf = some req := by
      simpa [ClientSlot.counted] using found
    by_cases pending : (session.slots index).numTx < req.numPkts
    · have pendingNow : ((session.counted index tsc uncongested).slots index).numTx <
        req.numPkts := by
        simpa [ClientSlot.counted] using pending
      obtain ⟨count, after, kicked, positive, sent⟩ := answered.kickReq foundNow
        (Nat.succ_pos session.credits) pendingNow
      refine ⟨after, ?_,
        .kicked answered (fun _ => counted_other tsc uncongested) (by omega) rfl rfl
        positive sent⟩
      simp [Session.processExplCr, guard, issued, inOrder, returned, ClientSlot.counted, found,
        pending, kicked]
    · refine ⟨session.counted index tsc uncongested, ?_, .answered _ answered
        (fun _ => counted_other tsc uncongested) (by omega) ?_ rfl rfl⟩
      · simp [Session.processExplCr, guard, issued, inOrder, returned, ClientSlot.counted, found,
          pending]
      · simp only [counted_self, ClientSlot.counted]
        omega
  · refine ⟨session, ?_, .dropped⟩
    simp [Session.processExplCr, guard, issued, inOrder]

/-- The last packet ends the request. -/
theorem Session.Sound.finish (sound : session.Sound build)
    (inOrder : inOrderClient build (session.slots index) hdr = true)
    (last : (session.slots index).numTx = (session.slots index).numRx + 1)
    (others : ∀ other ≠ index, after.slots other = session.slots other) (tsc : Nat)
    (resp : MsgBuffer) (here : after.slots index =
      { (session.slots index).counted tsc with respMsgbuf := resp, txMsgbuf := none })
    (credits : after.credits = session.credits + 1)
    (free : after.sslotFreeVec = index :: session.sslotFreeVec) : after.Sound build where
  slots other := by
    by_cases same : other = index
    · have wheeled := (sound.slots index).wheeled.counted inOrder tsc
      rw [same, here]
      exact ⟨last.ge, fun _ => last, by simp, by simp, by simp,
        { wheeled with requests := by simp }⟩
    · rw [others other same]
      exact sound.slots other
  conserved := by
    have total := Session.outstanding_change others
    have before := sound.conserved
    simp only [here, ClientSlot.outstanding, ClientSlot.counted] at total
    omega
  free other := by
    rw [free, mem_cons, sound.free other]
    by_cases same : other = index
    · simp [same, here]
    · simp [same, others other same]
  freeNodup := by
    rw [free, nodup_cons]
    refine ⟨?_, sound.freeNodup⟩
    intro member
    have idle := (sound.slots index).idle ((sound.free index).mp member)
    omega

/-- With the last packet the wheel is empty. -/
theorem ClientSlot.Wheeled.drained (wheeled : slot.Wheeled build)
    (inOrder : Session.inOrderClient build slot hdr = true) (last : slot.numTx = slot.numRx + 1) :
    slot.wheelCount = 0 := by
  have later := (wheeled.counted inOrder 0).outstanding
  rw [wheeled.count, length_eq_zero_iff, eq_nil_iff_forall_not_mem]
  intro pktNum member
  have bounds := later pktNum member
  simp only [ClientSlot.counted] at bounds
  omega

/-- What a response packet of the current request has to fit. -/
def Session.RespFits (build : Build) (session : Session) (index : SlotIndex) (packet : Packet) :
    Prop :=
  packet.hdr.reqNum = (session.slots index).curReqNum →
    ∀ req, (session.slots index).txMsgbuf = some req →
      req.numPkts ≤ packet.hdr.pktNum + 1 ∧
        (req.numPkts ≤ (session.slots index).numRx → req.numPkts ≤ packet.hdr.pktNum →
          build.dataSizeToNumPkts packet.hdr.msgSize = (session.slots index).respMsgbuf.numPkts)

/-- A response of one packet is the last. -/
theorem Session.Sound.single_last (sound : session.Sound build)
    (inOrder : inOrderClient build (session.slots index) packet.hdr = true)
    (fits : session.RespFits build index packet) (found : (session.slots index).txMsgbuf = some req)
    (single : build.dataSizeToNumPkts packet.hdr.msgSize = 1) :
    (session.slots index).numTx = (session.slots index).numRx + 1 := by
  obtain ⟨outstanding, pktNum, reqNum⟩ := inOrder_outstanding inOrder
  obtain ⟨late, sized⟩ := fits reqNum req found
  have wire := (sound.slots index).wire req found
  by_cases first : req.numPkts ≤ (session.slots index).numRx
  · have size := sized first (by omega)
    simp only [wirePkts] at wire
    omega
  · omega

/-- The slot that gets it. -/
@[simp] theorem Session.setResp_self :
    (session.setResp index resp).slots index = { session.slots index with respMsgbuf := resp } := by
  simp [setResp]

/-- The other slots stay. -/
theorem Session.setResp_other (different : other ≠ index) :
    (session.setResp index resp).slots other = session.slots other :=
  setSlot_other different

/-- The last one stays. -/
@[simp] theorem Session.setResp_setResp {first second : MsgBuffer} :
    (session.setResp index first).setResp index second = session.setResp index second := by
  simp [setResp, setSlot]

/-- The session after a response packet has been counted and its buffer set. -/
theorem Session.counted_setResp {tsc : Nat} {uncongested : Bool}
    (counted : (session.counted index tsc uncongested).setResp index resp = middle) :
    middle.slots index = { (session.slots index).counted tsc with respMsgbuf := resp } ∧
      (∀ other ≠ index, middle.slots other = session.slots other) ∧
      middle.credits = session.credits + 1 ∧ middle.sslotFreeVec = session.sslotFreeVec ∧
      middle.enqReqBacklog = session.enqReqBacklog := by
  subst counted
  refine ⟨by rw [setResp_self, counted_self], fun other different => ?_, rfl, rfl, rfl⟩
  rw [setResp_other different, counted_other tsc uncongested different]

/-- A complete response frees the slot. -/
theorem Session.Sound.complete (sound : session.Sound build)
    (inOrder : inOrderClient build (session.slots index) hdr = true)
    (last : (session.slots index).numTx = (session.slots index).numRx + 1) (resp : MsgBuffer)
    (tsc : Nat) (uncongested : Bool) :
    ∃ after, ((session.counted index tsc uncongested).setResp index resp).complete index =
      some after ∧ session.Receives build index after true := by
  have drained := (sound.slots index).wheeled.drained inOrder last
  generalize middle_eq : (session.counted index tsc uncongested).setResp index resp = middle
  obtain ⟨here, others, -⟩ := counted_setResp middle_eq
  have completed : middle.complete index = some
      { middle.setSlot index { middle.slots index with txMsgbuf := none } with
        sslotFreeVec := index :: middle.sslotFreeVec
        continued := middle.continued ++
          [⟨(middle.slots index).curReqNum, (middle.slots index).tag,
            (middle.slots index).respMsgbuf.data⟩] } := by
    have empty : (middle.slots index).wheelCount = 0 := by
      rw [here]
      exact drained
    simp [Session.complete, guard, empty]
  have othersDone : ∀ other ≠ index,
      (middle.setSlot index { middle.slots index with txMsgbuf := none }).slots other =
        session.slots other :=
    fun other different => (setSlot_other different).trans (others other different)
  refine ⟨_, completed, .freed _ ?_ othersDone ?_ ?_ ?_ ?_ ?_⟩
  · refine sound.finish inOrder last ?_ tsc resp ?_ ?_ ?_
    · exact othersDone
    · simp [here]
    · simp [← middle_eq, setResp, setSlot, Session.counted]
    · simp [← middle_eq, setResp, setSlot, Session.counted]
  · omega
  · simp
  all_goals simp [← middle_eq, setResp, setSlot, Session.counted]

/-- A response buffer of the same size. -/
theorem Session.Sound.setResp (sound : session.Sound build) (resp : MsgBuffer)
    (sized : resp.numPkts = (session.slots index).respMsgbuf.numPkts) :
    (session.setResp index resp).Sound build := by
  have slotSound := sound.slots index
  have same : ∀ req, wirePkts req resp = wirePkts req (session.slots index).respMsgbuf := by
    intro req
    simp only [wirePkts, sized]
  apply sound.change index
  · exact fun other different => setResp_other different
  · rw [setResp_self]
    refine ⟨slotSound.ordered, slotSound.idle, slotSound.request, ?_, ?_,
      { slotSound.wheeled with }⟩
    · simp only [same]
      exact slotSound.wire
    · simp only [same, sized]
      exact slotSound.unfinished
  · simp [ClientSlot.outstanding, Session.setResp, setSlot]
  · simp
  · rfl

/-- A copy keeps the packet count. -/
@[simp] theorem MsgBuffer.copyData_numPkts {buffer : MsgBuffer} {place : Nat} :
    (buffer.copyData build place packet).numPkts = buffer.numPkts := by
  simp only [MsgBuffer.copyData, MsgBuffer.writeAt]
  split <;> rfl

/-- The size of the response buffer once it is known. -/
theorem Session.sizedResp_numPkts (some : 0 < req.numPkts) (few : req.numPkts ≤ 0x1000001)
    (later : packet.hdr.pktNum + 1 ≠ req.numPkts → build.dataSizeToNumPkts packet.hdr.msgSize =
      resp.numPkts) :
    (sizedResp build req resp packet).numPkts = build.dataSizeToNumPkts packet.hdr.msgSize := by
  have before : Size.sub req.numPkts 1 = req.numPkts - 1 :=
    Size.sub_of_le some (lt_of_le_of_lt few (by decide))
  simp only [sizedResp, before]
  split
  · rfl
  · exact (later (by omega)).symm

/-- What is left of `process_resp_one_st` for a longer response once the response is sized. -/
theorem Session.largeResp_eq (resp : MsgBuffer) (found : (session.slots index).txMsgbuf = some req)
    (sized : session.setResp index (sizedResp build req (session.slots index).respMsgbuf packet) =
      middle) (respNow : (middle.slots index).respMsgbuf = resp) :
    session.largeResp build index packet =
      (if (middle.slots index).numTx ≠ wirePkts req resp then middle.kickRfr index
        else some middle).bind fun last =>
          let last := last.setResp index ((last.slots index).respMsgbuf.copyData build
            (respNtoi packet.hdr.pktNum req.numPkts) packet)
          some (last, (last.slots index).numRx == wirePkts req (last.slots index).respMsgbuf) := by
  simp only [largeResp, found, Option.bind_eq_bind, Option.bind_some, sized, respNow]
  split
  · rfl
  · simp [respNow]

/-- A packet within a large response. -/
theorem Session.Sound.largeResp_more (sound : session.Sound build)
    (inOrder : inOrderClient build (session.slots index) packet.hdr = true)
    (found : (session.slots index).txMsgbuf = some req) (tsc : Nat) (uncongested : Bool)
    (sized : sizedResp build req (session.slots index).respMsgbuf packet = resp)
    (late : req.numPkts ≤ (session.slots index).numRx + 1)
    (wire : (session.slots index).numTx ≤ wirePkts req resp)
    (more : (session.slots index).numRx + 1 < wirePkts req resp) (few : resp.numPkts ≤ 0x1000001) :
    ∃ after, (session.counted index tsc uncongested).largeResp build index packet =
      some (after, false) ∧ session.Receives build index after false := by
  have outstanding := (inOrder_outstanding inOrder).1
  generalize middle_eq : (session.counted index tsc uncongested).setResp index resp = middle
  have answered : middle.Sound build := by
    have after := sound.answer inOrder resp found (.inr ⟨late, wire⟩)
      (.inr ⟨more, few⟩) tsc uncongested
    simpa [← middle_eq, Session.counted, Session.setResp, setSlot] using after
  obtain ⟨here, others, credits, sameFree, sameBacklog⟩ := counted_setResp middle_eq
  have respNow : (middle.slots index).respMsgbuf = resp := by
    rw [here]
  have sizedNow : (session.counted index tsc uncongested).setResp index (sizedResp build req
      ((session.counted index tsc uncongested).slots index).respMsgbuf packet) = middle := by
    rw [counted_self, ← middle_eq]
    exact congrArg _ sized
  rw [largeResp_eq resp (by simpa [ClientSlot.counted] using found) sizedNow respNow]
  have foundNow : (middle.slots index).txMsgbuf = some req := by
    rw [here]
    exact found
  have numTx : (middle.slots index).numTx = (session.slots index).numTx := by
    rw [here]
    rfl
  have numRx : (middle.slots index).numRx = (session.slots index).numRx + 1 := by
    rw [here]
    rfl
  -- Either all packets have been asked for, or more are asked for now.
  have asked : ∃ last count, (if (middle.slots index).numTx ≠ wirePkts req resp then
      middle.kickRfr index else some middle) = some last ∧ Kicked build index count middle last ∧
      (middle.slots index).numRx < (middle.slots index).numTx + count := by
    by_cases full : (middle.slots index).numTx = wirePkts req resp
    · exact ⟨middle, 0, by simp [full], ⟨answered, .refl middle, rfl, rfl⟩, by omega⟩
    · obtain ⟨count, last, kicked, positive, sent⟩ :=
        answered.kickRfr foundNow (by omega) (by omega) (by rw [respNow]; omega)
      exact ⟨last, count, by simp [full, kicked], sent, by omega⟩
  obtain ⟨last, count, taken, sent, ahead⟩ := asked
  obtain ⟨-, lastRx, lastResp, lastFree, lastBacklog, -⟩ := sent.sends.same
  have lastTx := sent.numTx
  have incomplete : ((last.slots index).numRx ==
      wirePkts req ((last.slots index).respMsgbuf.copyData build
        (respNtoi packet.hdr.pktNum req.numPkts) packet)) = false := by
    simp only [wirePkts, MsgBuffer.copyData_numPkts, lastResp, respNow, beq_eq_false_iff_ne]
    simp only [wirePkts] at more
    omega
  refine ⟨last.setResp index ((last.slots index).respMsgbuf.copyData build
    (respNtoi packet.hdr.pktNum req.numPkts) packet), ?_, ?_⟩
  · rw [taken]
    simp [incomplete]
  · apply Receives.answered
    · exact sent.sound.setResp _ MsgBuffer.copyData_numPkts
    · intro other different
      rw [setResp_other different, sent.sends.others other different, others other different]
    · omega
    · rw [setResp_self]
      simp only
      omega
    · exact lastFree.trans sameFree
    · exact lastBacklog.trans sameBacklog

/-- The last packet of a large response. -/
theorem Session.largeResp_last
    (sized : sizedResp build req (session.slots index).respMsgbuf packet = resp)
    (found : (session.slots index).txMsgbuf = some req) (tsc : Nat) (uncongested : Bool)
    (full : (session.slots index).numTx = wirePkts req resp)
    (last : (session.slots index).numRx + 1 = wirePkts req resp) :
    (session.counted index tsc uncongested).largeResp build index packet = some
      ((session.counted index tsc uncongested).setResp index
        (resp.copyData build (respNtoi packet.hdr.pktNum req.numPkts) packet), true) := by
  have foundCounted : ((session.counted index tsc uncongested).slots index).txMsgbuf =
    some req := by
    simpa [ClientSlot.counted] using found
  have sizedCounted :
    sizedResp build req ((session.counted index tsc uncongested).slots index).respMsgbuf
      packet = resp := by
    rw [counted_self]
    exact sized
  have same : wirePkts req (resp.copyData build (respNtoi packet.hdr.pktNum req.numPkts) packet) =
      wirePkts req resp := by
    simp only [wirePkts, MsgBuffer.copyData_numPkts]
  rw [largeResp_eq resp foundCounted rfl (by rw [setResp_self]; exact sizedCounted), sizedCounted]
  simp [ClientSlot.counted, full, last, same]

/-- A response packet is processed. -/
theorem Session.Sound.processResp (sound : session.Sound build)
    (issued : packet.hdr.reqNum ≤ (session.slots index).curReqNum)
    (small : packet.hdr.msgSize ≤ build.maxMsgSize) (fits : session.RespFits build index packet)
    (tsc : Nat) (uncongested : Bool) :
    ∃ after freed, session.processResp build index packet tsc uncongested = some (after, freed) ∧
      session.Receives build index after freed := by
  by_cases inOrder : inOrderClient build (session.slots index) packet.hdr = true
  · obtain ⟨outstanding, pktNum, reqNum⟩ := inOrder_outstanding inOrder
    have slotSound := sound.slots index
    have returned := sound.creditReturned outstanding tsc uncongested
    obtain ⟨req, found⟩ := Option.ne_none_iff_exists'.mp (sound.busy outstanding.ne')
    by_cases single : build.sharedMemory = true ∨ packet.hdr.msgSize ≤ build.maxDataPerPkt
    · have onePkt := Build.dataSizeToNumPkts_single single
      have last := sound.single_last inOrder fits found onePkt
      obtain ⟨after, completed, received⟩ := sound.complete inOrder last
        { ((session.slots index).respMsgbuf.resize build packet.hdr.msgSize).writeAt 0
            packet.hdr.msgSize packet.payload with pkthdr0 := packet.hdr } tsc uncongested
      refine ⟨after, true, ?_, received⟩
      simp [Session.processResp, guard, issued, inOrder, returned, single, Session.singleResp,
        ClientSlot.counted, completed]
    · obtain ⟨late, sizedLater⟩ := fits reqNum req found
      have request := slotSound.request req found
      have numPkts : (sizedResp build req (session.slots index).respMsgbuf packet).numPkts =
          build.dataSizeToNumPkts packet.hdr.msgSize := by
        apply sizedResp_numPkts request.1 request.2
        intro later
        exact sizedLater (by omega) (by omega)
      have few := build.dataSizeToNumPkts_le packet.hdr.msgSize
      have short := build.maxMsgSize_fits
      have large := Build.dataSizeToNumPkts_large single
      have wire : (session.slots index).numTx ≤
          wirePkts req (sizedResp build req (session.slots index).respMsgbuf packet) := by
        have before := slotSound.wire req found
        simp only [wirePkts, numPkts] at *
        by_cases first : req.numPkts ≤ (session.slots index).numRx
        · have size := sizedLater first (by omega)
          omega
        · omega
      by_cases more : (session.slots index).numRx + 1 <
          wirePkts req (sizedResp build req (session.slots index).respMsgbuf packet)
      · obtain ⟨after, taken, received⟩ := sound.largeResp_more inOrder found tsc uncongested rfl
          (by omega) wire more (by omega)
        refine ⟨after, false, ?_, received⟩
        simp [Session.processResp, guard, issued, inOrder, returned, single, taken]
      · have sized : sizedResp build req (session.slots index).respMsgbuf packet = _ := rfl
        have taken := largeResp_last sized found tsc uncongested (by omega) (by omega)
        obtain ⟨after, completed, received⟩ := sound.complete inOrder (by omega)
          ((sizedResp build req (session.slots index).respMsgbuf packet).copyData build
            (respNtoi packet.hdr.pktNum req.numPkts) packet) tsc uncongested
        refine ⟨after, true, ?_, received⟩
        simp [Session.processResp, guard, issued, inOrder, returned, single, taken, completed]
  · refine ⟨session, false, ?_, .dropped⟩
    simp [Session.processResp, guard, issued, inOrder]

end Receiving

/-! ## New requests, losses and the wheel -/

section Others

variable {build : Build} {session : Session} {index : SlotIndex} {slot : ClientSlot}

/-- With nothing outstanding the wheel is empty. -/
theorem ClientSlot.Wheeled.empty (wheeled : slot.Wheeled build)
    (still : slot.numTx = slot.numRx) : slot.wheel = [] := by
  rw [eq_nil_iff_forall_not_mem]
  intro pktNum member
  have bounds := wheeled.outstanding pktNum member
  omega

/-- A new request fills a free slot. -/
theorem Session.Sound.fillSlot {free : List SlotIndex} {args : EnqReqArgs}
    (sound : session.Sound build) (popped : session.sslotFreeVec = index :: free)
    (small : args.reqData.length ≤ build.maxMsgSize) (tsc : Nat) :
    ({ session with sslotFreeVec := free }.fillSlot build index args tsc).Sound build := by
  have idle : (session.slots index).txMsgbuf = none := by
    rw [← sound.free index, popped]
    exact mem_cons_self
  have still := (sound.slots index).idle idle
  have wheeled := (sound.slots index).wheeled
  have empty := wheeled.empty still
  have some := build.dataSizeToNumPkts_pos args.reqData.length
  have few := build.dataSizeToNumPkts_le args.reqData.length
  have short := build.maxMsgSize_fits
  have others : ∀ other ≠ index,
      ({ session with sslotFreeVec := free }.fillSlot build index args tsc).slots other =
        session.slots other :=
    fun _ different => setSlot_other different
  have nodup := sound.freeNodup
  rw [popped, nodup_cons] at nodup
  constructor
  · intro other
    by_cases same : other = index
    · subst same
      simp only [Session.fillSlot, setSlot_self]
      refine ⟨le_rfl, by simp, ?_, ?_, ?_, ?_⟩
      · intro req found
        cases found
        exact ⟨some, by simp only; omega⟩
      · intro req found
        exact .inl (Nat.zero_le _)
      · intro req found
        cases found
        exact .inl some
      · constructor
        case count => simpa [empty] using wheeled.count
        all_goals simp [empty]
    · rw [others other same]
      exact sound.slots other
  · have total := outstanding_change others
    have before := sound.conserved
    simp only [Session.fillSlot, setSlot_self, ClientSlot.outstanding, still, Nat.sub_self,
      Nat.add_zero] at total
    rw [← before, ← total]
    rfl
  · intro other
    by_cases same : other = index
    · subst same
      simp [Session.fillSlot, setSlot, nodup.1]
    · rw [others other same, ← sound.free other, popped, mem_cons]
      simp [Session.fillSlot, setSlot, same]
  · exact nodup.2

/-- The counters do not wrap. -/
theorem ClientSlot.Sound.numTx_lt (sound : slot.Sound build) {req : MsgBuffer}
    (found : slot.txMsgbuf = some req) : slot.numTx < Size.modulus := by
  have request := sound.request req found
  have wire := sound.wire req found
  have unfinished := sound.unfinished req found
  simp only [wirePkts] at wire unfinished
  simp only [Size.modulus]
  omega

/-- A rollback takes the credits back. -/
theorem Session.Sound.rollback (sound : session.Sound build)
    (drained : (session.slots index).wheelCount = 0) (tsc : Nat) :
    (session.rollback index ((session.slots index).numTx - (session.slots index).numRx) tsc).Sound
      build := by
  have slotSound := sound.slots index
  have wheeled := slotSound.wheeled
  have empty : (session.slots index).wheel = [] := by
    rw [← length_eq_zero_iff, ← wheeled.count]
    exact drained
  apply sound.change index
  · exact fun other different => setSlot_other different
  · simp only [Session.rollback, setSlot_self]
    refine ⟨le_rfl, fun _ => rfl, slotSound.request, ?_, slotSound.unfinished, ?_⟩
    · intro other same
      have unfinished := slotSound.unfinished other same
      simp only
      omega
    · exact { wheeled with outstanding := by simp [empty] }
  · simp [Session.rollback, ClientSlot.outstanding]
  · simp [Session.rollback]
  · rfl

/-- `pkt_loss_retransmit_st` on a slot with packets outstanding. -/
theorem Session.Sound.pktLossRetransmit (sound : session.Sound build)
    (outstanding : (session.slots index).numTx ≠ (session.slots index).numRx) (tsc : Nat) :
    ∃ after, session.pktLossRetransmit build index false tsc = some after ∧
      session.Receives build index after false := by
  have slotSound := sound.slots index
  have ordered := slotSound.ordered
  have budget := sound.budget index
  obtain ⟨req, found⟩ := Option.ne_none_iff_exists'.mp (sound.busy outstanding)
  have delta : Size.sub (session.slots index).numTx (session.slots index).numRx =
      (session.slots index).numTx - (session.slots index).numRx :=
    Size.sub_of_le ordered (slotSound.numTx_lt found)
  have lost : ¬(session.slots index).numTx - (session.slots index).numRx = 0 := by
    omega
  by_cases drained : (session.slots index).wheelCount = 0
  · have rolledBack := sound.rollback drained tsc
    have foundNow : ((session.rollback index ((session.slots index).numTx -
        (session.slots index).numRx) tsc).slots index).txMsgbuf = some req := by
      simpa [Session.rollback] using found
    obtain ⟨count, after, kicked, positive, sent⟩ := rolledBack.kick foundNow
      (by simp only [Session.rollback]; omega) (by simp [Session.rollback])
    refine ⟨after, ?_, .kicked rolledBack (fun other different => setSlot_other different)
      outstanding rfl rfl positive sent⟩
    simp [Session.pktLossRetransmit, guard, found, delta, budget, lost, drained, kicked]
  · refine ⟨session, ?_, .dropped⟩
    simp [Session.pktLossRetransmit, guard, found, delta, budget, lost, Nat.pos_of_ne_zero drained]

/-- A packet leaves the wheel. -/
theorem ClientSlot.Wheeled.reap (wheeled : slot.Wheeled build) {pktNum : Nat}
    (held : pktNum ∈ slot.wheel) (window : slot.numTx ≤ slot.numRx + sessionCredits) :
    { slot with
      wheel := slot.wheel.erase pktNum
      wheelCount := Size.sub slot.wheelCount 1
      inWheel := Function.update slot.inWheel (creditIndex pktNum) false }.Wheeled build where
  nodup := wheeled.nodup.erase _
  outstanding other member := wheeled.outstanding other (mem_of_mem_erase member)
  requests req found other member := wheeled.requests req found other (mem_of_mem_erase member)
  count := by
    have positive : 0 < slot.wheel.length := length_pos_of_mem held
    have short : slot.wheel.length ≤ sessionCredits := by
      have inside : slot.wheel ⊆ List.range' slot.numRx sessionCredits := by
        intro other member
        have bounds := wheeled.outstanding other member
        rw [mem_range'_1]
        omega
      have fits := (subperm_of_subset wheeled.nodup inside).length_le
      rwa [length_range'] at fits
    rw [length_erase_of_mem held]
    simp only [wheeled.count]
    exact Size.sub_of_le positive (lt_of_le_of_lt short (by decide))
  marked other member := by
    have bounds := wheeled.outstanding pktNum held
    have otherBounds := wheeled.outstanding other (mem_of_mem_erase member)
    have different : creditIndex other ≠ creditIndex pktNum := by
      intro same
      have places : other % sessionCredits = pktNum % sessionCredits := Fin.mk.inj same
      have equal : other = pktNum := by
        simp only [sessionCredits] at window places
        omega
      rw [equal] at member
      exact wheeled.nodup.not_mem_erase member
    simpa [different] using wheeled.marked other (mem_of_mem_erase member)
  unpaced off := by
    simp [wheeled.unpaced off]

/-- A packet of the wheel is sent. -/
theorem Session.Sound.processWheel (sound : session.Sound build) {pktNum : Nat}
    (held : pktNum ∈ (session.slots index).wheel) :
    ∃ after, session.processWheel build index pktNum = some after ∧ after.Sound build ∧
      (∀ other ≠ index, after.slots other = session.slots other) ∧
      (after.slots index).txMsgbuf = (session.slots index).txMsgbuf ∧
      (after.slots index).numTx = (session.slots index).numTx ∧
      (after.slots index).numRx = (session.slots index).numRx ∧
      after.sslotFreeVec = session.sslotFreeVec ∧ after.enqReqBacklog = session.enqReqBacklog := by
  have slotSound := sound.slots index
  have here := slotSound.wheeled.outstanding pktNum held
  have budget := sound.budget index
  obtain ⟨req, found⟩ :=
    Option.ne_none_iff_exists'.mp (sound.busy (lt_of_le_of_lt here.1 here.2).ne')
  have within := slotSound.wheeled.requests req found pktNum held
  have taken : session.processWheel build index pktNum = some
      ((session.enqueueTxBurst (req.packet build pktNum)).reap index pktNum) := by
    simp [Session.processWheel, guard, held, found, within]
  have others : ∀ other ≠ index,
      ((session.enqueueTxBurst (req.packet build pktNum)).reap index pktNum).slots other =
        session.slots other :=
    fun _ different => setSlot_other different
  refine ⟨_, taken, ?_, others, ?_⟩
  · apply sound.change index others
    · simp only [reap, enqueueTxBurst, setSlot_self]
      exact { slotSound with wheeled := slotSound.wheeled.reap held (by omega) }
    · simp [reap, enqueueTxBurst, ClientSlot.outstanding, setSlot]
    · simp [reap, enqueueTxBurst]
    · rfl
  · simp [reap, enqueueTxBurst, setSlot, found]

end Others

end UbApplication.Erpc
