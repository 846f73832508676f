import UbApplication.Erpc.SessionSteps
import UbApplication.Lib.Machine

/-!
# Credit conservation

Along every run of a client the credits of a session and the packets it has outstanding add up
to its budget. A slot whose request is incomplete has packets outstanding or waits in the stall
queue, so that either the loss scan or the stall queue will take it up.
-/

namespace UbApplication.Erpc

open List Rpc
open Function (update)

/-- What holds of a client between two events. -/
structure Rpc.Sound (build : Build) (rpc : Rpc) : Prop where
  sessions : ∀ number, (rpc.sessions number).Sound build
  backlogs : ∀ number, (rpc.sessions number).Queued build
  stallqNodup : rpc.stallq.Nodup
  stallq : ∀ id, id ∈ rpc.stallq ↔
    (rpc.slot id).txMsgbuf ≠ none ∧ (rpc.slot id).numTx = (rpc.slot id).numRx
  activeNodup : rpc.activeRpcs.Nodup
  active : ∀ id, id ∈ rpc.activeRpcs ↔ (rpc.slot id).txMsgbuf ≠ none

/-- A packet that the server of a session can send to it: a credit return answers a request
packet that is not the last, a response packet has at least the number of the last request
packet, and all response packets of a request announce the same number of packets. -/
structure Session.Fits (build : Build) (session : Session) (packet : Packet) : Prop where
  fromServer : packet.hdr.pktType = .resp ∨ packet.hdr.pktType = .explCR
  issued : packet.hdr.reqNum ≤ (session.slots (Rpc.slotOf packet.hdr)).curReqNum
  credit : packet.hdr.pktType = .explCR →
    packet.hdr.reqNum = (session.slots (Rpc.slotOf packet.hdr)).curReqNum →
    ∀ req, (session.slots (Rpc.slotOf packet.hdr)).txMsgbuf = some req →
      packet.hdr.pktNum + 1 < req.numPkts
  response : packet.hdr.pktType = .resp → session.RespFits build (Rpc.slotOf packet.hdr) packet

/-- Events at which no assertion about the caller or the peer fails: requests are made on connected
sessions and are not too long, packets that reach a connected session fit it, and the wheel gives up
what it holds. -/
def Rpc.Admissible (build : Build) (rpc : Rpc) : Rpc.Event → Prop
  | .stamp _ => True
  | .enqueueRequest number args =>
    (rpc.sessions number).connected = true ∧ args.reqData.length ≤ build.maxMsgSize
  | .receive packet _ => packet.hdr.magic = pktHdrMagic →
    packet.hdr.msgSize ≤ build.maxMsgSize ∧
      ((rpc.sessions packet.hdr.destSessionNum).connected = true →
        (rpc.sessions packet.hdr.destSessionNum).Fits build packet)
  | .creditStallQueue => True
  | .wheel id pktNum => pktNum ∈ (rpc.slot id).wheel
  | .pktLossScan => True

instance (build : Build) (session : Session) (index : SlotIndex) (packet : Packet) :
    Decidable (session.RespFits build index packet) :=
  inferInstanceAs (Decidable (_ → _))

instance (build : Build) (session : Session) (packet : Packet) :
    Decidable (session.Fits build packet) :=
  decidable_of_iff (_ ∧ _ ∧ _ ∧ _)
    ⟨fun ⟨type, issued, credit, response⟩ => ⟨type, issued, credit, response⟩,
      fun fits => ⟨fits.fromServer, fits.issued, fits.credit, fits.response⟩⟩

instance (build : Build) (rpc : Rpc) : ∀ event, Decidable (rpc.Admissible build event)
  | .stamp _ => .isTrue trivial
  | .enqueueRequest _ _ => inferInstanceAs (Decidable (_ ∧ _))
  | .receive _ _ => inferInstanceAs (Decidable (_ → _))
  | .creditStallQueue => .isTrue trivial
  | .wheel _ _ => inferInstanceAs (Decidable (_ ∈ _))
  | .pktLossScan => .isTrue trivial

section Steps

variable {build : Build} {rpc : Rpc} {number : Nat} {session : Session} {index : SlotIndex}

/-- Soundness after one slot and the queues change. -/
theorem Rpc.Sound.change (sound : rpc.Sound build) (index : SlotIndex)
    {stallq activeRpcs : List SlotId}
    {tsc : Nat} (others : ∀ other ≠ index, session.slots other = (rpc.sessions number).slots other)
    (sessionSound : session.Sound build) (queued : session.Queued build)
    (stallqNodup : stallq.Nodup)
    (activeNodup : activeRpcs.Nodup) (waiting : ∀ id, id ∈ stallq ↔ if id = (number, index) then
      (session.slots index).txMsgbuf ≠ none ∧
        (session.slots index).numTx = (session.slots index).numRx else id ∈ rpc.stallq)
    (scanned : ∀ id, id ∈ activeRpcs ↔ if id = (number, index) then
      (session.slots index).txMsgbuf ≠ none else id ∈ rpc.activeRpcs) :
    Rpc.Sound build
      ⟨update rpc.sessions number session, stallq, activeRpcs, tsc⟩ := by
  have sessionsNow : ∀ any, update rpc.sessions number session any =
      if any = number then session else rpc.sessions any := by
    intro any
    exact Function.update_apply rpc.sessions number session any
  have slotNow : ∀ id, slot ⟨update rpc.sessions number session, stallq, activeRpcs, tsc⟩ id =
      if id = (number, index) then session.slots index else rpc.slot id := by
    rintro ⟨any, place⟩
    simp only [slot, sessionsNow, Prod.mk.injEq]
    by_cases here : any = number
    · by_cases there : place = index
      · simp [here, there]
      · simp [here, there, others place there]
    · simp [here]
  constructor
  · intro any
    simp only [sessionsNow]
    split
    · exact sessionSound
    · exact sound.sessions any
  · intro any
    simp only [sessionsNow]
    split
    · exact queued
    · exact sound.backlogs any
  · exact stallqNodup
  · intro id
    rw [waiting id, slotNow id]
    split
    · rfl
    · exact sound.stallq id
  · exact activeNodup
  · intro id
    rw [scanned id, slotNow id]
    split
    · rfl
    · exact sound.active id

/-- Soundness when the queues need not change. -/
theorem Rpc.Sound.keep (sound : rpc.Sound build)
    (others : ∀ other ≠ index, session.slots other = (rpc.sessions number).slots other)
    (sessionSound : session.Sound build)
    (sameFree : session.sslotFreeVec = (rpc.sessions number).sslotFreeVec)
    (sameBacklog : session.enqReqBacklog = (rpc.sessions number).enqReqBacklog)
    (busy : (session.slots index).txMsgbuf = none ↔
      ((rpc.sessions number).slots index).txMsgbuf = none)
    (stalled : (session.slots index).numTx = (session.slots index).numRx ↔
      ((rpc.sessions number).slots index).numTx = ((rpc.sessions number).slots index).numRx) :
    (rpc.setSession number session).Sound build := by
  have queued := sound.backlogs number
  apply sound.change index others sessionSound
  · exact ⟨sameFree ▸ sameBacklog ▸ queued.waits, sameBacklog ▸ queued.fits⟩
  · exact sound.stallqNodup
  · exact sound.activeNodup
  · intro id
    split
    · rename_i here
      rw [here, sound.stallq (number, index), Ne, Ne, busy, stalled]
      rfl
    · rfl
  · intro id
    split
    · rename_i here
      rw [here, sound.active (number, index), Ne, Ne, busy]
      rfl
    · rfl

/-- A packet that completes no request keeps soundness. -/
theorem Rpc.Sound.received (sound : rpc.Sound build)
    (receives : (rpc.sessions number).Receives build index session false) :
    (rpc.setSession number session).Sound build := by
  cases receives with
  | dropped =>
    simpa [Rpc.setSession] using sound
  | answered session sessionSound others was now sameFree sameBacklog =>
    apply sound.keep others sessionSound sameFree sameBacklog
    · exact iff_of_false (sessionSound.busy now) ((sound.sessions number).busy was)
    · exact iff_of_false now was

/-- A request in a free slot keeps soundness. -/
theorem Rpc.Sound.enqueuePopped (sound : rpc.Sound build) {args : EnqReqArgs}
    {free : List SlotIndex} (connected : (rpc.sessions number).connected = true)
    (popped : (rpc.sessions number).sslotFreeVec = index :: free)
    (small : args.reqData.length ≤ build.maxMsgSize) (backlog : List EnqReqArgs)
    (waits : free ≠ [] → backlog = [])
    (fits : ∀ args ∈ backlog, args.reqData.length ≤ build.maxMsgSize) :
    ∃ after, (rpc.setSession number
        { rpc.sessions number with enqReqBacklog := backlog }).enqueueRequest build number args =
          some after ∧ after.Sound build := by
  have before := sound.sessions number
  have idle : ((rpc.sessions number).slots index).txMsgbuf = none := by
    rw [← before.free index, popped]
    exact mem_cons_self
  have notWaiting : (number, index) ∉ rpc.stallq := fun member =>
    ((sound.stallq _).mp member).1 idle
  have notScanned : (number, index) ∉ rpc.activeRpcs := fun member =>
    (sound.active _).mp member idle
  have activeNodup : (rpc.activeRpcs ++ [(number, index)]).Nodup := by
    rw [nodup_append_comm]
    exact nodup_cons.mpr ⟨notScanned, sound.activeNodup⟩
  have cleared : Session.Sound build { rpc.sessions number with enqReqBacklog := backlog } :=
    { before with }
  obtain ⟨filled, filled_eq⟩ : ∃ filled, filled = Session.fillSlot build
    { rpc.sessions number with enqReqBacklog := backlog, sslotFreeVec := free } index args
      rpc.evLoopTsc := ⟨_, rfl⟩
  have filledSound : filled.Sound build := by
    rw [filled_eq]
    exact cleared.fillSlot popped small rpc.evLoopTsc
  have others : ∀ other ≠ index, filled.slots other = (rpc.sessions number).slots other := by
    intro other different
    rw [filled_eq]
    exact Session.setSlot_other different
  obtain ⟨req, found, numTx, numRx⟩ : ∃ req, (filled.slots index).txMsgbuf = some req ∧
      (filled.slots index).numTx = 0 ∧ (filled.slots index).numRx = 0 := by
    simp [filled_eq, Session.fillSlot]
  have queued : filled.Queued build := by
    rw [filled_eq]
    exact ⟨waits, fits⟩
  have unfolded : (rpc.setSession number
      { rpc.sessions number with enqReqBacklog := backlog }).enqueueRequest build number args =
        if 0 < filled.credits then (filled.kickReq build index).bind fun session => some
          ⟨update rpc.sessions number session, rpc.stallq,
            rpc.activeRpcs ++ [(number, index)], rpc.evLoopTsc⟩
        else some
          ⟨update rpc.sessions number filled, rpc.stallq ++ [(number, index)],
            rpc.activeRpcs ++ [(number, index)], rpc.evLoopTsc⟩ := by
    simp [Rpc.enqueueRequest, Rpc.setSession, guard, connected, popped, idle, filled_eq]
  have scanned : ∀ id, id ∈ rpc.activeRpcs ++ [(number, index)] ↔
      if id = (number, index) then (filled.slots index).txMsgbuf ≠ none
      else id ∈ rpc.activeRpcs := by
    intro id
    by_cases here : id = (number, index)
    · simp [here, found]
    · simp [here]
  rw [unfolded]
  by_cases paid : 0 < filled.credits
  · obtain ⟨count, session, kicked, positive, sent⟩ := filledSound.kickReq found paid
      (by rw [numTx]; exact (filledSound.slots index).request req found |>.1)
    obtain ⟨sameReq, sameRx, -, sameFree, sameBacklog, -⟩ := sent.sends.same
    have sentTx := sent.numTx
    refine ⟨_, by rw [if_pos paid, kicked]; rfl, ?_⟩
    have queuedNow : session.Queued build :=
      ⟨sameFree ▸ sameBacklog ▸ queued.waits, sameBacklog ▸ queued.fits⟩
    have othersNow : ∀ other ≠ index, session.slots other = (rpc.sessions number).slots other :=
      fun other different => (sent.sends.others other different).trans (others other different)
    apply sound.change index othersNow sent.sound queuedNow sound.stallqNodup activeNodup
    · intro id
      by_cases here : id = (number, index)
      · simp only [here, if_true, notWaiting, false_iff]
        omega
      · simp [here]
    · intro id
      rw [sameReq]
      exact scanned id
  · refine ⟨_, by rw [if_neg paid], ?_⟩
    apply sound.change index others filledSound queued _ activeNodup _ scanned
    · rw [nodup_append_comm]
      exact nodup_cons.mpr ⟨notWaiting, sound.stallqNodup⟩
    · intro id
      by_cases here : id = (number, index)
      · simp [here, found, numTx, numRx]
      · simp [here]

/-- `enqueue_request` runs and keeps soundness. -/
theorem Rpc.Sound.enqueueRequest (sound : rpc.Sound build) {args : EnqReqArgs}
    (connected : (rpc.sessions number).connected = true)
    (small : args.reqData.length ≤ build.maxMsgSize) :
    ∃ after, rpc.enqueueRequest build number args = some after ∧ after.Sound build := by
  have queued := sound.backlogs number
  cases popped : (rpc.sessions number).sslotFreeVec with
  | nil =>
    have before := sound.sessions number
    refine ⟨rpc.setSession number { rpc.sessions number with
      enqReqBacklog := (rpc.sessions number).enqReqBacklog ++ [args] }, ?_, ?_⟩
    · simp [Rpc.enqueueRequest, guard, connected, popped]
    · have sessionSound : Session.Sound build { rpc.sessions number with
          enqReqBacklog := (rpc.sessions number).enqReqBacklog ++ [args] } :=
        { before with }
      have queuedNow : Session.Queued build { rpc.sessions number with
          enqReqBacklog := (rpc.sessions number).enqReqBacklog ++ [args] } := by
        refine ⟨fun some => absurd popped some, ?_⟩
        intro other member
        rcases mem_append.mp member with old | new
        · exact queued.fits other old
        · rw [mem_singleton.mp new]
          exact small
      refine sound.change ⟨0, by decide⟩ ?_ sessionSound queuedNow sound.stallqNodup
        sound.activeNodup ?_ ?_
      · intro other different
        rfl
      · intro id
        split
        · rename_i here
          rw [here]
          exact sound.stallq _
        · rfl
      · intro id
        split
        · rename_i here
          rw [here]
          exact sound.active _
        · rfl
  | cons index free =>
    have taken := sound.enqueuePopped connected popped small (rpc.sessions number).enqReqBacklog
      (fun _ => queued.waits (by simp [popped])) queued.fits
    simpa [Rpc.setSession] using taken

/-- The loop of `process_credit_stall_queue_st`, when some slots have been passed over. -/
theorem Rpc.Sound.kickStalled (waiting passed : List SlotId) {rpc : Rpc}
    (sound : Rpc.Sound build { rpc with stallq := passed ++ waiting }) :
    ∃ after, rpc.kickStalled build waiting = some after ∧
      Rpc.Sound build { after with stallq := passed ++ after.stallq } := by
  induction waiting generalizing passed rpc with
  | nil => exact ⟨_, rfl, sound⟩
  | cons id waiting ih =>
    obtain ⟨number, index⟩ := id
    by_cases paid : 0 < (rpc.sessions number).credits
    · have stalled : ((rpc.sessions number).slots index).txMsgbuf ≠ none ∧
          ((rpc.sessions number).slots index).numTx = ((rpc.sessions number).slots index).numRx :=
        (sound.stallq (number, index)).mp (by simp)
      obtain ⟨req, found⟩ := Option.ne_none_iff_exists'.mp stalled.1
      obtain ⟨count, session, kicked, positive, sent⟩ :=
        (sound.sessions number).kick found paid stalled.2
      obtain ⟨sameReq, sameRx, -, sameFree, sameBacklog, -⟩ := sent.sends.same
      have queued := sound.backlogs number
      have numTx : (session.slots index).numTx =
        ((rpc.sessions number).slots index).numTx + count :=
        sent.numTx
      have numRx : (session.slots index).numRx = ((rpc.sessions number).slots index).numRx := sameRx
      have nodup : (passed ++ (number, index) :: waiting).Nodup := sound.stallqNodup
      rw [nodup_middle, nodup_cons] at nodup
      have next :
          Rpc.Sound build { rpc.setSession number session with stallq := passed ++ waiting } := by
        apply sound.change index sent.sends.others sent.sound
        · exact ⟨sameFree ▸ sameBacklog ▸ queued.waits, sameBacklog ▸ queued.fits⟩
        · exact nodup.2
        · exact sound.activeNodup
        · intro other
          by_cases here : other = (number, index)
          · simp only [here, if_true, nodup.1, false_iff]
            omega
          · simp [here]
        · intro other
          by_cases here : other = (number, index)
          · simp only [here, if_true, sameReq]
            exact sound.active (number, index)
          · simp [here, Rpc.setSession]
      obtain ⟨after, taken, afterSound⟩ := ih passed next
      refine ⟨after, ?_, afterSound⟩
      simp [Rpc.kickStalled, paid, kicked, taken]
    · obtain ⟨rest, taken, restSound⟩ := ih (passed ++ [(number, index)]) (by simpa using sound)
      refine ⟨{ rest with stallq := (number, index) :: rest.stallq }, ?_, by simpa using restSound⟩
      simp [Rpc.kickStalled, paid, taken]

section

variable (sound : rpc.Sound build)
include sound

/-- A freed slot takes the next request of the backlog. -/
theorem Rpc.Sound.slotFreed {number : Nat} {index : SlotIndex}
    {session : Session} (connected : (rpc.sessions number).connected = true)
    (receives : (rpc.sessions number).Receives build index session true) :
    ∃ after, (rpc.setSession number session).slotFreed build (number, index) = some after ∧
      after.Sound build := by
  cases receives with
  | freed session sessionSound others was now nowFree sameBacklog sameConnected =>
    have queued := sound.backlogs number
    have notWaiting : (number, index) ∉ rpc.stallq :=
      fun member => was ((sound.stallq (number, index)).mp member).2
    -- The client with the slot free and an empty backlog.
    have freed : Rpc.Sound build ⟨update rpc.sessions number
        { session with enqReqBacklog := [] }, rpc.stallq, rpc.activeRpcs.erase (number, index),
          rpc.evLoopTsc⟩ := by
      refine sound.change index others
        { sessionSound with }
        ⟨fun _ => rfl, by simp⟩ sound.stallqNodup (sound.activeNodup.erase _) ?_ ?_
      · intro id
        by_cases here : id = (number, index)
        · simp [here, notWaiting, now]
        · simp [here]
      · intro id
        by_cases here : id = (number, index)
        · simp [here, now, sound.activeNodup.not_mem_erase]
        · simp [here, mem_erase_of_ne]
    cases backlog : session.enqReqBacklog with
    | nil =>
      have empty : { session with enqReqBacklog := [] } = session := by
        rw [← backlog]
      rw [empty] at freed
      exact ⟨_, by simp [Rpc.slotFreed, Rpc.setSession, backlog], freed⟩
    | cons args rest =>
      have waiting : (rpc.sessions number).enqReqBacklog = args :: rest :=
        sameBacklog.symm.trans backlog
      have noneFree : (rpc.sessions number).sslotFreeVec = [] := by
        by_contra some
        rw [queued.waits some] at waiting
        contradiction
      have onlyFree : session.sslotFreeVec = [index] := by
        rw [nowFree, noneFree]
      have connectedNow : (update rpc.sessions number
          { session with enqReqBacklog := [] } number).connected = true := by
        simpa [sameConnected] using connected
      have popped : (update rpc.sessions number
          { session with enqReqBacklog := [] } number).sslotFreeVec = [index] := by
        simpa using onlyFree
      have fits : ∀ other ∈ args :: rest, other.reqData.length ≤ build.maxMsgSize :=
        waiting ▸ queued.fits
      obtain ⟨after, taken, afterSound⟩ := freed.enqueuePopped connectedNow popped
        (fits args mem_cons_self) rest (by simp)
        (fun other member => fits other (mem_cons_of_mem _ member))
      refine ⟨after, ?_, afterSound⟩
      simpa [Rpc.slotFreed, Rpc.setSession, backlog, onlyFree, guard] using taken

/-- A turn of the loop of `pkt_loss_scan_st`. -/
theorem Rpc.Sound.pktLossScanOne (id : SlotId) :
    ∃ after, rpc.pktLossScanOne build id = some after ∧ after.Sound build := by
  by_cases still : (rpc.slot id).numTx = (rpc.slot id).numRx
  · exact ⟨rpc, by simp [Rpc.pktLossScanOne, still], sound⟩
  · by_cases late : build.rpcRtoCycles < Size.sub rpc.evLoopTsc (rpc.slot id).progressTsc
    · have notWaiting : id ∉ rpc.stallq := fun member => still ((sound.stallq id).mp member).2
      obtain ⟨session, taken, received⟩ :=
        (sound.sessions id.1).pktLossRetransmit still rpc.evLoopTsc
      refine ⟨rpc.setSession id.1 session, ?_, sound.received received⟩
      simp [Rpc.pktLossScanOne, still, late, notWaiting, taken]
    · exact ⟨rpc, by simp [Rpc.pktLossScanOne, still, late], sound⟩

/-- The scan for lost packets runs and keeps soundness. -/
theorem Rpc.Sound.pktLossScan :
    ∃ after, rpc.pktLossScan build = some after ∧ after.Sound build := by
  have every : Machine.Admits (fun _ _ => True) (Rpc.pktLossScanOne build) rpc rpc.activeRpcs :=
    Machine.admits_of_forall fun _ _ _ => trivial
  exact Machine.run_total (Rpc.Sound build) (fun _ id here _ => here.pktLossScanOne id) sound every

/-- An admissible packet is processed. -/
theorem Rpc.Sound.processPkt {packet : Packet} {uncongested : Bool}
    (admissible : rpc.Admissible build (.receive packet uncongested)) :
    ∃ after, rpc.processPkt build packet uncongested = some after ∧ after.Sound build := by
  by_cases magic : packet.hdr.magic = pktHdrMagic
  · obtain ⟨small, fitting⟩ := admissible magic
    by_cases connected : (rpc.sessions packet.hdr.destSessionNum).connected = true
    · have fits := fitting connected
      have before := sound.sessions packet.hdr.destSessionNum
      rcases fits.fromServer with response | creditReturn
      · obtain ⟨session, freed, taken, received⟩ := before.processResp fits.issued small
          (fits.response response) rpc.evLoopTsc uncongested
        cases freed with
        | false =>
          refine ⟨_, ?_, sound.received received⟩
          simp [Rpc.processPkt, magic, guard, small, connected, response, taken]
        | true =>
          obtain ⟨after, freed, afterSound⟩ := sound.slotFreed connected received
          refine ⟨after, ?_, afterSound⟩
          simp [Rpc.processPkt, magic, guard, small, connected, response, taken, freed]
      · obtain ⟨session, taken, received⟩ := before.processExplCr fits.issued
          (fits.credit creditReturn) rpc.evLoopTsc uncongested
        refine ⟨_, ?_, sound.received received⟩
        simp [Rpc.processPkt, magic, guard, small, connected, creditReturn, taken]
    · exact ⟨rpc, by simp [Rpc.processPkt, magic, guard, small, connected], sound⟩
  · exact ⟨rpc, by simp [Rpc.processPkt, magic], sound⟩

/-- Every admissible event is taken and keeps soundness. -/
theorem Rpc.Sound.step {event : Rpc.Event} (admissible : rpc.Admissible build event) :
    ∃ after, rpc.step build event = some after ∧ after.Sound build := by
  cases event with
  | stamp tsc =>
    exact ⟨_, rfl, { sound with }⟩
  | enqueueRequest number args => exact sound.enqueueRequest admissible.1 admissible.2
  | receive packet uncongested => exact sound.processPkt admissible
  | creditStallQueue => exact Rpc.Sound.kickStalled rpc.stallq [] sound
  | wheel id pktNum =>
    obtain ⟨session, taken, sessionSound, others, sameReq, sameTx, sameRx, sameFree, sameBacklog⟩ :=
      (sound.sessions id.1).processWheel admissible
    refine ⟨rpc.setSession id.1 session, by simp [Rpc.step, taken], ?_⟩
    apply sound.keep others sessionSound sameFree sameBacklog
    · rw [sameReq]
    · rw [sameTx, sameRx]
  | pktLossScan => exact sound.pktLossScan

end

end Steps

/-! ## Runs -/

/-- The accounts of a client between two events. -/
structure Rpc.CreditsConserved (rpc : Rpc) : Prop where
  conserved : ∀ number, (rpc.sessions number).credits +
    ∑ index, ((rpc.slot (number, index)).numTx - (rpc.slot (number, index)).numRx) = sessionCredits
  bounded : ∀ number, (rpc.sessions number).credits ≤ sessionCredits
  ordered : ∀ id, (rpc.slot id).numRx ≤ (rpc.slot id).numTx
  /-- Until the first response packet no more than the request packets are sent, then no more than
  both messages need. -/
  wire : ∀ id req, (rpc.slot id).txMsgbuf = some req → (rpc.slot id).numTx ≤ req.numPkts ∨
    (req.numPkts ≤ (rpc.slot id).numRx ∧
      (rpc.slot id).numTx ≤ wirePkts req (rpc.slot id).respMsgbuf)
  /-- An unfinished request has nothing outstanding if and only if it waits for credits. -/
  stalled : ∀ id, (rpc.slot id).txMsgbuf ≠ none →
    ((rpc.slot id).numTx = (rpc.slot id).numRx ↔ id ∈ rpc.stallq)
  once : ∀ id ∈ rpc.stallq, (rpc.slot id).txMsgbuf ≠ none ∧ rpc.stallq.count id = 1
  takenUp : ∀ id, (rpc.slot id).txMsgbuf ≠ none →
    id ∈ rpc.stallq ∨ (id ∈ rpc.activeRpcs ∧ (rpc.slot id).numTx ≠ (rpc.slot id).numRx)

/-- Credits are conserved in sound states. -/
theorem Rpc.Sound.creditsConserved {build : Build} {rpc : Rpc} (sound : rpc.Sound build) :
    rpc.CreditsConserved where
  conserved number := (sound.sessions number).conserved
  bounded number := (sound.sessions number).credits_le
  ordered id := ((sound.sessions id.1).slots id.2).ordered
  wire id := ((sound.sessions id.1).slots id.2).wire
  stalled id busy := by
    rw [sound.stallq id]
    exact ⟨fun still => ⟨busy, still⟩, And.right⟩
  once id member := by
    refine ⟨((sound.stallq id).mp member).1, ?_⟩
    exact count_eq_one_of_mem sound.stallqNodup member
  takenUp id busy := by
    by_cases still : (rpc.slot id).numTx = (rpc.slot id).numRx
    · exact .inl ((sound.stallq id).mpr ⟨busy, still⟩)
    · exact .inr ⟨(sound.active id).mpr busy, still⟩

/-- The sessions at the start are sound. -/
theorem Rpc.initial_sound (build : Build) (connected : Nat → Bool) (remoteSessionNum : Nat → Nat) :
    (initial connected remoteSessionNum).Sound build where
  sessions number := by
    refine ⟨?_, ?_, ?_, nodup_finRange _⟩
    · intro index
      exact ⟨le_rfl, fun _ => rfl, by simp [initial, Session.initial, ClientSlot.initial],
        by simp [initial, Session.initial, ClientSlot.initial],
        by simp [initial, Session.initial, ClientSlot.initial],
        ⟨nodup_nil, by simp [initial, Session.initial, ClientSlot.initial],
          by simp [initial, Session.initial, ClientSlot.initial], rfl,
          by simp [initial, Session.initial, ClientSlot.initial], fun _ => rfl⟩⟩
    · simp [initial, Session.initial, ClientSlot.initial, Session.outstanding,
        ClientSlot.outstanding]
    · simp [initial, Session.initial, ClientSlot.initial]
  backlogs number := ⟨fun _ => rfl, by simp [initial, Session.initial]⟩
  stallqNodup := nodup_nil
  stallq id := by simp [initial, slot, Session.initial, ClientSlot.initial]
  activeNodup := nodup_nil
  active id := by simp [initial, slot, Session.initial, ClientSlot.initial]

/-- For every sequence of requests, received packets that fit, turns of the stall queue and the
wheel, and loss scans, the run goes through and the accounts are right at its end. -/
theorem credits_conserved (build : Build) (connected : Nat → Bool) (remoteSessionNum : Nat → Nat)
    (events : List Rpc.Event)
    (admissible : Machine.Admits (Rpc.Admissible build) (Rpc.step build)
      (Rpc.initial connected remoteSessionNum) events) :
    ∃ rpc, Machine.run (Rpc.step build) (Rpc.initial connected remoteSessionNum) events = some rpc ∧
      rpc.CreditsConserved := by
  obtain ⟨rpc, taken, sound⟩ := Machine.run_total (Rpc.Sound build)
    (fun _ _ holds here => holds.step here) (initial_sound build connected remoteSessionNum)
    admissible
  exact ⟨rpc, taken, sound.creditsConserved⟩

/-- A build with small packets and pacing. -/
def smallBuild : Build where
  sharedMemory := false
  maxDataPerPkt := 2
  maxMsgSize := 64
  ccPacing := true
  rpcRtoCycles := 5
  maxDataPerPkt_pos := by decide
  maxMsgSize_fits := by decide

def smallRequest (bytes : List UInt8) : EnqReqArgs :=
  ⟨1, bytes, ⟨⟨0, 0, 0, .resp, 0, 0, 0⟩, [], 1⟩, 0⟩

/-- A packet for the first request of the first slot of session 0. -/
def smallPacket (pktType : PktType) (pktNum msgSize : Nat) (payload : List UInt8) : Packet :=
  ⟨⟨1, msgSize, 0, pktType, pktNum, 8, pktHdrMagic⟩, payload⟩

/-- A request of three packets, a loss, and a response of two packets. -/
def lossRun : List Rpc.Event :=
  [.enqueueRequest 0 (smallRequest [1, 2, 3, 4, 5]), .receive (smallPacket .explCR 0 0 []) true,
    .stamp 9, .pktLossScan, .receive (smallPacket .explCR 1 0 []) false,
    .receive (smallPacket .resp 2 3 [7, 8]) true, .creditStallQueue,
    .receive (smallPacket .resp 3 3 [9]) true]

/-- A run with a lost packet conserves the credits. -/
theorem credits_conserved_sample :
    Machine.Admits (Rpc.Admissible smallBuild) (Rpc.step smallBuild)
        (Rpc.initial (fun _ => true) id) lossRun ∧
      ∃ rpc, Machine.run (Rpc.step smallBuild) (Rpc.initial (fun _ => true) id) lossRun = some rpc ∧
        rpc.CreditsConserved := by
  have admissible : Machine.Admits (Rpc.Admissible smallBuild) (Rpc.step smallBuild)
      (initial (fun _ => true) id) lossRun := by
    decide +kernel
  exact ⟨admissible, credits_conserved smallBuild _ _ lossRun admissible⟩

/-- A credit return for the last packet of a request, which servers do not send: the request has
nothing outstanding and waits in no queue. -/
theorem credit_return_of_last_packet_strands :
    ∃ rpc, Machine.run (Rpc.step smallBuild) (Rpc.initial (fun _ => true) id)
        [.enqueueRequest 0 (smallRequest [1]), .receive (smallPacket .explCR 0 0 []) true] =
          some rpc ∧
      (rpc.slot (0, ⟨0, by decide⟩)).txMsgbuf ≠ none ∧
      (rpc.slot (0, ⟨0, by decide⟩)).numTx = (rpc.slot (0, ⟨0, by decide⟩)).numRx ∧
      (0, ⟨0, by decide⟩) ∉ rpc.stallq := by
  decide +kernel

end UbApplication.Erpc
