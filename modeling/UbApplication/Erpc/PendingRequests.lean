import UbApplication.Erpc.Management

/-!
# Management requests that wait for a response

A session that connects or disconnects sends its request again until a response arrives, as long as
its number is in `sm_pending_reqs_`. Every response removes the number of its session, also one that
the handler then ignores. A connect response that comes again while the session disconnects is such
a response, and the disconnect request is then never sent again.
-/

namespace UbApplication.Erpc.Sm

open List

/-- What one Rpc object does: its program calls it, it handles a packet, and it looks for lost
packets. -/
inductive RpcLabel where
  | api (call : Api)
  | receive (pkt : SmPkt) (chance : Rpc.Chance)
  | scan (timedOut : Nat → Bool)

/-- One step of an Rpc object; there is none when an assertion fails or the transport throws. -/
def Rpc.step (build : Build) (rpc : Rpc) : RpcLabel → Option Rpc
  | .api call => (rpc.api build call).toOption
  | .receive pkt chance => (rpc.handleSmRx build pkt chance).toOption
  | .scan timedOut => some (rpc.pktLossScan timedOut)

/-- A session waits for a response. -/
def Session.Waits (session : Session) : Prop :=
  session.state = .connectInProgress ∨ session.state = .disconnectInProgress

instance (session : Session) : Decidable session.Waits := inferInstanceAs (Decidable (_ ∨ _))

variable {pkt : SmPkt} {calls : List Api}

namespace Rpc

/-- The request of every session that waits for a response will be sent again. -/
def Remembered (rpc : Rpc) : Prop :=
  ∀ number session, rpc.session? number = some session → session.Waits →
    number ∈ rpc.smPendingReqs

/-- The session numbers last for that many more sessions. -/
def Roomy (rpc : Rpc) (more : Nat) : Prop := rpc.sessionVec.length + more ≤ 65536

instance (rpc : Rpc) (more : Nat) : Decidable (rpc.Roomy more) :=
  inferInstanceAs (Decidable (_ ≤ _))

/-- No connect response comes for a session that disconnects. -/
def Expected (rpc : Rpc) (pkt : SmPkt) : Prop :=
  pkt.pktType = .connectResp → ∀ session ∈ rpc.session? pkt.client.sessionNum,
    session.state ≠ .disconnectInProgress

instance (rpc : Rpc) (pkt : SmPkt) : Decidable (rpc.Expected pkt) :=
  inferInstanceAs (Decidable (_ → ∀ _ ∈ _, _))

/-- A step with session numbers to spare and without a late connect response. -/
def Orderly (rpc : Rpc) : RpcLabel → Prop
  | .api _ => rpc.Roomy 1
  | .receive pkt chance => rpc.Roomy (1 + chance.calls.length) ∧ rpc.Expected pkt
  | .scan _ => True

instance (rpc : Rpc) : ∀ label, Decidable (rpc.Orderly label)
  | .api _ => inferInstanceAs (Decidable (rpc.Roomy 1))
  | .receive _ _ => inferInstanceAs (Decidable (_ ∧ _))
  | .scan _ => .isTrue trivial

/-! ## What is remembered -/

/-- Sessions are stored under their numbers, and those that wait are remembered, except for some. -/
def Kept (except : List Nat) (rpc : Rpc) : Prop :=
  ∀ number session, rpc.session? number = some session → session.localSessionNum = number ∧
    (session.Waits → number ∈ rpc.smPendingReqs ∨ number ∈ except)

variable {number : Nat}

namespace Kept

open Outcome

variable {build : Build} {rpc next : Rpc} {except : List Nat} {session : Session}

section

variable (kept : rpc.Kept except)
include kept

/-- The same sessions with no fewer requests pending. -/
theorem congr (sessions : next.sessionVec = rpc.sessionVec)
    (pending : rpc.smPendingReqs ⊆ next.smPendingReqs) : next.Kept except := by
  intro number session found
  rw [session?, sessions] at found
  have here := kept number session found
  exact ⟨here.1, fun waits => (here.2 waits).imp_left fun member => pending member⟩

/-- With more exceptions. -/
theorem mono {more : List Nat} (subset : except ⊆ more) : rpc.Kept more := by
  intro number session found
  have here := kept number session found
  exact ⟨here.1, fun waits => (here.2 waits).imp_right fun member => subset member⟩

/-- A new session is an exception. -/
theorem push (number : session.localSessionNum = rpc.sessionVec.length) :
    (rpc.pushSession session).Kept (session.localSessionNum :: except) := by
  intro other found here
  simp only [session?, pushSession, session?_push] at here
  split at here
  case isTrue same =>
    cases here
    rw [number, same]
    exact ⟨rfl, fun _ => .inr mem_cons_self⟩
  case isFalse => exact kept.mono (subset_cons_self _ _) other found here

/-- A replaced session is an exception. -/
theorem set : (rpc.setSession session).Kept (session.localSessionNum :: except) := by
  intro other found here
  simp only [session?, setSession, session?_set] at here
  split at here
  case isTrue same =>
    cases here
    rw [same.1]
    exact ⟨rfl, fun _ => .inr mem_cons_self⟩
  case isFalse => exact kept.mono (subset_cons_self _ _) other found here

end

/-- A pending request ends the exception. -/
theorem insert (kept : rpc.Kept (session.localSessionNum :: except))
    (sessions : next.sessionVec = rpc.sessionVec)
    (pending : next.smPendingReqs = rpc.smPendingReqs.insert session.localSessionNum) :
    next.Kept except := by
  intro other found here
  rw [session?, sessions] at here
  have old := kept other found here
  refine ⟨old.1, fun waits => ?_⟩
  rw [pending, mem_insert_iff]
  rcases old.2 waits with member | member
  · exact .inl (.inr member)
  · exact (mem_cons.mp member).imp_left Or.inl

/-- Sending its request ends the exception. -/
theorem send (kept : rpc.Kept (session.localSessionNum :: except)) :
    (rpc.sendSmReq session).Kept except :=
  kept.insert rfl rfl

/-- Burying the session ends the exception. -/
theorem bury {peers : Nat → Nat} (kept : rpc.Kept (session.localSessionNum :: except)) :
    (rpc.buried session peers).Kept except := by
  intro other found here
  simp only [session?, buried, session?_set] at here
  split at here
  case isTrue => contradiction
  case isFalse elsewhere =>
    have old := kept other found here
    refine ⟨old.1, fun waits => (old.2 waits).imp_right fun member => ?_⟩
    have inside := session?_lt here
    have apart : other ≠ session.localSessionNum := fun same => elsewhere ⟨same, same ▸ inside⟩
    exact (mem_cons.mp member).resolve_left apart

/-- A session that waits for nothing is no exception. -/
theorem drop (kept : rpc.Kept (number :: except))
    (idle : ∀ found, rpc.session? number = some found → ¬ found.Waits) : rpc.Kept except := by
  intro other found here
  have old := kept other found here
  refine ⟨old.1, fun waits => ?_⟩
  rcases old.2 waits with member | member
  · exact .inl member
  · rcases mem_cons.mp member with same | member
    · exact absurd waits (idle found (same ▸ here))
    · exact .inr member

/-- A call of the interface keeps the requests pending. -/
theorem api (kept : rpc.Kept except) (room : rpc.Roomy 1) (call : Api) :
    Ends (rpc.api build call) (fun next =>
      next.Kept except ∧ next.sessionVec.length ≤ rpc.sessionVec.length + 1) fun _ => True := by
  cases call with
  | create remote =>
    apply (createSession_ends trivial).mono
    rintro next (rfl | ⟨-, -, peers, -, rfl⟩)
    · exact ⟨kept, Nat.le_succ _⟩
    · have number : (rpc.newSession build remote).localSessionNum = rpc.sessionVec.length :=
        Nat.mod_eq_of_lt room
      have charged : (rpc.charged peers).Kept except := kept
      exact ⟨(charged.push number).send, by simp [sendSmReq, smPktUdpTx, pushSession, Rpc.charged]⟩
  | destroy number idle =>
    apply (destroySession_ends trivial).mono
    rintro next (rfl | ⟨session, -, -, -, rfl⟩)
    · exact ⟨kept, Nat.le_succ _⟩
    · exact ⟨kept.set.send, by simp [sendSmReq, smPktUdpTx, setSession]⟩

/-- The calls of the user's handler. -/
theorem smHandler (calls : List Api) (kept : rpc.Kept except) (room : rpc.Roomy calls.length) :
    Ends (rpc.smHandler build calls) (Kept except) fun _ => True := by
  induction calls generalizing rpc with
  | nil => exact kept
  | cons call calls ih =>
    rw [Rpc.smHandler, foldlM_cons]
    rw [Roomy, length_cons] at room
    apply ends_bind (kept.api (by rw [Roomy]; omega) call)
    rintro next ⟨kept, length⟩
    exact ih kept (by rw [Roomy]; omega)

/-- Freeing a session. -/
theorem finish (kept : rpc.Kept (session.localSessionNum :: except))
    (room : rpc.Roomy calls.length) :
    Ends (rpc.finishSession build session calls) (Kept except) fun _ => True := by
  have refunded : rpc.refunded.Kept (session.localSessionNum :: except) :=
    kept
  exact finishSession_ends trivial (fun _ => trivial) _ (refunded.smHandler calls room)
    fun next peers kept _ => kept.bury

/-- A response is no longer waited for. -/
theorem respond (kept : rpc.Kept except) (number : Nat) :
    { rpc with smPendingReqs := rpc.smPendingReqs.filter (· ≠ number) }.Kept
    (number :: except) := by
  intro other found here
  have old := kept other found here
  refine ⟨old.1, fun waits => ?_⟩
  rcases old.2 waits with member | member
  · by_cases same : other = number
    · exact .inr (same ▸ mem_cons_self)
    · exact .inl (mem_filter.mpr ⟨member, decide_eq_true same⟩)
  · exact .inr (mem_cons_of_mem _ member)

/-- A connect request. -/
theorem connectReq {resolves allocates : Bool} (kept : rpc.Kept except) (room : rpc.Roomy 1) :
    Ends (rpc.handleConnectReq build pkt resolves allocates) (Kept except) fun _ => True := by
  have sends (pkt : SmPkt) : (rpc.smPktUdpTx pkt).Kept except :=
    kept
  refine handleConnectReq_ends trivial (fun _ => trivial) (fun _ _ _ => trivial) kept
    (fun _ _ _ _ _ => sends _) (fun _ _ _ => sends _) fun peers _ _ => ?_
  have number : (rpc.serverSession pkt).localSessionNum = rpc.sessionVec.length :=
    Nat.mod_eq_of_lt room
  have charged : ({ rpc with
      connReqTokenMap :=
        Function.update rpc.connReqTokenMap pkt.uniqToken
          (some (rpc.serverSession pkt).localSessionNum) }.charged peers).Kept except :=
    kept
  have pushed : (rpc.accepted pkt peers).Kept except := by
    apply (charged.push number).drop
    intro found here
    rw [session?, number] at here
    have here : (some (rpc.serverSession pkt)) = some found := by
      simpa [pushSession, Rpc.charged] using here
    cases here
    simp [Session.Waits, serverSession]
  exact pushed

/-- A disconnect request. -/
theorem disconnectReq (kept : rpc.Kept except) :
    Ends (rpc.handleDisconnectReq build pkt) (Kept except) fun _ => True := by
  refine handleDisconnectReq_ends trivial (fun _ => trivial) (fun _ => trivial) (fun _ => ?_)
    (fun _ _ _ => trivial) (fun _ _ _ => trivial) fun session peers found _ _ => ?_
  · exact kept
  · have refunded : rpc.refunded.Kept (session.localSessionNum :: except) :=
      kept.mono (subset_cons_self _ _)
    have buried : (rpc.refunded.buried session peers).Kept except := refunded.bury
    exact buried

/-- A connect response. -/
theorem connectResp {resolves : Bool}
    (kept : rpc.Kept [pkt.client.sessionNum]) (room : rpc.Roomy calls.length)
    (expected : ∀ session, rpc.session? pkt.client.sessionNum = some session →
      session.state ≠ .disconnectInProgress) :
    Ends (rpc.handleConnectResp build pkt resolves calls) (Kept []) fun _ => True := by
  have number (session : Session) (found : rpc.session? pkt.client.sessionNum = some session) :
      rpc.Kept [session.localSessionNum] := by
    rw [(kept _ session found).1]
    exact kept
  refine handleConnectResp_ends (fun _ => trivial) (fun _ => trivial) (fun none => ?_)
    (fun session found other => ?_) (fun _ _ _ _ => trivial) (fun session found => ?_)
    (fun session found _ _ _ _ => (number session found).finish room)
    (fun session found _ _ _ => ?_) (fun session found _ _ _ => ?_)
  · exact kept.drop fun found here => absurd (none.symm.trans here) nofun
  · apply kept.drop
    intro same here
    cases found.symm.trans here
    exact fun waits => waits.elim other (expected session found)
  · exact (number session found).insert rfl rfl
  · have changed : (rpc.setSession (session.unreached pkt.server)).Kept _ :=
      (number session found).set
    exact (changed.mono (by simp [Session.unreached])).send
  · have changed : (rpc.setSession (session.answered pkt.server)).Kept [session.localSessionNum] :=
      (number session found).set.mono (by simp [Session.answered])
    apply smHandler calls
    · apply changed.drop
      intro same here
      simp only [session?, setSession, session?_set] at here
      split at here
      case isTrue =>
        cases here
        simp [Session.Waits, Session.answered]
      case isFalse elsewhere => exact absurd ⟨rfl, session?_lt here⟩ elsewhere
    · rw [Roomy, setSession, length_set]
      exact room

/-- A disconnect response. -/
theorem disconnectResp (kept : rpc.Kept [pkt.client.sessionNum]) (room : rpc.Roomy calls.length) :
    Ends (rpc.handleDisconnectResp build pkt calls) (Kept []) fun _ => True := by
  refine handleDisconnectResp_ends (fun _ => trivial) (fun _ => trivial) (fun _ => trivial)
    (fun none => ?_) (fun _ _ _ => trivial) fun session found _ => ?_
  · exact kept.drop fun found here => absurd (none.symm.trans here) nofun
  · rw [← (kept _ session found).1] at kept
    exact kept.finish room

/-- Every packet that is expected. -/
theorem receive {chance : Chance} (kept : rpc.Kept [])
    (room : rpc.Roomy (1 + chance.calls.length)) (expected : rpc.Expected pkt) :
    Ends (rpc.handleSmRx build pkt chance) (Kept []) fun _ => True := by
  have one : rpc.Roomy 1 := Nat.le_trans (by omega) room
  have rest : rpc.Roomy chance.calls.length := Nat.le_trans (by omega) room
  have responded := kept.respond pkt.client.sessionNum
  unfold handleSmRx
  cases type : pkt.pktType with
  | connectReq => exact kept.connectReq one
  | disconnectReq => exact kept.disconnectReq
  | connectResp => exact responded.connectResp rest (expected type)
  | disconnectResp => exact responded.disconnectResp rest

/-- The scan for lost packets. -/
theorem scan (kept : rpc.Kept except) (timedOut : Nat → Bool) :
    (rpc.pktLossScan timedOut).Kept except := by
  have resent (rpc : Rpc) (kept : rpc.Kept except) (number : Nat) :
      (rpc.resend timedOut number).Kept except := by
    unfold resend
    split
    case h_1 => exact kept
    case h_2 =>
      split
      case isTrue => exact kept.congr rfl fun _ member => mem_insert_of_mem member
      case isFalse => exact kept
  unfold pktLossScan
  generalize rpc.smPendingReqs = numbers
  induction numbers generalizing rpc with
  | nil => exact kept
  | cons number numbers ih => exact ih (resent rpc kept number)

/-- Every orderly step. -/
theorem step {label : RpcLabel} (kept : rpc.Kept []) (orderly : rpc.Orderly label)
    (done : rpc.step build label = some next) : next.Kept [] := by
  cases label with
  | api call => exact ((kept.api orderly call).of_toOption done).1
  | receive pkt chance => exact (kept.receive orderly.1 orderly.2).of_toOption done
  | scan timedOut =>
    cases done
    exact kept.scan timedOut

end Kept

/-! ## What is sent again -/

section Scan

variable {rpc : Rpc} {timedOut : Nat → Bool}

/-- A resend changes no session. -/
theorem resend_sessionVec : (rpc.resend timedOut number).sessionVec = rpc.sessionVec := by
  unfold resend
  split
  case h_1 => rfl
  case h_2 => split <;> rfl

/-- A resend forgets no packet. -/
theorem resend_sent (member : pkt ∈ rpc.sent) : pkt ∈ (rpc.resend timedOut number).sent := by
  unfold resend
  split
  case h_1 => exact member
  case h_2 =>
    split
    case isTrue => exact mem_append_left _ member
    case isFalse => exact member

/-- The request of a late session is sent again. -/
theorem resend_sends {session : Session}
    (found : rpc.session? number = some session) (waits : session.Waits)
    (late : timedOut number = true) : smReq session ∈ (rpc.resend timedOut number).sent := by
  unfold resend
  rw [found]
  dsimp only
  rw [if_pos ⟨waits, late⟩]
  exact mem_append_right _ mem_cons_self

/-- The scan sends the request of every session that waits, is remembered and has waited long
enough. -/
theorem pktLossScan_sends {session : Session}
    (found : rpc.session? number = some session) (waits : session.Waits)
    (member : number ∈ rpc.smPendingReqs) (late : timedOut number = true) :
    smReq session ∈ (rpc.pktLossScan timedOut).sent := by
  unfold pktLossScan
  generalize rpc.smPendingReqs = numbers at member
  have stays (numbers : List Nat) (rpc : Rpc) (sent : smReq session ∈ rpc.sent) :
      smReq session ∈ (numbers.foldl (fun rpc number => rpc.resend timedOut number) rpc).sent := by
    induction numbers generalizing rpc with
    | nil => exact sent
    | cons other numbers ih => exact ih _ (resend_sent sent)
  induction numbers generalizing rpc with
  | nil => contradiction
  | cons other numbers ih =>
    rcases mem_cons.mp member with rfl | member
    · exact stays numbers _ (resend_sends found waits late)
    · refine ih ?_ member
      rw [session?, resend_sessionVec]
      exact found

end Scan

/-- In every run without a late connect response, every session that waits for a response is
remembered, and the loss scan sends its request again. -/
theorem requests_remembered (build : Build) (name : Name) (transportType : Nat) (retry : Bool)
    (labels : List RpcLabel) (final : Rpc)
    (orderly : Machine.Admits Orderly (Rpc.step build) (Rpc.new build name transportType retry)
      labels)
    (taken : Machine.run (Rpc.step build) (Rpc.new build name transportType retry) labels =
      some final) :
    final.Remembered ∧ ∀ number session timedOut, final.session? number = some session →
      session.Waits → timedOut number = true →
      smReq session ∈ (final.pktLossScan timedOut).sent := by
  have kept : final.Kept [] := by
    refine Machine.run_admitted (Kept []) (fun before label after kept orderly done => ?_) orderly
      ?_ taken
    · exact kept.step orderly done
    · intro number session found
      contradiction
  have remembered : final.Remembered := by
    intro number session found waits
    exact ((kept number session found).2 waits).resolve_right not_mem_nil
  refine ⟨remembered, fun number session timedOut found waits late => ?_⟩
  exact pktLossScan_sends found waits (remembered number session found waits) late

end Rpc

namespace Sample

/-- A build with the UB transport and room for two sessions. -/
def build : Build where
  ub := true
  numRxRingEntries := 64
  token name number := name.rpcId * 65536 + number

def clientName : Name := ⟨1, 31850, 1⟩

def serverName : Name := ⟨2, 31850, 2⟩

def client : Rpc := .new build clientName 7 false

/-- The connect response of a server for the first session of the client. -/
def connectResp : SmPkt where
  pktType := .connectResp
  errType := .noError
  uniqToken := build.token clientName 0
  client := ⟨7, clientName, 0⟩
  server := ⟨7, serverName, 5⟩

/-- Nothing fails and the program makes no calls. -/
def calm : Rpc.Chance := ⟨true, true, []⟩

/-- A session connects and starts to disconnect. -/
def leaving : List RpcLabel :=
  [.api (.create serverName), .receive connectResp calm, .api (.destroy 0 true)]

/-- The session disconnects, and its request can be sent again. -/
theorem requests_remembered_leaving : ∃ final,
    Machine.run (Rpc.step build) client leaving = some final ∧
    (final.session? 0).any (fun session => session.state = .disconnectInProgress) = true ∧
    final.Remembered := by
  obtain ⟨final, taken, state⟩ : ∃ final, Machine.run (Rpc.step build) client leaving = some final ∧
      (final.session? 0).any (fun session => session.state = .disconnectInProgress) = true := by
    decide +kernel
  exact ⟨final, taken, state,
    (Rpc.requests_remembered build clientName 7 false leaving final (by decide +kernel) taken).1⟩

/-- The connect response comes once more while the session disconnects: the disconnect request is
forgotten and no scan sends it again. -/
theorem request_forgotten : ∃ final session,
    Machine.run (Rpc.step build) client (leaving ++ [.receive connectResp calm]) = some final ∧
    final.session? 0 = some session ∧ session.state = .disconnectInProgress ∧
    ¬ final.Remembered ∧ ∀ timedOut, final.pktLossScan timedOut = final := by
  obtain ⟨final, taken, pending, session, found, state⟩ : ∃ final,
    Machine.run (Rpc.step build) client
      (leaving ++ [.receive connectResp calm]) = some final ∧ final.smPendingReqs = [] ∧
      ∃ session, final.session? 0 = some session ∧ session.state = .disconnectInProgress := by
    decide +kernel
  refine ⟨final, session, taken, found, state, fun remembered => ?_, fun timedOut => ?_⟩
  · have member := remembered 0 session found (.inr state)
    rw [pending] at member
    exact absurd member not_mem_nil
  · rw [Rpc.pktLossScan, pending]
    rfl

end Sample

end UbApplication.Erpc.Sm
