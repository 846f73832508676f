import Mathlib.Data.Nat.Pairing
import UbApplication.Erpc.Accounts
import UbApplication.Erpc.Agreement
import UbApplication.Erpc.PendingRequests

/-!
# Runs of session management

Every step of the Rpc objects is a sequence of moves, and no assertion of a handler fails on the
way. What the moves preserve therefore holds in every state that a run reaches.
-/

namespace UbApplication.Erpc.Sm.System

open Outcome

variable {build : Build} {May : System → SmPkt → Prop} {s : System} {name : Name} {rpc next : Rpc}
  {refunds more : Nat}

/-! ## The calls of a program -/

/-- What an Rpc object is after some calls of its program. -/
structure After (build : Build) (May : System → SmPkt → Prop) (s : System) (name : Name) (rpc : Rpc)
    (refunds more : Nat)
    (next : Rpc) : Prop where
  moves : Moves build May s (s.put name next)
  accounts : next.Accounts build refunds
  length : next.sessionVec.length ≤ rpc.sessionVec.length + more
  retry : next.retry = rpc.retry
  kept : ∀ number session, rpc.session? number = some session → session.state ≠ .connected →
    next.session? number = some session

/-- Putting back the object that is there. -/
theorem put_self (found : s.rpcs name = some rpc) : s.put name rpc = s := by
  cases s
  simp only [put, System.mk.injEq, and_true]
  exact Function.update_eq_self_iff.mpr found.symm

/-- Nothing has been done. -/
theorem After.refl (found : s.rpcs name = some rpc) (accounts : rpc.Accounts build refunds) :
    After build May s name rpc refunds more rpc where
  moves := by
    rw [put_self found]
    exact .refl
  accounts := accounts
  length := Nat.le_add_right _ _
  retry := rfl
  kept _ _ held _ := held

/-- One part after the other. -/
theorem After.trans {last : Rpc} {again : Nat}
    (first : After build May s name rpc refunds more next)
    (second : After build May (s.put name next) name next refunds again last) :
    After build May s name rpc refunds (more + again) last where
  moves := by
    have rest := second.moves
    rw [put_put] at rest
    exact first.moves.trans rest
  accounts := second.accounts
  length := by
    have := first.length
    have := second.length
    omega
  retry := second.retry.trans first.retry
  kept number session held state :=
    second.kept number session (first.kept number session held state) state

variable {number : Nat} {session : Session} {pkt : SmPkt}

/-- A change and the request that goes out for it. -/
theorem moves_request {middle : Rpc} (move : s.Move build May (s.put name middle))
    (held : middle.session? number = some session)
    (waits : session.state = .connectInProgress ∨ session.state = .disconnectInProgress) :
    Moves build May s (s.put name (middle.sendSmReq session)) := by
  have send : (s.put name middle).Move build May
      ((s.put name middle).put name (middle.sendSmReq session)) :=
    .send rpcs_put_self ⟨rfl, rfl, rfl, rfl, rfl, rfl⟩ rfl (.request held waits) rfl
  rw [put_put] at send
  exact .tail (.single move) send

/-- The vector after a session is stored. -/
theorem sessionVec_setSession (stored : session.localSessionNum = number) :
    (rpc.setSession session).sessionVec = rpc.sessionVec.set number (some session) := by
  rw [← stored]
  rfl

/-- The live sessions after one is stored. -/
theorem session?_setSession (session : Session) {old : Session}
    (held : rpc.session? number = some old)
    (stored : session.localSessionNum = number) (other : Nat) :
    (rpc.setSession session).session? other =
      if other = number then some session else rpc.session? other :=
  Rpc.session?_slot held (sessionVec_setSession stored) other

/-- Storing a session is a move. -/
theorem move_setSession (found : s.rpcs name = some rpc) {old : Session}
    (held : rpc.session? number = some old) (stored : session.localSessionNum = number)
    (replaces : s.Replaces name rpc old number (some session)) :
    s.Move build May (s.put name (rpc.setSession session)) :=
  .slot found ⟨rfl, rfl, rfl, rfl, List.length_set, rfl⟩ held replaces
    (sessionVec_setSession stored) rfl

variable (distinct : Function.Injective2 build.token) (sound : s.Sound build)
  (found : s.rpcs name = some rpc) (accounts : rpc.Accounts build 0)

include sound found in
/-- A call of the interface is a sequence of moves. -/
theorem api_after (accounts : rpc.Accounts build refunds)
    (room : rpc.sessionVec.length < invalidSessionNum) (call : Api) :
    Ends (rpc.api build call) (After build May s name rpc refunds 1) Fault.IsThrown := by
  cases call with
  | create remote =>
    apply (Rpc.createSession_ends Fault.isThrown).mono
    rintro next (rfl | ⟨-, enough, peers, gains, rfl⟩)
    · exact .refl found accounts
    · have made : s.Move build May (s.put name
          ((rpc.charged peers).pushSession (rpc.newSession build remote))) :=
        .create found room ⟨rfl, rfl, rfl, rfl, rfl⟩ rfl rfl
      have slots (number : Nat) :
          ((rpc.charged peers).pushSession (rpc.newSession build remote)).session? number =
            if number = rpc.sessionVec.length then some (rpc.newSession build remote)
            else rpc.session? number := Rpc.session?_push
      have held := slots rpc.sessionVec.length
      rw [if_pos rfl] at held
      constructor
      · exact moves_request made held (.inl rfl)
      · exact accounts.push rfl enough rfl gains
      · exact Nat.le_of_eq (List.length_append ..)
      · rfl
      · intro number session here _
        have inside := Rpc.session?_lt here
        exact ((slots number).trans (if_neg (Nat.ne_of_lt inside))).trans here
  | destroy number idle =>
    apply (Rpc.destroySession_ends Fault.isThrown).mono
    rintro next (rfl | ⟨session, held, role, state, rfl⟩)
    · exact .refl found accounts
    · have stored : session.localSessionNum = number := (sound.ok name rpc found).stored held
      have stored : session.leaving.localSessionNum = number := stored
      have slots := session?_setSession session.leaving held stored
      have left : s.Move build May (s.put name (rpc.setSession session.leaving)) :=
        move_setSession found held stored (.left role state)
      have here := slots number
      rw [if_pos rfl] at here
      constructor
      · exact moves_request left here (.inr rfl)
      · exact accounts.set held (sessionVec_setSession stored) rfl rfl rfl
      · exact Nat.le_succ_of_le (Nat.le_of_eq List.length_set)
      · rfl
      · intro other found there connected
        have apart : other ≠ number := by
          rintro rfl
          cases held.symm.trans there
          exact connected state
        exact ((slots other).trans (if_neg apart)).trans there

include distinct in
/-- So are the calls of the user's handler. -/
theorem smHandler_after (calls : List Api)
    (sound : s.Sound build) (found : s.rpcs name = some rpc) (accounts : rpc.Accounts build refunds)
    (room : rpc.sessionVec.length + calls.length ≤ invalidSessionNum) :
    Ends (rpc.smHandler build calls) (After build May s name rpc refunds calls.length)
      Fault.IsThrown := by
  induction calls generalizing s rpc with
  | nil => exact After.refl found accounts
  | cons call calls ih =>
    rw [Rpc.smHandler, List.foldlM_cons]
    rw [List.length_cons] at room ⊢
    apply ends_bind (api_after sound found accounts (by omega) call)
    intro next (after : After build May s name rpc refunds 1 next)
    have rest : Ends (next.smHandler build calls) _ _ :=
      ih (sound.moves distinct after.moves) rpcs_put_self after.accounts
        (by have := after.length; omega)
    apply rest.mono
    intro last done
    rw [Nat.add_comm]
    exact after.trans done

/-! ## The handlers -/

/-- What an Rpc object is after it has handled a packet. -/
structure Done (build : Build) (May : System → SmPkt → Prop) (s : System) (name : Name) (next : Rpc)
    : Prop where
  moves : Moves build May s (s.put name next)
  accounts : next.Accounts build 0

include found accounts in
/-- Nothing is left to do. -/
theorem Done.refl :
    Done build May s name rpc := by
  refine ⟨?_, accounts⟩
  rw [put_self found]
  exact .refl

/-- One move is left. -/
theorem Done.single (move : s.Move build May (s.put name next)) (accounts : next.Accounts build 0) :
    Done build May s name next :=
  ⟨.single move, accounts⟩

/-- The rest after some moves. -/
theorem Done.after {last : Rpc} (moves : Moves build May s (s.put name next))
    (rest : Done build May (s.put name next) name last) : Done build May s name last := by
  have more := rest.moves
  rw [put_put] at more
  exact ⟨moves.trans more, rest.accounts⟩

include found accounts in
/-- One packet is left to send. -/
theorem Done.send (sends : s.Sends name rpc pkt) : Done build May s name (rpc.smPktUdpTx pkt) :=
  .single (.send found ⟨rfl, rfl, rfl, rfl, rfl, rfl⟩ rfl sends rfl) { accounts with }

/-- A session is left to bury. -/
theorem Done.bury (found : s.rpcs name = some rpc) (accounts : rpc.Accounts build 1)
    {peers : Nat → Nat}
    (held : rpc.session? number = some session) (stored : session.localSessionNum = number)
    (loses : Rpc.PeerLoses build session.remoteRpcId rpc.rxPeerRefcounts peers)
    (replaces : s.Replaces name rpc session number none) :
    Done build May s name (rpc.buried session peers) := by
  have sessions : (rpc.buried session peers).sessionVec = rpc.sessionVec.set number none := by
    rw [← stored]
    rfl
  have move : s.Move build May (s.put name (rpc.buried session peers)) :=
    .slot found ⟨rfl, rfl, rfl, rfl, List.length_set, rfl⟩ held replaces sessions rfl
  exact .single move (accounts.bury held sessions rfl loses)

variable {calls : List Api}

include distinct sound found accounts in
/-- `finish_session` is a sequence of moves. -/
theorem finishSession_done (held : rpc.session? number = some session)
    (state : session.state ≠ .connected)
    (room : rpc.sessionVec.length + calls.length ≤ invalidSessionNum)
    (replaces : ∀ t next, Moves build May s t → next.retry = rpc.retry →
      t.Replaces name next session number none) :
    Ends (rpc.finishSession build session calls) (Done build May s name) Fault.IsThrown := by
  have refund : s.Move build May (s.put name rpc.refunded) :=
    .quiet found ⟨rfl, rfl, rfl, rfl, rfl, rfl⟩ rfl rfl
  have stored := (sound.ok name rpc found).stored held
  apply Rpc.finishSession_ends Fault.isThrown (fun full => absurd (accounts.room held) full)
    (After build May (s.put name rpc.refunded) name rpc.refunded 1 calls.length)
  · exact smHandler_after distinct calls (sound.move distinct refund) rpcs_put_self
      accounts.refunded room
  · intro next peers after loses
    have moves : Moves build May s (s.put name next) := by
      have rest := after.moves
      rw [put_put] at rest
      exact .head refund rest
    exact .after moves (.bury rpcs_put_self after.accounts (after.kept number session held state)
      stored loses (replaces _ next moves after.retry))

include sound found accounts in
/-- `handle_connect_req_st` is a sequence of moves. -/
theorem handleConnectReq_done {resolves allocates : Bool}
    (flight : s.InFlight pkt) (type : pkt.pktType = .connectReq) (target : pkt.server.name = name)
    (may : rpc.Accepts pkt resolves allocates → May s pkt)
    (room : rpc.sessionVec.length < invalidSessionNum) :
    Ends (rpc.handleConnectReq build pkt resolves allocates)
      (Done build May s name) Fault.IsThrown := by
  have ok := sound.ok name rpc found
  apply Rpc.handleConnectReq_ends Fault.isThrown
  case stray =>
    intro stray
    rw [target, ok.named] at stray
    exact absurd rfl stray
  case lost =>
    intro number known beyond
    obtain ⟨made, place, -⟩ := ok.tokens _ number known
    exact absurd (sound.made_lt found ⟨rpc, found, place⟩) beyond
  case known => exact .refl found accounts
  case again =>
    intro number session known held _
    exact .send found accounts (.grant flight type target known held)
  case refused =>
    intro err wrong fresh
    exact .send found accounts (.refuse flight type target wrong fresh)
  case accepts =>
    intro peers accepts gains
    obtain ⟨fresh, -, enough, -⟩ := id accepts
    have accept : s.Move build May (s.put name (rpc.accepted pkt peers)) :=
      .accept found room flight type target (may accepts) fresh ⟨rfl, rfl, rfl, rfl, rfl⟩ rfl rfl
    have accepted : (rpc.accepted pkt peers).Accounts build 0 := accounts.push rfl enough rfl gains
    have number : (rpc.serverSession pkt).localSessionNum = rpc.sessionVec.length :=
      Sound.sessionNumber_eq room
    have held : (rpc.accepted pkt peers).session? (rpc.serverSession pkt).localSessionNum =
        some (rpc.serverSession pkt) := by
      rw [number]
      exact Rpc.session?_push.trans (if_pos rfl)
    exact .after (.single accept) (.send rpcs_put_self accepted
      (.grant (accept.inFlight flight) type target (Function.update_self ..) held))

include distinct sound found accounts in
/-- `handle_disconnect_req_st` is a sequence of moves. -/
theorem handleDisconnectReq_done (flight : s.InFlight pkt)
    (type : pkt.pktType = .disconnectReq) (target : pkt.server.name = name) :
    Ends (rpc.handleDisconnectReq build pkt) (Done build May s name) Fault.IsThrown := by
  subst target
  have ok := sound.ok pkt.server.name rpc found
  obtain ⟨asks, serves, leaving⟩ := (honest_disconnectReq type).mp (sound.honest pkt flight)
  apply Rpc.handleDisconnectReq_ends Fault.isThrown
  case stray => exact fun stray => absurd (congrArg Name.rpcId ok.named.symm) stray
  case lost =>
    obtain ⟨made, place, -⟩ := serves
    exact absurd (sound.made_lt found place)
  case again => exact fun gone => .send found accounts (.confirm flight type rfl gone)
  case misfits =>
    intro session held misfits
    have facts := sound.server_session distinct asks serves found held
    exact absurd ⟨facts.1, facts.2.1, facts.2.2.2.2.1, facts.2.2.2.1⟩ misfits
  case full => exact fun session held full => absurd (accounts.room held) full
  case freed =>
    intro session peers held fits loses
    have stored := ok.stored held
    have refund : s.Move build May (s.put pkt.server.name rpc.refunded) :=
      .quiet found ⟨rfl, rfl, rfl, rfl, rfl, rfl⟩ rfl rfl
    have buried : Done build May s pkt.server.name (rpc.refunded.buried session peers) :=
      .after (.single refund) (.bury rpcs_put_self accounts.refunded held stored loses
        (.freed (refund.inFlight flight) type rfl))
    refine .after buried.moves (.send rpcs_put_self buried.accounts
      (.confirm (buried.moves.inFlight flight) type rfl ?_))
    exact Rpc.session?_set.trans (if_pos ⟨stored.symm, stored ▸ Rpc.session?_lt held⟩)

/-- A response that fits comes from the same remote object. -/
theorem respFits_remoteRpcId {changed : Session}
    (fits : Rpc.RespFits pkt session) (role : changed.role = session.role)
    (server : changed.server = pkt.server) : changed.remoteRpcId = session.remoteRpcId := by
  unfold Session.remoteRpcId
  rw [role, fits.role]
  show changed.server.name.rpcId = _
  rw [server]
  exact fits.rpcId.symm

section

variable (distinct : Function.Injective2 build.token) (sound : s.Sound build)
include distinct sound

variable {pkt : SmPkt}

/-- `handle_connect_resp_st` is a sequence of moves. -/
theorem handleConnectResp_done (found : s.rpcs name = some rpc) (accounts : rpc.Accounts build 0)
    {resolves : Bool} (flight : s.InFlight pkt) (type : pkt.pktType = .connectResp)
    (target : pkt.client.name = name)
    (room : rpc.sessionVec.length + calls.length ≤ invalidSessionNum) :
    Ends (rpc.handleConnectResp build pkt resolves calls)
      (Done build May s name) Fault.IsThrown := by
  subst target
  have ok := sound.ok pkt.client.name rpc found
  have asks := (sound.honest pkt flight).1
  apply Rpc.handleConnectResp_ends
  case stray => exact fun stray => absurd (congrArg Name.rpcId ok.named.symm) stray
  case lost =>
    obtain ⟨made, place, -⟩ := asks
    exact absurd (sound.made_lt found place)
  case buried => exact fun _ => .refl found accounts
  case late => exact fun _ _ _ => .refl found accounts
  case misfits =>
    intro session held connecting misfits
    obtain ⟨made, -, follows, facts, role, -, ends, asked⟩ := sound.client_session asks found held
    cases follows.connecting_eq connecting
    refine absurd ⟨role, ends, ?_, ?_, facts.fresh⟩ misfits
    · rw [asked]
      rfl
    · rw [asked]
      rfl
  case retried =>
    intro session held
    exact .single (.quiet found ⟨rfl, rfl, rfl, rfl, rfl, rfl⟩ rfl rfl) { accounts with }
  case failed =>
    intro session held connecting fits wrong fatal
    apply finishSession_done distinct sound found accounts held _ room
    · intro t next moves retry
      exact .failed (moves.inFlight flight) type rfl wrong (retry ▸ fatal)
    · rw [connecting]
      nofun
  case unreached =>
    intro session held connecting fits fine
    have stored : session.localSessionNum = pkt.client.sessionNum := ok.stored held
    have here := (session?_setSession (session.unreached pkt.server) held stored
      pkt.client.sessionNum).trans (if_pos rfl)
    constructor
    · exact moves_request (move_setSession found held stored
        (.unreached flight type rfl fine connecting)) here (.inr rfl)
    · exact accounts.set held (sessionVec_setSession stored) (respFits_remoteRpcId fits rfl rfl)
        rfl rfl
  case answered =>
    intro session held connecting fits fine
    have stored : session.localSessionNum = pkt.client.sessionNum := ok.stored held
    have move : s.Move build May
      (s.put pkt.client.name (rpc.setSession (session.answered pkt.server))) :=
      move_setSession found held stored (.answered flight type rfl fine connecting)
    have answered : (rpc.setSession (session.answered pkt.server)).Accounts build 0 :=
      accounts.set held (sessionVec_setSession stored) (respFits_remoteRpcId fits rfl rfl) rfl rfl
    apply (smHandler_after distinct calls (sound.move distinct move) rpcs_put_self answered ?_).mono
    · intro next after
      exact .after (.single move) ⟨after.moves, after.accounts⟩
    · rw [Rpc.setSession, List.length_set]
      exact room

/-- `handle_disconnect_resp_st` is a sequence of moves. -/
theorem handleDisconnectResp_done (found : s.rpcs name = some rpc) (accounts : rpc.Accounts build 0)
    (flight : s.InFlight pkt) (type : pkt.pktType = .disconnectResp)
    (target : pkt.client.name = name)
    (room : rpc.sessionVec.length + calls.length ≤ invalidSessionNum) :
    Ends (rpc.handleDisconnectResp build pkt calls) (Done build May s name) Fault.IsThrown := by
  subst target
  have ok := sound.ok pkt.client.name rpc found
  obtain ⟨asks, fine, serves, leaving, -⟩ :=
    (honest_disconnectResp type).mp (sound.honest pkt flight)
  have disconnects (session : Session) (held : rpc.session? pkt.client.sessionNum = some session) :
      session.state = .disconnectInProgress := by
    obtain ⟨same, there, -, all⟩ := leaving
    cases found.symm.trans there
    exact all session held
  apply Rpc.handleDisconnectResp_ends
  case stray => exact fun stray => absurd (congrArg Name.rpcId ok.named.symm) stray
  case wrong => exact fun wrong => absurd fine wrong
  case lost =>
    obtain ⟨made, place, -⟩ := asks
    exact absurd (sound.made_lt found place)
  case buried => exact fun _ => .refl found accounts
  case misfits =>
    intro session held misfits
    have state := disconnects session held
    obtain ⟨made, -, follows, facts, role, token, ends, asked⟩ :=
      sound.client_session asks found held
    obtain ⟨kind, same, whole, -⟩ := follows.stays
    -- Both the session and the packet name the one server session of the token.
    have backed := sound.backed _ rpc _ session found held (kind.trans role) (by rw [state]; nofun)
    have blank : session.server.blank = pkt.server.blank := by
      rw [follows.blank, asked]
      rfl
    rw [Endpoint.name_of_blank blank, same, token] at backed
    have number := sound.serves_unique backed serves
    exact absurd ⟨kind.trans role, state, whole.trans ends,
      Endpoint.eq_of_blank blank number⟩ misfits
  case left =>
    intro session held fits
    apply finishSession_done distinct sound found accounts held _ room
    · exact fun t next moves _ => .finished (moves.inFlight flight) type rfl
    · rw [fits.state]
      nofun

/-- Every handler is a sequence of moves. -/
theorem handleSmRx_done {chance : Rpc.Chance} (found : s.rpcs pkt.target = some rpc)
    (accounts : rpc.Accounts build 0) (flight : s.InFlight pkt)
    (may : pkt.pktType = .connectReq → rpc.Accepts pkt chance.resolves chance.allocates → May s pkt)
    (room : rpc.sessionVec.length + (1 + chance.calls.length) ≤ invalidSessionNum) :
    Ends (rpc.handleSmRx build pkt chance) (Done build May s pkt.target) Fault.IsThrown := by
  have forgets : s.Move build May (s.put pkt.target
      { rpc with smPendingReqs := rpc.smPendingReqs.filter (· ≠ pkt.client.sessionNum) }) :=
    .quiet found ⟨rfl, rfl, rfl, rfl, rfl, rfl⟩ rfl rfl
  have less : { rpc with
      smPendingReqs := rpc.smPendingReqs.filter (· ≠ pkt.client.sessionNum) }.Accounts build 0 :=
    { accounts with }
  have rest := sound.move distinct forgets
  unfold Rpc.handleSmRx
  cases type : pkt.pktType with
  | connectReq =>
    have target : pkt.server.name = pkt.target := by rw [SmPkt.target, type]; rfl
    exact handleConnectReq_done sound found accounts flight type target (may type) (by omega)
  | disconnectReq =>
    have target : pkt.server.name = pkt.target := by rw [SmPkt.target, type]; rfl
    exact handleDisconnectReq_done distinct sound found accounts flight type target
  | connectResp =>
    have target : pkt.client.name = pkt.target := by rw [SmPkt.target, type]; rfl
    apply (handleConnectResp_done distinct rest rpcs_put_self less (forgets.inFlight flight) type
      target ?_).mono
    · exact fun next done => .after (.single forgets) done
    · show rpc.sessionVec.length + _ ≤ _
      omega
  | disconnectResp =>
    have target : pkt.client.name = pkt.target := by rw [SmPkt.target, type]; rfl
    apply (handleDisconnectResp_done distinct rest rpcs_put_self less (forgets.inFlight flight) type
      target ?_).mono
    · exact fun next done => .after (.single forgets) done
    · show rpc.sessionVec.length + _ ≤ _
      omega

end

include found accounts in
/-- A resend is a sequence of moves. -/
theorem resend_done (timedOut : Nat → Bool) (number : Nat) :
    Done build May s name (rpc.resend timedOut number) := by
  unfold Rpc.resend
  split
  case h_1 => exact .refl found accounts
  case h_2 session held =>
    split
    case isTrue late =>
      exact .single (.send found ⟨rfl, rfl, rfl, rfl, rfl, rfl⟩ rfl (.request held late.1) rfl)
        { accounts with }
    case isFalse => exact .refl found accounts

include found accounts in
/-- So is the scan for lost packets. -/
theorem pktLossScan_done (timedOut : Nat → Bool) :
    Done build May s name (rpc.pktLossScan timedOut) := by
  unfold Rpc.pktLossScan
  generalize rpc.smPendingReqs = numbers
  induction numbers generalizing s rpc with
  | nil => exact .refl found accounts
  | cons number numbers ih =>
    have first : Done build May s name (rpc.resend timedOut number) :=
      resend_done found accounts timedOut number
    exact .after first.moves (ih rpcs_put_self first.accounts)

/-! ## The steps -/

/-- The ring entries and the peers of every Rpc object are those of its live sessions. -/
def Balanced (build : Build) (s : System) : Prop :=
  ∀ name rpc, s.rpcs name = some rpc → rpc.Accounts build 0

/-- The accounts of all objects after one is replaced. -/
theorem Balanced.put (balanced : s.Balanced build) (accounts : next.Accounts build 0) :
    (s.put name next).Balanced build := by
  intro other rpc found
  rcases rpcs_put found with ⟨-, rfl⟩ | ⟨-, found⟩
  · exact accounts
  · exact balanced other rpc found

/-- A connect request that is accepted may be accepted. -/
def Permits (May : System → SmPkt → Prop) (s : System) : SystemLabel → Prop
  | .deliver _ pkt chance => pkt.pktType = .connectReq → ∀ rpc ∈ s.rpcs pkt.target,
      rpc.Accepts pkt chance.resolves chance.allocates → May s pkt
  | _ => True

include distinct sound in
/-- No assertion fails, and what happens is moves. -/
theorem act_ends (balanced : s.Balanced build) {label : SystemLabel} (spare : s.Spare label)
    (permits : s.Permits May label) {outcome : Except Fault System}
    (acts : s.act build label = some outcome) :
    Ends outcome (fun t => Moves build May s t ∧ t.Balanced build) Fault.IsThrown := by
  cases label with
  | start name transportType retry =>
    obtain ⟨free, ⟨⟩⟩ := Option.ite_none_left_eq_some.mp acts
    have free : s.rpcs name = none := by simpa using free
    exact ends_ok ⟨.single (.start name transportType retry free),
      balanced.put ⟨rfl, fun _ _ => rfl⟩⟩
  | api name call =>
    obtain ⟨rpc, found, rfl⟩ := Option.map_eq_some_iff.mp acts
    have accounts := balanced name rpc found
    apply ends_map
    apply (api_after sound found accounts (spare rpc found) call).mono
    intro next after
    exact ⟨after.moves, balanced.put after.accounts⟩
  | deliver sender pkt chance =>
    obtain ⟨member, ⟨⟩⟩ := Option.ite_none_right_eq_some.mp acts
    have flight : s.InFlight pkt := ⟨sender, member⟩
    unfold arrive
    split
    case h_1 rpc found =>
      apply ends_map
      apply (handleSmRx_done distinct sound found (balanced _ rpc found) flight
        (fun type => permits type rpc found) (spare rpc found)).mono
      exact fun next done => ⟨done.moves, balanced.put done.accounts⟩
    case h_2 missing =>
      split
      case isTrue request => exact ends_ok ⟨.single (.nexus pkt flight request missing), balanced⟩
      case isFalse => exact ends_ok ⟨.refl, balanced⟩
  | scan name timedOut =>
    obtain ⟨rpc, found, rfl⟩ := Option.map_eq_some_iff.mp acts
    have done : Done build May s name (rpc.pktLossScan timedOut) :=
      pktLossScan_done found (balanced name rpc found) timedOut
    exact ends_ok ⟨done.moves, balanced.put done.accounts⟩

include distinct sound in
/-- Every step is a sequence of moves. -/
theorem step_moves (balanced : s.Balanced build) {label : SystemLabel} {t : System}
    (spare : s.Spare label) (permits : s.Permits May label) (taken : s.step build label = some t) :
    Moves build May s t ∧ t.Balanced build := by
  obtain ⟨outcome, acts, done⟩ := Option.bind_eq_some_iff.mp taken
  exact (act_ends distinct sound balanced spare permits acts).of_toOption done

/-- Everything is permitted. -/
theorem permits_any (s : System) (label : SystemLabel) : s.Permits (fun _ _ => True) label := by
  cases label with
  | deliver => exact fun _ _ _ _ => trivial
  | start | api | scan => exact trivial

/-- The empty system is sound. -/
theorem sound_initial : initial.Sound build where
  ok := nofun
  backed := nofun
  asked := by
    rintro name number made ⟨rpc, ⟨⟩, -⟩
  gone := by
    rintro name number made ⟨rpc, ⟨⟩, -⟩
  honest := by
    rintro pkt ⟨sender, member⟩
    cases sender <;> contradiction

/-! ## Agreement -/

/-- A client session that is connected and its server session name each other. -/
structure Partners (number : Nat) (session partner : Session) : Prop where
  role : partner.role = .server
  token : partner.uniqToken = session.uniqToken
  client : partner.client = session.client
  server : partner.server = session.server
  toServer : session.remoteSessionNum = partner.localSessionNum
  toClient : partner.remoteSessionNum = session.localSessionNum
  ownNumber : session.localSessionNum = number

/-- What clients and servers agree on. -/
structure Agreed (build : Build) (s : System) : Prop where
  once : ∀ (name : Name) (rpc : Rpc) (first second : Nat) (one two : Session),
    s.rpcs name = some rpc → rpc.made[first]? = some one → rpc.made[second]? = some two →
    one.role = .server → two.role = .server → one.uniqToken = two.uniqToken → first = second
  partners : ∀ (name : Name) (rpc : Rpc) (number : Nat) (session : Session),
    s.rpcs name = some rpc → rpc.session? number = some session → session.role = .client →
    session.state = .connected → ∃ peer partner, s.rpcs session.server.name = some peer ∧
      peer.session? session.remoteSessionNum = some partner ∧ Partners number session partner
  ring : ∀ (name : Name) (rpc : Rpc), s.rpcs name = some rpc →
    rpc.ringEntriesAvailable + sessionCredits * rpc.live = build.numRxRingEntries
  peers : build.ub = true → ∀ (name : Name) (rpc : Rpc), s.rpcs name = some rpc →
    ∀ peer, rpc.rxPeerRefcounts peer = rpc.liveWith peer

/-- A connected client session has its partner. -/
theorem Sound.partners (sound : s.Sound build) (distinct : Function.Injective2 build.token)
    (found : s.rpcs name = some rpc) (held : rpc.session? number = some session)
    (role : session.role = .client) (state : session.state = .connected) : ∃ peer partner,
      s.rpcs session.server.name = some peer ∧
      peer.session? session.remoteSessionNum = some partner ∧
      Partners number session partner := by
  have ok := sound.ok name rpc found
  obtain ⟨made, place, follows⟩ := ok.live number session held
  have client : made.role = .client := follows.stays.1.symm.trans role
  obtain ⟨asks, own, ownNumber⟩ := sound.session_asks found held role
  have remote : session.remoteSessionNum = session.server.sessionNum := by
    cases follows with
    | made =>
      have waits := (ok.client number session place client).state
      exact absurd (waits.symm.trans state) nofun
    | answered => rfl
    | leaving | unreached => contradiction
  have serves := sound.backed name rpc number session found held role (by rw [state]; nofun)
  obtain ⟨other, ⟨peer, there, spot⟩, kind, token⟩ := id serves
  cases here : peer.session? session.server.sessionNum with
  | none =>
    -- The server session would be gone only if the client session left.
    have gone : s.Gone session.server.name session.server.sessionNum :=
      ⟨peer, there, (List.getElem?_eq_some_iff.mp spot).1, here⟩
    have asked := sound.asked _ _ other ⟨peer, there, spot⟩ kind
    rw [token] at asked
    have leaving := sound.gone _ _ other ⟨peer, there, spot⟩ kind gone
    rw [(sound.asks_unique distinct asked asks).1, own, ownNumber] at leaving
    obtain ⟨same, again, -, leaves⟩ := leaving
    cases found.symm.trans again
    exact absurd ((leaves session held).symm.trans state) nofun
  | some partner =>
    obtain ⟨function, -, token, clients, servers, local', back, -⟩ :=
      sound.server_session distinct asks serves there here
    have stored := ok.stored held
    refine ⟨peer, partner, there, remote ▸ here, function, token, clients, servers, ?_, ?_, stored⟩
    · rw [remote, local']
    · rw [back, ownNumber, stored]

/-- In every run whose session numbers are not exhausted clients and servers agree, and no assertion
of a handler fails in what may happen next. -/
theorem sessions_agree (build : Build) (distinct : Function.Injective2 build.token)
    (labels : List SystemLabel) (final : System)
    (spare : Machine.Admits Spare (System.step build) initial labels)
    (taken : Machine.run (System.step build) initial labels = some final) :
    final.Agreed build ∧ ∀ label, final.Spare label →
      final.act build label ≠ some (.error .assertion) := by
  have holds : final.Sound build ∧ final.Balanced build := by
    refine Machine.run_admitted (fun s => s.Sound build ∧ s.Balanced build) ?_ spare ?_ taken
    · rintro before label after ⟨sound, balanced⟩ spare stepped
      obtain ⟨moves, balanced⟩ :=
        step_moves distinct sound balanced spare (permits_any before label)
        stepped
      exact ⟨sound.moves distinct moves, balanced⟩
    · exact ⟨sound_initial, nofun⟩
  obtain ⟨sound, balanced⟩ := holds
  refine ⟨?_, fun label spare fails => ?_⟩
  · constructor
    case once =>
      intro name rpc first second one two found here there role function same
      exact sound.serves_unique ⟨one, ⟨rpc, found, here⟩, role, rfl⟩
        ⟨two, ⟨rpc, found, there⟩, function, same.symm⟩
    case partners =>
      intro name rpc number session found held role state
      exact sound.partners distinct found held role state
    case ring => exact fun name rpc found => (balanced name rpc found).ring
    case peers => exact fun ub name rpc found => (balanced name rpc found).peers ub
  · have thrown : Fault.IsThrown .assertion := act_ends distinct sound balanced spare
      (permits_any final label) fails
    exact absurd thrown nofun

end UbApplication.Erpc.Sm.System

namespace UbApplication.Erpc.Sm.Sample

/-- A build with the UB transport and distinct tokens. -/
def pairing : Build where
  ub := true
  numRxRingEntries := 64
  token name number :=
    Nat.pair (Nat.pair name.hostname (Nat.pair name.smUdpPort name.rpcId)) number

/-- The tokens of the sample are distinct. -/
theorem pairing_distinct : Function.Injective2 pairing.token := by
  intro first second one two same
  obtain ⟨names, numbers⟩ := Nat.pair_eq_pair.mp same
  obtain ⟨hosts, rest⟩ := Nat.pair_eq_pair.mp names
  obtain ⟨ports, ids⟩ := Nat.pair_eq_pair.mp rest
  cases first
  cases second
  cases hosts
  cases ports
  cases ids
  exact ⟨rfl, numbers⟩

/-- The connect request of the first session of the client. -/
def request : SmPkt where
  pktType := .connectReq
  errType := .noError
  uniqToken := pairing.token clientName 0
  client := ⟨7, clientName, 0⟩
  server := ⟨7, serverName, invalidSessionNum⟩

def response : SmPkt :=
  { request.constructResp .noError with server := ⟨7, serverName, 0⟩ }

/-- A client connects to a server; the request arrives twice. -/
def connecting : List SystemLabel :=
  [.start clientName 7 false, .start serverName 7 false, .api clientName (.create serverName),
    .deliver (some clientName) request calm, .deliver (some clientName) request calm,
    .deliver (some serverName) response calm]

/-- The session is connected, and its server session names it. -/
theorem sessions_agree_connecting : ∃ final rpc session,
    Machine.run (System.step pairing) .initial connecting = some final ∧
    final.rpcs clientName = some rpc ∧ rpc.session? 0 = some session ∧
    session.state = .connected ∧ ∃ peer partner, final.rpcs session.server.name = some peer ∧
      peer.session? session.remoteSessionNum = some partner ∧
      System.Partners 0 session partner := by
  obtain ⟨final, taken, rpc, found, session, held, role, state⟩ : ∃ final,
      Machine.run (System.step pairing) .initial connecting = some final ∧
      ∃ rpc, final.rpcs clientName = some rpc ∧ ∃ session, rpc.session? 0 = some session ∧
        session.role = .client ∧ session.state = .connected := by
    decide +kernel
  have agreed := (System.sessions_agree pairing pairing_distinct connecting final
    (by decide +kernel) taken).1
  exact ⟨final, rpc, session, taken, found, held, state,
    agreed.partners clientName rpc 0 session found held role state⟩

end UbApplication.Erpc.Sm.Sample
