import Mathlib.Logic.Relation
import UbApplication.Erpc.Network

/-!
# Clients and servers agree on their sessions

Tokens are distinct and session numbers are not used twice, so a packet of any age still says what
is true. Every handler then finds the session that its packet is about as it expects it, and the two
ends of a session name each other.
-/

namespace UbApplication.Erpc.Sm

open Function

variable {t : System}

namespace System

variable {build : Build} {May : System → SmPkt → Prop} {s : System} {name : Name} {rpc next : Rpc}

/-! ## One Rpc object changes -/

/-- The object that was put. -/
theorem rpcs_put_self : (s.put name next).rpcs name = some next := update_self ..

/-- The other objects stay. -/
theorem rpcs_put_of_ne {other : Name} (apart : other ≠ name) :
    (s.put name next).rpcs other = s.rpcs other := update_of_ne apart ..

/-- An object after a put is the new one or an old one. -/
theorem rpcs_put {other : Name} {held : Rpc} (found : (s.put name next).rpcs other = some held) :
    (other = name ∧ held = next) ∨ (other ≠ name ∧ s.rpcs other = some held) := by
  by_cases same : other = name
  · subst same
    rw [rpcs_put_self, Option.some.injEq] at found
    exact .inl ⟨rfl, found.symm⟩
  · rw [rpcs_put_of_ne same] at found
    exact .inr ⟨same, found⟩

/-- The later put counts. -/
theorem put_put {last : Rpc} : (s.put name next).put name last = s.put name last := by
  rw [put, put, put, update_idem]

variable {pkt : SmPkt}

/-- What is in flight after a put was sent anew or before. -/
theorem inFlight_put (flight : (s.put name next).InFlight pkt) :
    pkt ∈ next.sent ∨ s.InFlight pkt := by
  obtain ⟨sender, member⟩ := flight
  cases sender with
  | none => exact .inr ⟨none, member⟩
  | some other =>
    by_cases same : other = name
    · rw [sentBy, same, rpcs_put_self] at member
      exact .inl member
    · rw [sentBy, rpcs_put_of_ne same] at member
      exact .inr ⟨some other, member⟩

/-- What an object has sent is in flight. -/
theorem inFlight_of_sent (found : s.rpcs name = some rpc) (member : pkt ∈ rpc.sent) :
    s.InFlight pkt := by
  refine ⟨some name, ?_⟩
  rw [sentBy, found]
  exact member

/-- A first object only adds. -/
theorem grows_start (free : s.rpcs name = none) : s.Grows (s.put name next) := by
  intro other rpc found
  have apart : other ≠ name := by
    rintro rfl
    exact absurd (free.symm.trans found) nofun
  exact ⟨rpc, (rpcs_put_of_ne apart).trans found, .refl rpc⟩

variable {number : Nat}

namespace Sound

/-- Soundness after one object is replaced. -/
theorem put (sound : s.Sound build) (grown : s.Grows (s.put name next)) (ok : next.Ok build name)
    (backed : ∀ number session, next.session? number = some session → s.Backed session)
    (asked : ∀ (number : Nat) (made : Session), next.made[number]? = some made →
      made.role = .server → s.Asks made.uniqToken made.client made.server)
    (gone : ∀ (number : Nat) (made : Session), next.made[number]? = some made →
      made.role = .server → next.session? number = none →
        s.Leaving made.client.name made.client.sessionNum)
    (honest : ∀ pkt ∈ next.sent, s.Honest pkt) : (s.put name next).Sound build := by
  constructor
  case ok =>
    intro other held here
    rcases rpcs_put here with ⟨rfl, rfl⟩ | ⟨-, here⟩
    · exact ok
    · exact sound.ok other held here
  case backed =>
    intro other held number session here there client state
    refine Serves.grows ?_ grown
    rcases rpcs_put here with ⟨rfl, rfl⟩ | ⟨-, here⟩
    · exact backed number session there client state
    · exact sound.backed other held number session here there client state
  case asked =>
    rintro other number made ⟨held, here, there⟩ server
    refine Asks.grows ?_ grown
    rcases rpcs_put here with ⟨rfl, rfl⟩ | ⟨-, here⟩
    · exact asked number made there server
    · exact sound.asked other number made ⟨held, here, there⟩ server
  case gone =>
    rintro other number made ⟨held, here, there⟩ server ⟨same, again, inside, none⟩
    cases here.symm.trans again
    refine Leaving.grows ?_ grown
    rcases rpcs_put here with ⟨rfl, rfl⟩ | ⟨-, here⟩
    · exact gone number made there server none
    · exact sound.gone other number made ⟨held, here, there⟩ server ⟨held, here, inside, none⟩
  case honest =>
    intro pkt flight
    rcases inFlight_put flight with member | old
    · exact (honest pkt member).grows grown
    · exact (sound.honest pkt old).grows grown

/-! ## Tokens and numbers tell sessions apart -/

section

variable (sound : s.Sound build)
include sound

variable {token : Nat} {client server : Endpoint} {session : Session}

/-- The session that asks is on record at its client. -/
theorem asks_made (asks : s.Asks token client server) : ∃ rpc made, s.rpcs client.name = some rpc ∧
      rpc.made[client.sessionNum]? = some made ∧ made.role = .client ∧ made.uniqToken = token ∧
      made.client = client ∧ made.server = server.blank ∧
      token = build.token client.name client.sessionNum := by
  obtain ⟨made, ⟨rpc, found, here⟩, role, same, ends, asked⟩ := asks
  have ok := sound.ok client.name rpc found
  have new := (ok.client client.sessionNum made here role).token
  rw [ok.named, same] at new
  exact ⟨rpc, made, found, here, role, same, ends, asked, new⟩

/-- A token is asked for by one client of one server. -/
theorem asks_unique (distinct : Function.Injective2 build.token)
    {other remote : Endpoint} (first : s.Asks token client server)
    (second : s.Asks token other remote) : client = other ∧ server.blank = remote.blank := by
  obtain ⟨rpc, made, found, here, -, -, ends, asked, new⟩ := sound.asks_made first
  obtain ⟨held, same, there, place, -, -, others, wanted, again⟩ := sound.asks_made second
  obtain ⟨names, numbers⟩ := distinct (new.symm.trans again)
  rw [names] at found
  cases found.symm.trans there
  rw [numbers] at here
  cases here.symm.trans place
  exact ⟨ends.symm.trans others, asked.symm.trans wanted⟩

/-- A server serves a token with one session. -/
theorem serves_unique {first second : Nat}
    (one : s.Serves name token first) (two : s.Serves name token second) : first = second := by
  obtain ⟨made, ⟨rpc, found, here⟩, role, rfl⟩ := one
  obtain ⟨other, ⟨held, there, place⟩, function, same⟩ := two
  cases found.symm.trans there
  have ok := sound.ok name rpc found
  have early := (ok.server first made here role).token
  have late := (ok.server second other place function).token
  rw [same, early] at late
  exact Option.some.inj late

/-- The client session that asks, as it is now. -/
theorem client_session (asks : s.Asks token client server) (found : s.rpcs client.name = some rpc)
    (here : rpc.session? client.sessionNum = some session) :
    ∃ made, rpc.made[client.sessionNum]? = some made ∧ made.Follows session ∧
      made.Client build rpc client.sessionNum ∧ made.role = .client ∧ made.uniqToken = token ∧
      made.client = client ∧ made.server = server.blank := by
  obtain ⟨held, made, there, place, role, same, ends, asked, -⟩ := sound.asks_made asks
  cases found.symm.trans there
  have ok := sound.ok client.name rpc found
  exact ⟨made, place, ok.made_of_session place here, ok.client _ made place role, role, same, ends,
    asked⟩

/-- The server session that serves, as it is now. -/
theorem server_session (distinct : Function.Injective2 build.token)
    (asks : s.Asks token client server)
    (serves : s.Serves server.name token server.sessionNum) (found : s.rpcs server.name = some rpc)
    (here : rpc.session? server.sessionNum = some session) :
    session.role = .server ∧ session.state = .connected ∧ session.uniqToken = token ∧
      session.client = client ∧ session.server = server ∧
      session.localSessionNum = server.sessionNum ∧
      session.remoteSessionNum = client.sessionNum ∧
      rpc.made[server.sessionNum]? = some session := by
  obtain ⟨made, ⟨held, there, place⟩, role, rfl⟩ := serves
  cases found.symm.trans there
  have ok := sound.ok server.name rpc found
  cases (ok.made_of_session place here).server_eq role
  have facts := ok.server server.sessionNum session place role
  have asked := sound.asked server.name server.sessionNum session ⟨rpc, found, place⟩ role
  obtain ⟨rfl, blank⟩ := sound.asks_unique distinct asked asks
  exact ⟨role, facts.state, rfl, rfl, Endpoint.eq_of_blank blank facts.ownNumber, facts.stored,
    facts.remote, place⟩

/-- A client session asks with its own token. -/
theorem session_asks (found : s.rpcs name = some rpc)
    (held : rpc.session? number = some session) (role : session.role = .client) :
    s.Asks session.uniqToken session.client session.server ∧ session.client.name = name ∧
      session.client.sessionNum = number := by
  have ok := sound.ok name rpc found
  obtain ⟨made, place, follows⟩ := ok.live number session held
  obtain ⟨same, token, ends, -⟩ := follows.stays
  have client : made.role = .client := same.symm.trans role
  have facts := ok.client number made place client
  have own : session.client = ⟨rpc.transportType, name, number⟩ := by
    rw [ends, facts.client, ok.named]
  refine ⟨⟨made, ?_, client, token.symm, ends.symm, ?_⟩, ?_, ?_⟩
  · rw [own]
    exact ⟨rpc, found, place⟩
  · rw [follows.blank]
    exact Endpoint.eq_of_blank rfl facts.fresh
  · rw [own]
  · rw [own]

/-- A request of a session that waits is honest. -/
theorem smReq_honest (found : s.rpcs name = some rpc) (held : rpc.session? number = some session)
    (waits : session.state = .connectInProgress ∨ session.state = .disconnectInProgress) :
    s.Honest (Rpc.smReq session) := by
  have ok := sound.ok name rpc found
  obtain ⟨made, place, follows⟩ := ok.live number session held
  -- A server session is connected as long as it is there.
  have client : made.role = .client := by
    cases kind : made.role with
    | client => rfl
    | server =>
      have state := (ok.server number made place kind).state
      rw [follows.server_eq kind, state] at waits
      exact absurd waits nofun
  have role : session.role = .client := follows.stays.1.trans client
  obtain ⟨asks, own, ownNumber⟩ := sound.session_asks found held role
  rcases waits with connecting | leaving
  · have type : (Rpc.smReq session).pktType = .connectReq := if_pos connecting
    rw [honest_connectReq type]
    refine ⟨asks, ?_⟩
    cases follows.connecting_eq connecting
    exact (ok.client number session place client).fresh
  · have other : session.state ≠ .connectInProgress := by
      rw [leaving]
      nofun
    have type : (Rpc.smReq session).pktType = .disconnectReq := if_neg other
    rw [honest_disconnectReq type]
    refine ⟨asks, sound.backed name rpc number session found held role other, ?_⟩
    have inside := (List.getElem?_eq_some_iff.mp place).1
    show s.Leaving session.client.name session.client.sessionNum
    rw [own, ownNumber]
    refine ⟨rpc, found, inside, fun same there => ?_⟩
    cases held.symm.trans there
    exact leaving

end

/-! ## What the Rpc objects do to their sessions -/

section

variable (sound : s.Sound build) (found : s.rpcs name = some rpc)
include sound found

/-- A server session that is gone has a client that leaves. -/
theorem left {made : Session} (here : rpc.made[number]? = some made)
    (server : made.role = .server) (none : rpc.session? number = none) :
    s.Leaving made.client.name made.client.sessionNum :=
  sound.gone name number made ⟨rpc, found, here⟩ server
    ⟨rpc, found, (List.getElem?_eq_some_iff.mp here).1, none⟩

/-- Numbers that were made are within the vector. -/
theorem made_lt {made : Session} (place : s.Made name number made) :
    number < rpc.sessionVec.length := by
  obtain ⟨held, there, place⟩ := place
  cases found.symm.trans there
  exact (sound.ok name rpc found).length ▸ (List.getElem?_eq_some_iff.mp place).1

/-- What was sent is honest. -/
theorem sent_honest (member : pkt ∈ rpc.sent) : s.Honest pkt :=
  sound.honest pkt (inFlight_of_sent found member)

/-- Sending honest packets keeps soundness. -/
theorem send (changed : rpc.Changed next) (sessions : next.sessionVec = rpc.sessionVec)
    (sent : ∀ pkt ∈ next.sent, s.Honest pkt) : (s.put name next).Sound build := by
  have slots (number : Nat) : next.session? number = rpc.session? number := by
    rw [Rpc.session?, sessions]
    rfl
  refine sound.put (grows_put found (changed.grows_same sessions)) ?_ ?_ ?_ ?_ sent
  · exact changed.ok (sound.ok name rpc found) fun number session here => .inl (slots number ▸ here)
  · exact fun number session here =>
      sound.backed name rpc number session found (slots number ▸ here)
  · exact fun number made here => sound.asked name number made ⟨rpc, found, changed.made ▸ here⟩
  · exact fun number made here server none =>
      sound.left found (changed.made ▸ here) server (slots number ▸ none)

/-- Replacing a session keeps soundness. -/
theorem slot (changed : rpc.Changed next) {slot : Option Session} {old made : Session}
    (sessions : next.sessionVec = rpc.sessionVec.set number slot) (sent : next.sent = rpc.sent)
    (held : rpc.session? number = some old) (place : rpc.made[number]? = some made)
    (follows : ∀ session, slot = some session → made.Follows session ∧ s.Backed session ∧
      old.state ≠ .disconnectInProgress) (gone : made.role = .server → slot = none →
      s.Leaving made.client.name made.client.sessionNum) : (s.put name next).Sound build := by
  have slots := Rpc.session?_slot held sessions
  have grows := changed.grows_slot held sessions fun session here => (follows session here).2.2
  refine sound.put (grows_put found grows) ?_ ?_ ?_ ?_ fun pkt member =>
    sound.sent_honest found (sent ▸ member)
  · refine changed.ok (sound.ok name rpc found) fun other session here => ?_
    rw [slots] at here
    split at here
    case isTrue same => exact .inr ⟨made, same ▸ place, (follows session here).1⟩
    case isFalse => exact .inl here
  · intro other session here
    rw [slots] at here
    split at here
    case isTrue => exact (follows session here).2.1
    case isFalse => exact sound.backed name rpc other session found here
  · exact fun number made here => sound.asked name number made ⟨rpc, found, changed.made ▸ here⟩
  · intro other which here server none
    rw [changed.made] at here
    rw [slots] at none
    split at none
    case isTrue same =>
      subst same
      cases place.symm.trans here
      exact gone server none
    case isFalse => exact sound.left found here server none

/-- Adding a session keeps soundness. -/
theorem push {session : Session} (pushed : rpc.Pushed next session) (ok : next.Ok build name)
    (sent : next.sent = rpc.sent)
    (fresh : session.role = .client → session.state = .connectInProgress)
    (asked : session.role = .server → s.Asks session.uniqToken session.client session.server) :
    (s.put name next).Sound build := by
  have before := sound.ok name rpc found
  refine sound.put (grows_put found (pushed.grows before)) ok ?_ ?_ ?_ fun pkt member =>
    sound.sent_honest found (sent ▸ member)
  · intro number other here
    rw [pushed.session?_eq] at here
    split at here
    case isTrue =>
      cases here
      exact fun client state => absurd (fresh client) state
    case isFalse => exact sound.backed name rpc number other found here
  · intro number made here
    rcases pushed.made_cases here with old | ⟨-, rfl⟩
    · exact sound.asked name number made ⟨rpc, found, old⟩
    · exact asked
  · intro number made here server none
    rw [pushed.session?_eq] at none
    split at none
    case isTrue => contradiction
    case isFalse other =>
      rcases pushed.made_cases here with old | ⟨last, -⟩
      · exact sound.left found old server none
      · exact absurd (last.trans before.length) other

end

end Sound

/-! ## What the Rpc objects may do -/

/-- Why an Rpc object sends a packet. -/
inductive Sends (s : System) (name : Name) (rpc : Rpc) : SmPkt → Prop
  | request {number : Nat} {session : Session} (held : rpc.session? number = some session)
      (waits : session.state = .connectInProgress ∨ session.state = .disconnectInProgress) :
      Sends s name rpc (Rpc.smReq session)
  | refuse {pkt : SmPkt} {err : SmErrType} (flight : s.InFlight pkt)
      (type : pkt.pktType = .connectReq) (target : pkt.server.name = name) (wrong : err ≠ .noError)
      (fresh : rpc.connReqTokenMap pkt.uniqToken = none) :
      Sends s name rpc (pkt.constructResp err)
  | grant {pkt : SmPkt} {number : Nat} {session : Session} (flight : s.InFlight pkt)
      (type : pkt.pktType = .connectReq) (target : pkt.server.name = name)
      (known : rpc.connReqTokenMap pkt.uniqToken = some number)
      (held : rpc.session? number = some session) :
      Sends s name rpc { pkt.constructResp .noError with server := session.server }
  | confirm {pkt : SmPkt} (flight : s.InFlight pkt) (type : pkt.pktType = .disconnectReq)
      (target : pkt.server.name = name) (gone : rpc.session? pkt.server.sessionNum = none) :
      Sends s name rpc (pkt.constructResp .noError)

/-- Why a session changes or goes. -/
inductive Replaces (s : System) (name : Name) (rpc : Rpc) (old : Session) :
    Nat → Option Session → Prop
  | answered {pkt : SmPkt} (flight : s.InFlight pkt) (type : pkt.pktType = .connectResp)
      (target : pkt.client.name = name) (fine : pkt.errType = .noError)
      (state : old.state = .connectInProgress) :
      Replaces s name rpc old pkt.client.sessionNum (some (old.answered pkt.server))
  | unreached {pkt : SmPkt} (flight : s.InFlight pkt) (type : pkt.pktType = .connectResp)
      (target : pkt.client.name = name) (fine : pkt.errType = .noError)
      (state : old.state = .connectInProgress) :
      Replaces s name rpc old pkt.client.sessionNum (some (old.unreached pkt.server))
  | left {number : Nat} (role : old.role = .client) (state : old.state = .connected) :
      Replaces s name rpc old number (some old.leaving)
  | failed {pkt : SmPkt} (flight : s.InFlight pkt) (type : pkt.pktType = .connectResp)
      (target : pkt.client.name = name) (wrong : pkt.errType ≠ .noError)
      (fatal : ¬ (pkt.errType = .invalidRemoteRpcId ∧ rpc.retry = true)) :
      Replaces s name rpc old pkt.client.sessionNum none
  | finished {pkt : SmPkt} (flight : s.InFlight pkt) (type : pkt.pktType = .disconnectResp)
      (target : pkt.client.name = name) : Replaces s name rpc old pkt.client.sessionNum none
  | freed {pkt : SmPkt} (flight : s.InFlight pkt) (type : pkt.pktType = .disconnectReq)
      (target : pkt.server.name = name) : Replaces s name rpc old pkt.server.sessionNum none

/-- One thing at a time that changes sessions or sends packets. Connect requests are accepted only
where they may be. -/
inductive Move (build : Build) (May : System → SmPkt → Prop) (s : System) : System → Prop
  | start (name : Name) (transportType : Nat) (retry : Bool) (free : s.rpcs name = none) :
      Move build May s (s.put name (.new build name transportType retry))
  | nexus (pkt : SmPkt) (flight : s.InFlight pkt) (request : pkt.pktType.isReq = true)
      (missing : s.rpcs pkt.target = none) :
      Move build May s { s with nexus := s.nexus ++ [pkt.constructResp .invalidRemoteRpcId] }
  | quiet {name : Name} {rpc next : Rpc} (found : s.rpcs name = some rpc)
      (changed : rpc.Changed next) (sessions : next.sessionVec = rpc.sessionVec)
      (sent : next.sent = rpc.sent) : Move build May s (s.put name next)
  | send {name : Name} {rpc next : Rpc} {pkt : SmPkt} (found : s.rpcs name = some rpc)
      (changed : rpc.Changed next) (sessions : next.sessionVec = rpc.sessionVec)
      (sends : s.Sends name rpc pkt) (sent : next.sent = rpc.sent ++ [pkt]) :
      Move build May s (s.put name next)
  | slot {name : Name} {rpc next : Rpc} {number : Nat} {old : Session} {slot : Option Session}
      (found : s.rpcs name = some rpc) (changed : rpc.Changed next)
      (held : rpc.session? number = some old) (replaces : s.Replaces name rpc old number slot)
      (sessions : next.sessionVec = rpc.sessionVec.set number slot) (sent : next.sent = rpc.sent) :
      Move build May s (s.put name next)
  | create {name remote : Name} {rpc next : Rpc} (found : s.rpcs name = some rpc)
      (room : rpc.sessionVec.length < invalidSessionNum)
      (pushed : rpc.Pushed next (rpc.newSession build remote))
      (tokens : next.connReqTokenMap = rpc.connReqTokenMap) (sent : next.sent = rpc.sent) :
      Move build May s (s.put name next)
  | accept {name : Name} {rpc next : Rpc} {pkt : SmPkt} (found : s.rpcs name = some rpc)
      (room : rpc.sessionVec.length < invalidSessionNum) (flight : s.InFlight pkt)
      (type : pkt.pktType = .connectReq) (target : pkt.server.name = name) (may : May s pkt)
      (fresh : rpc.connReqTokenMap pkt.uniqToken = none)
      (pushed : rpc.Pushed next (rpc.serverSession pkt))
      (tokens : next.connReqTokenMap = Function.update rpc.connReqTokenMap pkt.uniqToken
        (some (rpc.serverSession pkt).localSessionNum))
      (sent : next.sent = rpc.sent) : Move build May s (s.put name next)

namespace Sound

variable {pkt : SmPkt}

/-- The type of a response. -/
theorem constructResp_pktType {type : SmPktType} (err : SmErrType) (same : pkt.pktType = type) :
    (pkt.constructResp err).pktType = type.reqToResp := by
  rw [SmPkt.constructResp, same]

section

variable (sound : s.Sound build)
include sound

/-- Every packet of a handler is honest. -/
theorem sends_honest (distinct : Function.Injective2 build.token)
    (found : s.rpcs name = some rpc) (sends : s.Sends name rpc pkt) :
    s.Honest pkt := by
  cases sends with
  | request held waits => exact sound.smReq_honest found held waits
  | @refuse pkt err flight type target wrong fresh =>
    have honest := (honest_connectReq type).mp (sound.honest pkt flight)
    exact (honest_connectResp (constructResp_pktType err type)).mpr
      ⟨honest.1, fun fine => absurd fine wrong⟩
  | @grant pkt number session flight type target known held =>
    obtain ⟨asks, -⟩ := (honest_connectReq type).mp (sound.honest pkt flight)
    have ok := sound.ok name rpc found
    obtain ⟨made, place, role, token⟩ := ok.tokens _ number known
    cases (ok.made_of_session place held).server_eq role
    have facts := ok.server number session place role
    have asked := sound.asked name number session ⟨rpc, found, place⟩ role
    rw [token] at asked
    obtain ⟨same, -⟩ := sound.asks_unique distinct asks asked
    have reply : { pkt.constructResp .noError with server := session.server }.pktType =
        .connectResp := constructResp_pktType .noError type
    refine (honest_connectResp reply).mpr ⟨?_, fun _ => ?_⟩
    · show s.Asks pkt.uniqToken pkt.client session.server
      rw [same]
      exact asked
    · show s.Serves session.server.name pkt.uniqToken session.server.sessionNum
      rw [facts.name, ok.named, facts.ownNumber]
      exact ⟨session, ⟨rpc, found, place⟩, role, token⟩
  | @confirm pkt flight type target gone =>
    obtain ⟨asks, serves, leaving⟩ := (honest_disconnectReq type).mp (sound.honest pkt flight)
    refine (honest_disconnectResp (constructResp_pktType .noError type)).mpr
      ⟨asks, rfl, serves, leaving, ?_⟩
    obtain ⟨made, ⟨held, there, place⟩, -, -⟩ := serves
    have same : s.rpcs pkt.server.name = some rpc := target ▸ found
    cases same.symm.trans there
    exact ⟨rpc, same, (List.getElem?_eq_some_iff.mp place).1, gone⟩

/-- A replaced session follows from how it was made. -/
theorem replaces_follows (found : s.rpcs name = some rpc)
    {old made session : Session} (held : rpc.session? number = some old)
    (place : rpc.made[number]? = some made)
    (replaces : s.Replaces name rpc old number (some session)) :
    made.Follows session ∧ s.Backed session ∧ old.state ≠ .disconnectInProgress := by
  have ok := sound.ok name rpc found
  have follows := ok.made_of_session place held
  -- A connect response is about the session as it was made.
  have heard {pkt : SmPkt} (flight : s.InFlight pkt) (type : pkt.pktType = .connectResp)
      (target : pkt.client.name = name) (fine : pkt.errType = .noError)
      (state : old.state = .connectInProgress) (here : number = pkt.client.sessionNum) :
      old = made ∧ made.role = .client ∧ made.server = pkt.server.blank ∧
        s.Serves pkt.server.name made.uniqToken pkt.server.sessionNum := by
    obtain ⟨asks, serves⟩ := (honest_connectResp type).mp (sound.honest pkt flight)
    subst here
    subst target
    obtain ⟨same, there, -, -, role, token, -, asked⟩ := sound.client_session asks found held
    cases place.symm.trans there
    exact ⟨follows.connecting_eq state, role, asked, token ▸ serves fine⟩
  cases replaces with
  | answered flight type target fine state =>
    obtain ⟨rfl, role, asked, serves⟩ := heard flight type target fine state rfl
    exact ⟨.answered _ role asked, fun _ _ => serves, by rw [state]; nofun⟩
  | unreached flight type target fine state =>
    obtain ⟨rfl, role, asked, serves⟩ := heard flight type target fine state rfl
    exact ⟨.unreached _ role asked, fun _ _ => serves, by rw [state]; nofun⟩
  | left role state =>
    have backed := sound.backed name rpc number old found held role (by rw [state]; nofun)
    refine ⟨?_, fun _ _ => backed, by rw [state]; nofun⟩
    have client : made.role = .client := follows.stays.1.symm.trans role
    cases follows with
    | made =>
      have waits := (ok.client number old place client).state
      exact absurd (waits.symm.trans state) nofun
    | answered server client asked => exact .leaving server client asked
    | leaving | unreached => contradiction

/-- A server session is removed only when its client leaves. -/
theorem replaces_leaving (distinct : Function.Injective2 build.token)
    (found : s.rpcs name = some rpc) {old made : Session}
    (held : rpc.session? number = some old) (place : rpc.made[number]? = some made)
    (server : made.role = .server) (replaces : s.Replaces name rpc old number none) :
    s.Leaving made.client.name made.client.sessionNum := by
  -- A response is about a client session.
  have never {pkt : SmPkt} (flight : s.InFlight pkt) (target : pkt.client.name = name)
      (here : number = pkt.client.sessionNum) : False := by
    have asks := (sound.honest pkt flight).1
    subst here
    subst target
    obtain ⟨same, there, -, -, role, -⟩ := sound.client_session asks found held
    cases place.symm.trans there
    exact absurd (role.symm.trans server) nofun
  cases replaces with
  | failed flight _ target _ _ => exact (never flight target rfl).elim
  | finished flight _ target => exact (never flight target rfl).elim
  | @freed pkt flight type target =>
    obtain ⟨asks, serves, leaving⟩ := (honest_disconnectReq type).mp (sound.honest pkt flight)
    subst target
    have facts := sound.server_session distinct asks serves found held
    cases place.symm.trans facts.2.2.2.2.2.2.2
    rw [facts.2.2.2.1]
    exact leaving

/-- A new object is sound. -/
theorem start {transportType : Nat} {retry : Bool} (free : s.rpcs name = none) :
    (s.put name (.new build name transportType retry)).Sound build := by
  refine sound.put (grows_start free) ⟨rfl, rfl, nofun, nofun, nofun, nofun⟩ ?_ ?_ ?_ ?_
  all_goals nofun

/-- The answer of a Nexus is honest. -/
theorem nexus (flight : s.InFlight pkt)
    (request : pkt.pktType.isReq = true) (missing : s.rpcs pkt.target = none) :
    { s with nexus := s.nexus ++ [pkt.constructResp .invalidRemoteRpcId] }.Sound build := by
  have honest := sound.honest pkt flight
  have target : pkt.target = pkt.server.name := if_pos request
  have type : pkt.pktType = .connectReq := by
    cases type : pkt.pktType with
    | connectReq => rfl
    | disconnectReq =>
      obtain ⟨-, ⟨made, ⟨rpc, found, -⟩, -⟩, -⟩ := (honest_disconnectReq type).mp honest
      exact absurd ((target ▸ missing).symm.trans found) nofun
    | connectResp | disconnectResp =>
      rw [type] at request
      contradiction
  refine { sound with honest := ?_ }
  rintro other ⟨sender, member⟩
  cases sender with
  | some name => exact sound.honest other ⟨some name, member⟩
  | none =>
    rcases List.mem_append.mp member with old | new
    · exact sound.honest other ⟨none, old⟩
    · rw [List.mem_singleton.mp new]
      exact (honest_connectResp (constructResp_pktType _ type)).mpr
        ⟨((honest_connectReq type).mp honest).1, fun fine => absurd fine nofun⟩

end

/-- A session number that fits is not truncated. -/
theorem sessionNumber_eq {size : Nat} (room : size < invalidSessionNum) :
    sessionNumber size = size :=
  Nat.mod_eq_of_lt (Nat.lt_trans room (by decide))

/-- `create_session` keeps soundness. -/
theorem create (sound : s.Sound build) {remote : Name} (found : s.rpcs name = some rpc)
    (room : rpc.sessionVec.length < invalidSessionNum)
    (pushed : rpc.Pushed next (rpc.newSession build remote))
    (tokens : next.connReqTokenMap = rpc.connReqTokenMap) (sent : next.sent = rpc.sent) :
    (s.put name next).Sound build := by
  have ok := sound.ok name rpc found
  refine sound.push found pushed ?_ sent (fun _ => rfl) nofun
  refine pushed.ok ok ?_ ?_ ?_ nofun
  · exact fun token number here => tokens ▸ here
  · exact fun token number here => .inl (tokens ▸ here)
  · intro _
    rw [ok.length]
    constructor
    · rw [pushed.name]
      rfl
    · rfl
    · rw [pushed.name, pushed.transportType]
      simp only [Rpc.newSession, sessionNumber_eq room]
    · rfl
    · exact sessionNumber_eq room

/-- Accepting a connect request keeps soundness. -/
theorem accept (sound : s.Sound build) (found : s.rpcs name = some rpc)
    (room : rpc.sessionVec.length < invalidSessionNum) (flight : s.InFlight pkt)
    (target : pkt.server.name = name)
    (fresh : rpc.connReqTokenMap pkt.uniqToken = none)
    (pushed : rpc.Pushed next (rpc.serverSession pkt))
    (tokens : next.connReqTokenMap = Function.update rpc.connReqTokenMap pkt.uniqToken
      (some (rpc.serverSession pkt).localSessionNum))
    (sent : next.sent = rpc.sent) : (s.put name next).Sound build := by
  have ok := sound.ok name rpc found
  have number : (rpc.serverSession pkt).localSessionNum = rpc.made.length :=
    (sessionNumber_eq room).trans ok.length.symm
  rw [number] at tokens
  refine sound.push found pushed ?_ sent nofun fun _ => (sound.honest pkt flight).1
  refine pushed.ok ok ?_ ?_ nofun ?_
  · intro token number here
    have other : token ≠ pkt.uniqToken := by
      rintro rfl
      exact absurd (fresh.symm.trans here) nofun
    rw [tokens, update_of_ne other]
    exact here
  · intro token number here
    by_cases same : token = pkt.uniqToken
    · subst same
      rw [tokens, update_self, Option.some.injEq] at here
      exact .inr ⟨here.symm, rfl, rfl⟩
    · rw [tokens, update_of_ne same] at here
      exact .inl here
  · intro _
    constructor
    · rw [tokens]
      exact update_self ..
    · rfl
    · rw [pushed.name, ok.named]
      exact target
    · exact number
    · exact number
    · rfl

/-- Every move keeps soundness. -/
theorem move (sound : s.Sound build) (distinct : Function.Injective2 build.token)
    (move : s.Move build May t) : t.Sound build := by
  cases move with
  | start name transportType retry free => exact sound.start free
  | nexus pkt flight request missing => exact sound.nexus flight request missing
  | quiet found changed sessions sent =>
    exact sound.send found changed sessions fun pkt member =>
      sound.sent_honest found (sent ▸ member)
  | send found changed sessions sends sent =>
    refine sound.send found changed sessions fun pkt member => ?_
    rw [sent] at member
    rcases List.mem_append.mp member with old | new
    · exact sound.sent_honest found old
    · rw [List.mem_singleton.mp new]
      exact sound.sends_honest distinct found sends
  | @slot name rpc next number old slot found changed held replaces sessions sent =>
    obtain ⟨made, place, follows⟩ := (sound.ok name rpc found).live number old held
    refine sound.slot found changed sessions sent held place ?_ ?_
    · rintro session rfl
      exact sound.replaces_follows found held place replaces
    · rintro server rfl
      exact sound.replaces_leaving distinct found held place server replaces
  | create found room pushed tokens sent => exact sound.create found room pushed tokens sent
  | accept found room flight type target _ fresh pushed tokens sent =>
    exact sound.accept found room flight target fresh pushed tokens sent

end Sound

/-- Every move only adds. -/
theorem Sound.grows (sound : s.Sound build) (move : s.Move build May t) :
    s.Grows t := by
  cases move with
  | start name transportType retry free =>
    exact grows_start free
  | nexus => exact fun name rpc found => ⟨rpc, found, .refl rpc⟩
  | quiet found changed sessions | send found changed sessions =>
    exact grows_put found (changed.grows_same sessions)
  | @slot name rpc next number old slot found changed held replaces sessions sent =>
    obtain ⟨made, place, -⟩ := (sound.ok name rpc found).live number old held
    refine grows_put found (changed.grows_slot held sessions ?_)
    rintro session rfl
    exact (sound.replaces_follows found held place replaces).2.2
  | create found _ pushed | accept found _ _ _ _ _ _ pushed =>
    exact grows_put found (pushed.grows (sound.ok _ _ found))

/-- A move forgets no packet. -/
theorem Move.inFlight (move : s.Move build May t) (flight : s.InFlight pkt) :
    t.InFlight pkt := by
  obtain ⟨sender, member⟩ := flight
  have other {name : Name} {rpc next : Rpc} (found : s.rpcs name = some rpc)
      (sent : ∀ pkt ∈ rpc.sent, pkt ∈ next.sent) : (s.put name next).InFlight pkt := by
    cases sender with
    | none => exact ⟨none, member⟩
    | some sender =>
      by_cases same : sender = name
      · rw [sentBy, same, found] at member
        exact inFlight_of_sent rpcs_put_self (sent pkt member)
      · refine ⟨some sender, ?_⟩
        rw [sentBy, rpcs_put_of_ne same]
        exact member
  cases move with
  | start name transportType retry free =>
    cases sender with
    | none => exact ⟨none, member⟩
    | some sender =>
      refine ⟨some sender, ?_⟩
      have apart : sender ≠ name := by
        rintro rfl
        rw [sentBy, free] at member
        contradiction
      rw [sentBy, rpcs_put_of_ne apart]
      exact member
  | nexus =>
    cases sender with
    | none => exact ⟨none, List.mem_append_left _ member⟩
    | some sender => exact ⟨some sender, member⟩
  | quiet found _ _ sent | slot found _ _ _ _ sent | create found _ _ _ sent
  | accept found _ _ _ _ _ _ _ _ sent =>
    exact other found fun pkt member => sent ▸ member
  | send found _ _ _ sent =>
    refine other found fun pkt member => ?_
    rw [sent]
    exact List.mem_append_left _ member

/-- Any number of moves. -/
def Moves (build : Build) (May : System → SmPkt → Prop) : System → System → Prop :=
  Relation.ReflTransGen (Move build May)

/-- No packet is forgotten on the way. -/
theorem Moves.inFlight (moves : Moves build May s t) (flight : s.InFlight pkt) :
    t.InFlight pkt := by
  induction moves with
  | refl => exact flight
  | tail _ move ih => exact move.inFlight ih

/-- Soundness along moves. -/
theorem Sound.moves (sound : s.Sound build)
    (distinct : Function.Injective2 build.token) (moves : Moves build May s t) : t.Sound build := by
  induction moves with
  | refl => exact sound
  | tail _ move ih => exact ih.move distinct move

end System

end UbApplication.Erpc.Sm
