import UbApplication.Erpc.Management

/-!
# Rpc objects on a network

Any number of Rpc objects exchange management packets. A packet that was sent may be delivered at
any later time, any number of times or never. Where no Rpc object has the name that a request is
for, the management thread of the Nexus answers.
-/

namespace UbApplication.Erpc.Sm

/-- All Rpc objects, and what the management threads have sent. -/
structure System where
  rpcs : Name → Option Rpc
  nexus : List SmPkt

/-- What may happen. -/
inductive SystemLabel where
  /-- An Rpc object is made under a free name. -/
  | start (name : Name) (transportType : Nat) (retry : Bool)
  /-- A program calls its Rpc object. -/
  | api (name : Name) (call : Api)
  /-- A packet of an Rpc object, or of a management thread, is delivered. -/
  | deliver (sender : Option Name) (pkt : SmPkt) (chance : Rpc.Chance)
  /-- An Rpc object looks for lost packets. -/
  | scan (name : Name) (timedOut : Nat → Bool)

namespace System

/-- No Rpc object is there yet. -/
def initial : System := ⟨fun _ => none, []⟩

variable (build : Build) (s : System)

def put (name : Name) (rpc : Rpc) : System :=
  { s with rpcs := Function.update s.rpcs name (some rpc) }

def sentBy : Option Name → List SmPkt
  | none => s.nexus
  | some name => (s.rpcs name).elim [] Rpc.sent

/-- A packet arrives at the Nexus of its target. -/
def arrive (pkt : SmPkt) (chance : Rpc.Chance) : Except Fault System :=
  match s.rpcs pkt.target with
  | some rpc => (rpc.handleSmRx build pkt chance).map (s.put pkt.target)
  | none =>
    if pkt.pktType.isReq then
      .ok { s with nexus := s.nexus ++ [pkt.constructResp .invalidRemoteRpcId] }
    else .ok s

/-- What happens, and with what fault if any. A packet that was not sent is not delivered. -/
def act : SystemLabel → Option (Except Fault System)
  | .start name transportType retry =>
    if (s.rpcs name).isSome then none
    else some (.ok (s.put name (.new build name transportType retry)))
  | .api name call => (s.rpcs name).map fun rpc => (rpc.api build call).map (s.put name)
  | .deliver sender pkt chance =>
    if pkt ∈ s.sentBy sender then some (s.arrive build pkt chance) else none
  | .scan name timedOut => (s.rpcs name).map fun rpc => .ok (s.put name (rpc.pktLossScan timedOut))

def step (label : SystemLabel) : Option System := (s.act build label).bind Except.toOption

/-- An Rpc object has numbers for that many more sessions. -/
def RoomAt (name : Name) (more : Nat) : Prop :=
  ∀ rpc ∈ s.rpcs name, rpc.sessionVec.length + more ≤ invalidSessionNum

/-- The session numbers are not exhausted by what happens. -/
def Spare : SystemLabel → Prop
  | .start _ _ _ => True
  | .api name _ => s.RoomAt name 1
  | .deliver _ pkt chance => s.RoomAt pkt.target (1 + chance.calls.length)
  | .scan _ _ => True

instance (name : Name) (more : Nat) : Decidable (s.RoomAt name more) :=
  inferInstanceAs (Decidable (∀ _ ∈ _, _))

instance : ∀ label, Decidable (s.Spare label)
  | .start _ _ _ => .isTrue trivial
  | .api name _ => inferInstanceAs (Decidable (s.RoomAt name 1))
  | .deliver _ pkt _ => inferInstanceAs (Decidable (s.RoomAt pkt.target _))
  | .scan _ _ => .isTrue trivial

/-- A packet has been sent. -/
def InFlight (pkt : SmPkt) : Prop := ∃ sender, pkt ∈ s.sentBy sender

end System

/-- An endpoint whose session number is not known. -/
def Endpoint.blank (endpoint : Endpoint) : Endpoint :=
  { endpoint with sessionNum := invalidSessionNum }

variable {first second : Endpoint}

/-- Endpoints that agree on all fields. -/
theorem Endpoint.eq_of_blank (blank : first.blank = second.blank)
    (number : first.sessionNum = second.sessionNum) : first = second := by
  cases first
  cases second
  simp only [Endpoint.blank, Endpoint.mk.injEq] at blank
  simp only [Endpoint.mk.injEq]
  exact ⟨blank.1, blank.2.1, number⟩

/-- The name of an endpoint does not depend on the session number. -/
theorem Endpoint.name_of_blank (blank : first.blank = second.blank) : first.name = second.name := by
  have names : first.blank.name = second.blank.name := congrArg Endpoint.name blank
  exact names

namespace System

/-! ## What stays true -/

section Facts

variable (s : System)

/-- A session was made, as it is given. -/
def Made (name : Name) (number : Nat) (made : Session) : Prop :=
  ∃ rpc, s.rpcs name = some rpc ∧ rpc.made[number]? = some made

/-- A client session was made that asks a server for a session with a token. -/
def Asks (token : Nat) (client server : Endpoint) : Prop :=
  ∃ made, s.Made client.name client.sessionNum made ∧ made.role = .client ∧
    made.uniqToken = token ∧ made.client = client ∧ made.server = server.blank

/-- A server session was made for a token. -/
def Serves (name : Name) (token number : Nat) : Prop :=
  ∃ made, s.Made name number made ∧ made.role = .server ∧ made.uniqToken = token

/-- A session was made and disconnects or is gone. -/
def Leaving (name : Name) (number : Nat) : Prop :=
  ∃ rpc, s.rpcs name = some rpc ∧ number < rpc.made.length ∧
    ∀ session, rpc.session? number = some session → session.state = .disconnectInProgress

/-- A session was made and is gone. -/
def Gone (name : Name) (number : Nat) : Prop :=
  ∃ rpc, s.rpcs name = some rpc ∧ number < rpc.made.length ∧ rpc.session? number = none

end Facts

end System

/-- An Rpc object later: no session that was made is forgotten, none that is gone comes back, and
none that disconnects does anything else. -/
structure Rpc.Grows (before after : Rpc) : Prop where
  made : before.made <+: after.made
  slots : ∀ number, number < before.made.length → ∀ session, after.session? number = some session →
    ∃ old, before.session? number = some old ∧
      (old.state = .disconnectInProgress → session.state = .disconnectInProgress)

/-- Nothing changes. -/
theorem Rpc.Grows.refl (rpc : Rpc) : rpc.Grows rpc :=
  ⟨List.prefix_rfl, fun _ _ session found => ⟨session, found, id⟩⟩

/-- The Rpc objects later. -/
def System.Grows (before after : System) : Prop :=
  ∀ name rpc, before.rpcs name = some rpc → ∃ later, after.rpcs name = some later ∧ rpc.Grows later

variable {number : Nat} {made : Session}

namespace System

variable {s t : System} {name : Name} {rpc next : Rpc}

/-- One object grows. -/
theorem grows_put (found : s.rpcs name = some rpc) (grows : rpc.Grows next) :
    s.Grows (s.put name next) := by
  intro other held here
  by_cases same : other = name
  · subst same
    cases found.symm.trans here
    exact ⟨next, Function.update_self .., grows⟩
  · exact ⟨held, (Function.update_of_ne same ..).trans here, .refl held⟩

/-- A session that was made stays made. -/
theorem Made.grows (fact : s.Made name number made)
    (grows : s.Grows t) : t.Made name number made := by
  obtain ⟨rpc, found, here⟩ := fact
  obtain ⟨later, there, grown⟩ := grows name rpc found
  obtain ⟨rest, whole⟩ := grown.made
  refine ⟨later, there, ?_⟩
  rw [← whole, List.getElem?_append_left (List.getElem?_eq_some_iff.mp here).1]
  exact here

/-- What was asked for stays asked for. -/
theorem Asks.grows {token : Nat} {client server : Endpoint} (fact : s.Asks token client server)
    (grows : s.Grows t) : t.Asks token client server := by
  obtain ⟨made, here, rest⟩ := fact
  exact ⟨made, here.grows grows, rest⟩

/-- What is served stays served. -/
theorem Serves.grows {token number : Nat} (fact : s.Serves name token number)
    (grows : s.Grows t) : t.Serves name token number := by
  obtain ⟨made, here, rest⟩ := fact
  exact ⟨made, here.grows grows, rest⟩

/-- A session that leaves does not come back. -/
theorem Leaving.grows (fact : s.Leaving name number) (grows : s.Grows t) :
    t.Leaving name number := by
  obtain ⟨rpc, found, inside, leaving⟩ := fact
  obtain ⟨later, there, grown⟩ := grows name rpc found
  refine ⟨later, there, Nat.lt_of_lt_of_le inside grown.made.length_le, fun session here => ?_⟩
  obtain ⟨old, before, stays⟩ := grown.slots number inside session here
  exact stays (leaving old before)

/-- A session that is gone stays gone. -/
theorem Gone.grows (fact : s.Gone name number) (grows : s.Grows t) : t.Gone name number := by
  obtain ⟨rpc, found, inside, gone⟩ := fact
  obtain ⟨later, there, grown⟩ := grows name rpc found
  refine ⟨later, there, Nat.lt_of_lt_of_le inside grown.made.length_le, ?_⟩
  cases here : later.session? number with
  | none => rfl
  | some session =>
    obtain ⟨old, before, -⟩ := grown.slots number inside session here
    exact absurd (gone.symm.trans before) nofun

end System

/-! ## What holds of each Rpc object -/

/-- What becomes of a session, from how it was made. -/
inductive Session.Follows (made : Session) : Session → Prop
  | made : Follows made made
  | answered (server : Endpoint) (client : made.role = .client)
      (asked : made.server = server.blank) : Follows made (made.answered server)
  | leaving (server : Endpoint) (client : made.role = .client)
      (asked : made.server = server.blank) : Follows made (made.answered server).leaving
  | unreached (server : Endpoint) (client : made.role = .client)
      (asked : made.server = server.blank) : Follows made (made.unreached server)

namespace Session.Follows

variable {made session : Session}

section

variable (follows : made.Follows session)
include follows

/-- What never changes of a session. -/
theorem stays : session.role = made.role ∧
    session.uniqToken = made.uniqToken ∧ session.client = made.client ∧
    session.localSessionNum = made.localSessionNum := by
  cases follows <;> exact ⟨rfl, rfl, rfl, rfl⟩

/-- The server of a session changes in its number only. -/
theorem blank : session.server.blank = made.server.blank := by
  cases follows with
  | made => rfl
  | answered server client asked | leaving server client asked | unreached server client asked =>
    rw [asked]
    rfl

/-- A server session stays as it was made. -/
theorem server_eq (server : made.role = .server) : session = made := by
  cases follows with
  | made => rfl
  | answered _ client _ | leaving _ client _ | unreached _ client _ =>
    exact absurd (client.symm.trans server) nofun

/-- A session that still connects is as it was made. -/
theorem connecting_eq (state : session.state = .connectInProgress) : session = made := by
  cases follows with
  | made => rfl
  | answered | leaving | unreached => contradiction

end

end Session.Follows

/-- What is true of each client session when it is made. -/
structure Session.Client (build : Build) (rpc : Rpc) (number : Nat) (made : Session) : Prop where
  token : made.uniqToken = build.token rpc.name number
  state : made.state = .connectInProgress
  client : made.client = ⟨rpc.transportType, rpc.name, number⟩
  fresh : made.server.sessionNum = invalidSessionNum
  stored : made.localSessionNum = number

/-- What is true of each server session when it is made. -/
structure Session.Server (rpc : Rpc) (number : Nat) (made : Session) : Prop where
  token : rpc.connReqTokenMap made.uniqToken = some number
  state : made.state = .connected
  name : made.server.name = rpc.name
  ownNumber : made.server.sessionNum = number
  stored : made.localSessionNum = number
  remote : made.remoteSessionNum = made.client.sessionNum

/-- What holds of an Rpc object by itself. -/
structure Rpc.Ok (build : Build) (name : Name) (rpc : Rpc) : Prop where
  named : rpc.name = name
  length : rpc.made.length = rpc.sessionVec.length
  client : ∀ (number : Nat) (made : Session), rpc.made[number]? = some made → made.role = .client →
    made.Client build rpc number
  server : ∀ (number : Nat) (made : Session), rpc.made[number]? = some made → made.role = .server →
    made.Server rpc number
  tokens : ∀ (token number : Nat), rpc.connReqTokenMap token = some number →
    ∃ made : Session, rpc.made[number]? = some made ∧ made.role = .server ∧ made.uniqToken = token
  live : ∀ (number : Nat) (session : Session), rpc.session? number = some session →
    ∃ made : Session, rpc.made[number]? = some made ∧ made.Follows session

/-- A live session follows from how it was made. -/
theorem Rpc.Ok.made_of_session {build : Build} {name : Name} {rpc : Rpc} (ok : rpc.Ok build name)
    {made session : Session} (here : rpc.made[number]? = some made)
    (found : rpc.session? number = some session) : made.Follows session := by
  obtain ⟨same, there, follows⟩ := ok.live number session found
  cases here.symm.trans there
  exact follows

/-- A session knows its number. -/
theorem Rpc.Ok.stored {build : Build} {name : Name} {rpc : Rpc} (ok : rpc.Ok build name)
    {session : Session} (found : rpc.session? number = some session) :
    session.localSessionNum = number := by
  obtain ⟨made, place, follows⟩ := ok.live number session found
  rw [follows.stays.2.2.2]
  cases role : made.role with
  | client => exact (ok.client number made place role).stored
  | server => exact (ok.server number made place role).stored

namespace Rpc

variable {build : Build} {name : Name} {rpc next : Rpc}

/-- A session is added. -/
structure Pushed (rpc next : Rpc) (session : Session) : Prop where
  name : next.name = rpc.name
  transportType : next.transportType = rpc.transportType
  retry : next.retry = rpc.retry
  made : next.made = rpc.made ++ [session]
  sessionVec : next.sessionVec = rpc.sessionVec ++ [some session]

/-- The slots of some sessions change. -/
structure Changed (rpc next : Rpc) : Prop where
  name : next.name = rpc.name
  transportType : next.transportType = rpc.transportType
  retry : next.retry = rpc.retry
  made : next.made = rpc.made
  length : next.sessionVec.length = rpc.sessionVec.length
  tokens : next.connReqTokenMap = rpc.connReqTokenMap

namespace Pushed

variable {session : Session} (pushed : Pushed rpc next session)
include pushed

/-- Earlier sessions stay on record. -/
theorem made_of_made (here : rpc.made[number]? = some made) : next.made[number]? = some made := by
  rw [pushed.made, List.getElem?_append_left (List.getElem?_eq_some_iff.mp here).1]
  exact here

/-- The new session is on record. -/
theorem made_last : next.made[rpc.made.length]? = some session := by
  rw [pushed.made, List.getElem?_concat_length]

/-- A session on record is an old one or the new one. -/
theorem made_cases (here : next.made[number]? = some made) :
    rpc.made[number]? = some made ∨ (number = rpc.made.length ∧ made = session) := by
  rw [pushed.made] at here
  rcases Nat.lt_trichotomy number rpc.made.length with inside | last | beyond
  · rw [List.getElem?_append_left inside] at here
    exact .inl here
  · rw [last, List.getElem?_concat_length, Option.some.injEq] at here
    exact .inr ⟨last, here.symm⟩
  · rw [List.getElem?_eq_none (by simp; omega)] at here
    contradiction

/-- The live sessions after a push. -/
theorem session?_eq (number : Nat) : next.session? number =
    if number = rpc.sessionVec.length then some session else rpc.session? number := by
  rw [session?, pushed.sessionVec, session?_push]
  rfl

/-- A push only adds. -/
theorem grows (ok : rpc.Ok build name) : rpc.Grows next := by
  constructor
  · exact ⟨[session], pushed.made.symm⟩
  · intro number inside found here
    rw [ok.length] at inside
    rw [pushed.session?_eq, if_neg (Nat.ne_of_lt inside)] at here
    exact ⟨found, here, id⟩

/-- A push keeps what holds of the object. -/
theorem ok (ok : rpc.Ok build name)
    (kept : ∀ token number, rpc.connReqTokenMap token = some number →
      next.connReqTokenMap token = some number)
    (tokens : ∀ token number, next.connReqTokenMap token = some number → rpc.connReqTokenMap token =
      some number ∨ (number = rpc.made.length ∧ session.role = .server ∧ session.uniqToken = token))
    (client : session.role = .client → session.Client build next rpc.made.length)
    (server : session.role = .server → session.Server next rpc.made.length) :
    next.Ok build name := by
  constructor
  case named => rw [pushed.name, ok.named]
  case length =>
    rw [pushed.made, pushed.sessionVec, List.length_append, List.length_append, ok.length]
    rfl
  case client =>
    intro number made here role
    rcases pushed.made_cases here with old | ⟨rfl, rfl⟩
    · have before := ok.client number made old role
      exact { before with
        token := by rw [pushed.name, before.token]
        client := by rw [pushed.name, pushed.transportType, before.client] }
    · exact client role
  case server =>
    intro number made here role
    rcases pushed.made_cases here with old | ⟨rfl, rfl⟩
    · have before := ok.server number made old role
      exact { before with
        token := kept _ _ before.token
        name := before.name.trans pushed.name.symm }
    · exact server role
  case tokens =>
    intro token number here
    rcases tokens token number here with old | ⟨rfl, role, same⟩
    · obtain ⟨made, there, rest⟩ := ok.tokens token number old
      exact ⟨made, pushed.made_of_made there, rest⟩
    · exact ⟨session, pushed.made_last, role, same⟩
  case live =>
    intro number found here
    rw [pushed.session?_eq] at here
    split at here
    case isTrue last =>
      cases here
      exact ⟨session, by rw [last, ← ok.length, pushed.made_last], .made⟩
    case isFalse =>
      obtain ⟨made, there, follows⟩ := ok.live number found here
      exact ⟨made, pushed.made_of_made there, follows⟩

end Pushed

/-- The live sessions after a slot changes. -/
theorem session?_slot {old : Session} {slot : Option Session}
    (held : rpc.session? number = some old)
    (sessions : next.sessionVec = rpc.sessionVec.set number slot) (other : Nat) :
    next.session? other = if other = number then slot else rpc.session? other := by
  have inside := session?_lt held
  rw [session?, sessions, session?_set]
  simp only [inside, and_true]
  rfl

/-- An object whose sessions stay only grows. -/
theorem Changed.grows_same (changed : Changed rpc next)
    (sessions : next.sessionVec = rpc.sessionVec) : rpc.Grows next := by
  constructor
  · exact changed.made ▸ List.prefix_rfl
  · intro number _ session here
    rw [session?, sessions] at here
    exact ⟨session, here, id⟩

/-- An object with one session replaced only grows. -/
theorem Changed.grows_slot (changed : Changed rpc next) {old : Session}
    {slot : Option Session} (held : rpc.session? number = some old)
    (sessions : next.sessionVec = rpc.sessionVec.set number slot)
    (stays : ∀ session, slot = some session → old.state ≠ .disconnectInProgress) :
    rpc.Grows next := by
  constructor
  · exact changed.made ▸ List.prefix_rfl
  · intro other _ session here
    rw [session?_slot held sessions] at here
    split at here
    case isTrue same =>
      rw [same]
      exact ⟨old, held, fun state => absurd state (stays session here)⟩
    case isFalse => exact ⟨session, here, id⟩

/-- What holds of an object after its sessions change. -/
theorem Changed.ok (changed : Changed rpc next) (ok : rpc.Ok build name)
    (live : ∀ number session, next.session? number = some session →
      rpc.session? number = some session ∨ ∃ made, rpc.made[number]? = some made ∧
        made.Follows session) :
    next.Ok build name := by
  constructor
  case named => rw [changed.name, ok.named]
  case length => rw [changed.made, changed.length, ok.length]
  case client =>
    intro number made here role
    rw [changed.made] at here
    have before := ok.client number made here role
    exact { before with
      token := by rw [changed.name, before.token]
      client := by rw [changed.name, changed.transportType, before.client] }
  case server =>
    intro number made here role
    rw [changed.made] at here
    have before := ok.server number made here role
    exact { before with
      token := changed.tokens ▸ before.token
      name := before.name.trans changed.name.symm }
  case tokens =>
    intro token number here
    rw [changed.tokens] at here
    rw [changed.made]
    exact ok.tokens token number here
  case live =>
    intro number session here
    rw [changed.made]
    rcases live number session here with old | new
    · exact ok.live number session old
    · exact new

end Rpc

/-! ## What holds of the packets and of all together -/

namespace System

/-- What a packet says is true, and stays true. -/
def Honest (s : System) (pkt : SmPkt) : Prop :=
  s.Asks pkt.uniqToken pkt.client pkt.server ∧
  match pkt.pktType with
  | .connectReq => pkt.server.sessionNum = invalidSessionNum
  | .connectResp =>
    pkt.errType = .noError → s.Serves pkt.server.name pkt.uniqToken pkt.server.sessionNum
  | .disconnectReq =>
    s.Serves pkt.server.name pkt.uniqToken pkt.server.sessionNum ∧
    s.Leaving pkt.client.name pkt.client.sessionNum
  | .disconnectResp =>
    pkt.errType = .noError ∧ s.Serves pkt.server.name pkt.uniqToken pkt.server.sessionNum ∧
    s.Leaving pkt.client.name pkt.client.sessionNum ∧
    s.Gone pkt.server.name pkt.server.sessionNum

section Kinds

variable {s : System} {pkt : SmPkt}

/-- What a connect request says. -/
theorem honest_connectReq (type : pkt.pktType = .connectReq) : s.Honest pkt ↔
    s.Asks pkt.uniqToken pkt.client pkt.server ∧ pkt.server.sessionNum = invalidSessionNum := by
  rw [Honest, type]

/-- What a connect response says. -/
theorem honest_connectResp (type : pkt.pktType = .connectResp) : s.Honest pkt ↔
    s.Asks pkt.uniqToken pkt.client pkt.server ∧ (pkt.errType = .noError →
      s.Serves pkt.server.name pkt.uniqToken pkt.server.sessionNum) := by
  rw [Honest, type]

/-- What a disconnect request says. -/
theorem honest_disconnectReq (type : pkt.pktType = .disconnectReq) : s.Honest pkt ↔
    s.Asks pkt.uniqToken pkt.client pkt.server ∧
    s.Serves pkt.server.name pkt.uniqToken pkt.server.sessionNum ∧
    s.Leaving pkt.client.name pkt.client.sessionNum := by
  rw [Honest, type]

/-- What a disconnect response says. -/
theorem honest_disconnectResp (type : pkt.pktType = .disconnectResp) : s.Honest pkt ↔
    s.Asks pkt.uniqToken pkt.client pkt.server ∧ pkt.errType = .noError ∧
    s.Serves pkt.server.name pkt.uniqToken pkt.server.sessionNum ∧
    s.Leaving pkt.client.name pkt.client.sessionNum ∧
    s.Gone pkt.server.name pkt.server.sessionNum := by
  rw [Honest, type]

end Kinds

/-- What a packet says stays true. -/
theorem Honest.grows {s t : System} {pkt : SmPkt} (honest : s.Honest pkt) (grows : s.Grows t) :
    t.Honest pkt := by
  cases type : pkt.pktType with
  | connectReq =>
    rw [honest_connectReq type] at honest ⊢
    exact ⟨honest.1.grows grows, honest.2⟩
  | connectResp =>
    rw [honest_connectResp type] at honest ⊢
    exact ⟨honest.1.grows grows, fun fine => (honest.2 fine).grows grows⟩
  | disconnectReq =>
    rw [honest_disconnectReq type] at honest ⊢
    exact ⟨honest.1.grows grows, honest.2.1.grows grows, honest.2.2.grows grows⟩
  | disconnectResp =>
    rw [honest_disconnectResp type] at honest ⊢
    obtain ⟨asks, fine, serves, leaving, gone⟩ := honest
    exact ⟨asks.grows grows, fine, serves.grows grows, leaving.grows grows, gone.grows grows⟩

/-- The server session of a client session that has heard of it. -/
def Backed (s : System) (session : Session) : Prop :=
  session.role = .client → session.state ≠ .connectInProgress →
    s.Serves session.server.name session.uniqToken session.server.sessionNum

/-- What holds of all Rpc objects together. -/
structure Sound (build : Build) (s : System) : Prop where
  ok : ∀ name rpc, s.rpcs name = some rpc → rpc.Ok build name
  backed : ∀ name rpc number session, s.rpcs name = some rpc →
    rpc.session? number = some session → s.Backed session
  asked : ∀ name number made, s.Made name number made → made.role = .server →
    s.Asks made.uniqToken made.client made.server
  gone : ∀ name number made, s.Made name number made → made.role = .server →
    s.Gone name number → s.Leaving made.client.name made.client.sessionNum
  honest : ∀ pkt, s.InFlight pkt → s.Honest pkt

end System

end UbApplication.Erpc.Sm
