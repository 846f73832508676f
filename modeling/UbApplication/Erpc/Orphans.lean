import UbApplication.Erpc.SessionRuns

/-!
# Server sessions without a client

A server remembers the tokens of the connect requests that it has accepted, not of those that it has
refused. A copy of a refused request that arrives later may then be accepted when its client has
given up, and nobody disconnects the session.
-/

namespace UbApplication.Erpc.Sm.System

/-- The client of a name waits for its server to appear. -/
def retries (s : System) (name : Name) : Bool := (s.rpcs name).elim false Rpc.retry

/-- A response that makes a client give up. -/
def Fatal (s : System) (reply : SmPkt) : Prop :=
  reply.pktType = .connectResp ∧ reply.errType ≠ .noError ∧
    ¬ (reply.errType = .invalidRemoteRpcId ∧ s.retries reply.client.name = true)

instance (s : System) (reply : SmPkt) : Decidable (s.Fatal reply) :=
  inferInstanceAs (Decidable (_ ∧ _ ∧ _))

/-- An earlier copy of a connect request was refused, by its server or by the Nexus of its
server. -/
def Refused (s : System) (pkt : SmPkt) : Prop :=
  ∃ reply ∈ s.nexus ++ s.sentBy (some pkt.server.name),
    s.Fatal reply ∧ reply.uniqToken = pkt.uniqToken

instance (s : System) (pkt : SmPkt) : Decidable (s.Refused pkt) :=
  inferInstanceAs (Decidable (∃ _ ∈ _, _))

/-- A connect request that was refused is not accepted later. -/
def Steadfast (s : System) : SystemLabel → Prop :=
  s.Permits fun s pkt => ¬ s.Refused pkt

instance (s : System) : ∀ label, Decidable (s.Steadfast label)
  | .deliver _ pkt chance =>
    inferInstanceAs (Decidable (pkt.pktType = .connectReq → ∀ rpc ∈ s.rpcs pkt.target,
      rpc.Accepts pkt chance.resolves chance.allocates → ¬ s.Refused pkt))
  | .start _ _ _ | .api _ _ | .scan _ _ => .isTrue trivial

/-! ## What a move adds -/

section Adds

variable {build : Build} {May : System → SmPkt → Prop} {s t : System} {name : Name} {number : Nat}

/-- A move does not change whether an object retries. -/
theorem Move.retries (move : s.Move build May t) {rpc : Rpc}
    (found : s.rpcs name = some rpc) : t.retries name = s.retries name := by
  have other {place : Name} {held next : Rpc} (there : s.rpcs place = some held)
      (same : next.retry = held.retry) : (s.put place next).retries name = s.retries name := by
    unfold System.retries
    by_cases here : name = place
    · subst here
      rw [rpcs_put_self, there]
      exact same
    · rw [rpcs_put_of_ne here]
  cases move with
  | start place transportType retry free =>
    have apart : name ≠ place := by
      rintro rfl
      exact absurd (free.symm.trans found) nofun
    unfold System.retries
    rw [rpcs_put_of_ne apart]
  | nexus => rfl
  | quiet there changed | send there changed | slot there changed => exact other there changed.retry
  | create there _ pushed | accept there _ _ _ _ _ _ pushed => exact other there pushed.retry

/-- A server session that is there after a move was there before, or its request was accepted and
nothing was sent. -/
theorem Move.serves (move : s.Move build May t) {token : Nat}
    (serves : t.Serves name token number) : s.Serves name token number ∨
      (∀ pkt, t.InFlight pkt → s.InFlight pkt) ∧
      ∃ pkt, s.InFlight pkt ∧ May s pkt ∧ pkt.uniqToken = token := by
  obtain ⟨made, ⟨rpc, found, place⟩, role, rfl⟩ := serves
  have changes {other : Name} {held next : Rpc} (there : s.rpcs other = some held)
      (same : next.made = held.made) (found : (s.put other next).rpcs name = some rpc) :
      s.Serves name made.uniqToken number := by
    rcases rpcs_put found with ⟨rfl, rfl⟩ | ⟨-, found⟩
    · exact ⟨made, ⟨held, there, same ▸ place⟩, role, rfl⟩
    · exact ⟨made, ⟨rpc, found, place⟩, role, rfl⟩
  cases move with
  | start other transportType retry free =>
    rcases rpcs_put found with ⟨rfl, rfl⟩ | ⟨-, found⟩
    · contradiction
    · exact .inl ⟨made, ⟨rpc, found, place⟩, role, rfl⟩
  | nexus => exact .inl ⟨made, ⟨rpc, found, place⟩, role, rfl⟩
  | quiet there changed | send there changed | slot there changed =>
    exact .inl (changes there changed.made found)
  | create there room pushed tokens sent =>
    rcases rpcs_put found with ⟨rfl, rfl⟩ | ⟨-, found⟩
    · rcases pushed.made_cases place with old | ⟨-, rfl⟩
      · exact .inl ⟨made, ⟨_, there, old⟩, role, rfl⟩
      · contradiction
    · exact .inl ⟨made, ⟨rpc, found, place⟩, role, rfl⟩
  | accept there room flight type target may fresh pushed tokens sent =>
    rcases rpcs_put found with ⟨rfl, rfl⟩ | ⟨-, found⟩
    · rcases pushed.made_cases place with old | ⟨-, rfl⟩
      · exact .inl ⟨made, ⟨_, there, old⟩, role, rfl⟩
      · refine .inr ⟨fun other later => ?_, _, flight, may, rfl⟩
        rcases inFlight_put later with member | old
        · exact inFlight_of_sent there (sent ▸ member)
        · exact old
    · exact .inl ⟨made, ⟨rpc, found, place⟩, role, rfl⟩

/-- A packet sent by a move comes from a handler or a Nexus. -/
theorem Move.sentBy (move : s.Move build May t) {sender : Option Name} {reply : SmPkt}
    (member : reply ∈ t.sentBy sender) : reply ∈ s.sentBy sender ∨
      (∃ name rpc, sender = some name ∧ s.rpcs name = some rpc ∧ s.Sends name rpc reply) ∨
      ∃ pkt, sender = none ∧ s.InFlight pkt ∧ pkt.pktType.isReq = true ∧
        s.rpcs pkt.target = none ∧ reply = pkt.constructResp .invalidRemoteRpcId := by
  have other {name : Name} {next : Rpc} (apart : sender ≠ some name)
      (member : reply ∈ (s.put name next).sentBy sender) : reply ∈ s.sentBy sender := by
    cases sender with
    | none => exact member
    | some sender =>
      have apart : sender ≠ name := fun same => apart (congrArg some same)
      rw [System.sentBy, rpcs_put_of_ne apart] at member
      exact member
  have changes {name : Name} {rpc next : Rpc} (found : s.rpcs name = some rpc)
      (member : reply ∈ (s.put name next).sentBy sender) :
      reply ∈ s.sentBy sender ∨ (sender = some name ∧ reply ∈ next.sent) := by
    by_cases same : sender = some name
    · rw [same, System.sentBy, rpcs_put_self] at member
      exact .inr ⟨same, member⟩
    · exact .inl (other same member)
  have old {name : Name} {rpc next : Rpc} (found : s.rpcs name = some rpc)
      (sent : next.sent = rpc.sent) (member : reply ∈ (s.put name next).sentBy sender) :
      reply ∈ s.sentBy sender := by
    rcases changes found member with old | ⟨rfl, new⟩
    · exact old
    · rw [sent] at new
      rw [System.sentBy, found]
      exact new
  cases move with
  | start name transportType retry free =>
    by_cases same : sender = some name
    · rw [same, System.sentBy, rpcs_put_self] at member
      contradiction
    · exact .inl (other same member)
  | nexus pkt flight request missing =>
    cases sender with
    | some name => exact .inl member
    | none =>
      rcases List.mem_append.mp member with old | new
      · exact .inl old
      · exact .inr (.inr ⟨pkt, rfl, flight, request, missing, List.mem_singleton.mp new⟩)
  | quiet found _ _ sent | slot found _ _ _ _ sent | create found _ _ _ sent
  | accept found _ _ _ _ _ _ _ _ sent => exact .inl (old found sent member)
  | @send name rpc next pkt found changed sessions sends sent =>
    rcases changes found member with old | ⟨rfl, added⟩
    · exact .inl old
    · rw [sent] at added
      rcases List.mem_append.mp added with old | new
      · refine .inl ?_
        rw [System.sentBy, found]
        exact old
      · rw [List.mem_singleton.mp new]
        exact .inr (.inl ⟨name, rpc, rfl, found, sends⟩)

/-- A client session is removed by a fatal answer or a disconnect. -/
theorem Sound.replaces_none (sound : s.Sound build) (distinct : Function.Injective2 build.token)
    {rpc : Rpc} {old made : Session} (found : s.rpcs name = some rpc)
    (held : rpc.session? number = some old) (place : rpc.made[number]? = some made)
    (role : made.role = .client) (replaces : s.Replaces name rpc old number none) :
    ∃ pkt, s.InFlight pkt ∧ pkt.uniqToken = made.uniqToken ∧
      (s.Fatal pkt ∨ pkt.pktType = .disconnectResp) := by
  have about {pkt : SmPkt} (flight : s.InFlight pkt) (target : pkt.client.name = name)
      (here : pkt.client.sessionNum = number) : pkt.uniqToken = made.uniqToken := by
    subst target
    subst here
    obtain ⟨same, there, -, -, -, token, -⟩ :=
      sound.client_session (sound.honest pkt flight).1 found held
    cases place.symm.trans there
    exact token.symm
  cases replaces with
  | @failed pkt flight type target wrong fatal =>
    refine ⟨pkt, flight, about flight target rfl, .inl ⟨type, wrong, ?_⟩⟩
    rw [retries, target, found]
    exact fatal
  | @finished pkt flight type target => exact ⟨pkt, flight, about flight target rfl, .inr type⟩
  | @freed pkt flight type target =>
    obtain ⟨asks, serves, -⟩ := (honest_disconnectReq type).mp (sound.honest pkt flight)
    subst target
    have facts := sound.server_session distinct asks serves found held
    cases place.symm.trans facts.2.2.2.2.2.2.2
    exact absurd (role.symm.trans facts.1) nofun

/-- A client session that is gone had such a response. -/
theorem Move.gone (sound : s.Sound build) (distinct : Function.Injective2 build.token)
    (move : s.Move build May t) {made : Session} (place : t.Made name number made)
    (role : made.role = .client) (gone : t.Gone name number) :
    (s.Made name number made ∧ s.Gone name number) ∨
      ∃ pkt, s.InFlight pkt ∧ pkt.uniqToken = made.uniqToken ∧
        (s.Fatal pkt ∨ pkt.pktType = .disconnectResp) := by
  obtain ⟨rpc, found, place⟩ := place
  obtain ⟨same, again, inside, empty⟩ := gone
  cases found.symm.trans again
  have stays {other : Name} {held next : Rpc} (there : s.rpcs other = some held)
      (changed : next.made = held.made) (sessions : next.sessionVec = held.sessionVec)
      (found : (s.put other next).rpcs name = some rpc) :
      s.Made name number made ∧ s.Gone name number := by
    rcases rpcs_put found with ⟨rfl, rfl⟩ | ⟨-, found⟩
    · rw [changed] at place inside
      rw [Rpc.session?, sessions] at empty
      exact ⟨⟨held, there, place⟩, held, there, inside, empty⟩
    · exact ⟨⟨rpc, found, place⟩, rpc, found, inside, empty⟩
  have pushes {other : Name} {held next : Rpc} {session : Session}
      (there : s.rpcs other = some held) (pushed : held.Pushed next session)
      (found : (s.put other next).rpcs name = some rpc) :
      s.Made name number made ∧ s.Gone name number := by
    rcases rpcs_put found with ⟨rfl, rfl⟩ | ⟨-, found⟩
    · rw [pushed.session?_eq] at empty
      split at empty
      case isTrue => contradiction
      case isFalse apart =>
        rcases pushed.made_cases place with old | ⟨last, -⟩
        · exact ⟨⟨held, there, old⟩, held, there, (List.getElem?_eq_some_iff.mp old).1, empty⟩
        · exact absurd (last.trans (sound.ok _ held there).length) apart
    · exact ⟨⟨rpc, found, place⟩, rpc, found, inside, empty⟩
  cases move with
  | start other transportType retry free =>
    rcases rpcs_put found with ⟨rfl, rfl⟩ | ⟨-, found⟩
    · contradiction
    · exact .inl ⟨⟨rpc, found, place⟩, rpc, found, inside, empty⟩
  | nexus => exact .inl ⟨⟨rpc, found, place⟩, rpc, found, inside, empty⟩
  | quiet there changed sessions | send there changed sessions =>
    exact .inl (stays there changed.made sessions found)
  | create there _ pushed | accept there _ _ _ _ _ _ pushed =>
    exact .inl (pushes there pushed found)
  | @slot other before next place' old content there changed held replaces sessions sent =>
    rcases rpcs_put found with ⟨rfl, rfl⟩ | ⟨-, found⟩
    · rw [changed.made] at place inside
      rw [Rpc.session?_slot held sessions] at empty
      split at empty
      case isTrue here =>
        subst here
        subst empty
        exact .inr (sound.replaces_none distinct there held place role replaces)
      case isFalse => exact .inl ⟨⟨before, there, place⟩, before, there, inside, empty⟩
    · exact .inl ⟨⟨rpc, found, place⟩, rpc, found, inside, empty⟩

end Adds

/-! ## No orphans -/

variable {build : Build} {s t : System}

/-- There is no server session for a token, and there will be none. -/
def Closed (s : System) (token : Nat) : Prop :=
  (∃ reply, s.InFlight reply ∧ s.Fatal reply ∧ reply.uniqToken = token) ∨
    ∃ name number, s.Serves name token number ∧ s.Gone name number

/-- What holds when refused requests are not accepted later. -/
structure Settled (s : System) : Prop where
  origin : ∀ name reply, reply ∈ s.sentBy (some name) → reply.pktType = .connectResp →
    reply.server.name = name
  refused : ∀ reply, s.InFlight reply → s.Fatal reply → ∀ name number,
    ¬ s.Serves name reply.uniqToken number
  gone : ∀ name number made, s.Made name number made → made.role = .client →
    s.Gone name number → s.Closed made.uniqToken

variable {name : Name} {reply : SmPkt} {rpc : Rpc} {May : System → SmPkt → Prop}

section

variable (sound : s.Sound build)
include sound

/-- A token is served where it was asked for. -/
theorem Sound.serves_name (distinct : Function.Injective2 build.token)
    {token number : Nat} {client server : Endpoint}
    (asks : s.Asks token client server) (serves : s.Serves name token number) :
    name = server.name := by
  obtain ⟨made, ⟨rpc, found, place⟩, role, rfl⟩ := serves
  have ok := sound.ok name rpc found
  have asked := sound.asked name number made ⟨rpc, found, place⟩ role
  have names := Endpoint.name_of_blank (sound.asks_unique distinct asked asks).2
  rw [(ok.server number made place role).name, ok.named] at names
  exact names

/-- Whether a packet is fatal does not change. -/
theorem Fatal.move (move : s.Move build May t) (flight : s.InFlight reply) :
    t.Fatal reply ↔ s.Fatal reply := by
  obtain ⟨rpc, -, found, -⟩ := sound.asks_made (sound.honest reply flight).1
  rw [Fatal, Fatal, move.retries found]

/-- A token with a fatal answer is served nowhere. -/
theorem Sound.sends_fatal (distinct : Function.Injective2 build.token)
    (found : s.rpcs name = some rpc)
    (sends : s.Sends name rpc reply) (type : reply.pktType = .connectResp)
    (wrong : reply.errType ≠ .noError) (other : Name) (number : Nat) :
    ¬ s.Serves other reply.uniqToken number := by
  cases sends with
  | @request place session held waits =>
    unfold Rpc.smReq at type
    split at type <;> contradiction
  | @refuse pkt err flight kind target wrong fresh =>
    intro serves
    have asks := (sound.honest pkt flight).1
    have same := sound.serves_name distinct asks serves
    obtain ⟨made, ⟨held, there, place⟩, role, token⟩ := serves
    rw [same, target] at there
    cases found.symm.trans there
    have known := ((sound.ok name rpc found).server number made place role).token
    rw [token] at known
    exact absurd (fresh.symm.trans known) nofun
  | grant => exact absurd rfl wrong
  | @confirm pkt flight kind =>
    rw [SmPkt.constructResp, kind] at type
    contradiction

/-- A connect response comes from its server. -/
theorem Sound.sends_origin (found : s.rpcs name = some rpc)
    (sends : s.Sends name rpc reply) (type : reply.pktType = .connectResp) :
    reply.server.name = name := by
  cases sends with
  | request =>
    unfold Rpc.smReq at type
    split at type <;> contradiction
  | refuse _ _ target => exact target
  | @grant pkt number session flight kind target known held =>
    have ok := sound.ok name rpc found
    obtain ⟨made, place, role, -⟩ := ok.tokens _ number known
    cases (ok.made_of_session place held).server_eq role
    exact (ok.server number session place role).name.trans ok.named
  | @confirm pkt flight kind =>
    rw [SmPkt.constructResp, kind] at type
    contradiction

end

/-- A token stays closed. -/
theorem Closed.move {token : Nat} (closed : s.Closed token)
    (sound : s.Sound build) (move : s.Move build May t) : t.Closed token := by
  have grows := sound.grows move
  rcases closed with ⟨reply, flight, fatal, same⟩ | ⟨name, number, serves, gone⟩
  · exact .inl ⟨reply, move.inFlight flight, (Fatal.move sound move flight).mpr fatal, same⟩
  · exact .inr ⟨name, number, serves.grows grows, gone.grows grows⟩

/-- After a fatal answer the request was refused. -/
theorem Settled.refused_of_fatal (settled : s.Settled) (sound : s.Sound build)
    (distinct : Function.Injective2 build.token) {pkt : SmPkt} (sent : s.InFlight reply)
    (fatal : s.Fatal reply) (flight : s.InFlight pkt) (same : reply.uniqToken = pkt.uniqToken) :
    s.Refused pkt := by
  have asks := (sound.honest pkt flight).1
  have asked := (sound.honest reply sent).1
  rw [same] at asked
  have names := Endpoint.name_of_blank (sound.asks_unique distinct asked asks).2
  obtain ⟨sender, member⟩ := sent
  refine ⟨reply, ?_, fatal, same⟩
  cases sender with
  | none => exact List.mem_append_left _ member
  | some name =>
    have own := settled.origin name reply member fatal.1
    rw [names] at own
    rw [own]
    exact List.mem_append_right _ member

/-- Moves that answer no refused request keep it settled. -/
theorem Settled.move (settled : s.Settled) (sound : s.Sound build)
    (distinct : Function.Injective2 build.token)
    (move : s.Move build (fun s pkt => ¬ s.Refused pkt) t) : t.Settled := by
  constructor
  case origin =>
    intro name reply member type
    rcases move.sentBy member with old | ⟨other, rpc, same, found, sends⟩ | ⟨pkt, none, -⟩
    · exact settled.origin name reply old type
    · cases same
      exact sound.sends_origin found sends type
    · contradiction
  case refused =>
    intro reply sent fatal name number serves
    obtain ⟨sender, member⟩ := id sent
    rcases move.serves serves with serves | ⟨unsent, pkt, flight, may, same⟩
    · rcases move.sentBy member with old | ⟨other, rpc, -, found, sends⟩ |
        ⟨pkt, -, flight, request, missing, rfl⟩
      · have old : s.InFlight reply := ⟨sender, old⟩
        exact settled.refused reply old ((Fatal.move sound move old).mp fatal) name number serves
      · exact sound.sends_fatal distinct found sends fatal.1 fatal.2.1 name number serves
      · have here := sound.serves_name distinct (sound.honest pkt flight).1 serves
        obtain ⟨made, ⟨rpc, found, -⟩, -⟩ := serves
        have target : pkt.target = pkt.server.name := if_pos request
        rw [here, ← target] at found
        exact absurd (missing.symm.trans found) nofun
    · have old := unsent reply sent
      exact may (settled.refused_of_fatal sound distinct old ((Fatal.move sound move old).mp fatal)
        flight same.symm)
  case gone =>
    intro name number made place role gone
    rcases Move.gone sound distinct move place role gone with
      ⟨place, gone⟩ | ⟨pkt, flight, token, why⟩
    · exact (settled.gone name number made place role gone).move sound move
    · have closed : s.Closed made.uniqToken := by
        rcases why with fatal | type
        · exact .inl ⟨pkt, flight, fatal, token⟩
        · obtain ⟨-, -, serves, -, gone⟩ :=
            (honest_disconnectResp type).mp (sound.honest pkt flight)
          exact .inr ⟨_, _, token ▸ serves, gone⟩
      exact closed.move sound move

/-- Nothing has happened yet. -/
theorem settled_initial : initial.Settled where
  origin := by
    intro name reply member
    contradiction
  refused := by
    rintro reply ⟨sender, member⟩
    cases sender <;> contradiction
  gone := by
    rintro name number made ⟨rpc, ⟨⟩, -⟩

/-- No live server session has a closed token. -/
theorem Settled.not_closed (settled : s.Settled) (sound : s.Sound build)
    (distinct : Function.Injective2 build.token) {number : Nat}
    {session : Session} (found : s.rpcs name = some rpc)
    (held : rpc.session? number = some session) (role : session.role = .server) :
    ¬ s.Closed session.uniqToken := by
  have ok := sound.ok name rpc found
  obtain ⟨made, place, follows⟩ := ok.live number session held
  cases follows.server_eq (follows.stays.1.symm.trans role)
  have serves : s.Serves name session.uniqToken number := ⟨session, ⟨rpc, found, place⟩, role, rfl⟩
  rintro (⟨reply, sent, fatal, same⟩ | ⟨other, where', also, gone⟩)
  · exact settled.refused reply sent fatal name number (same ▸ serves)
  · have asks := sound.asked name number session ⟨rpc, found, place⟩ role
    have here := sound.serves_name distinct asks serves
    have there := sound.serves_name distinct asks also
    rw [there, ← here] at also gone
    have same := sound.serves_unique also serves
    obtain ⟨peer, again, -, empty⟩ := gone
    cases found.symm.trans again
    rw [same] at empty
    exact absurd (empty.symm.trans held) nofun

/-- In every run in which no refused request is accepted later, no server has a live session for a
client session that is gone. -/
theorem no_orphans (build : Build) (distinct : Function.Injective2 build.token)
    (labels : List SystemLabel) (final : System)
    (orderly : Machine.Admits (fun s label => s.Spare label ∧ s.Steadfast label)
      (System.step build) initial labels)
    (taken : Machine.run (System.step build) initial labels = some final)
    (name : Name) (rpc : Rpc) (number : Nat) (made : Session) (found : final.rpcs name = some rpc)
    (place : rpc.made[number]? = some made) (role : made.role = .client)
    (buried : rpc.session? number = none) (server : Name) (peer : Rpc) (other : Nat)
    (session : Session) (there : final.rpcs server = some peer)
    (held : peer.session? other = some session) (kind : session.role = .server) :
    session.uniqToken ≠ made.uniqToken := by
  have holds : (final.Sound build ∧ final.Balanced build) ∧ final.Settled := by
    refine Machine.run_admitted (fun s => (s.Sound build ∧ s.Balanced build) ∧ s.Settled) ?_ orderly
      ?_ taken
    · rintro before label after ⟨⟨sound, balanced⟩, settled⟩ ⟨spare, steadfast⟩ stepped
      obtain ⟨moves, balanced⟩ := step_moves distinct sound balanced spare steadfast stepped
      refine ⟨⟨sound.moves distinct moves, balanced⟩, ?_⟩
      clear stepped balanced
      induction moves with
      | refl => exact settled
      | tail before move ih => exact ih.move (sound.moves distinct before) distinct move
    · exact ⟨⟨sound_initial, nofun⟩, settled_initial⟩
  obtain ⟨⟨sound, -⟩, settled⟩ := holds
  intro same
  have inside := (List.getElem?_eq_some_iff.mp place).1
  have closed := settled.gone name number made ⟨rpc, found, place⟩ role ⟨rpc, found, inside, buried⟩
  rw [← same] at closed
  exact settled.not_closed sound distinct there held kind closed

end UbApplication.Erpc.Sm.System

namespace UbApplication.Erpc.Sm.Sample

/-- The disconnect request of the first session. -/
def goodbye : SmPkt := { response with pktType := .disconnectReq }

/-- The connect request of the second session. -/
def secondRequest : SmPkt :=
  { request with uniqToken := pairing.token clientName 1, client := ⟨7, clientName, 1⟩ }

/-- The first session connects and disconnects, and the second one connects. -/
def reconnecting : List SystemLabel :=
  connecting ++
    [.api clientName (.destroy 0 true), .deliver (some clientName) goodbye calm,
      .deliver (some serverName) (goodbye.constructResp .noError) calm,
      .api clientName (.create serverName), .deliver (some clientName) secondRequest calm]

/-- The client session and the server session of a number, after a run. -/
def ends (labels : List SystemLabel) (test : Rpc → Session → Rpc → Bool) : Bool :=
  (Machine.run (System.step pairing) .initial labels).any fun final =>
    (final.rpcs clientName).any fun rpc => (rpc.made[0]?).any fun made =>
      (final.rpcs serverName).any fun peer => test rpc made peer

/-- The first session is gone, and the server session of the second one is not for it. -/
theorem no_orphans_reconnecting : ∃ final rpc made peer session,
    Machine.run (System.step pairing) .initial reconnecting = some final ∧
    final.rpcs clientName = some rpc ∧ rpc.made[0]? = some made ∧ rpc.session? 0 = none ∧
    final.rpcs serverName = some peer ∧ peer.session? 1 = some session ∧
    session.role = .server ∧ session.uniqToken ≠ made.uniqToken := by
  have passes : ends reconnecting (fun rpc made peer =>
      decide (made.role = .client ∧ rpc.session? 0 = none) &&
        (peer.session? 1).any fun session => decide (session.role = .server)) = true := by
    decide +kernel
  simp only [ends, Option.any_eq_true, Bool.and_eq_true, decide_eq_true_eq] at passes
  obtain ⟨final, taken, rpc, found, made, place, peer, there, ⟨role, buried⟩, session, held,
    kind⟩ := passes
  exact ⟨final, rpc, made, peer, session, taken, found, place, buried, there, held, kind,
    System.no_orphans pairing pairing_distinct reconnecting final
      (by decide +kernel) taken clientName rpc 0 made found place role buried serverName peer 1
        session there held kind⟩

/-- The server cannot resolve the client when the request arrives first, and can when it arrives
again. -/
def refusing : List SystemLabel :=
  [.start clientName 7 false, .start serverName 7 false, .api clientName (.create serverName),
    .deliver (some clientName) request ⟨false, true, []⟩,
    .deliver (some serverName) (request.constructResp .routingResolutionFailure) calm,
    .deliver (some clientName) request calm]

/-- The client session is gone, and the server has a live session for its token. -/
theorem orphaned : ∃ final rpc made peer session,
    Machine.run (System.step pairing) .initial refusing = some final ∧
    final.rpcs clientName = some rpc ∧ rpc.made[0]? = some made ∧ made.role = .client ∧
    rpc.session? 0 = none ∧ final.rpcs serverName = some peer ∧
    peer.session? 0 = some session ∧ session.role = .server ∧ session.state = .connected ∧
    session.uniqToken = made.uniqToken := by
  have passes : ends refusing (fun rpc made peer =>
      decide (made.role = .client ∧ rpc.session? 0 = none) &&
        (peer.session? 0).any fun session => decide (session.role = .server ∧
          session.state = .connected ∧ session.uniqToken = made.uniqToken)) = true := by
    decide +kernel
  simp only [ends, Option.any_eq_true, Bool.and_eq_true, decide_eq_true_eq] at passes
  obtain ⟨final, taken, rpc, found, made, place, peer, there, ⟨role, buried⟩, session, held,
    facts⟩ := passes
  exact ⟨final, rpc, made, peer, session, taken, found, place, role, buried, there, held, facts⟩

end UbApplication.Erpc.Sm.Sample
