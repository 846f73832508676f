import Mathlib.Data.List.Lattice
import Mathlib.Data.List.Pairwise
import UbApplication.SocialNetwork.Config

/-!
# Routes of a read request

In the baseline a read request goes from its client over the load balancer and one nginx instance to
the timeline, and its response goes back over an nginx instance and the load balancer. In the domain
path the client selects the instance and records it in the origin of the request, and the timeline
sends the response to the client itself. A session is described by the endpoint it leads to.
-/

namespace UbApplication.SocialNetwork

open Outcome List

/-- Where an RPC object listens. -/
structure Endpoint where
  address : String
  rpcId : Nat
deriving DecidableEq, Repr

def Registration.endpoint (r : Registration) : Endpoint := ⟨r.address, r.rpcId⟩

/-- Where a client receives the responses of a lane. -/
def Registration.listens (r : Registration) (lane : Nat) : Endpoint := ⟨r.address, r.rpcId + lane⟩

/-- `std::vector::at`. -/
def vectorAt {α : Type} (list : List α) (index : Nat) : Except String α :=
  match list[index]? with
  | some value => .ok value
  | none => .error "vector::_M_range_check"

/-- The tokens that `getline` reads, after the letters of one that has begun. -/
def tokens (delimiter : Char) : List Char → List Char → List (List Char)
  | [], token => if token = [] then [] else [token]
  | c :: rest, token =>
    if c = delimiter then token :: tokens delimiter rest []
      else tokens delimiter rest (token ++ [c])

def split (input : String) (delimiter : Char) : List String :=
  (tokens delimiter input.toList []).map String.ofList

namespace Settings

def baseline (s : Settings) : Settings := { s with enabled := false, rpcBaseline := true }

def getRemoteRpcId (s : Settings) (address : String) : Nat :=
  match s.services.find? fun item => item.2.serverAddr = address with
  | some item => (item.2.rpcId % 256).toNat
  | none => 0

def remote (s : Settings) (address : String) : Endpoint := ⟨address, s.getRemoteRpcId address⟩

/-- `use_multi_client_wire` of a timeline message. -/
def useMultiClientWire (s : Settings) : Except String Bool :=
  if s.rpcBaseline then do return decide (1 < (← s.sourceCount)) else return false

/-- A baseline of three nginx instances. -/
def threeInstances (s : Settings) : Except String Bool :=
  if s.rpcBaseline then do return decide ((← s.proxyCount) = 3) else return false

/-- The number that the client gave to the request of a wire number. -/
def originalRequest (s : Settings) (wire : Nat) : Except String Nat := do
  let sources ← s.sourceCount
  if 1 < sources then wireOriginalRequest wire s.clientNum sources else return wire

def rpcNginxIndex (s : Settings) (wire : Nat) : Except String Nat := do
  let original ← s.originalRequest wire
  let proxies ← s.proxyCount
  let key ← routeKey original
  let nginx ← selectedNginx key proxies
  return nginx - 2

/-- `client_wire`, in the client process of an index. -/
def clientWire (s : Settings) (sourceIndex request lane : Nat) : Except String Nat := do
  wireRequest request lane s.clientNum sourceIndex (← s.sourceCount)

/-! ## The baseline -/

/-- The number under which a client sends a request. -/
def baselineWire (s : Settings) (sourceIndex request lane : Nat) : Except String Nat := do
  if ← s.useMultiClientWire then s.clientWire sourceIndex request lane else return request

def forwardSessions (s : Settings) : Except String (List Endpoint) := do
  let nginx ← s.service "nginx"
  let servers := split nginx.serverAddr ','
  Outcome.ensure (servers ≠ []) "!split_vec.empty()"
  if ← s.threeInstances then return (← s.nginxInstances).map (·.endpoint)
  else return servers.map s.remote

def backwardSessions (s : Settings) : Except String (List Endpoint) := do
  let client ← s.service "client"
  if ← s.useMultiClientWire then
    return s.remote client.serverAddr :: (← s.clients).tail.map (·.endpoint)
  else return [s.remote client.serverAddr]

/-- The `target_index` of `handler_common_req`, from the number in the header of the message and the
wire number in it. -/
def targetIndex (s : Settings) (servers header wire : Nat) : Except String Nat := do
  let multi ← s.useMultiClientWire
  let request := if multi then wire else header
  let slot := request % kAppMaxBuffer
  if ← s.threeInstances then s.rpcNginxIndex wire else return slot % servers

/-- The nginx instance of `handler_common_req` of the load balancer. -/
def loadBalanceForward (s : Settings) (header wire : Nat) : Except String Endpoint := do
  let sessions ← s.forwardSessions
  let backward ← s.backwardSessions
  let target ← s.targetIndex sessions.length header wire
  vectorAt (sessions ++ backward.take 1) target

def timelineSessions (s : Settings) : Except String (List Endpoint) := do
  let nginx ← s.service "nginx"
  if ← s.threeInstances then
    return s.remote nginx.serverAddr :: (← s.nginxInstances).tail.map (·.endpoint)
  else return [s.remote nginx.serverAddr]

/-- The nginx instance of `handler_user_timeline_read_resp` without domains. -/
def timelineReverse (s : Settings) (wire : Nat) : Except String Endpoint := do
  let sessions ← s.timelineSessions
  if s.rpcBaseline ∧ sessions.length = 3 then do vectorAt sessions (← s.rpcNginxIndex wire)
  else vectorAt sessions 0

/-- The `source` of `handler_common_resp`. -/
def reverseSource (s : Settings) (wire : Nat) : Except String Nat := do
  if ← s.useMultiClientWire then do
    let sources ← s.sourceCount
    (wireSourceIndex wire s.clientNum sources).mapError fun _ => "reverse-source"
  else return 0

/-- The client of `handler_common_resp` of the load balancer. -/
def loadBalanceReverse (s : Settings) (wire : Nat) : Except String Endpoint := do
  let sessions ← s.backwardSessions
  let source ← s.reverseSource wire
  vectorAt sessions source

/-- The number of the request that a client process receives the response of. -/
def receivedNumber (s : Settings) (sourceIndex wire : Nat) : Except String Nat := do
  if ← s.useMultiClientWire then do
    let sources ← s.sourceCount
    let source ← (wireSourceIndex wire s.clientNum sources).mapError fun _ => "baseline-wire"
    Outcome.ensure (source = sourceIndex) "baseline-source"
    (wireOriginalRequest wire s.clientNum sources).mapError fun _ => "baseline-wire"
  else return wire

/-- The lane and the slot of `timeline_read_resp_handler`, in a receiver of a client process. -/
def timelineReadResp (s : Settings) (sourceIndex server wire : Nat) :
    Except String (Nat × Nat) := do
  let number ← s.receivedNumber sourceIndex wire
  Outcome.ensure (number ≠ 0 ∧ server < s.clientNum) "baseline-response"
  return (server, number % kAppMaxBuffer)

/-! ## The domain path -/

/-- The wire number and the origin of `handler_timeline_read_req` with domains. The call of the
domains returns the instance that the client selects. -/
def domainRequest (s : Settings) (sourceIndex lane request : Nat) :
    Except String (Nat × Origin) := do
  let source ← vectorAt (← s.clients) sourceIndex
  let wire ← s.clientWire sourceIndex request lane
  let nginx ← selectedNginx (← routeKey request) (← s.proxyCount)
  return (wire, ⟨kWireAbi, source.id, lane, source.rpcId + lane % s.serverNum, request, nginx⟩)

def originValid (s : Settings) (o : Origin) (wire : Nat) : Except String Bool := do
  let clients ← s.clients
  match clients.findIdx? fun client => client.id = o.source with
  | some index => do
    let client ← vectorAt clients index
    validOrigin o wire s.clientNum s.serverNum client.rpcId (← s.proxyCount) client.id index
      clients.length
  | none => return false

def domainReturnSessions (s : Settings) (clients : List Registration) : List (Nat × Endpoint) :=
  clients.flatMap fun client =>
    (List.range s.serverNum).map fun i => (client.rpcId + i, client.listens i)

/-- The client of `handler_user_timeline_read_resp` with domains. A later session of the same
receiver replaces an earlier one. -/
def domainReturn (s : Settings) (o : Origin) (wire : Nat) : Except String Endpoint := do
  let valid ← s.originValid o wire
  Outcome.ensure (valid = true) "result-identity"
  match (s.domainReturnSessions (← s.clients)).reverse.lookup o.receiverRpc with
  | some endpoint => return endpoint
  | none => .error "return-session"

/-- The lane and the slot of `domain_timeline_read_resp_handler`, in a receiver of a client
process. -/
def domainTimelineReadResp (s : Settings) (sourceIndex serverRpc : Nat) (o : Origin) (wire : Nat) :
    Except String (Nat × Nat) := do
  let source ← vectorAt (← s.clients) sourceIndex
  let valid ← s.originValid o wire
  Outcome.ensure (valid = true ∧ o.source = source.id ∧ o.lane < s.clientNum ∧
    o.receiverRpc = serverRpc) "response-origin"
  return (o.lane, o.originalRequest % kAppMaxBuffer)

/-! ## The entries of the registry and the services -/

/-- The client and the nginx service are the first ones of the registry. -/
structure Rooted (s : Settings) (clients instances : List Registration) : Prop where
  client : ∃ entry first, s.services.lookup "client" = some entry ∧ clients.head? = some first ∧
    entry.serverAddr = first.address ∧ entry.rpcId = first.rpcId
  nginx : ∃ entry first, s.services.lookup "nginx" = some entry ∧ instances.head? = some first ∧
    entry.serverAddr = first.address ∧ entry.rpcId = first.rpcId

section

variable {α β : Type} [BEq α] [LawfulBEq α] {list : List (α × β)} {key : α} {value : β}

/-- What is looked up is in the list. -/
theorem mem_of_lookup (found : list.lookup key = some value) : (key, value) ∈ list := by
  obtain ⟨before, after, rfl, _⟩ := lookup_eq_some_iff.mp found
  exact mem_append_right _ mem_cons_self

/-- The only value of a key is found. -/
theorem lookup_of_unique (member : (key, value) ∈ list)
    (only : ∀ other, (key, other) ∈ list → other = value) : list.lookup key = some value := by
  have held : (list.lookup key).isSome = true :=
    lookup_isSome_iff.mpr ⟨_, member, beq_self_eq_true key⟩
  obtain ⟨other, found⟩ := Option.isSome_iff_exists.mp held
  rw [found, only other (mem_of_lookup found)]

end

variable {s : Settings}

/-- The endpoint of a service that is alone at its address. -/
theorem remote_eq {key : String} {entry : Entry} (found : s.services.lookup key = some entry)
    (alone : ∀ item ∈ s.services, item.2.serverAddr = entry.serverAddr → item.1 = key) :
    s.remote entry.serverAddr = ⟨entry.serverAddr, (entry.rpcId % 256).toNat⟩ := by
  have member := mem_of_lookup found
  cases first : s.services.find? fun item => item.2.serverAddr = entry.serverAddr with
  | none =>
    have wrong := find?_eq_none.mp first _ member
    exact absurd (decide_eq_true rfl) wrong
  | some item =>
    have same : item.2.serverAddr = entry.serverAddr := by simpa using find?_some first
    have here := mem_of_find?_eq_some first
    have equal := inj_on_of_nodup_map s.keysNodup here member (alone item here same)
    rw [remote, getRemoteRpcId, first, equal]

section Processes

variable {s : Settings} {clients instances : List Registration} {first : Registration}
  (rooted : s.Rooted clients instances) (checked : s.Checked clients instances)
include checked

/-- Clients and instances have different addresses. -/
theorem Checked.apart {client nginx : Registration}
    (left : client ∈ clients) (right : nginx ∈ instances) : client.address ≠ nginx.address := by
  have distinct := (nodup_append.mp checked.addresses).2.1
  rw [map_append] at distinct
  exact (nodup_append.mp distinct).2.2 _ (mem_map_of_mem left) _ (mem_map_of_mem right)

/-- A registered process that is a service as well, known by its address. The other service that may
be registered is its twin. -/
theorem Checked.remote_registered {r : Registration}
    (member : r ∈ clients ++ instances) (small : r.rpcId < 64) {key twin : String}
    (pair : ∀ other, other ≠ key → other ≠ twin → other ≠ "client" ∧ other ≠ "nginx")
    {entry : Entry} (found : s.services.lookup key = some entry)
    (address : entry.serverAddr = r.address)
    (rpcId : entry.rpcId = r.rpcId) {entry' : Entry} (found' : s.services.lookup twin = some entry')
    (apart : entry'.serverAddr ≠ r.address) : s.remote entry.serverAddr = r.endpoint := by
  have alone : ∀ item ∈ s.services, item.2.serverAddr = entry.serverAddr → item.1 = key := by
    intro item here equal
    by_contra notKey
    rw [address] at equal
    by_cases isTwin : item.1 = twin
    · rw [inj_on_of_nodup_map s.keysNodup here (mem_of_lookup found') isTwin] at equal
      exact apart equal
    · have other : item.2 ∈ s.others := mem_map_of_mem
        (mem_filter.mpr ⟨here, decide_eq_true (pair item.1 notKey isTwin)⟩)
      exact (nodup_append.mp checked.addresses).2.2 _ (mem_map_of_mem other) _
        (mem_map_of_mem member) equal
  have id : (entry.rpcId % 256).toNat = r.rpcId := by omega
  rw [remote_eq found alone, id, address]
  rfl

include rooted in
/-- The client service is the first client. -/
theorem Rooted.remote_client (head : clients.head? = some first) :
    ∃ entry, s.service "client" = .ok entry ∧
      s.remote entry.serverAddr = first.endpoint := by
  obtain ⟨entry, _, found, same, address, rpcId⟩ := rooted.client
  cases head.symm.trans same
  obtain ⟨entry', nginx, found', head', address', _⟩ := rooted.nginx
  have member := mem_of_head? head
  have apart : entry'.serverAddr ≠ first.address := by
    rw [address']
    exact (checked.apart member (mem_of_head? head')).symm
  exact ⟨entry, by rw [service, found], checked.remote_registered (mem_append_left _ member)
    (checked.clientRegistry.valid first member).2.1 (fun _ left right => ⟨left, right⟩) found
      address
    rpcId found' apart⟩

include rooted in
/-- The nginx service is the first instance. -/
theorem Rooted.remote_nginx (head : instances.head? = some first) :
    ∃ entry, s.service "nginx" = .ok entry ∧
      entry.serverAddr = first.address ∧ s.remote entry.serverAddr = first.endpoint := by
  obtain ⟨entry, _, found, same, address, rpcId⟩ := rooted.nginx
  cases head.symm.trans same
  obtain ⟨entry', client, found', head', address', _⟩ := rooted.client
  have member := mem_of_head? head
  have apart : entry'.serverAddr ≠ first.address := by
    rw [address']
    exact checked.apart (mem_of_head? head') member
  exact ⟨entry, by rw [service, found], address, checked.remote_registered
    (mem_append_right _ member) (checked.nginxRegistry.valid first member).2.1
    (fun _ left right => ⟨right, left⟩) found address rpcId found' apart⟩

end Processes

/-! ## What the components compute -/

section Routes

variable {s : Settings} {clients instances : List Registration} {first source : Registration}
  {index lane request wire : Nat} (mode : s.rpcBaseline = true)
  (checked : s.Checked clients instances) (registered : s.clients = .ok clients)
  (listed : s.nginxInstances = .ok instances) (proxies : instances.length ≠ 0 ∧
    instances.length ≤ 3)
  (rooted : s.Rooted clients instances) (designed : instances.length ≠ 2) (single : s.clientNum = 1)
  (found : clients[index]? = some source) (numbered : s.clientWire index request lane = .ok wire)

include listed proxies in
/-- The number of instances. -/
theorem proxyCount_eq : s.proxyCount = .ok instances.length := by
  rw [proxyCount, listed, ok_bind, ensure_bind proxies]
  rfl

include registered in
/-- The number of clients. -/
theorem sourceCount_eq : s.sourceCount = .ok clients.length := by
  rw [sourceCount, registered]
  rfl

include mode registered in
/-- More than one client needs wire numbers. -/
theorem useMultiClientWire_eq :
    s.useMultiClientWire = .ok (decide (1 < clients.length)) := by
  rw [useMultiClientWire, if_pos mode, sourceCount_eq registered]
  rfl

include mode listed proxies in
/-- Whether there are three instances. -/
theorem threeInstances_eq :
    s.threeInstances = .ok (decide (instances.length = 3)) := by
  rw [threeInstances, if_pos mode, proxyCount_eq listed proxies]
  rfl

include registered numbered in
/-- What a client wire number is made of. -/
theorem clientWire_ok :
    request ≠ 0 ∧ lane < s.clientNum ∧ index < clients.length ∧
      wire = wireNumber request lane s.clientNum index clients.length := by
  rw [clientWire, sourceCount_eq registered, ok_bind] at numbered
  exact (wireRequest_ok numbered).2

/-- With one client and lane a request is its wire number. -/
theorem wireNumber_alone (real : request ≠ 0) : wireNumber request 0 1 0 1 = request := by
  have one : stride 1 1 = 1 := by decide
  rw [wireNumber, one]
  omega

include registered single numbered in
/-- With one client process and one lane the wire number is the number of the request. -/
theorem wire_alone (few : ¬1 < clients.length) : wire = request := by
  obtain ⟨real, laneIn, indexIn, rfl⟩ := clientWire_ok registered numbered
  have oneClient : clients.length = 1 := by omega
  have noLane : lane = 0 := by omega
  have noIndex : index = 0 := by omega
  rw [single, oneClient, noLane, noIndex, wireNumber_alone real]

include checked registered single numbered in
/-- The request of a wire number. -/
theorem originalRequest_eq :
    s.originalRequest wire = .ok request := by
  rw [originalRequest, sourceCount_eq registered, ok_bind]
  split
  case isTrue =>
    obtain ⟨real, laneIn, indexIn, rfl⟩ := clientWire_ok registered numbered
    exact wireOriginalRequest_wireNumber checked.fits laneIn indexIn real
  case isFalse few =>
    rw [wire_alone registered single numbered few]
    rfl

include checked registered listed single numbered in
/-- The instance of a wire number. -/
theorem rpcNginxIndex_eq :
    s.rpcNginxIndex wire = .ok ((request - 1) % kSlots % instances.length) := by
  obtain ⟨real, _⟩ := clientWire_ok registered numbered
  rw [rpcNginxIndex, originalRequest_eq checked registered single numbered, ok_bind,
    proxyCount_eq listed checked.proxies, ok_bind, routeKey_eq real, ok_bind,
    selectedNginx_eq checked.proxies, ok_bind, Nat.add_sub_cancel_left]
  rfl

/-- A text without delimiters is one token. -/
theorem tokens_alone {delimiter : Char} {letters token : List Char} (plain : delimiter ∉ letters)
    (some : token ++ letters ≠ []) : tokens delimiter letters token = [token ++ letters] := by
  induction letters generalizing token with
  | nil =>
    rw [append_nil] at some
    rw [tokens, if_neg some, append_nil]
  | cons letter letters ih =>
    have other : letter ≠ delimiter := fun same => plain (same ▸ mem_cons_self)
    rw [tokens, if_neg other, ih (fun member => plain (mem_cons_of_mem _ member)) (by simp),
      append_assoc, singleton_append]

/-- An address without commas. -/
theorem split_alone {address : String} (some : address ≠ "") (plain : ',' ∉ address.toList) :
    split address ',' = [address] := by
  have letters : address.toList ≠ [] := fun none => some (String.toList_eq_nil_iff.mp none)
  rw [split, tokens_alone plain letters, nil_append, map_singleton, String.ofList_toList]

/-- An element of a vector. -/
theorem vectorAt_eq {α : Type} {list : List α} {value : α} {place : Nat}
    (found : list[place]? = some value) : vectorAt list place = .ok value := by
  rw [vectorAt, found]

/-- Neither two nor three instances. -/
theorem Checked.oneInstance (checked : s.Checked clients instances)
    (designed : instances.length ≠ 2) (few : instances.length ≠ 3) : instances.length = 1 := by
  have bound := checked.proxies
  omega

/-- Then there is no second instance. -/
theorem Checked.alone {rest : List Registration} (checked : s.Checked clients (first :: rest))
    (few : ¬decide ((first :: rest).length = 3) = true) (designed : (first :: rest).length ≠ 2) :
    rest = [] := by
  have one := checked.oneInstance designed fun three => few (decide_eq_true three)
  exact length_eq_zero_iff.mp (Nat.succ.inj one)

section

include mode checked

include listed rooted designed in
/-- The sessions of the load balancer. -/
theorem forwardSessions_eq :
    s.forwardSessions = .ok (instances.map (·.endpoint)) := by
  obtain ⟨first, rest, rfl⟩ := exists_cons_of_ne_nil
    (fun none => checked.proxies.1 (length_eq_zero_iff.mpr none))
  obtain ⟨entry, read, address, remote⟩ := rooted.remote_nginx checked rfl
  obtain ⟨_, _, some, plain⟩ := checked.nginxRegistry.valid first mem_cons_self
  rw [← address] at some plain
  have servers := split_alone some plain
  rw [forwardSessions, read, ok_bind, servers, ensure_bind (by simp),
    threeInstances_eq mode listed checked.proxies, ok_bind]
  split
  case isTrue => rw [listed]; rfl
  case isFalse few =>
    rw [checked.alone few designed, map_singleton, map_singleton, remote]
    rfl

include listed rooted designed in
/-- The sessions of the timeline. -/
theorem timelineSessions_eq :
    s.timelineSessions = .ok (instances.map (·.endpoint)) := by
  obtain ⟨first, rest, rfl⟩ := exists_cons_of_ne_nil
    (fun none => checked.proxies.1 (length_eq_zero_iff.mpr none))
  obtain ⟨entry, read, _, remote⟩ := rooted.remote_nginx checked rfl
  rw [timelineSessions, read, ok_bind, threeInstances_eq mode listed checked.proxies,
    ok_bind, remote]
  split
  case isTrue => rw [listed]; rfl
  case isFalse few =>
    rw [checked.alone few designed, map_singleton]
    rfl

include registered rooted in
/-- The sessions back to the clients. -/
theorem backwardSessions_eq :
    s.backwardSessions = .ok (clients.map (·.endpoint)) := by
  obtain ⟨first, rest, rfl⟩ := exists_cons_of_ne_nil
    (fun none => checked.fits.2.1 (length_eq_zero_iff.mpr none))
  obtain ⟨entry, read, remote⟩ := rooted.remote_client checked rfl
  rw [backwardSessions, read, ok_bind, useMultiClientWire_eq mode registered, ok_bind,
    remote]
  split
  case isTrue => rw [registered]; rfl
  case isFalse few =>
    have notMany : ¬ 1 < (first :: rest).length := fun many => few (decide_eq_true many)
    have none : rest = [] := by
      rw [length_cons] at notMany
      exact length_eq_zero_iff.mp (by omega)
    rw [none, map_singleton]
    rfl

include registered listed designed single numbered in
/-- The index of the target. -/
theorem targetIndex_eq (header : Nat) :
    s.targetIndex instances.length header wire =
      .ok ((request - 1) % kSlots % instances.length) := by
  rw [targetIndex, useMultiClientWire_eq mode registered, ok_bind,
    threeInstances_eq mode listed checked.proxies, ok_bind]
  split
  case isTrue => exact rpcNginxIndex_eq checked registered listed single numbered
  case isFalse few =>
    rw [checked.oneInstance designed fun three => few (decide_eq_true three), Nat.mod_one,
      Nat.mod_one]
    rfl

include registered listed rooted designed single numbered in
/-- The load balancer sends to the chosen instance. -/
theorem loadBalanceForward_eq {nginx : Registration}
    (selected : instances[(request - 1) % kSlots % instances.length]? = some nginx) (header : Nat) :
    s.loadBalanceForward header wire = .ok nginx.endpoint := by
  rw [loadBalanceForward, forwardSessions_eq mode checked listed rooted designed, ok_bind,
    backwardSessions_eq mode checked registered rooted, ok_bind, length_map,
    targetIndex_eq mode checked registered listed designed single numbered, ok_bind]
  apply vectorAt_eq
  rw [getElem?_append_left, getElem?_map, selected]
  · rfl
  · rw [length_map]
    exact (List.getElem?_eq_some_iff.mp selected).1

include registered listed rooted designed single numbered in
/-- The timeline answers the chosen instance. -/
theorem timelineReverse_eq {nginx : Registration}
    (selected : instances[(request - 1) % kSlots % instances.length]? = some nginx) :
    s.timelineReverse wire = .ok nginx.endpoint := by
  rw [timelineReverse, timelineSessions_eq mode checked listed rooted designed, ok_bind,
    length_map]
  split
  case isTrue =>
    rw [rpcNginxIndex_eq checked registered listed single numbered, ok_bind]
    apply vectorAt_eq
    rw [getElem?_map, selected]
    rfl
  case isFalse few =>
    rw [checked.oneInstance designed fun three => few ⟨mode, three⟩, Nat.mod_one] at selected
    apply vectorAt_eq
    rw [getElem?_map, selected]
    rfl

include registered numbered in
/-- The client that a response goes to. -/
theorem reverseSource_eq :
    s.reverseSource wire = .ok index := by
  obtain ⟨real, laneIn, indexIn, rfl⟩ := clientWire_ok registered numbered
  rw [reverseSource, useMultiClientWire_eq mode registered, ok_bind]
  split
  case isTrue =>
    rw [sourceCount_eq registered, ok_bind,
      wireSourceIndex_wireNumber _ checked.fits laneIn indexIn]
    rfl
  case isFalse few =>
    have notMany : ¬ 1 < clients.length := fun many => few (decide_eq_true many)
    have noIndex : index = 0 := by omega
    rw [noIndex]
    rfl

include registered single numbered in
/-- The request of a response. -/
theorem receivedNumber_eq :
    s.receivedNumber index wire = .ok request := by
  rw [receivedNumber, useMultiClientWire_eq mode registered, ok_bind]
  split
  case isTrue =>
    obtain ⟨real, laneIn, indexIn, rfl⟩ := clientWire_ok registered numbered
    rw [sourceCount_eq registered, ok_bind,
      wireSourceIndex_wireNumber _ checked.fits laneIn indexIn]
    show (ensure _ _ >>= fun _ => _) = _
    rw [ensure_bind rfl, wireOriginalRequest_wireNumber checked.fits laneIn indexIn real]
    rfl
  case isFalse few =>
    rw [wire_alone registered single numbered fun many => few (decide_eq_true many)]
    rfl

omit checked in
include registered single numbered in
/-- The wire number of the baseline. -/
theorem baselineWire_eq :
    s.baselineWire index request lane = .ok wire := by
  rw [baselineWire, useMultiClientWire_eq mode registered, ok_bind]
  split
  case isTrue => exact numbered
  case isFalse few =>
    rw [wire_alone registered single numbered fun many => few (decide_eq_true many)]
    rfl

include registered rooted single found numbered in
/-- The receiver that a response goes to. -/
theorem loadBalanceReverse_eq :
    s.loadBalanceReverse wire = .ok (source.listens lane) := by
  obtain ⟨_, laneIn, _⟩ := clientWire_ok registered numbered
  have noLane : lane = 0 := by omega
  rw [loadBalanceReverse, backwardSessions_eq mode checked registered rooted, ok_bind,
    reverseSource_eq mode checked registered numbered, ok_bind]
  apply vectorAt_eq
  rw [getElem?_map, found, noLane]
  rfl

include registered single numbered in
/-- The lane and the slot of a response. -/
theorem timelineReadResp_eq :
    s.timelineReadResp index lane wire = .ok (lane, request % kAppMaxBuffer) := by
  obtain ⟨real, laneIn, _⟩ := clientWire_ok registered numbered
  rw [timelineReadResp, receivedNumber_eq mode checked registered single numbered, ok_bind,
    ensure_bind ⟨real, laneIn⟩]
  rfl

end

include checked registered listed found numbered in
/-- The wire number and the origin of a request. -/
theorem domainRequest_eq :
    s.domainRequest index lane request = .ok (wire,
      ⟨kWireAbi, source.id, lane, source.rpcId + lane, request,
        2 + (request - 1) % kSlots % instances.length⟩) := by
  obtain ⟨real, laneIn, _⟩ := clientWire_ok registered numbered
  rw [domainRequest, registered, ok_bind, vectorAt_eq found, ok_bind, numbered,
    ok_bind, routeKey_eq real, ok_bind, proxyCount_eq listed checked.proxies,
    ok_bind, selectedNginx_eq checked.proxies, ok_bind, checked.servers,
    Nat.mod_eq_of_lt laneIn]
  rfl

/-- A receiver has an id of its client. -/
theorem receiver_mem {lanes base : Nat} (laneIn : lane < lanes) : base + lane ∈ rpcIds lanes base :=
  mem_append_left _ (mem_map.mpr ⟨lane, mem_range.mpr laneIn, rfl⟩)

section

include checked

/-- An id belongs to one lane of one client. -/
theorem Checked.receiver_unique {left right : Registration}
    (leftIn : left ∈ clients) (rightIn : right ∈ clients) {i j : Nat} (small : i < s.clientNum)
    (small' : j < s.clientNum) (same : left.rpcId + i = right.rpcId + j) :
    left = right ∧ i = j := by
  have equal : left = right := by
    by_contra different
    have pairs := (nodup_flatMap.mp checked.ids).2
    have symmetric : Std.Symm (Function.onFun List.Disjoint
        fun r : Registration => rpcIds s.clientNum r.rpcId) :=
          ⟨fun _ _ apart => List.Disjoint.symm apart⟩
    exact pairs.forall (mem_append_left _ leftIn) (mem_append_left _ rightIn) different
      (receiver_mem small) (same ▸ receiver_mem small')
  rw [equal] at same
  exact ⟨equal, by omega⟩

include registered listed found numbered in
/-- The origin of a request is valid. -/
theorem originValid_eq :
    s.originValid ⟨kWireAbi, source.id, lane, source.rpcId + lane, request,
      2 + (request - 1) % kSlots % instances.length⟩ wire = .ok true := by
  obtain ⟨real, laneIn, indexIn, rfl⟩ := clientWire_ok registered numbered
  obtain ⟨_, at_⟩ := List.getElem?_eq_some_iff.mp found
  have member : source ∈ clients := mem_of_getElem? found
  have place : clients.findIdx? (fun client => client.id = source.id) = some index := by
    apply findIdx?_eq_some_iff_getElem.mpr
    refine ⟨indexIn, by rw [at_]; exact decide_eq_true rfl, ?_⟩
    intro other before same
    have ids := inj_on_of_nodup_map checked.clientRegistry.ids
      (getElem_mem (Nat.lt_trans before indexIn)) member (of_decide_eq_true same)
    rw [← at_] at ids
    have equal := (checked.clientRegistry.ids.of_map.getElem_inj_iff).mp ids
    omega
  have receiver : source.rpcId + lane < 64 :=
    checked.small source (mem_append_left _ member) _ (receiver_mem laneIn)
  obtain ⟨nonzero, _⟩ := checked.clientRegistry.valid source member
  rw [originValid, registered, ok_bind, place]
  show (vectorAt clients index >>= fun _ => _) = _
  rw [vectorAt_eq found, ok_bind, proxyCount_eq listed checked.proxies, ok_bind,
    validOrigin, requestStride_eq checked.fits, ok_bind, checked.servers, if_pos ?_]
  · show (routeKey request >>= fun _ => _) = _
    rw [routeKey_eq real, ok_bind, selectedNginx_eq checked.proxies, ok_bind,
      decide_eq_true rfl]
    rfl
  · refine ⟨rfl, rfl, nonzero, by omega, laneIn, ?_, receiver, indexIn, real, rfl, checked.proxies⟩
    rw [Nat.mod_eq_of_lt laneIn, Nat.mod_eq_of_lt (Nat.lt_trans receiver (by decide))]

include registered listed found numbered in
/-- The receiver that the domains return to. -/
theorem domainReturn_eq :
    s.domainReturn ⟨kWireAbi, source.id, lane, source.rpcId + lane, request,
      2 + (request - 1) % kSlots % instances.length⟩ wire = .ok (source.listens lane) := by
  have valid := originValid_eq checked registered listed found numbered
  obtain ⟨_, laneIn, _⟩ := clientWire_ok registered numbered
  have member : source ∈ clients := mem_of_getElem? found
  have session : (s.domainReturnSessions clients).reverse.lookup (source.rpcId + lane) =
      some (source.listens lane) := by
    apply lookup_of_unique
    · rw [mem_reverse, domainReturnSessions, checked.servers]
      exact mem_flatMap.mpr
        ⟨source, member, mem_map.mpr ⟨lane, mem_range.mpr laneIn, rfl⟩⟩
    · intro endpoint held
      rw [mem_reverse, domainReturnSessions, checked.servers] at held
      obtain ⟨client, here, held⟩ := mem_flatMap.mp held
      obtain ⟨i, small, equal⟩ := mem_map.mp held
      obtain ⟨same, rfl⟩ := Prod.mk.inj equal
      obtain ⟨rfl, rfl⟩ := checked.receiver_unique here member (mem_range.mp small) laneIn same
      rfl
  rw [domainReturn, valid, ok_bind, ensure_bind rfl, registered, ok_bind, session]
  rfl

include registered listed found numbered in
/-- The lane and the slot with domains. -/
theorem domainTimelineReadResp_eq :
    s.domainTimelineReadResp index (source.rpcId + lane) ⟨kWireAbi, source.id, lane,
      source.rpcId + lane, request, 2 + (request - 1) % kSlots % instances.length⟩ wire =
        .ok (lane, request % kAppMaxBuffer) := by
  have valid := originValid_eq checked registered listed found numbered
  obtain ⟨_, laneIn, _⟩ := clientWire_ok registered numbered
  rw [domainTimelineReadResp, registered, ok_bind, vectorAt_eq found, ok_bind, valid,
    ok_bind, ensure_bind ⟨rfl, rfl, laneIn, rfl⟩]
  rfl

include registered numbered in
/-- A wire number comes from one request. -/
theorem clientWire_unique {index' request' lane' : Nat}
    (numbered' : s.clientWire index' request' lane' = .ok wire) :
    index' = index ∧ request' = request ∧ lane' = lane := by
  obtain ⟨real, laneIn, indexIn, rfl⟩ := clientWire_ok registered numbered
  obtain ⟨real', laneIn', indexIn', same⟩ := clientWire_ok registered numbered'
  have equal := wireNumber_inj checked.fits laneIn' laneIn indexIn' indexIn real' real same.symm
  exact ⟨equal.1, equal.2.2, equal.2.1⟩

end

end Routes

variable {clients instances : List Registration}

/-- The baseline and the domain path choose the same nginx instance for a request, and both return
its response to the lane and the slot of the client process that issued it. -/
theorem routing_agrees (s : Settings) (clients instances : List Registration)
    (passed : s.checkConfig = .ok ()) (registered : s.clients = .ok clients)
    (listed : s.nginxInstances = .ok instances) (designed : instances.length ≠ 2)
    (rooted : s.Rooted clients instances) (index : Nat) (source : Registration)
    (found : clients[index]? = some source) (lane request wire : Nat)
    (numbered : s.clientWire index request lane = .ok wire) :
    ∃ origin nginx, s.domainRequest index lane request = .ok (wire, origin) ∧
      instances[origin.nginxDomain - 2]? = some nginx ∧ nginx.id = origin.nginxDomain ∧
      (s.clientNum = 1 → s.baseline.baselineWire index request lane = .ok wire ∧
        (∀ header, s.baseline.loadBalanceForward header wire = .ok nginx.endpoint) ∧
        s.baseline.timelineReverse wire = .ok nginx.endpoint ∧
        s.baseline.loadBalanceReverse wire = .ok (source.listens lane) ∧
        s.baseline.timelineReadResp index lane wire = .ok (lane, request % kAppMaxBuffer)) ∧
      s.domainReturn origin wire = .ok (source.listens lane) ∧
      s.domainTimelineReadResp index (source.listens lane).rpcId origin wire =
        .ok (lane, request % kAppMaxBuffer) ∧
      (∀ other ∈ clients, ∀ i < s.clientNum,
        other.listens i = source.listens lane → other = source ∧ i = lane) ∧
      ∀ index' request' lane', s.clientWire index' request' lane' = .ok wire →
        index' = index ∧ request' = request ∧ lane' = lane := by
  obtain ⟨clients', instances', registered', listed', checked⟩ := checkConfig_ok passed
  cases registered.symm.trans registered'
  cases listed.symm.trans listed'
  obtain ⟨real, laneIn, indexIn, _⟩ := clientWire_ok registered numbered
  have some : (request - 1) % kSlots % instances.length < instances.length :=
    Nat.mod_lt _ (Nat.pos_of_ne_zero checked.proxies.1)
  obtain ⟨nginx, selected⟩ : ∃ nginx,
      instances[(request - 1) % kSlots % instances.length]? = Option.some nginx :=
    ⟨_, getElem?_eq_getElem some⟩
  have member : source ∈ clients := mem_of_getElem? found
  refine ⟨_, nginx, domainRequest_eq checked registered listed found numbered, ?_, ?_, ?_,
    domainReturn_eq checked registered listed found numbered,
    domainTimelineReadResp_eq checked registered listed found numbered, ?_, ?_⟩
  · rw [Nat.add_sub_cancel_left]
    exact selected
  · rw [nginxInstances_id listed selected, Nat.add_comm]
  · intro single
    have mode : s.baseline.rpcBaseline = true := rfl
    have registered : s.baseline.clients = .ok clients := registered
    have listed : s.baseline.nginxInstances = .ok instances := listed
    have numbered : s.baseline.clientWire index request lane = .ok wire := numbered
    have checked : s.baseline.Checked clients instances := { checked with }
    have rooted : s.baseline.Rooted clients instances := { rooted with }
    exact ⟨baselineWire_eq mode registered single numbered,
      loadBalanceForward_eq mode checked registered listed rooted designed single numbered selected,
      timelineReverse_eq mode checked registered listed rooted designed single numbered selected,
      loadBalanceReverse_eq mode checked registered rooted single found numbered,
      timelineReadResp_eq mode checked registered single numbered⟩
  · intro other here i small same
    obtain ⟨_, sameId⟩ := Endpoint.mk.inj same
    exact checked.receiver_unique here member small laneIn sameId
  · intro index' request' lane' numbered'
    exact clientWire_unique checked registered numbered numbered'

end Settings

/-! ## Runs of two clients -/

namespace Sample

open Settings

def entry (rpcId : Int) (serverAddr : String) : Entry := ⟨rpcId, none, serverAddr⟩

/-- A baseline of two clients with one lane, with the nginx instances of a list. -/
def pair (nginx : Entry) (instances : List Entry) : Settings where
  services := [("client", entry 1 "127.0.0.1:31850"), ("load_balance", entry 2 "127.0.0.1:31851"),
    ("nginx", nginx), ("user_timeline", entry 4 "127.0.0.1:31853")]
  clientList := some [(1, entry 1 "127.0.0.1:31850"), (7, entry 5 "127.0.0.1:31854")]
  nginxList := some instances
  generateNum := 1000
  userNum := 1
  homeNum := 0
  writeNum := 0
  clientNum := 1
  serverNum := 1
  concurrency := 1
  enabled := false
  rpcBaseline := true
  domainBuild := true
  ubBuild := false
  keysNodup := by
    show ["client", "load_balance", "nginx", "user_timeline"].Nodup
    decide

def firstNginx : Entry := entry 3 "127.0.0.1:31852"

/-- The other two nginx instances. -/
def moreNginx : List Entry := [entry 6 "127.0.0.1:31855", entry 7 "127.0.0.1:31856"]

def pairClients : List Registration := [⟨1, 1, 0, "127.0.0.1:31850"⟩, ⟨7, 5, 0, "127.0.0.1:31854"⟩]

def pairInstances : List Registration :=
  [⟨2, 3, 0, "127.0.0.1:31852"⟩, ⟨3, 6, 0, "127.0.0.1:31855"⟩, ⟨4, 7, 0, "127.0.0.1:31856"⟩]

/-- The second request of the second client goes over the second of three instances. -/
theorem routing_agrees_pair : ∃ origin nginx,
    (pair firstNginx (firstNginx :: moreNginx)).domainRequest 1 0 2 = .ok (4, origin) ∧
    pairInstances[origin.nginxDomain - 2]? = some nginx ∧ nginx.id = 3 ∧
    (pair firstNginx (firstNginx :: moreNginx)).baseline.timelineReverse 4 =
      .ok nginx.endpoint := by
  have registered : (pair firstNginx (firstNginx :: moreNginx)).clients = .ok pairClients := by
    decide +kernel
  have listed : (pair firstNginx (firstNginx :: moreNginx)).nginxInstances = .ok pairInstances := by
    decide +kernel
  obtain ⟨origin, nginx, asked, found, number, baseline, _⟩ :=
    routing_agrees (pair firstNginx (firstNginx :: moreNginx)) pairClients pairInstances
      (by decide +kernel) registered listed (by decide)
      ⟨⟨_, _, rfl, rfl, rfl, rfl⟩,
        ⟨_, _, rfl, rfl, rfl, rfl⟩⟩ 1 ⟨7, 5, 0, "127.0.0.1:31854"⟩ rfl 0 2 4
      (by decide +kernel)
  have chosen : (pair firstNginx (firstNginx :: moreNginx)).domainRequest 1 0 2 =
      .ok (4, ⟨2, 7, 0, 5, 2, 3⟩) := by decide +kernel
  cases asked.symm.trans chosen
  exact ⟨_, nginx, chosen, found, number, (baseline rfl).2.2.1⟩

def twoNginx : Settings := pair firstNginx [firstNginx, entry 6 "127.0.0.1:31855"]

/-- Three nginx instances, and an nginx service that is none of them. -/
def strayNginx : Settings := pair (entry 9 "127.0.0.1:31860") (firstNginx :: moreNginx)

/-- With two instances the baseline uses the first one only, and the client records the second one
for its second request. With a service that is not the first instance, the timeline uses the service
where the load balancer uses the instance. -/
theorem routes_differ :
    (twoNginx.validateConfig = .ok () ∧ twoNginx.clientWire 0 2 0 = .ok 3 ∧
      twoNginx.domainRequest 0 0 2 = .ok (3, ⟨2, 1, 0, 1, 2, 3⟩) ∧
      twoNginx.nginxInstances =
        .ok [⟨2, 3, 0, "127.0.0.1:31852"⟩, ⟨3, 6, 0, "127.0.0.1:31855"⟩] ∧
      twoNginx.loadBalanceForward 2 3 = .ok ⟨"127.0.0.1:31852", 3⟩) ∧
    strayNginx.validateConfig = .ok () ∧ strayNginx.clientWire 0 1 0 = .ok 1 ∧
      strayNginx.loadBalanceForward 1 1 = .ok ⟨"127.0.0.1:31852", 3⟩ ∧
      strayNginx.timelineReverse 1 = .ok ⟨"127.0.0.1:31860", 9⟩ := by
  decide +kernel

end Sample

end UbApplication.SocialNetwork
