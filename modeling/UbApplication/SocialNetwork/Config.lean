import Mathlib.Data.List.Nodup
import Mathlib.Data.List.Perm.Basic
import UbApplication.SocialNetwork.Wire

/-!
# The configuration of a campaign

All processes of a campaign read the same file. It names the services and, when there are several
clients or several nginx instances, lists them in a registry. `validate_config` checks it before a
process starts.
-/

namespace UbApplication.SocialNetwork

open Outcome List

/-- What the file says of one process. -/
structure Entry where
  rpcId : Int
  bindCoreOffset : Option Int
  serverAddr : String
deriving DecidableEq, Repr

structure Registration where
  id : Nat
  rpcId : Nat
  bindCoreOffset : Nat
  address : String
deriving DecidableEq, Repr

/-- The file, the flags read from its common part, the environment and the build. -/
structure Settings where
  services : List (String × Entry)
  clientList : Option (List (Int × Entry))
  nginxList : Option (List Entry)
  generateNum : Int
  userNum : Int
  homeNum : Int
  writeNum : Int
  clientNum : Nat
  serverNum : Nat
  concurrency : Nat
  enabled : Bool
  rpcBaseline : Bool
  /-- `ERPC_SN_DOMAIN_PROXY`. -/
  domainBuild : Bool
  /-- `ERPC_SN_DOMAIN_UB`. -/
  ubBuild : Bool
  keysNodup : (services.map Prod.fst).Nodup

def configU32 (value : Int) : Except String Nat := do
  Outcome.ensure (0 ≤ value ∧ value ≤ uint32Max)
    "domain registry requires nonnegative uint32 integers"
  return value.toNat

/-- The core at which the threads of a process begin. -/
def bindOffset : Option Int → Except String Nat
  | some offset => configU32 offset
  | none => return 0

def register (item : Int × Entry) : Except String Registration := do
  let id ← configU32 item.1
  let base ← configU32 item.2.rpcId
  let bind ← bindOffset item.2.bindCoreOffset
  return ⟨id, base, bind, item.2.serverAddr⟩

/-- The checks of a registration, against those before it. -/
def checkRegistry (earlier : List Registration) : List Registration → Except String Unit
  | [] => .ok ()
  | r :: rest => do
    Outcome.ensure (r.id ≠ 0 ∧ r.rpcId < 64 ∧ r.address ≠ "" ∧ ',' ∉ r.address.toList)
      "invalid domain registry id/rpc_id/address"
    Outcome.ensure (∀ other ∈ earlier, other.id ≠ r.id ∧ other.address ≠ r.address)
      "duplicate domain registry id/address"
    checkRegistry (earlier ++ [r]) rest

/-- The listed entries, or the service of the same kind alone. -/
def listedItems (listed : Option (List (Int × Entry))) (legacy : Except String (Int × Entry)) :
    Except String (List (Int × Entry)) :=
  match listed with
  | some [] => .error "empty/non-array domain registry"
  | some items => .ok items
  | none => legacy.map ([·])

def registrations (listed : Option (List (Int × Entry))) (legacy : Except String (Int × Entry)) :
    Except String (List Registration) := do
  let items ← listedItems listed legacy
  let result ← items.mapM register
  checkRegistry [] result
  return result

/-- What is reserved so far. -/
structure Reserved where
  addresses : List String
  used : List Nat

/-- The RPC ids of a process: those it receives at, and those it sends from. -/
def rpcIds (lanes base : Nat) : List Nat :=
  (List.range lanes).map (base + ·) ++ (List.range lanes).map (base + 20 + ·)

def takeId (used : List Nat) (id : Nat) : Except String (List Nat) := do
  Outcome.ensure (id < 64 ∧ id ∉ used) "rpc-id-overlap-or-range"
  return used ++ [id]

/-- The `reserve` of `validate_config`. -/
def reserve (lanes : Nat) (r : Reserved) (base : Nat) (address : String) :
    Except String Reserved := do
  Outcome.ensure (address ≠ "" ∧ ',' ∉ address.toList) "require an explicit service address"
  Outcome.ensure (address ∉ r.addresses) "duplicate service address"
  let used ← (rpcIds lanes base).foldlM takeId r.used
  return ⟨r.addresses ++ [address], used⟩

namespace Settings

def service (s : Settings) (key : String) : Except String Entry :=
  match s.services.lookup key with
  | some entry => .ok entry
  | none => .error ("[json.exception.out_of_range.403] key '" ++ key ++ "' not found")

def clients (s : Settings) : Except String (List Registration) :=
  registrations s.clientList ((s.service "client").map (1, ·))

def nginxInstances (s : Settings) : Except String (List Registration) :=
  registrations (s.nginxList.map (·.mapIdx fun i entry => ((i : Int) + 2, entry)))
    ((s.service "nginx").map (2, ·))

def proxyCount (s : Settings) : Except String Nat := do
  let instances ← s.nginxInstances
  Outcome.ensure (instances.length ≠ 0 ∧ instances.length ≤ 3)
    "domain registry supports 1..3 nginx instances"
  return instances.length

def sourceCount (s : Settings) : Except String Nat := return (← s.clients).length

/-- The services other than the clients and nginx. -/
def others (s : Settings) : List Entry :=
  (s.services.filter fun item => item.1 ≠ "client" ∧ item.1 ≠ "nginx").map Prod.snd

/-- The message of every check of the workload. -/
def workloadError : String :=
  "single user/home read workload or disjoint in-flight budget invalid"

/-- The checks of the workload and of the requests that may be in flight. -/
def checkWorkload (s : Settings) (stride : Nat) : Except String Unit := do
  Outcome.ensure (s.concurrency ≠ 0 ∧ s.concurrency ≤ kSlots / stride) workloadError
  let generate ← configU32 s.generateNum
  Outcome.ensure (generate ≠ 0 ∧ generate ≤ uint32Max / stride) workloadError
  let user ← configU32 s.userNum
  Outcome.ensure (user ≤ 1) workloadError
  let home ← configU32 s.homeNum
  Outcome.ensure (user + home = 1) workloadError
  let write ← configU32 s.writeNum
  Outcome.ensure (write = 0) workloadError
  Outcome.ensure (s.ubBuild ∨ ¬ (s.enabled ∧ home = 1))
    "HomeTimeline domain route currently requires the UB backend"

def reserveAll (s : Settings) (clients instances : List Registration) : Except String Reserved := do
  let services ← s.others.foldlM
    (fun r entry => do reserve s.clientNum r (← configU32 entry.rpcId) entry.serverAddr) ⟨[], []⟩
  (clients ++ instances).foldlM (fun r item => reserve s.clientNum r item.rpcId item.address)
    services

/-- The checks of `validate_config`. -/
def checkConfig (s : Settings) : Except String Unit := do
  Outcome.ensure (s.domainBuild ∨ ¬ s.enabled) "build-option-disabled"
  Outcome.ensure (s.clientNum ≤ 4 ∧ s.serverNum = s.clientNum)
    "matching client_num/server_num must be 1..4"
  let clients ← s.clients
  let stride ← requestStride s.clientNum clients.length
  s.checkWorkload stride
  let proxies ← s.proxyCount
  Outcome.ensure (¬ (s.ubBuild ∧ s.enabled) ∨ s.clientNum = 1 ∧ clients.length ≤ 4 ∧
      (proxies = 1 ∨ proxies = 3) ∧ s.concurrency = 1)
    "UB social domain requires 1..4 Client processes, one lane each, 1 or 3 nginx, concurrency=1"
  let instances ← s.nginxInstances
  let _ ← s.reserveAll clients instances
  return ()

/-- `validate_config`. A run without domains is not checked, unless it is a baseline of several
clients. -/
def validateConfig (s : Settings) : Except String Unit := do
  let sources ← s.sourceCount
  if ¬ s.enabled ∧ ¬ (s.rpcBaseline ∧ 1 < sources) then return () else s.checkConfig

end Settings

/-! ## What the checks establish -/

/-- What the registry checks establish. -/
structure Registered (list : List Registration) : Prop where
  valid : ∀ r ∈ list, r.id ≠ 0 ∧ r.rpcId < 64 ∧ r.address ≠ "" ∧ ',' ∉ r.address.toList
  ids : (list.map (·.id)).Nodup

/-- A new element at the end. -/
theorem nodup_snoc {α : Type} {list : List α} {last : α} (distinct : list.Nodup)
    (fresh : last ∉ list) :
    (list ++ [last]).Nodup := by
  rw [← concat_eq_append]
  exact distinct.concat fresh

/-- A registry that was checked is consistent. -/
theorem checkRegistry_ok {earlier list : List Registration}
    (passed : checkRegistry earlier list = .ok ()) (before : Registered earlier) :
    Registered (earlier ++ list) := by
  induction list generalizing earlier with
  | nil => rwa [append_nil]
  | cons r rest ih =>
    rw [checkRegistry, ensure_bind_eq_ok, ensure_bind_eq_ok] at passed
    obtain ⟨valid, fresh, rest⟩ := passed
    have after : Registered (earlier ++ [r]) := by
      constructor
      · intro other member
        rcases mem_append.mp member with old | new
        · exact before.valid other old
        · rw [mem_singleton.mp new]
          exact valid
      · rw [map_append, map_singleton]
        apply nodup_snoc before.ids
        intro member
        obtain ⟨other, old, same⟩ := mem_map.mp member
        exact (fresh other old).1 same
    have all := ih rest after
    rwa [append_assoc, singleton_append] at all

/-- The registrations that were read are consistent. -/
theorem registrations_ok {listed : Option (List (Int × Entry))}
    {legacy : Except String (Int × Entry)}
    {list : List Registration} (read : registrations listed legacy = .ok list) :
    Registered list := by
  rw [registrations] at read
  obtain ⟨items, _, rest⟩ := bind_eq_ok.mp read
  obtain ⟨result, _, rest⟩ := bind_eq_ok.mp rest
  obtain ⟨_, passed, rest⟩ := bind_eq_ok.mp rest
  cases rest
  exact checkRegistry_ok passed ⟨fun _ member => (nomatch member), nodup_nil⟩

/-- Each registration comes from its item. -/
theorem register_list {items : List (Int × Entry)} {result : List Registration}
    (read : items.mapM register = .ok result) {place : Nat} {r : Registration}
    (found : result[place]? = some r) :
    ∃ item, items[place]? = some item ∧ register item = .ok r := by
  induction items generalizing result place with
  | nil =>
    rw [mapM_nil] at read
    cases read
    exact (nomatch found)
  | cons item items ih =>
    rw [mapM_cons] at read
    obtain ⟨first, here, read⟩ := bind_eq_ok.mp read
    obtain ⟨rest, there, read⟩ := bind_eq_ok.mp read
    cases read
    cases place with
    | zero =>
      cases found
      exact ⟨item, rfl, here⟩
    | succ place => exact ih there found

/-- A registration has the id of its item. -/
theorem register_id {item : Int × Entry} {r : Registration} (read : register item = .ok r) :
    item.1 = r.id := by
  rw [register] at read
  obtain ⟨id, number, read⟩ := bind_eq_ok.mp read
  obtain ⟨base, _, read⟩ := bind_eq_ok.mp read
  obtain ⟨bind, _, read⟩ := bind_eq_ok.mp read
  obtain ⟨bounds, number⟩ := ensure_bind_eq_ok.mp number
  cases number
  cases read
  exact (Int.toNat_of_nonneg bounds.1).symm

namespace Reserved

/-- Nothing is reserved twice. -/
structure Sound (r : Reserved) : Prop where
  addresses : r.addresses.Nodup
  used : r.used.Nodup
  small : ∀ id ∈ r.used, id < 64

end Reserved

/-- The ids taken are distinct and below 64. -/
theorem takeIds_ok {ids used after : List Nat} (taken : ids.foldlM takeId used = .ok after)
    (distinct : used.Nodup) (small : ∀ id ∈ used, id < 64) :
    after = used ++ ids ∧ after.Nodup ∧ ∀ id ∈ after, id < 64 := by
  induction ids generalizing used with
  | nil =>
    cases taken
    exact ⟨(append_nil _).symm, distinct, small⟩
  | cons id ids ih =>
    rw [foldlM_cons] at taken
    obtain ⟨next, first, rest⟩ := bind_eq_ok.mp taken
    obtain ⟨⟨low, fresh⟩, done⟩ := ensure_bind_eq_ok.mp first
    cases done
    have all := ih rest (nodup_snoc distinct fresh) (by
      intro other member
      rcases mem_append.mp member with old | new
      · exact small other old
      · rw [mem_singleton.mp new]
        exact low)
    rwa [append_assoc, singleton_append] at all

variable {r after : Reserved}

/-- A reservation keeps addresses and ids apart. -/
theorem reserve_ok {lanes base : Nat} {address : String}
    (done : reserve lanes r base address = .ok after) (sound : r.Sound) :
    after.Sound ∧ after.addresses = r.addresses ++ [address] ∧
      after.used = r.used ++ rpcIds lanes base := by
  rw [reserve, ensure_bind_eq_ok, ensure_bind_eq_ok] at done
  obtain ⟨_, fresh, done⟩ := done
  obtain ⟨used, taken, done⟩ := bind_eq_ok.mp done
  cases done
  obtain ⟨all, distinct, small⟩ := takeIds_ok taken sound.used sound.small
  exact ⟨⟨nodup_snoc sound.addresses fresh, distinct, small⟩, rfl, all⟩

/-- So do the reservations of a list. -/
theorem reserve_list {lanes : Nat} {items : List Registration}
    (done : items.foldlM (fun r item => reserve lanes r item.rpcId item.address) r = .ok after)
    (sound : r.Sound) : after.Sound ∧ after.addresses = r.addresses ++ items.map (·.address) ∧
      after.used = r.used ++ items.flatMap fun item => rpcIds lanes item.rpcId := by
  induction items generalizing r with
  | nil =>
    cases done
    exact ⟨sound, (append_nil _).symm, (append_nil _).symm⟩
  | cons item items ih =>
    rw [foldlM_cons] at done
    obtain ⟨next, first, rest⟩ := bind_eq_ok.mp done
    obtain ⟨kept, addresses, used⟩ := reserve_ok first sound
    obtain ⟨all, addresses', used'⟩ := ih rest kept
    refine ⟨all, ?_, ?_⟩
    · rw [addresses', addresses, append_assoc, map_cons, singleton_append]
    · rw [used', used, append_assoc, flatMap_cons]

/-- So do those of the services. -/
theorem reserve_services {lanes : Nat} {items : List Entry} (done : items.foldlM
      (fun r entry => do reserve lanes r (← configU32 entry.rpcId) entry.serverAddr) r = .ok after)
    (sound : r.Sound) :
    after.Sound ∧ after.addresses = r.addresses ++ items.map (·.serverAddr) := by
  induction items generalizing r with
  | nil =>
    cases done
    exact ⟨sound, (append_nil _).symm⟩
  | cons item items ih =>
    rw [foldlM_cons] at done
    obtain ⟨next, first, rest⟩ := bind_eq_ok.mp done
    obtain ⟨base, _, first⟩ := bind_eq_ok.mp first
    obtain ⟨kept, addresses, _⟩ := reserve_ok first sound
    obtain ⟨all, addresses'⟩ := ih rest kept
    refine ⟨all, ?_⟩
    rw [addresses', addresses, append_assoc, map_cons, singleton_append]

variable {s : Settings}

namespace Settings

/-- What the checks establish of the clients and of the nginx instances. -/
structure Checked (s : Settings) (clients instances : List Registration) : Prop where
  clientRegistry : Registered clients
  nginxRegistry : Registered instances
  fits : Fits s.clientNum clients.length
  servers : s.serverNum = s.clientNum
  budget : s.concurrency ≠ 0 ∧ s.concurrency ≤ kSlots / stride s.clientNum clients.length
  generate : s.generateNum.toNat ≤ uint32Max / stride s.clientNum clients.length
  proxies : instances.length ≠ 0 ∧ instances.length ≤ 3
  addresses : (s.others.map (·.serverAddr) ++ (clients ++ instances).map (·.address)).Nodup
  ids : ((clients ++ instances).flatMap fun r => rpcIds s.clientNum r.rpcId).Nodup
  small : ∀ r ∈ clients ++ instances, ∀ id ∈ rpcIds s.clientNum r.rpcId, id < 64

/-- What the check of the workload says. -/
theorem checkWorkload_ok {stride : Nat} (passed : s.checkWorkload stride = .ok ()) :
    (s.concurrency ≠ 0 ∧ s.concurrency ≤ kSlots / stride) ∧
      s.generateNum.toNat ≤ uint32Max / stride := by
  rw [checkWorkload, ensure_bind_eq_ok] at passed
  obtain ⟨budget, passed⟩ := passed
  obtain ⟨generate, read, passed⟩ := bind_eq_ok.mp passed
  obtain ⟨⟨_, bounded⟩, _⟩ := ensure_bind_eq_ok.mp passed
  obtain ⟨_, read⟩ := ensure_bind_eq_ok.mp read
  cases read
  exact ⟨budget, bounded⟩

/-- What an accepted configuration satisfies. -/
theorem checkConfig_ok (passed : s.checkConfig = .ok ()) :
    ∃ clients instances, s.clients = .ok clients ∧ s.nginxInstances = .ok instances ∧
      s.Checked clients instances := by
  rw [checkConfig, ensure_bind_eq_ok, ensure_bind_eq_ok] at passed
  obtain ⟨_, ⟨_, servers⟩, passed⟩ := passed
  obtain ⟨clients, registered, passed⟩ := bind_eq_ok.mp passed
  obtain ⟨stride, strided, passed⟩ := bind_eq_ok.mp passed
  obtain ⟨fits, strided⟩ := ensure_bind_eq_ok.mp strided
  cases strided
  obtain ⟨_, workload, passed⟩ := bind_eq_ok.mp passed
  obtain ⟨budget, generate⟩ := checkWorkload_ok workload
  obtain ⟨proxies, counted, passed⟩ := bind_eq_ok.mp passed
  obtain ⟨_, passed⟩ := ensure_bind_eq_ok.mp passed
  obtain ⟨instances, listed, passed⟩ := bind_eq_ok.mp passed
  rw [proxyCount, listed] at counted
  obtain ⟨some, _⟩ := ensure_bind_eq_ok.mp counted
  obtain ⟨reserved, all, _⟩ := bind_eq_ok.mp passed
  obtain ⟨services, first, rest⟩ := bind_eq_ok.mp all
  obtain ⟨sound, addresses⟩ := reserve_services first
    ⟨nodup_nil, nodup_nil, fun _ member => (nomatch member)⟩
  obtain ⟨sound, addresses', used⟩ := reserve_list rest sound
  rw [addresses, nil_append] at addresses'
  have distinct := sound.addresses
  rw [addresses'] at distinct
  have ids := sound.used
  have small := sound.small
  rw [used] at ids small
  refine ⟨clients, instances, registered, listed,
    ⟨registrations_ok registered, registrations_ok listed, fits, servers, budget, generate, some,
      distinct, (nodup_append.mp ids).2.1, ?_⟩⟩
  intro r member id here
  exact small id (mem_append_right _ (mem_flatMap.mpr ⟨r, member, here⟩))

/-- The instances are numbered from two. -/
theorem nginxInstances_id {instances : List Registration}
    (listed : s.nginxInstances = .ok instances)
    {place : Nat} {nginx : Registration} (found : instances[place]? = some nginx) :
    nginx.id = place + 2 := by
  rw [nginxInstances, registrations] at listed
  obtain ⟨items, chosen, rest⟩ := bind_eq_ok.mp listed
  obtain ⟨result, read, rest⟩ := bind_eq_ok.mp rest
  obtain ⟨_, _, rest⟩ := bind_eq_ok.mp rest
  cases rest
  obtain ⟨item, held, registered⟩ := register_list read found
  have numbered : item.1 = place + 2 := by
    rw [listedItems.eq_def] at chosen
    split at chosen
    case h_1 => contradiction
    case h_2 given =>
      cases chosen
      obtain ⟨list, _, rfl⟩ := Option.map_eq_some_iff.mp given
      rw [getElem?_mapIdx] at held
      obtain ⟨entry, _, rfl⟩ := Option.map_eq_some_iff.mp held
      rfl
    case h_3 =>
      cases legacy : s.service "nginx" with
      | error message =>
        rw [legacy] at chosen
        contradiction
      | ok entry =>
        rw [legacy] at chosen
        cases chosen
        obtain ⟨inside, rfl⟩ := List.getElem?_eq_some_iff.mp held
        have only : place = 0 := by
          rw [length_singleton] at inside
          omega
        subst only
        rfl
  have same := register_id registered
  omega

/-- The whole check includes that of the domains. -/
theorem checkConfig_of_validateConfig (accepted : s.validateConfig = .ok ())
    (looked : s.enabled = true) : s.checkConfig = .ok () := by
  obtain ⟨sources, _, rest⟩ := bind_eq_ok.mp accepted
  rwa [if_neg fun unchecked => unchecked.1 looked] at rest

end Settings

end UbApplication.SocialNetwork
