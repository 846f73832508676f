import UbApplication.Lib.Machine
import UbApplication.Lib.SlotTable
import UbApplication.SocialNetwork.Routing

/-!
# Requests in flight

A client lane numbers its requests, puts them into a queue and issues them in the order of the
queue. It notes each issued request in a ring of slots until the response comes, and then takes the
next number. With domains the timeline notes a request too, from its arrival until its response is
acknowledged. A number is taken under a lock and pushed afterwards, and the leader thread and the
receiver of a lane both do so. A check that fails ends the process.
-/

namespace UbApplication.SocialNetwork

open List Option Machine
open Function (update update_self update_of_ne)

/-- A request of a lane of a client process. -/
@[ext] structure Request where
  source : Nat
  lane : Nat
  number : Nat
deriving DecidableEq, Repr

/-- Where a request is that has been issued. -/
inductive Phase where
  | requested
  | arrived
  /-- Its response is on the way to the client. -/
  | answered
  /-- Its response has been consumed, and the timeline does not know it yet. -/
  | consumed
deriving DecidableEq, Repr

/-- The `QueueStore` of a lane. -/
structure QueueStore where
  reqId : Nat
  starts : Nat
  taken : List Nat
  /-- `spsc_queue`. -/
  queue : List Nat
deriving DecidableEq, Repr

/-- Clients, timeline and messages. -/
structure Flight where
  store : Nat → Nat → QueueStore
  /-- `domain_inflight` of a lane of a source. -/
  inflight : Nat × Nat × Nat → Nat
  /-- `domain_pending` of a lane of the timeline. -/
  pending : Nat × Nat → Nat
  phase : Request → Option Phase
  failed : Option String

/-- What may happen. -/
inductive FlightLabel where
  /-- The leader thread takes a number. -/
  | start (source lane : Nat)
  /-- A thread pushes a number that it has taken. -/
  | push (source lane number : Nat)
  /-- The client thread issues the next request of the queue. -/
  | issue (source lane : Nat)
  /-- A request arrives at the timeline. -/
  | arrive (r : Request)
  /-- The timeline sends a response. -/
  | answer (r : Request)
  /-- A client receives a response. -/
  | deliver (r : Request)
  /-- The timeline receives the acknowledgement of a response. -/
  | acknowledge (r : Request)
deriving DecidableEq, Repr

/-- `PushNextReq`, up to the push. -/
def QueueStore.take (generateNum : Int) (store : QueueStore) : QueueStore :=
  if (store.reqId : Int) > generateNum then store
  else { store with
    reqId := (store.reqId + 1) % (uint32Max + 1)
    taken := store.taken ++ [store.reqId] }

def Request.slot (r : Request) : Nat × Nat × Nat := (r.source, r.lane, r.number % kAppMaxBuffer)

namespace Flight

def stop (f : Flight) (text : String) : Flight := { f with failed := some text }

def withStore (f : Flight) (source lane : Nat) (store : QueueStore) : Flight :=
  { f with store := fun i j => if i = source ∧ j = lane then store else f.store i j }

def withPhase (f : Flight) (r : Request) (phase : Option Phase) : Flight :=
  { f with phase := update f.phase r phase }

end Flight

variable {queue : List Nat} {s : Settings}

namespace Settings

def sources (s : Settings) : Nat := (s.clients.toOption.map List.length).getD 0

def requestWire (s : Settings) (r : Request) : Except String Nat :=
  if s.enabled then s.clientWire r.source r.number r.lane
  else s.baselineWire r.source r.number r.lane

def wireOf (s : Settings) (r : Request) : Nat := (s.requestWire r).toOption.getD 0

/-- The slot of a request at the timeline. -/
def pendingSlot (s : Settings) (r : Request) : Nat × Nat := (r.lane, s.wireOf r % kAppMaxBuffer)

/-- The clients note what they issue. -/
def tracked (s : Settings) : Bool := s.enabled || s.rpcBaseline

/-- The check of the client table when a request is issued. -/
def busyText (s : Settings) : String :=
  if s.enabled then "request-slot-busy" else "baseline-slot-busy"

/-- The check of the client table when a response comes. -/
def inflightText (s : Settings) : String :=
  if s.enabled then "response-inflight" else "baseline-inflight"

/-- The lane whose receiver gets the response. Without domains the load balancer sends every
response to the first receiver of the client process. -/
def receiver (s : Settings) (r : Request) : Nat := if s.enabled then r.lane else 0

/-- A lane of a client process before the campaign. -/
def laneStore (s : Settings) (source lane : Nat) : QueueStore :=
  ⟨1, if source < s.sources ∧ lane < s.clientNum then s.concurrency else 0, [], []⟩

def initialFlight (s : Settings) : Flight :=
  ⟨s.laneStore, fun _ => 0, fun _ => 0, fun _ => none, none⟩

def start (s : Settings) (f : Flight) (source lane : Nat) : Option Flight :=
  if (f.store source lane).starts = 0 then none
  else some (f.withStore source lane { (f.store source lane).take s.generateNum with
    starts := (f.store source lane).starts - 1 })

def push (f : Flight) (source lane number : Nat) : Option Flight :=
  if number ∈ (f.store source lane).taken then
    some (f.withStore source lane { f.store source lane with
      taken := (f.store source lane).taken.erase number
      queue := (f.store source lane).queue ++ [number] })
  else none

/-- `handler_timeline_read_req`, for the request that is next in the queue. -/
def issue (s : Settings) (f : Flight) (source lane : Nat) : Option Flight :=
  match (f.store source lane).queue with
  | [] => none
  | number :: queue =>
    let popped := f.withStore source lane { f.store source lane with queue }
    match s.requestWire ⟨source, lane, number⟩ with
    | .error text => some (popped.stop text)
    | .ok wire =>
      if s.tracked ∧ f.inflight (source, lane, number % kAppMaxBuffer) ≠ 0 then
        some (popped.stop s.busyText)
      else some { popped.withPhase ⟨source, lane, number⟩ (some .requested) with
        inflight := if s.tracked then
            update f.inflight (source, lane, number % kAppMaxBuffer) wire
          else f.inflight }

/-- `Pending::store`, when a request arrives. -/
def arrive (s : Settings) (f : Flight) (r : Request) : Option Flight :=
  if f.phase r = some .requested then
    if s.enabled then
      if s.wireOf r = 0 ∨ f.pending (s.pendingSlot r) ≠ 0 then some (f.stop "pending-slot-busy")
      else some { f.withPhase r (some .arrived) with
        pending := update f.pending (s.pendingSlot r) (s.wireOf r) }
    else some (f.withPhase r (some .arrived))
  else none

/-- `Pending::get`, when a response is sent. -/
def answer (s : Settings) (f : Flight) (r : Request) : Option Flight :=
  if f.phase r = some .arrived then
    if s.enabled ∧ (s.wireOf r = 0 ∨ f.pending (s.pendingSlot r) ≠ s.wireOf r) then
      some (f.stop "pending-slot-identity")
    else some (f.withPhase r (some .answered))
  else none

/-- `domain_timeline_read_resp_handler` and `timeline_read_resp_handler`. -/
def deliver (s : Settings) (f : Flight) (r : Request) : Option Flight :=
  if f.phase r = some .answered then
    let lane := s.receiver r
    let slot := (r.source, lane, r.number % kAppMaxBuffer)
    let next := (f.withStore r.source lane ((f.store r.source lane).take s.generateNum)).withPhase
      r (some .consumed)
    if s.tracked then
      if f.inflight slot = s.wireOf r then some { next with inflight := update f.inflight slot 0 }
      else some (f.stop s.inflightText)
    else some next
  else none

/-- `Pending::clear`, when a response is acknowledged. -/
def acknowledge (s : Settings) (f : Flight) (r : Request) : Option Flight :=
  if f.phase r = some .consumed then
    if s.enabled then
      if s.wireOf r = 0 ∨ f.pending (s.pendingSlot r) ≠ s.wireOf r then
        some (f.stop "pending-completion-identity")
      else some { f.withPhase r none with
        pending := update f.pending (s.pendingSlot r) 0 }
    else some (f.withPhase r none)
  else none

/-- One step. Nothing happens after a check has failed. -/
def flightStep (s : Settings) (f : Flight) (label : FlightLabel) : Option Flight :=
  if f.failed ≠ none then none
  else match label with
    | .start source lane => s.start f source lane
    | .push source lane number => push f source lane number
    | .issue source lane => s.issue f source lane
    | .arrive r => s.arrive f r
    | .answer r => s.answer f r
    | .deliver r => s.deliver f r
    | .acknowledge r => s.acknowledge f r

/-! ## The numbers of a lane -/

/-- A lane of a client process. -/
def HasLane (s : Settings) (source lane : Nat) : Prop := source < s.sources ∧ lane < s.clientNum

/-- A request that may be issued. -/
structure Known (s : Settings) (r : Request) : Prop where
  lane : s.HasLane r.source r.lane
  real : r.number ≠ 0
  generated : (r.number : Int) ≤ s.generateNum

/-- What is known of the store of a lane, with the numbers that are outstanding. -/
structure StoreSound (s : Settings) (source lane : Nat) (q : QueueStore) (Live : Nat → Prop) :
    Prop where
  counter : q.reqId ≠ 0
  starts : q.starts ≠ 0 → s.HasLane source lane
  waiting : ∀ number ∈ q.taken ++ q.queue,
    s.Known ⟨source, lane, number⟩ ∧ number < q.reqId ∧ ¬ Live number
  distinct : (q.taken ++ q.queue).Nodup
  live : ∀ number, Live number → s.Known ⟨source, lane, number⟩ ∧ number < q.reqId

namespace StoreSound

variable {s : Settings} {source lane number : Nat} {q : QueueStore} {Live : Nat → Prop}

section

variable (sound : s.StoreSound source lane q Live)
include sound

/-- A number is taken. -/
theorem take (here : s.HasLane source lane) (bounded : s.generateNum < uint32Max) :
    s.StoreSound source lane (q.take s.generateNum) Live := by
  rw [QueueStore.take]
  split
  case isTrue => exact sound
  case isFalse more =>
    have generated : (q.reqId : Int) ≤ s.generateNum := Int.not_lt.mp more
    have next : (q.reqId + 1) % (uint32Max + 1) = q.reqId + 1 := Nat.mod_eq_of_lt (by omega)
    have order : (q.taken ++ [q.reqId] ++ q.queue).Perm (q.reqId :: (q.taken ++ q.queue)) := by
      rw [append_assoc, singleton_append]
      exact perm_middle
    constructor
    · show (q.reqId + 1) % (uint32Max + 1) ≠ 0
      omega
    · exact sound.starts
    · intro n member
      show _ ∧ n < (q.reqId + 1) % (uint32Max + 1) ∧ _
      rw [next]
      rcases mem_cons.mp (order.mem_iff.mp member) with rfl | old
      · refine ⟨⟨here, sound.counter, generated⟩, Nat.lt_succ_self _, fun live => ?_⟩
        exact Nat.lt_irrefl _ (sound.live _ live).2
      · obtain ⟨known, below, idle⟩ := sound.waiting n old
        exact ⟨known, Nat.lt_succ_of_lt below, idle⟩
    · apply order.nodup_iff.mpr
      apply nodup_cons.mpr
      exact ⟨fun member => Nat.lt_irrefl _ (sound.waiting _ member).2.1, sound.distinct⟩
    · intro n live
      show _ ∧ n < (q.reqId + 1) % (uint32Max + 1)
      rw [next]
      obtain ⟨known, below⟩ := sound.live n live
      exact ⟨known, Nat.lt_succ_of_lt below⟩

/-- A number is pushed. -/
theorem push (member : number ∈ q.taken) :
    s.StoreSound source lane
      { q with taken := q.taken.erase number, queue := q.queue ++ [number] } Live := by
  have order : (q.taken.erase number ++ (q.queue ++ [number])).Perm (q.taken ++ q.queue) := by
    calc (q.taken.erase number ++ (q.queue ++ [number]))
        |>.Perm (number :: (q.taken.erase number ++ q.queue)) := by
          rw [← append_assoc]
          exact perm_append_singleton _ _
      _ |>.Perm (q.taken ++ q.queue) := by
          exact ((perm_cons_erase member).symm.append_right q.queue)
  exact ⟨sound.counter, sound.starts, fun n here => sound.waiting n (order.mem_iff.mp here),
    order.nodup_iff.mpr sound.distinct, sound.live⟩

/-- A number is popped and issued. -/
theorem pop (first : q.queue = number :: queue) :
    s.StoreSound source lane { q with queue } fun n => n = number ∨ Live n := by
  have order : (q.taken ++ q.queue).Perm (number :: (q.taken ++ queue)) := by
    rw [first]
    exact perm_middle
  have distinct := nodup_cons.mp (order.nodup_iff.mp sound.distinct)
  obtain ⟨known, below, _⟩ := sound.waiting number (order.mem_iff.mpr mem_cons_self)
  refine ⟨sound.counter, sound.starts, ?_, distinct.2, ?_⟩
  · intro n member
    obtain ⟨known, below, idle⟩ := sound.waiting n (order.mem_iff.mpr (mem_cons_of_mem _ member))
    refine ⟨known, below, ?_⟩
    rintro (rfl | live)
    · exact distinct.1 member
    · exact idle live
  · rintro n (rfl | live)
    · exact ⟨known, below⟩
    · exact sound.live n live

/-- Fewer requests are outstanding. -/
theorem fewer {Live' : Nat → Prop} (less : ∀ n, Live' n → Live n) :
    s.StoreSound source lane q Live' :=
  ⟨sound.counter, sound.starts, fun n member =>
      have ⟨known, below, idle⟩ := sound.waiting n member
      ⟨known, below, fun live => idle (less n live)⟩,
    sound.distinct, fun n live => sound.live n (less n live)⟩

end

end StoreSound

/-! ## Requests that are close to each other -/

/-- How far the numbers of the outstanding requests of a lane may be apart. -/
def window (s : Settings) : Nat :=
  if s.enabled then kSlots / stride s.clientNum s.sources else kSlots

/-- Two requests, if they are of one lane, have numbers within the window. -/
def Near (s : Settings) (r r' : Request) : Prop :=
  r.source = r'.source → r.lane = r'.lane →
    r.number < r'.number + s.window ∧ r'.number < r.number + s.window

/-- What an accepted configuration provides. -/
structure Ready (s : Settings) : Prop where
  bounded : s.generateNum < uint32Max
  wide : 0 < s.window
  wired : ∀ r, s.Known r → ∃ wire, s.requestWire r = .ok wire ∧ wire ≠ 0
  own : s.tracked = true → ∀ r, s.Known r → s.receiver r = r.lane
  apart : s.enabled = true → ∀ r r', s.Known r → s.Known r' → s.Near r r' →
    s.pendingSlot r = s.pendingSlot r' → r = r'

/-- A window is within the ring. -/
theorem window_le (s : Settings) : s.window ≤ kAppMaxBuffer := by
  rw [window]
  split
  · exact Nat.div_le_self _ _
  · exact Nat.le_refl _

/-- Requests near each other have slots of their own. -/
theorem Near.slot_inj {r r' : Request} (near : s.Near r r') (same : r.slot = r'.slot) : r = r' := by
  obtain ⟨source, rest⟩ := Prod.mk.inj same
  obtain ⟨lane, slot⟩ := Prod.mk.inj rest
  obtain ⟨left, right⟩ := near source lane
  have ring := s.window_le
  have number : r.number = r'.number := eq_of_mod_eq (by omega) (by omega) slot
  exact Request.ext source lane number

/-- A receiver is a lane of the client. -/
theorem Known.receiver {r : Request} (known : s.Known r) : s.HasLane r.source (s.receiver r) := by
  obtain ⟨source, lane⟩ := known.lane
  refine ⟨source, ?_⟩
  rw [Settings.receiver]
  split
  case isTrue => exact lane
  case isFalse => exact Nat.zero_lt_of_lt lane

/-- The wire number of a known request. -/
theorem Ready.wireOf_eq (ready : s.Ready) {r : Request} (known : s.Known r) :
    s.requestWire r = .ok (s.wireOf r) ∧ s.wireOf r ≠ 0 := by
  obtain ⟨wire, found, nonzero⟩ := ready.wired r known
  rw [wireOf, found]
  exact ⟨rfl, nonzero⟩

/-! ## The invariant -/

end Settings

variable {test : Phase → Bool}

namespace Flight

/-- A client waits for the response. -/
def Flying (f : Flight) (r : Request) : Prop := (f.phase r).any (· ≠ .consumed)

/-- The timeline has noted the request. -/
def Noted (f : Flight) (r : Request) : Prop := (f.phase r).any (· ≠ .requested)

/-- The requests of a lane that are outstanding. -/
def Live (f : Flight) (source lane number : Nat) : Prop := f.phase ⟨source, lane, number⟩ ≠ none

/-- The invariant of a campaign. -/
structure Sound (s : Settings) (f : Flight) : Prop where
  running : f.failed = none
  stores : ∀ source lane, s.StoreSound source lane (f.store source lane) (f.Live source lane)
  near : ∀ r r', f.phase r ≠ none → f.phase r' ≠ none → s.Near r r'
  inflight : s.tracked = true → SlotTable.Holds Request.slot s.wireOf f.inflight f.Flying
  pending : s.enabled = true → SlotTable.Holds s.pendingSlot s.wireOf f.pending f.Noted

variable {s : Settings} {f : Flight} {r r' : Request} {source lane : Nat}

/-- A request in some phase is outstanding. -/
theorem live_of_any (here : (f.phase r).any test = true) : f.phase r ≠ none := by
  intro none
  rw [none] at here
  contradiction

/-- What is outstanding is known. -/
theorem Sound.known (sound : f.Sound s) (live : f.phase r ≠ none) : s.Known r :=
  ((sound.stores r.source r.lane).live r.number live).1

/-- Requests in flight have slots of their own. -/
theorem Sound.flying_inj (sound : f.Sound s) (one : f.Flying r) (two : f.Flying r')
    (same : r.slot = r'.slot) : r = r' :=
  (sound.near r r' (live_of_any one) (live_of_any two)).slot_inj same

/-- So have those that the timeline notes. -/
theorem Sound.noted_inj (sound : f.Sound s) (ready : s.Ready) (mode : s.enabled = true)
    (one : f.Noted r) (two : f.Noted r') (same : s.pendingSlot r = s.pendingSlot r') : r = r' :=
  ready.apart mode r r' (sound.known (live_of_any one)) (sound.known (live_of_any two))
    (sound.near r r' (live_of_any one) (live_of_any two)) same

variable {phase : Option Phase}

/-- The phase set. -/
@[simp] theorem withPhase_self : (f.withPhase r phase).phase r = phase :=
  update_self ..

/-- The other requests stay. -/
theorem withPhase_of_ne {item : Request} (other : item ≠ r) :
    (f.withPhase r phase).phase item = f.phase item :=
  update_of_ne other _ _

/-- A change within the test. -/
theorem withPhase_keeps (before : (f.phase r).any test = true)
    (after : phase.any test = true) (item : Request) :
    ((f.withPhase r phase).phase item).any test = true ↔ (f.phase item).any test = true := by
  by_cases same : item = r
  · rw [same, withPhase_self]
    exact ⟨fun _ => before, fun _ => after⟩
  · rw [withPhase_of_ne same]

/-- A request enters the test. -/
theorem withPhase_enters (after : phase.any test = true)
    (item : Request) : ((f.withPhase r phase).phase item).any test = true ↔
      item = r ∨ (f.phase item).any test = true := by
  by_cases same : item = r
  · rw [same, withPhase_self]
    exact ⟨fun _ => .inl rfl, fun _ => after⟩
  · rw [withPhase_of_ne same]
    exact ⟨.inr, fun either => either.resolve_left same⟩

/-- A request leaves the test. -/
theorem withPhase_leaves (after : phase.any test = false)
    (item : Request) : ((f.withPhase r phase).phase item).any test = true ↔
      (f.phase item).any test = true ∧ item ≠ r := by
  by_cases same : item = r
  · rw [same, withPhase_self, after]
    exact ⟨fun wrong => (nomatch wrong), fun both => absurd rfl both.2⟩
  · rw [withPhase_of_ne same]
    exact ⟨fun here => ⟨here, same⟩, fun both => both.1⟩

/-- No request appears. -/
theorem live_of_withPhase {item : Request} (live : f.phase r ≠ none)
    (here : (f.withPhase r phase).phase item ≠ none) : f.phase item ≠ none := by
  by_cases same : item = r
  · rw [same]
    exact live
  · rwa [withPhase_of_ne same] at here

/-- Soundness after a phase and the tables change. -/
theorem Sound.move (sound : f.Sound s) (live : f.phase r ≠ none)
    {inflight : Nat × Nat × Nat → Nat} {pending : Nat × Nat → Nat}
    (flying : s.tracked = true →
      SlotTable.Holds Request.slot s.wireOf inflight (f.withPhase r phase).Flying)
    (noted : s.enabled = true →
      SlotTable.Holds s.pendingSlot s.wireOf pending (f.withPhase r phase).Noted) :
    Sound s { f.withPhase r phase with inflight, pending } := by
  refine ⟨sound.running, ?_, ?_, flying, noted⟩
  · intro source lane
    apply (sound.stores source lane).fewer
    intro number here
    exact live_of_withPhase live here
  · intro one two left right
    exact sound.near one two (live_of_withPhase live left) (live_of_withPhase live right)

/-- Soundness after a queue changes. -/
theorem Sound.store (sound : f.Sound s) {q : QueueStore}
    (changed : s.StoreSound source lane q (f.Live source lane)) :
    (f.withStore source lane q).Sound s := by
  refine { sound with stores := ?_ }
  intro i j
  show s.StoreSound i j (if i = source ∧ j = lane then q else f.store i j) (f.Live i j)
  split
  case isTrue here =>
    obtain ⟨rfl, rfl⟩ := here
    exact changed
  case isFalse => exact sound.stores i j

/-! ## The steps -/

variable {g : Flight}

section

variable (sound : f.Sound s)
include sound

/-- A lane starts. -/
theorem Sound.start (ready : s.Ready) (taken : s.start f source lane = some g) :
    g.Sound s := by
  obtain ⟨some, done⟩ := ite_none_left_eq_some.mp taken
  cases done
  have here := (sound.stores source lane).starts some
  exact sound.store
    { (sound.stores source lane).take here ready.bounded with starts := fun _ => here }

/-- A number is pushed. -/
theorem Sound.push {number : Nat} (taken : Settings.push f source lane number = some g) :
    g.Sound s := by
  obtain ⟨member, done⟩ := ite_none_right_eq_some.mp taken
  cases done
  exact sound.store ((sound.stores source lane).push member)

/-- A request arrives. -/
theorem Sound.arrive (ready : s.Ready) (taken : s.arrive f r = some g) :
    g.Sound s := by
  obtain ⟨here, taken⟩ := ite_none_right_eq_some.mp taken
  have live : f.phase r ≠ none := by rw [here]; exact some_ne_none _
  have flying : s.tracked = true → SlotTable.Holds Request.slot s.wireOf f.inflight
      (f.withPhase r (some .arrived)).Flying := fun on =>
    (sound.inflight on).congr (withPhase_keeps (by rw [here]; rfl) rfl)
  split at taken
  case isTrue mode =>
    have apart : ∀ item, f.Noted item → s.pendingSlot item ≠ s.pendingSlot r := by
      intro item noted same
      have equal := ready.apart mode item r (sound.known (live_of_any noted)) (sound.known live)
        (sound.near item r (live_of_any noted) live) same
      rw [equal, Noted, here] at noted
      exact (nomatch noted)
    rw [if_neg] at taken
    · cases taken
      exact sound.move live flying fun _ =>
        ((sound.pending mode).put apart).congr (withPhase_enters rfl)
    · rintro (zero | busy)
      · exact (ready.wireOf_eq (sound.known live)).2 zero
      · exact busy ((sound.pending mode).free apart)
  case isFalse off =>
    cases taken
    exact sound.move live flying fun on => absurd on off

/-- A request is answered. -/
theorem Sound.answer (ready : s.Ready) (taken : s.answer f r = some g) :
    g.Sound s := by
  obtain ⟨here, taken⟩ := ite_none_right_eq_some.mp taken
  have live : f.phase r ≠ none := by rw [here]; exact some_ne_none _
  rw [if_neg] at taken
  · cases taken
    exact sound.move live
      (fun on => (sound.inflight on).congr (withPhase_keeps (by rw [here]; rfl) rfl))
      (fun on => (sound.pending on).congr (withPhase_keeps (by rw [here]; rfl) rfl))
  · rintro ⟨mode, zero | other⟩
    · exact (ready.wireOf_eq (sound.known live)).2 zero
    · exact other ((sound.pending mode).here r (by rw [Noted, here]; rfl))

/-- A response is delivered. -/
theorem Sound.deliver (ready : s.Ready) (taken : s.deliver f r = some g) :
    g.Sound s := by
  obtain ⟨here, taken⟩ := ite_none_right_eq_some.mp taken
  have live : f.phase r ≠ none := by rw [here]; exact some_ne_none _
  have flies : f.Flying r := by rw [Flying, here]; rfl
  have known := sound.known live
  -- The next number is taken first: the tables do not depend on the stores.
  have stored := sound.store
    ((sound.stores r.source (s.receiver r)).take known.receiver ready.bounded)
  have noted : s.enabled = true → SlotTable.Holds s.pendingSlot s.wireOf f.pending
      (f.withPhase r (some .consumed)).Noted := fun on =>
    (sound.pending on).congr (withPhase_keeps (by rw [here]; rfl) rfl)
  split at taken
  case isTrue on =>
    have slot : (r.source, s.receiver r, r.number % kAppMaxBuffer) = r.slot := by
      rw [ready.own on r known, Request.slot]
    simp only [slot, if_pos ((sound.inflight on).here r flies)] at taken
    cases taken
    exact stored.move live (fun _ =>
      ((sound.inflight on).clear fun item flying same =>
        sound.flying_inj flying flies same).congr (withPhase_leaves rfl)) noted
  case isFalse off =>
    cases taken
    exact stored.move live (fun on => absurd on off) noted

/-- A response is acknowledged. -/
theorem Sound.acknowledge (ready : s.Ready) (taken : s.acknowledge f r = some g) : g.Sound s := by
  obtain ⟨here, taken⟩ := ite_none_right_eq_some.mp taken
  have live : f.phase r ≠ none := by rw [here]; exact some_ne_none _
  have noted : f.Noted r := by rw [Noted, here]; rfl
  -- The client does not wait for a consumed response.
  have flying : s.tracked = true → SlotTable.Holds Request.slot s.wireOf f.inflight
      (f.withPhase r none).Flying := by
    intro on
    apply (sound.inflight on).congr
    intro item
    refine (withPhase_leaves (by rfl) item).trans ⟨And.left, fun flies => ⟨flies, ?_⟩⟩
    rintro rfl
    rw [Flying, here] at flies
    contradiction
  split at taken
  case isTrue mode =>
    rw [if_neg] at taken
    · cases taken
      exact sound.move live flying fun _ =>
        ((sound.pending mode).clear fun item other same =>
          sound.noted_inj ready mode other noted same).congr (withPhase_leaves rfl)
    · rintro (zero | other)
      · exact (ready.wireOf_eq (sound.known live)).2 zero
      · exact other ((sound.pending mode).here r noted)
  case isFalse off =>
    cases taken
    exact sound.move live flying fun on => absurd on off

/-- The queues after a request is issued. -/
theorem Sound.stores_issued {number : Nat} {phase : Option Phase}
    (first : (f.store source lane).queue = number :: queue) (i j : Nat) :
    s.StoreSound i j ((f.withStore source lane { f.store source lane with queue }).store i j)
      ((f.withPhase ⟨source, lane, number⟩ phase).Live i j) := by
  show s.StoreSound i j (if i = source ∧ j = lane then { f.store source lane with queue }
    else f.store i j) _
  split
  case isTrue here =>
    obtain ⟨rfl, rfl⟩ := here
    apply ((sound.stores i j).pop first).fewer
    intro n live
    by_cases same : n = number
    · exact .inl same
    · have other : (⟨i, j, n⟩ : Request) ≠ ⟨i, j, number⟩ := fun equal =>
        same (Request.mk.inj equal).2.2
      exact .inr fun none => live ((withPhase_of_ne other).trans none)
  case isFalse away =>
    apply (sound.stores i j).fewer
    intro n live
    have other : (⟨i, j, n⟩ : Request) ≠ ⟨source, lane, number⟩ := fun equal =>
      away ⟨(Request.mk.inj equal).1, (Request.mk.inj equal).2.1⟩
    exact fun none => live ((withPhase_of_ne other).trans none)

/-- An issued request is near the others. -/
theorem Sound.near_issued (ready : s.Ready) {phase : Option Phase}
    (near : ∀ item, f.phase item ≠ none → s.Near item r) (one two : Request)
    (left : (f.withPhase r phase).phase one ≠ none)
    (right : (f.withPhase r phase).phase two ≠ none) :
    s.Near one two := by
  by_cases new : one = r
  · by_cases new' : two = r
    · rw [new, new']
      intro _ _
      have wide := ready.wide
      exact ⟨by omega, by omega⟩
    · have live := fun none => right ((withPhase_of_ne new').trans none)
      rw [new]
      intro same same'
      exact (near two live same.symm same'.symm).symm
  · have live := fun none => left ((withPhase_of_ne new).trans none)
    by_cases new' : two = r
    · rw [new']
      exact near one live
    · exact sound.near one two live fun none => right ((withPhase_of_ne new').trans none)

/-- A request is issued. -/
theorem Sound.issue (ready : s.Ready) (taken : s.issue f source lane = some g)
    (spaced : ∀ number ∈ (f.store source lane).queue.head?, ∀ other, f.Live source lane other →
      number < other + s.window ∧ other < number + s.window) : g.Sound s := by
  rw [Settings.issue] at taken
  split at taken
  case h_1 => contradiction
  case h_2 number queue first =>
    obtain ⟨known, _, idle⟩ := (sound.stores source lane).waiting number
      (mem_append_right _ (first ▸ mem_cons_self))
    have idle : f.phase ⟨source, lane, number⟩ = none := Decidable.not_not.mp idle
    have near : ∀ item, f.phase item ≠ none → s.Near item ⟨source, lane, number⟩ := by
      rintro item live rfl rfl
      have close := spaced number (by rw [first]; rfl) item.number live
      exact ⟨close.2, close.1⟩
    have apart : ∀ item, f.Flying item → item.slot ≠ (⟨source, lane, number⟩ : Request).slot := by
      intro item flying same
      have equal := (near item (live_of_any flying)).slot_inj same
      rw [equal] at flying
      exact live_of_any flying idle
    have free : ¬ (s.tracked ∧ f.inflight (source, lane, number % kAppMaxBuffer) ≠ 0) :=
      fun busy => busy.2 ((sound.inflight busy.1).free apart)
    rw [(ready.wireOf_eq known).1] at taken
    simp only [if_neg free] at taken
    cases taken
    refine ⟨sound.running, sound.stores_issued first, sound.near_issued ready near, ?_, ?_⟩
    · intro on
      show SlotTable.Holds _ _ (if s.tracked then _ else _) _
      rw [if_pos on]
      exact ((sound.inflight on).put apart).congr (withPhase_enters rfl)
    · intro on
      apply (sound.pending on).congr
      intro item
      refine (withPhase_leaves (by rfl) item).trans ⟨And.left, fun noted => ⟨noted, ?_⟩⟩
      rintro rfl
      exact live_of_any noted idle

end

end Flight

namespace Settings

/-- A request is issued only if its number is within the window of those of its lane that are
outstanding. -/
def Spaced (s : Settings) (f : Flight) : FlightLabel → Prop
  | .issue source lane => ∀ number ∈ (f.store source lane).queue.head?,
      ∀ other < (f.store source lane).reqId, f.phase ⟨source, lane, other⟩ ≠ none →
        number < other + s.window ∧ other < number + s.window
  | _ => True

instance (s : Settings) (f : Flight) : ∀ label, Decidable (s.Spaced f label)
  | .issue source lane => inferInstanceAs (Decidable (∀ number ∈ (f.store source lane).queue.head?,
      ∀ other < (f.store source lane).reqId, f.phase ⟨source, lane, other⟩ ≠ none →
        number < other + s.window ∧ other < number + s.window))
  | .start .. | .push .. | .arrive _ | .answer _ | .deliver _ | .acknowledge _ => .isTrue trivial

/-- Nothing is outstanding at the start. -/
theorem initialFlight_sound (s : Settings) : s.initialFlight.Sound s := by
  refine ⟨rfl, ?_, fun _ _ wrong => absurd rfl wrong, fun _ => SlotTable.holds_empty ?_,
    fun _ => SlotTable.holds_empty ?_⟩
  · intro source lane
    refine ⟨Nat.one_ne_zero, ?_, fun _ member => (nomatch member), nodup_nil,
      fun _ wrong => absurd rfl wrong⟩
    intro some
    by_contra away
    exact some (if_neg away)
  · exact fun _ wrong => (nomatch wrong)
  · exact fun _ wrong => (nomatch wrong)

/-- Every spaced step keeps soundness. -/
theorem flightStep_sound (ready : s.Ready) {f g : Flight} {label : FlightLabel}
    (sound : f.Sound s) (spaced : s.Spaced f label) (taken : s.flightStep f label = some g) :
    g.Sound s := by
  obtain ⟨_, taken⟩ := ite_none_left_eq_some.mp taken
  cases label with
  | start source lane => exact sound.start ready taken
  | push source lane number => exact sound.push taken
  | issue source lane =>
    apply sound.issue ready taken
    intro number first other live
    exact spaced number first other ((sound.stores source lane).live other live).2 live
  | arrive r => exact sound.arrive ready taken
  | answer r => exact sound.answer ready taken
  | deliver r => exact sound.deliver ready taken
  | acknowledge r => exact sound.acknowledge ready taken

/-! ## Accepted configurations -/

section Accepted

variable {s : Settings} {clients instances : List Registration} {r : Request}

/-- The sources are the clients. -/
theorem sources_eq (registered : s.clients = .ok clients) : s.sources = clients.length := by
  rw [sources, registered]
  rfl

/-- The client wire number of a known request. -/
theorem clientWire_known (checked : s.Checked clients instances)
    (registered : s.clients = .ok clients)
    (known : s.Known r) : s.clientWire r.source r.number r.lane =
      .ok (wireNumber r.number r.lane s.clientNum r.source clients.length) := by
  obtain ⟨⟨sourceIn, laneIn⟩, real, generated⟩ := known
  rw [sources_eq registered] at sourceIn
  have below : wireNumber r.number r.lane s.clientNum r.source clients.length ≤ uint32Max :=
    wireNumber_le checked.fits laneIn sourceIn real (by omega) checked.generate
  rw [clientWire, sourceCount_eq registered, Outcome.ok_bind, wireRequest,
    requestStride_eq checked.fits, Outcome.ok_bind,
      Outcome.ensure_bind ⟨real, laneIn, sourceIn, below⟩]
  rfl

/-- An accepted configuration with domains is ready. -/
theorem ready_domain (checked : s.Checked clients instances) (registered : s.clients = .ok clients)
    (mode : s.enabled = true) (bounded : s.generateNum < uint32Max) : s.Ready := by
  have window : s.window = kSlots / stride s.clientNum clients.length := by
    rw [window, if_pos mode, sources_eq registered]
  have wires : ∀ r, s.Known r → s.requestWire r =
      .ok (wireNumber r.number r.lane s.clientNum r.source clients.length) := by
    intro r known
    rw [requestWire, if_pos mode, clientWire_known checked registered known]
  have carried : ∀ r, s.Known r →
      s.wireOf r = wireNumber r.number r.lane s.clientNum r.source clients.length := by
    intro r known
    rw [wireOf, wires r known]
    rfl
  refine ⟨bounded, ?_, fun r known => ⟨_, wires r known, wireNumber_ne_zero⟩,
    fun _ r _ => if_pos mode, ?_⟩
  · have divides := (stride_of_fits checked.fits).1
    rw [window]
    exact Nat.div_pos (Nat.le_of_dvd (by decide) (divides.trans (by decide)))
      (stride_pos checked.fits)
  · intro _ r r' known known' near same
    obtain ⟨lane, slot⟩ := Prod.mk.inj same
    obtain ⟨sourceIn, laneIn⟩ := known.lane
    obtain ⟨sourceIn', laneIn'⟩ := known'.lane
    have real := Nat.pos_of_ne_zero known.real
    have real' := Nat.pos_of_ne_zero known'.real
    rw [carried r known, carried r' known'] at slot
    rw [sources_eq registered] at sourceIn sourceIn'
    obtain ⟨⟨source, -⟩, ring⟩ :=
      wireNumber_mod_inj checked.fits laneIn laneIn' sourceIn sourceIn' slot
    obtain ⟨left, right⟩ := near source lane
    rw [window] at left right
    have before : r.number - 1 = r'.number - 1 := eq_of_mod_eq (by omega) (by omega) ring
    have number : r.number = r'.number := by omega
    exact Request.ext source lane number

/-- One without domains is ready. -/
theorem ready_plain (plain : ¬ s.enabled = true) (bounded : s.generateNum < uint32Max)
    (single : s.rpcBaseline = true → s.enabled = true ∨ s.clientNum = 1)
    (wired : ∀ r, s.Known r → ∃ wire, s.baselineWire r.source r.number r.lane = .ok wire ∧
      wire ≠ 0) :
    s.Ready := by
  refine ⟨bounded, ?_, ?_, fun on r known => ?_, fun on => absurd on plain⟩
  · rw [window, if_neg plain]
    decide
  · intro r known
    rw [requestWire, if_neg plain]
    exact wired r known
  · have baseline : s.rpcBaseline = true := by simpa [tracked, plain] using on
    have lane := known.lane.2
    rw [(single baseline).resolve_left plain] at lane
    rw [receiver, if_neg plain]
    omega

/-- Every accepted configuration is ready. -/
theorem ready_of_accepted (accepted : s.validateConfig = .ok ())
    (bounded : s.generateNum < uint32Max)
    (single : s.rpcBaseline = true → s.enabled = true ∨ s.clientNum = 1) : s.Ready := by
  obtain ⟨count, counted, rest⟩ := Outcome.bind_eq_ok.mp accepted
  obtain ⟨clients, registered, counted⟩ := Outcome.bind_eq_ok.mp counted
  cases counted
  by_cases unchecked : ¬ s.enabled ∧ ¬ (s.rpcBaseline ∧ 1 < clients.length)
  · apply ready_plain unchecked.1 bounded single
    intro r known
    refine ⟨r.number, ?_, known.real⟩
    have single : s.useMultiClientWire = .ok false := by
      rw [useMultiClientWire, sourceCount_eq registered]
      split
      case isTrue on =>
        show Except.ok (decide (1 < clients.length)) = _
        rw [decide_eq_false fun many => unchecked.2 ⟨on, many⟩]
      case isFalse => rfl
    rw [baselineWire, single]
    rfl
  · rw [if_neg unchecked] at rest
    obtain ⟨_, instances, registered', _, checked⟩ := checkConfig_ok rest
    cases registered.symm.trans registered'
    by_cases mode : s.enabled = true
    · exact ready_domain checked registered mode bounded
    · apply ready_plain mode bounded single
      intro r known
      have many : s.rpcBaseline ∧ 1 < clients.length := by
        by_contra few
        exact unchecked ⟨mode, few⟩
      refine ⟨wireNumber r.number r.lane s.clientNum r.source clients.length, ?_,
        wireNumber_ne_zero⟩
      rw [baselineWire, useMultiClientWire_eq many.1 registered, Outcome.ok_bind,
        if_pos (decide_eq_true many.2), clientWire_known checked registered known]

end Accepted

/-- In an accepted configuration with domains, or with one lane in the baseline mode, as long as
every request is issued within the window of those of its lane that are outstanding, no check of the
tables fails, and no two requests that are outstanding share a slot of the client or of the
timeline. -/
theorem slots_never_collide (s : Settings) (accepted : s.validateConfig = .ok ())
    (bounded : s.generateNum < uint32Max)
    (single : s.rpcBaseline = true → s.enabled = true ∨ s.clientNum = 1) (labels : List FlightLabel)
    (final : Flight) (spaced : Machine.Admits s.Spaced s.flightStep s.initialFlight labels)
    (taken : Machine.run s.flightStep s.initialFlight labels = some final) :
    final.failed = none ∧
      (∀ r r', final.Flying r → final.Flying r' → r.slot = r'.slot → r = r') ∧
      (s.enabled = true → ∀ r r', final.Noted r → final.Noted r' →
        s.pendingSlot r = s.pendingSlot r' → r = r') := by
  have ready := ready_of_accepted accepted bounded single
  have sound : final.Sound s := run_admitted (Flight.Sound s)
    (fun _ _ _ sound here stepped => flightStep_sound ready sound here stepped) spaced
    s.initialFlight_sound taken
  exact ⟨sound.running, fun _ _ one two same => sound.flying_inj one two same,
    fun mode _ _ one two same => sound.noted_inj ready mode one two same⟩

end Settings

/-! ## A request that is overtaken -/

namespace Sample

open Settings

/-- One client with one lane and two requests in flight, with domains. -/
def lone : Settings where
  services := [("client", entry 1 "127.0.0.1:31850"), ("load_balance", entry 2 "127.0.0.1:31851"),
    ("nginx", firstNginx), ("user_timeline", entry 4 "127.0.0.1:31853")]
  clientList := none
  nginxList := none
  generateNum := 20000
  userNum := 1
  homeNum := 0
  writeNum := 0
  clientNum := 1
  serverNum := 1
  concurrency := 2
  enabled := true
  rpcBaseline := false
  domainBuild := true
  ubBuild := false
  keysNodup := by decide

/-- The sample is accepted. -/
theorem lone_accepted : lone.validateConfig = .ok () := by decide +kernel

def nth (number : Nat) : Request := ⟨0, 0, number⟩

/-- The first two requests are issued. -/
def opening : List FlightLabel :=
  [.start 0 0, .start 0 0, .push 0 0 1, .push 0 0 2, .issue 0 0, .issue 0 0]

/-- A request is answered and the next one is issued. -/
def round (number : Nat) : List FlightLabel :=
  [.arrive (nth number), .answer (nth number), .deliver (nth number), .acknowledge (nth number),
    .push 0 0 (number + 1), .issue 0 0]

/-- The second request is answered and the third one is issued, while the first one is on its
way. -/
theorem slots_never_collide_opening : ∃ final,
    Machine.run lone.flightStep lone.initialFlight (opening ++ round 2) = some final ∧
      final.failed = none := by
  have runs : (run lone.flightStep lone.initialFlight (opening ++ round 2)).isSome = true := by
    decide +kernel
  obtain ⟨final, taken⟩ := isSome_iff_exists.mp runs
  exact ⟨final, taken, (slots_never_collide lone lone_accepted (by decide) (by decide)
    (opening ++ round 2) final (by decide +kernel) taken).1⟩

variable {f : Flight} {number : Nat}

/-- The first request and one other are on their way. -/
structure Stage (number : Nat) (f : Flight) : Prop where
  running : f.failed = none
  store : f.store 0 0 = ⟨number + 1, 0, [], []⟩
  stuck : f.inflight (nth 1).slot ≠ 0
  here : f.inflight (nth number).slot = number
  free : ∀ other, other ≠ 1 → other ≠ number % kAppMaxBuffer → f.inflight (0, 0, other) = 0
  phase : f.phase (nth number) = some .requested
  pending : ∀ slot, f.pending slot = 0

/-- Its wire numbers are its requests. -/
theorem lone_wire (real : number ≠ 0) (generated : number ≤ 20000) :
    lone.requestWire (nth number) = .ok number := by
  obtain ⟨clients, instances, registered, _, checked⟩ :=
    checkConfig_ok (checkConfig_of_validateConfig lone_accepted rfl)
  have one : clients.length = 1 := by
    have known : lone.clients = .ok [⟨1, 1, 0, "127.0.0.1:31850"⟩] := by decide +kernel
    cases registered.symm.trans known
    rfl
  have lane : lone.HasLane 0 0 := by
    refine ⟨?_, by decide⟩
    rw [sources_eq registered, one]
    decide
  have wire := clientWire_known checked registered
    (⟨lane, real, by show (number : Int) ≤ 20000; omega⟩ : lone.Known (nth number))
  rw [one] at wire
  exact wire.trans (congrArg _ (wireNumber_alone real))

/-- Slots of different numbers. -/
theorem slot_ne {other : Nat} (apart : other ≠ number % kAppMaxBuffer) :
    ((0, 0, other) : Nat × Nat × Nat) ≠ (nth number).slot :=
  fun same => apart (Prod.mk.inj (Prod.mk.inj same).2).2

/-- The next number of the sample. -/
theorem lone_take (generated : number < 20000) :
    (⟨number + 1, 0, [], []⟩ : QueueStore).take lone.generateNum =
      ⟨number + 2, 0, [number + 1], []⟩ := by
  have more : ¬ ((number + 1 : Nat) : Int) > 20000 := by omega
  have next : (number + 1 + 1) % (uint32Max + 1) = number + 2 :=
    Nat.mod_eq_of_lt (by show number + 2 < 4294967296; omega)
  show (if ((number + 1 : Nat) : Int) > 20000 then _ else _) = _
  rw [if_neg more]
  show (⟨_, _, _, _⟩ : QueueStore) = _
  rw [next]
  rfl

/-- The next request is answered. -/
theorem Stage.answered (stage : Stage number f) (later : 2 ≤ number)
    (generated : number < 20000) (apart : number % kAppMaxBuffer ≠ 1) :
    ∃ g, run lone.flightStep f ((round number).take 5) = some g ∧ g.failed = none ∧
      g.store 0 0 = ⟨number + 2, 0, [], [number + 1]⟩ ∧ g.inflight (nth 1).slot ≠ 0 ∧
      (∀ other, other ≠ 1 → g.inflight (0, 0, other) = 0) ∧ ∀ slot, g.pending slot = 0 := by
  have real : number ≠ 0 := by omega
  have wire : lone.wireOf (nth number) = number := by
    rw [wireOf, lone_wire real (by omega)]
    rfl
  have modes : lone.enabled = true ∧ lone.tracked = true := ⟨rfl, rfl⟩
  have place : (nth number).source = 0 ∧ lone.receiver (nth number) = 0 := ⟨rfl, rfl⟩
  have here : f.inflight (0, 0, (nth number).number % kAppMaxBuffer) = number := stage.here
  -- every check of the round passes, so the round can be executed
  simp [round, run_cons, flightStep, Settings.arrive, Settings.answer, Settings.deliver,
    Settings.acknowledge, Settings.push, Flight.withPhase, Flight.withStore, stage.running,
    stage.phase, stage.pending, here, stage.store, modes, place, wire, real, lone_take generated]
  refine ⟨?_, fun other notFirst => ?_, fun lane slot => ?_⟩
  · rw [update_of_ne]
    · exact stage.stuck
    · exact slot_ne apart.symm
  · by_cases same : other = number % kAppMaxBuffer
    · rw [same]
      exact update_self ..
    · exact (update_of_ne (slot_ne same) _ _).trans (stage.free other notFirst same)
  · rw [Function.update_apply]
    split
    · rfl
    · exact stage.pending _

/-- One round further. -/
theorem Stage.next (stage : Stage number f) (later : 2 ≤ number) (early : number < 15360) :
    ∃ g, run lone.flightStep f (round number) = some g ∧ Stage (number + 1) g := by
  have small : number % kAppMaxBuffer = number := Nat.mod_eq_of_lt early
  obtain ⟨f₅, taken, running, store, stuck, free, pending⟩ :=
    stage.answered later (by omega) (by omega)
  have apart : (number + 1) % kAppMaxBuffer ≠ 1 := by
    show (number + 1) % 15360 ≠ 1
    omega
  have on : lone.tracked = true := rfl
  have empty : f₅.inflight (0, 0, (number + 1) % kAppMaxBuffer) = 0 := free _ apart
  have wire : lone.requestWire ⟨0, 0, number + 1⟩ = .ok (number + 1) :=
    lone_wire (by omega) (by omega)
  have issued : lone.flightStep f₅ (.issue 0 0) = some
      { (f₅.withStore 0 0 ⟨number + 2, 0, [], []⟩).withPhase (nth (number + 1))
        (some .requested) with
        inflight := update f₅.inflight (nth (number + 1)).slot (number + 1) } := by
    simp [flightStep, running, Settings.issue, store, wire, on, empty, nth, Request.slot]
  refine ⟨_, run_snoc taken issued, running, rfl, ?_, update_self .., ?_,
    update_self .., pending⟩
  · show update f₅.inflight (nth (number + 1)).slot (number + 1) (nth 1).slot ≠ 0
    rw [update_of_ne]
    · exact stuck
    · exact slot_ne apart.symm
  · intro other notFirst notLast
    show update f₅.inflight (nth (number + 1)).slot (number + 1) (0, 0, other) = 0
    rw [update_of_ne (slot_ne notLast)]
    exact free other notFirst

/-- The first round. -/
theorem stage_opening : ∃ f, run lone.flightStep lone.initialFlight opening = some f ∧
    Stage 2 f := by
  have starts : lone.laneStore 0 0 = ⟨1, 2, [], []⟩ := by decide +kernel
  have limit : lone.generateNum = 20000 := rfl
  have on : lone.tracked = true := rfl
  have wires : lone.requestWire ⟨0, 0, 1⟩ = .ok 1 ∧ lone.requestWire ⟨0, 0, 2⟩ = .ok 2 :=
    ⟨lone_wire (by decide) (by decide), lone_wire (by decide) (by decide)⟩
  obtain ⟨f, taken, running, store, inflight, phase, pending⟩ : ∃ f,
      run lone.flightStep lone.initialFlight opening = some f ∧ f.failed = none ∧
        f.store 0 0 = ⟨3, 0, [], []⟩ ∧
        f.inflight = update (update (fun _ => 0) (nth 1).slot 1) (nth 2).slot 2 ∧
        f.phase (nth 2) = some .requested ∧ ∀ slot, f.pending slot = 0 := by
    simp [opening, run_cons, flightStep, Settings.start, Settings.push, Settings.issue,
      initialFlight, Flight.withStore, Flight.withPhase, starts, QueueStore.take, limit, uint32Max,
      wires, on, kAppMaxBuffer, nth, Request.slot]
  refine ⟨f, taken, running, store, ?_, ?_, fun other notFirst notSecond => ?_, phase, pending⟩ <;>
    rw [inflight]
  · decide
  · exact update_self ..
  · rw [update_of_ne (slot_ne notSecond), update_of_ne (slot_ne notFirst)]

/-- The rounds of all requests up to a number. -/
def rounds (last : Nat) : List FlightLabel := (List.range' 2 last).flatMap round

/-- After some rounds. -/
theorem stage_rounds (last : Nat) (early : last ≤ 15358) :
    ∃ f, run lone.flightStep lone.initialFlight (opening ++ rounds last) = some f ∧
      Stage (last + 2) f := by
  induction last with
  | zero => exact stage_opening
  | succ last ih =>
    obtain ⟨f, taken, stage⟩ := ih (by omega)
    obtain ⟨g, taken', stage'⟩ := stage.next (by omega) (by omega)
    have more : opening ++ rounds (last + 1) = (opening ++ rounds last) ++ round (last + 2) := by
      rw [rounds, List.range'_concat, flatMap_append, flatMap_singleton, ← append_assoc,
        Nat.one_mul, Nat.add_comm 2 last]
      rfl
    refine ⟨g, ?_, stage'⟩
    rw [more, run_append, taken, bind_some, taken']

/-- One client with two lanes, in the baseline mode. -/
def twoLanes : Settings := { lone with clientNum := 2, enabled := false, rpcBaseline := true }

/-- The first request of the second lane is answered. -/
def secondLane : List FlightLabel :=
  [.start 0 1, .push 0 1 1, .issue 0 1, .arrive ⟨0, 1, 1⟩, .answer ⟨0, 1, 1⟩, .deliver ⟨0, 1, 1⟩]

/-- The first request is overtaken by all others of the ring, and the slot of the next one is busy.
In the baseline mode the receiver of the first lane gets the response to a request of the second. -/
theorem slot_busy :
    (∃ labels final, lone.validateConfig = .ok () ∧
      Machine.run lone.flightStep lone.initialFlight labels = some final ∧
      final.failed = some "request-slot-busy") ∧
    twoLanes.validateConfig = .ok () ∧
    ∃ final, Machine.run twoLanes.flightStep twoLanes.initialFlight secondLane = some final ∧
      final.failed = some "baseline-inflight" := by
  refine ⟨?_, by decide +kernel, by decide +kernel⟩
  obtain ⟨f, taken, stage⟩ := stage_rounds 15358 (Nat.le_refl _)
  obtain ⟨g, answered, running, store, stuck, _⟩ :=
    stage.answered (by decide) (by decide) (by decide)
  have wire : lone.requestWire ⟨0, 0, 15361⟩ = .ok 15361 := lone_wire (by decide) (by decide)
  have busy : lone.flightStep g (.issue 0 0) =
      some ((g.withStore 0 0 ⟨15362, 0, [], []⟩).stop "request-slot-busy") := by
    have on : lone.tracked = true := rfl
    have held : g.inflight (0, 0, 15361 % kAppMaxBuffer) ≠ 0 := stuck
    simp [flightStep, running, Settings.issue, store, wire, on, held]
    rfl
  have whole : run lone.flightStep lone.initialFlight
      (opening ++ rounds 15358 ++ (round 15360).take 5) = some g := by
    rw [run_append, taken]
    exact answered
  exact ⟨_, _, lone_accepted, run_snoc whole busy, rfl⟩

end Sample

end UbApplication.SocialNetwork
