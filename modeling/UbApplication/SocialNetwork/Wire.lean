import Mathlib.Data.Int.ModEq
import UbApplication.Lib.Outcome

/-!
# Wire identities of requests

Several client processes with several lanes number their requests independently. On the wire a
request has one number for the whole campaign, from which its source, its lane and its own number
can be read back. The numbers of `domain_proxy_runtime.h` have thirty-two bits; a function that
throws fails with the text of its exception.
-/

namespace UbApplication.SocialNetwork

open Outcome

def kSlots : Nat := 15360

def kAppMaxBuffer : Nat := 128 * 12 * 10

def uint32Max : Nat := 4294967295

def kWireAbi : Nat := 2

/-- Double a stride as often as is needed to reach a bound. -/
def widen (bound : Nat) : Nat → Nat → Nat
  | 0, stride => stride
  | fuel + 1, stride => if stride < bound then widen bound fuel (2 * stride) else stride

/-- The lanes and the sources fit the connections. -/
def Fits (lanes sources : Nat) : Prop :=
  lanes ≠ 0 ∧ sources ≠ 0 ∧ lanes ≤ 4 ∧ sources ≤ 7 ∧ (sources + 1) * lanes ≤ 8

instance (lanes sources : Nat) : Decidable (Fits lanes sources) :=
  inferInstanceAs (Decidable (_ ∧ _))

/-- The smallest power of two that is not below the number of lanes of all sources. -/
def stride (lanes sources : Nat) : Nat := widen (lanes * sources) (lanes * sources) 1

def requestStride (lanes sources : Nat) : Except String Nat := do
  Outcome.ensure (Fits lanes sources) "domain connection budget exceeded (maximum 8)"
  return stride lanes sources

def routeKey (request : Nat) : Except String Nat := do
  Outcome.ensure (request ≠ 0) "zero application request"
  return request - 1

/-- `selected_nginx`, in both builds. -/
def selectedNginx (key proxies : Nat) : Except String Nat := do
  Outcome.ensure (proxies ≠ 0 ∧ proxies ≤ 3) "nginx count must be 1..3"
  return 2 + key % kSlots % proxies

def wireNumber (request lane lanes sourceIndex sources : Nat) : Nat :=
  (request - 1) * stride lanes sources + sourceIndex * lanes + lane + 1

def wireRequest (request lane lanes sourceIndex sources : Nat) : Except String Nat := do
  let _ ← requestStride lanes sources
  let wire := wireNumber request lane lanes sourceIndex sources
  Outcome.ensure (request ≠ 0 ∧ lane < lanes ∧ sourceIndex < sources ∧ wire ≤ uint32Max)
    "invalid/overflowed domain request identity"
  return wire

def wireSourceIndex (wire lanes sources : Nat) : Except String Nat := do
  Outcome.ensure (wire ≠ 0) "zero wire request"
  let stride ← requestStride lanes sources
  let index := (wire - 1) % stride / lanes
  Outcome.ensure (index < sources) "invalid wire source"
  return index

def wireOriginalRequest (wire lanes sources : Nat) : Except String Nat := do
  Outcome.ensure (wire ≠ 0) "zero wire request"
  let stride ← requestStride lanes sources
  return (wire - 1) / stride + 1

structure Origin where
  abi : Nat
  source : Nat
  lane : Nat
  receiverRpc : Nat
  originalRequest : Nat
  nginxDomain : Nat
deriving DecidableEq, Repr

def validOrigin (o : Origin) (wire lanes receivers receiverBase proxies source sourceIndex
    sources : Nat) : Except String Bool := do
  let stride ← requestStride lanes sources
  if o.abi = kWireAbi ∧ o.source = source ∧ source ≠ 0 ∧ receivers ≠ 0 ∧ o.lane < lanes ∧
      o.receiverRpc = (receiverBase + o.lane % receivers) % (uint32Max + 1) ∧ o.receiverRpc < 64 ∧
      sourceIndex < sources ∧ o.originalRequest ≠ 0 ∧
      (o.originalRequest - 1) * stride + sourceIndex * lanes + o.lane + 1 = wire ∧
      proxies ≠ 0 ∧ proxies ≤ 3 then
    let key ← routeKey o.originalRequest
    let nginx ← selectedNginx key proxies
    return decide (o.nginxDomain = nginx)
  else return false

/-! ## Reading an identity back -/

section Inverse

variable {request lane lanes sourceIndex sources : Nat}

section

variable (fits : Fits lanes sources)
include fits

/-- The stride divides eight and has room for all lanes. -/
theorem stride_of_fits : stride lanes sources ∣ 8 ∧ lanes * sources ≤ stride lanes sources := by
  have all : ∀ lanes < 5, ∀ sources < 8, Fits lanes sources →
      stride lanes sources ∣ 8 ∧ lanes * sources ≤ stride lanes sources := by decide
  exact all lanes (by have := fits.2.2.1; omega) sources (by have := fits.2.2.2.1; omega) fits

/-- The stride is positive. -/
theorem stride_pos : 0 < stride lanes sources :=
  Nat.pos_of_dvd_of_pos (stride_of_fits fits).1 (by decide)

/-- A lane has a place within the stride. -/
theorem place_lt (laneIn : lane < lanes) (sourceIn : sourceIndex < sources) :
    sourceIndex * lanes + lane < stride lanes sources := by
  have room := (stride_of_fits fits).2
  have next : (sourceIndex + 1) * lanes ≤ sources * lanes := Nat.mul_le_mul_right lanes sourceIn
  rw [Nat.add_mul, Nat.one_mul] at next
  rw [Nat.mul_comm lanes sources] at room
  omega

/-- The stride that the code computes. -/
theorem requestStride_eq : requestStride lanes sources = .ok (stride lanes sources) := by
  rw [requestStride, ensure, if_pos fits]
  rfl

end

/-- A wire number gives back request and place. -/
theorem wireNumber_div (request : Nat) (fits : Fits lanes sources) (laneIn : lane < lanes)
    (sourceIn : sourceIndex < sources) :
    (wireNumber request lane lanes sourceIndex sources - 1) / stride lanes sources = request - 1 ∧
    (wireNumber request lane lanes sourceIndex sources - 1) % stride lanes sources =
      sourceIndex * lanes + lane := by
  have small := place_lt fits laneIn sourceIn
  have positive := stride_pos fits
  have form : wireNumber request lane lanes sourceIndex sources - 1 =
      (sourceIndex * lanes + lane) + (request - 1) * stride lanes sources := by
    rw [wireNumber]
    omega
  rw [form]
  constructor
  · rw [Nat.add_mul_div_right _ _ positive, Nat.div_eq_of_lt small, Nat.zero_add]
  · rw [Nat.add_mul_mod_self_right, Nat.mod_eq_of_lt small]

/-- A wire number is not zero. -/
theorem wireNumber_ne_zero : wireNumber request lane lanes sourceIndex sources ≠ 0 := by
  rw [wireNumber]
  omega

/-- A place gives back its source. -/
theorem place_div (laneIn : lane < lanes) : (sourceIndex * lanes + lane) / lanes = sourceIndex := by
  rw [Nat.mul_comm, Nat.mul_add_div (Nat.zero_lt_of_lt laneIn), Nat.div_eq_of_lt laneIn,
    Nat.add_zero]

/-- The source is read back. -/
theorem wireSourceIndex_wireNumber (request : Nat) (fits : Fits lanes sources)
    (laneIn : lane < lanes) (sourceIn : sourceIndex < sources) :
    wireSourceIndex (wireNumber request lane lanes sourceIndex sources) lanes sources =
      .ok sourceIndex := by
  have index : (wireNumber request lane lanes sourceIndex sources - 1) % stride lanes sources /
      lanes = sourceIndex := by
    rw [(wireNumber_div request fits laneIn sourceIn).2, place_div laneIn]
  rw [wireSourceIndex, ensure, if_pos wireNumber_ne_zero, requestStride_eq fits]
  show (ensure _ _ >>= fun _ => _) = _
  rw [index, ensure, if_pos sourceIn]
  rfl

/-- The request is read back. -/
theorem wireOriginalRequest_wireNumber (fits : Fits lanes sources) (laneIn : lane < lanes)
    (sourceIn : sourceIndex < sources) (real : request ≠ 0) :
    wireOriginalRequest (wireNumber request lane lanes sourceIndex sources) lanes sources =
      .ok request := by
  have number : (wireNumber request lane lanes sourceIndex sources - 1) / stride lanes sources + 1 =
      request := by
    rw [(wireNumber_div request fits laneIn sourceIn).1]
    omega
  rw [wireOriginalRequest, ensure, if_pos wireNumber_ne_zero, requestStride_eq fits]
  show Except.ok _ = _
  rw [number]

/-- Near numbers differ in the ring. -/
theorem eq_of_mod_eq {left right ring : Nat} (near : left < right + ring)
    (near' : right < left + ring) (same : left % ring = right % ring) : left = right := by
  have congruent : left ≡ right [MOD ring] := same
  apply congruent.eq_of_abs_lt
  rw [abs_lt]
  omega

/-- The ring keeps the place. -/
theorem wireNumber_ring (request : Nat) (fits : Fits lanes sources) (laneIn : lane < lanes)
    (sourceIn : sourceIndex < sources) :
    (wireNumber request lane lanes sourceIndex sources - 1) % kSlots % stride lanes sources =
      sourceIndex * lanes + lane ∧
    (wireNumber request lane lanes sourceIndex sources - 1) % kSlots / stride lanes sources =
      (request - 1) % (kSlots / stride lanes sources) := by
  have divides : stride lanes sources ∣ kSlots := (stride_of_fits fits).1.trans (by decide)
  obtain ⟨number, place⟩ := wireNumber_div request fits laneIn sourceIn
  constructor
  · rw [Nat.mod_mod_of_dvd _ divides, place]
  · obtain ⟨width, whole⟩ := divides
    rw [whole, Nat.mod_mul_right_div_self, number, Nat.mul_div_cancel_left _ (stride_pos fits)]

section

variable {request' lane' sourceIndex' : Nat} (fits : Fits lanes sources) (laneIn : lane < lanes)
  (laneIn' : lane' < lanes) (sourceIn : sourceIndex < sources) (sourceIn' : sourceIndex' < sources)
include fits laneIn laneIn' sourceIn sourceIn'

/-- Requests whose wire numbers share a place of the ring are of one source and one lane, and their
numbers share a place of the ring of the source. -/
theorem wireNumber_mod_inj (same : wireNumber request lane lanes sourceIndex sources % kSlots =
      wireNumber request' lane' lanes sourceIndex' sources % kSlots) :
    (sourceIndex = sourceIndex' ∧ lane = lane') ∧
      (request - 1) % (kSlots / stride lanes sources) =
        (request' - 1) % (kSlots / stride lanes sources) := by
  have shift : ∀ wire, wire ≠ 0 → wire - 1 + 1 = wire := fun wire nonzero => by omega
  have before : (wireNumber request lane lanes sourceIndex sources - 1) % kSlots =
      (wireNumber request' lane' lanes sourceIndex' sources - 1) % kSlots := by
    apply Nat.ModEq.add_right_cancel' 1
    rw [shift _ wireNumber_ne_zero, shift _ wireNumber_ne_zero]
    exact same
  obtain ⟨place, number⟩ := wireNumber_ring request fits laneIn sourceIn
  obtain ⟨place', number'⟩ := wireNumber_ring request' fits laneIn' sourceIn'
  rw [← before] at place' number'
  have equal : sourceIndex * lanes + lane = sourceIndex' * lanes + lane' := place.symm.trans place'
  have sources := congrArg (· / lanes) equal
  have lanes := congrArg (· % lanes) equal
  simp only [Nat.mul_add_mod', Nat.mod_eq_of_lt, laneIn, laneIn'] at lanes
  simp only [place_div, laneIn, laneIn'] at sources
  exact ⟨⟨sources, lanes⟩, number.symm.trans number'⟩

/-- A wire number comes from one request. -/
theorem wireNumber_inj (real : request ≠ 0) (real' : request' ≠ 0)
    (same : wireNumber request lane lanes sourceIndex sources =
      wireNumber request' lane' lanes sourceIndex' sources) :
    sourceIndex = sourceIndex' ∧ lane = lane' ∧ request = request' := by
  obtain ⟨⟨source, lane⟩, -⟩ := wireNumber_mod_inj fits laneIn laneIn' sourceIn sourceIn'
    (congrArg (· % kSlots) same)
  have original := wireOriginalRequest_wireNumber fits laneIn sourceIn real
  rw [same, wireOriginalRequest_wireNumber fits laneIn' sourceIn' real'] at original
  exact ⟨source, lane, (Except.ok.inj original).symm⟩

end

/-- Wire numbers fit into thirty-two bits. -/
theorem wireNumber_le {generate : Nat} (fits : Fits lanes sources) (laneIn : lane < lanes)
    (sourceIn : sourceIndex < sources) (real : request ≠ 0) (generated : request ≤ generate)
    (bounded : generate ≤ uint32Max / stride lanes sources) :
    wireNumber request lane lanes sourceIndex sources ≤ uint32Max := by
  have place := place_lt fits laneIn sourceIn
  have positive := stride_pos fits
  have whole : request * stride lanes sources ≤ uint32Max :=
    (Nat.le_div_iff_mul_le positive).mp (generated.trans bounded)
  obtain ⟨before, rfl⟩ := Nat.exists_eq_succ_of_ne_zero real
  rw [Nat.succ_mul] at whole
  rw [wireNumber, Nat.succ_sub_one]
  omega

/-- What a wire request is made of. -/
theorem wireRequest_ok {wire : Nat}
    (sent : wireRequest request lane lanes sourceIndex sources = .ok wire) :
    Fits lanes sources ∧ request ≠ 0 ∧ lane < lanes ∧ sourceIndex < sources ∧
      wire = wireNumber request lane lanes sourceIndex sources := by
  rw [wireRequest] at sent
  obtain ⟨_, strides, sent⟩ := bind_eq_ok.mp sent
  obtain ⟨⟨real, laneIn, sourceIn, _⟩, ⟨⟩⟩ := ensure_bind_eq_ok.mp sent
  exact ⟨(ensure_bind_eq_ok.mp strides).1, real, laneIn, sourceIn, rfl⟩

/-- `wire_request` gives a request its number when the number fits the wire. -/
theorem wireRequest_eq (fits : Fits lanes sources) (real : request ≠ 0) (laneIn : lane < lanes)
    (sourceIn : sourceIndex < sources)
    (bounded : wireNumber request lane lanes sourceIndex sources ≤ uint32Max) :
    wireRequest request lane lanes sourceIndex sources =
      .ok (wireNumber request lane lanes sourceIndex sources) := by
  rw [wireRequest, requestStride_eq fits, ok_bind, ensure_bind ⟨real, laneIn, sourceIn, bounded⟩]
  rfl

/-- The key of a route. -/
theorem routeKey_eq (real : request ≠ 0) : routeKey request = .ok (request - 1) := by
  rw [routeKey, ensure_bind real]
  rfl

/-- The instance of a key. -/
theorem selectedNginx_eq {proxies : Nat} (few : proxies ≠ 0 ∧ proxies ≤ 3) (key : Nat) :
    selectedNginx key proxies = .ok (2 + key % kSlots % proxies) := by
  rw [selectedNginx, ensure_bind few]
  rfl

end Inverse

/-- The record of a request of a source with these receivers and proxies. -/
def originOf (receivers receiverBase proxies source lane request : Nat) : Origin where
  abi := kWireAbi
  source
  lane
  receiverRpc := (receiverBase + lane % receivers) % (uint32Max + 1)
  originalRequest := request
  nginxDomain := 2 + (request - 1) % kSlots % proxies

/-- `valid_origin` accepts what is the record of a request of the source with this wire number, in a
configuration that has a source, receivers below 64 and one to three proxies. -/
theorem validOrigin_eq_true
    {wire lanes receivers receiverBase proxies source sourceIndex sources : Nat}
    {o : Origin} (bounded : wire ≤ uint32Max) :
    validOrigin o wire lanes receivers receiverBase proxies source sourceIndex sources = .ok true ↔
      source ≠ 0 ∧ receivers ≠ 0 ∧ (proxies ≠ 0 ∧ proxies ≤ 3) ∧ o.receiverRpc < 64 ∧
        ∃ request lane, wireRequest request lane lanes sourceIndex sources = .ok wire ∧
          o = originOf receivers receiverBase proxies source lane request := by
  rw [validOrigin]
  constructor
  · intro accepted
    obtain ⟨_, strides, accepted⟩ := bind_eq_ok.mp accepted
    obtain ⟨fits, ⟨⟩⟩ := ensure_bind_eq_ok.mp strides
    split at accepted
    case isFalse => contradiction
    case isTrue passes =>
    obtain ⟨abi, from_, known, some, laneIn, receiver, small, sourceIn, real, number, few⟩ := passes
    rw [routeKey_eq real, ok_bind, selectedNginx_eq few, ok_bind] at accepted
    have nginx := of_decide_eq_true (Except.ok.inj accepted)
    have number : wireNumber o.originalRequest o.lane lanes sourceIndex sources = wire := number
    refine ⟨known, some, few, small, o.originalRequest, o.lane, ?_, ?_⟩
    · rw [← number] at bounded ⊢
      exact wireRequest_eq fits real laneIn sourceIn bounded
    · obtain ⟨_, _, _, _, _, _⟩ := o
      simp_all only [originOf]
  · rintro ⟨known, some, few, small, request, lane, sent, rfl⟩
    obtain ⟨fits, real, laneIn, sourceIn, rfl⟩ := wireRequest_ok sent
    rw [requestStride_eq fits, ok_bind,
      if_pos ⟨rfl, rfl, known, some, laneIn, rfl, small, sourceIn, real, rfl, few⟩]
    show (routeKey request >>= fun _ => _) = _
    rw [routeKey_eq real, ok_bind, selectedNginx_eq few, ok_bind]
    exact congrArg Except.ok (decide_eq_true rfl)

/-- A wire number tells the source, the lane and the request that it was made of, and its place of
the ring tells the source and the lane. For every wire number and every source `valid_origin`
accepts exactly the record of the request of that source that the wire number was made of, in every
configuration that has a source, receivers below 64 and one to three proxies. -/
theorem wire_identity (lanes sources : Nat) :
    (∀ request lane sourceIndex wire,
      wireRequest request lane lanes sourceIndex sources = .ok wire →
      wireSourceIndex wire lanes sources = .ok sourceIndex ∧
      wireOriginalRequest wire lanes sources = .ok request ∧
      ∀ request' lane' sourceIndex' wire',
        wireRequest request' lane' lanes sourceIndex' sources = .ok wire' →
        (wire % kSlots = wire' % kSlots → sourceIndex = sourceIndex' ∧ lane = lane') ∧
        (wire = wire' → sourceIndex = sourceIndex' ∧ lane = lane' ∧ request = request')) ∧
    ∀ wire ≤ uint32Max, ∀ receivers receiverBase proxies source sourceIndex o,
      validOrigin o wire lanes receivers receiverBase proxies source sourceIndex sources =
        .ok true ↔ source ≠ 0 ∧ receivers ≠ 0 ∧ (proxies ≠ 0 ∧ proxies ≤ 3) ∧ o.receiverRpc < 64 ∧
          ∃ request lane, wireRequest request lane lanes sourceIndex sources = .ok wire ∧
            o = originOf receivers receiverBase proxies source lane request := by
  constructor
  · intro request lane sourceIndex wire sent
    obtain ⟨fits, real, laneIn, sourceIn, rfl⟩ := wireRequest_ok sent
    refine ⟨wireSourceIndex_wireNumber request fits laneIn sourceIn,
      wireOriginalRequest_wireNumber fits laneIn sourceIn real, ?_⟩
    intro request' lane' sourceIndex' wire' sent'
    obtain ⟨-, real', laneIn', sourceIn', rfl⟩ := wireRequest_ok sent'
    exact ⟨fun same => (wireNumber_mod_inj fits laneIn laneIn' sourceIn sourceIn' same).1,
      wireNumber_inj fits laneIn laneIn' sourceIn sourceIn' real real'⟩
  · intro wire bounded receivers receiverBase proxies source sourceIndex o
    exact validOrigin_eq_true bounded

/-- The twelfth wire number of two sources with two lanes each. -/
theorem wire_identity_twelve : wireSourceIndex 12 2 2 = .ok 1 ∧ wireOriginalRequest 12 2 2 = .ok 3 ∧
    validOrigin (originOf 2 8 3 1 1 3) 12 2 2 8 3 1 1 2 = .ok true := by
  have sent : wireRequest 3 1 2 1 2 = .ok 12 := by decide
  obtain ⟨identity, record⟩ := wire_identity 2 2
  obtain ⟨source, original, -⟩ := identity 3 1 1 12 sent
  refine ⟨source, original, (record 12 (by decide) 2 8 3 1 1 _).mpr ?_⟩
  exact ⟨by decide, by decide, by decide, by decide, 3, 1, sent, rfl⟩

end UbApplication.SocialNetwork
