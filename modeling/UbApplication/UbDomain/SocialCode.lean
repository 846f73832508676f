import UbApplication.UbDomain.RemoteCode

/-!
# The routing images

The load balancer and nginx domains of the social profile run images that only choose where a
message goes next. `remoteSocialImageValid` is `ud_remote_social_image_valid` of
`ub_remote_social.h`; the heap is the routing configuration of `ub_social.h`.
-/

namespace UbApplication.UbDomain

open AArch64 AArch64.State List
open Function (update update_of_ne update_self)

/-! ## The verifier -/

/-- `UD_RS_LDR_NGINX`: `ldr w2, [x1, #16]`. -/
def ldrNginx : BitVec 32 := 0xb9401022

/-- `UD_RS_LDR_USER`: `ldr w2, [x1, #36]`. -/
def ldrUser : BitVec 32 := 0xb9402422

/-- `UD_RS_LDR_HOME`: `ldr w2, [x1, #40]`. -/
def ldrHome : BitVec 32 := 0xb9402822

/-- `UD_RS_LDR_RETURN`: `ldr w2, [x1, #44]`. -/
def ldrReturn : BitVec 32 := 0xb9402c22

/-- `UD_RS_STR_TARGET`: `str w2, [x0, #72]`. -/
def strTarget : BitVec 32 := 0xb9004802

/-- `UD_RS_STR_ACTION`: `str w2, [x0, #68]`. -/
def strAction : BitVec 32 := 0xb9004402

/-- `UD_RS_MOV_0`: `mov w2, #0`. -/
def movZero : BitVec 32 := 0x52800002

/-- `UD_RS_MOV_RPC`: `mov w2, #1`. -/
def movRpc : BitVec 32 := 0x52800022

/-- `UD_RS_MOV_DOMAIN`: `mov w2, #2`. -/
def movDomain : BitVec 32 := 0x52800042

/-- `UD_RS_MOV_CLIENT`: `mov w2, #3`. -/
def movClient : BitVec 32 := 0x52800062

/-- `UD_RS_LB3_WORDS`. -/
def lb3Words : Nat := 12

/-- `ud_remote_social_lb3_word`. -/
def remoteSocialLb3Word : Nat → BitVec 32
  | 0 => 0xb9400822
  | 1 => 0xb9400c23
  | 2 => 0xf9400404
  | 3 => 0x9ac20885
  | 4 => 0x9b0290a4
  | 5 => 0x9ac30885
  | 6 => 0x9b0390a4
  | 7 => 0x91004025
  | 8 => 0xb86478a4
  | 9 => 0xb9004804
  | 10 => 0x52800044
  | 11 => 0xb9004404
  | _ => 0

/-- The words from a place up to the last one are padding. -/
def padded (words : Nat → BitVec 32) (first count : Nat) : Bool :=
  (List.range' first (count - 1 - first)).all fun i => words i == nopWord

/-- The first words of the short images: the target and the action they store. -/
def routeWords (domain : Domain) (words : Nat → BitVec 32) : Option (BitVec 32 × BitVec 32) :=
  match domain with
  | .direct => some (ldrNginx, movDomain)
  | .middle => if words 0 ≠ ldrUser ∧ words 0 ≠ ldrHome then none else some (words 0, movRpc)
  | .leaf => some (ldrReturn, movDomain)
  | .query => some (movZero, movClient)

/-- `ud_remote_social_image_valid`. -/
def remoteSocialImageValid (domain : Domain) (words : Nat → BitVec 32) (count : Nat) : Bool :=
  if count < 5 ∨ count > udRemoteMaxWords ∨ words (count - 1) ≠ brkReturn then false
  else if domain = .direct ∧ words 0 = remoteSocialLb3Word 0 then
    if count < lb3Words + 1 then false
    else (List.range lb3Words).all (fun i => words i == remoteSocialLb3Word i) &&
      padded words lb3Words count
  else match routeWords domain words with
    | none => false
    | some (first, action) =>
      if words 0 ≠ first ∨ words 1 ≠ strTarget ∨ words 2 ≠ action ∨ words 3 ≠ strAction then false
      else padded words 4 count

variable {domain : Domain}

/-- The length of an image. -/
theorem remoteSocialImageValid_length {words : Nat → BitVec 32} {count : Nat}
    (valid : remoteSocialImageValid domain words count = true) :
    5 ≤ count ∧ count ≤ udRemoteMaxWords := by
  rw [remoteSocialImageValid] at valid
  split at valid
  case isTrue => contradiction
  case isFalse bounds =>
    simp only [not_or, Nat.not_lt] at bounds
    exact ⟨bounds.1, bounds.2.1⟩

/-- An image is its words. -/
theorem remoteSocialImageValid_congr {words others : Nat → BitVec 32}
    {count : Nat} (same : ∀ i, i < count → words i = others i) :
    remoteSocialImageValid domain words count = remoteSocialImageValid domain others count := by
  by_cases long : count < 5
  · simp only [remoteSocialImageValid, long, true_or, if_true]
  have padding (first : Nat) : padded words first count = padded others first count := by
    rw [padded, padded, Bool.eq_iff_iff, all_eq_true, all_eq_true]
    refine forall₂_congr fun i inside => ?_
    obtain ⟨j, below, rfl⟩ := mem_range'.mp inside
    rw [same _ (by omega)]
  have balancer : lb3Words < count →
    (List.range lb3Words).all (fun i => words i == remoteSocialLb3Word i)
      = (List.range lb3Words).all (fun i => others i == remoteSocialLb3Word i) := by
    intro longer
    rw [Bool.eq_iff_iff, all_eq_true, all_eq_true]
    refine forall₂_congr fun i inside => ?_
    rw [same i (Nat.lt_trans (mem_range.mp inside) longer)]
  have route : routeWords domain words = routeWords domain others := by
    cases domain <;> simp only [routeWords, same 0 (by omega)]
  by_cases longer : count < lb3Words + 1
  · simp only [remoteSocialImageValid, longer, if_true, same 0 (by omega), same 1 (by omega),
      same 2 (by omega), same 3 (by omega), same (count - 1) (by omega), route, padding]
  · simp only [remoteSocialImageValid, same 0 (by omega), same 1 (by omega), same 2 (by omega),
      same 3 (by omega), same (count - 1) (by omega), route, padding, balancer (by omega)]

/-- `ud_remote_social_count`: the number of nginx domains that a tag stands for. -/
def remoteSocialCount (tag : Nat) : Nat :=
  let kind := tag % 256
  let topology := tag - kind
  if kind ≠ 1 ∧ kind ≠ 2 then 0
  else if topology = 0 then 1
  else if topology = 3 * 256 then 3 else 0

/-! ## The routing configuration -/

def usSlots : Nat := 15360

/-- `us_select_nginx`: the nginx of a key. -/
def usSelectNginx (key count : Nat) : Nat :=
  if count = 0 ∨ count > 3 then 0 else 2 + key % usSlots % count

/-- The words of one `struct us_config` of `us_heap_init_count`. -/
def usConfig (kind count : Nat) : List (BitVec 32) :=
  [1, BitVec.ofNat 32 kind, BitVec.ofNat 32 usSlots, BitVec.ofNat 32 count] ++
    (List.range 4).map (fun j => if j < count then BitVec.ofNat 32 (2 + j) else 0) ++
    [101, 102, 103, 1, 0]

/-- `us_heap_init_count`: the words of `struct us_heap`. -/
def usHeapInitCount (count : Nat) : List (BitVec 32) :=
  [0x43494131, 0x5542534f] ++ usConfig 1 count ++ usConfig 2 count

def usHeapValidCount (heap : Nat → BitVec 32) (count : Nat) : Bool :=
  if count ≠ 1 ∧ count ≠ 3 then false
  else (List.range 28).all fun i => heap i == (usHeapInitCount count).getD i 0

/-- `us_config_offset`: where the configuration of a domain is in the heap. -/
def usConfigOffset : Domain → Nat
  | .middle | .leaf => 60
  | .direct | .query => 8

/-- `US_MAPPED_OFFSET`: where the message is in the argument page. -/
def usMappedOffset : Nat := 128

/-! ## Runs of routing images -/

/-- The pages with the target and the action of the message replaced. -/
def routed (args : Nat → BitVec 32) (target action : BitVec 32) : Nat → BitVec 32 :=
  update (update args 50 target) 49 action

section Runs

variable {pages : DomainPages} {state : State}

/-- The padding runs. -/
theorem padding_run {first count : Nat} (here : At pages first state)
    (nops : ∀ i, first ≤ i → i < first + count → pages.code i = nopWord)
    (last : pages.code (first + count) = brkReturn) (inside : first + count < 1024) :
    StraightRun state codePage first count
      { state with pc := addressAt codePage (4 * (first + count)) } (.brk 0x4c0) := by
  induction count generalizing first state with
  | zero =>
    rw [Nat.add_zero] at last
    have stopped := here.step (by omega) (by rw [last]; exact decode_brkReturn)
    have same : { state with pc := addressAt codePage (4 * (first + 0)) } = state := by
      rw [Nat.add_zero, ← here.pc]
    rw [same]
    exact StraightRun.nil here.pc stopped
  | succ count ih =>
    have place : first + (count + 1) = first + 1 + count := by omega
    have stepped := here.step (by omega)
      (by rw [nops first (Nat.le_refl _) (by omega)]; exact decode_nopWord)
    apply StraightRun.step here.pc stepped
    rw [place] at last ⊢
    exact ih here.skip (fun i low high => nops i (by omega) (by omega)) last (by omega)

/-- The state after a word is stored in the message. -/
def storedWord (pages : DomainPages) (state : State) (offset : Nat) (value : BitVec 32) : State :=
  { state.record ⟨true, .w32, addressAt argsPage (usMappedOffset + offset)⟩ with
    space := domainSpace
      { pages with args := update pages.args ((usMappedOffset + offset) / 4) value }
    pc := state.pc + 4 }

/-- A field is stored. -/
theorem step_store {index offset t : Nat} (here : At pages index state) (inside : index < 1024)
    (decoded : decode (pages.code index) = some (.str .w32 t 0 offset))
    (message : state.x 0 = addressAt argsPage usMappedOffset)
    (small : usMappedOffset + offset < 4096)
    (aligned : (usMappedOffset + offset) % Width.w32.bytes = 0) :
    state.step = .ok (storedWord pages state offset ((state.reg t).setWidth 32)) := by
  have found : state.space argsPage = some ⟨pages.args, true, false⟩ := by
    rw [here.space, domainSpace_args]
  have base : state.base 0 = addressAt argsPage usMappedOffset := message
  rw [here.step inside decoded, exec_str base found rfl (by decide) small aligned, here.space]
  rw [storedWord, ← update_args (update pages.args ((usMappedOffset + offset) / 4)
    ((state.reg t).setWidth 32))]
  rfl

/-- The page after it. -/
theorem stored_at {index : Nat} (here : At pages index state) (offset : Nat) (value : BitVec 32) :
    At { pages with args := update pages.args ((usMappedOffset + offset) / 4) value }
      (index + 1) (storedWord pages state offset value) where
  space := rfl
  pc := here.next

/-- An instruction that sets a register and goes to the next one. -/
structure Sets (pages : DomainPages) (index : Nat) (state next : State) (d : Nat)
    (value : BitVec 64) : Prop where
  step : state.step = .ok next
  here : At pages (index + 1) next
  value : next.x d = value
  others : ∀ n, n ≠ d → next.x n = state.x n

/-- A register is set. -/
theorem sets_of_exec {index d : Nat} {instr : Instr} {value : BitVec 64}
    (here : At pages index state)
    (inside : index < 1024) (decoded : decode (pages.code index) = some instr) (register : d ≠ 31)
    (executed : state.exec instr = .ok (state.result d value)) :
    ∃ next, Sets pages index state next d value := by
  refine ⟨_, (here.step inside decoded).trans executed, here.result d value, ?_, ?_⟩
  · simp only [State.result, register, if_false, update_self]
  · intro n other
    simp only [State.result, register, if_false, update_of_ne other]

/-- What a routing image does: it runs straight to the return trap on its last word and only sets
the target and the action of the message. -/
structure Routes (pages : DomainPages) (start : State) (first count : Nat)
    (target action : BitVec 32) (final : State) : Prop where
  run : StraightRun start codePage first (count - 1 - first) final (.brk 0x4c0)
  space : final.space = domainSpace { pages with args := routed pages.args target action }

/-- The end of an image: the target in a register is stored, then the action, then padding runs to
the return trap. -/
theorem route_tail {first count t : Nat} {imm : BitVec 16} (here : At pages first state)
    (message : state.x 0 = addressAt argsPage usMappedOffset) (register : t ≠ 31) (other : t ≠ 0)
    (short : count ≤ udRemoteMaxWords) (long : first + 3 < count)
    (target : decode (pages.code first) = some (.str .w32 t 0 72))
    (mov : decode (pages.code (first + 1)) = some (.movz32 t imm))
    (action : decode (pages.code (first + 2)) = some (.str .w32 t 0 68))
    (padding : padded pages.code (first + 3) count = true)
    (last : pages.code (count - 1) = brkReturn) :
    ∃ final, Routes pages state first count ((state.x t).setWidth 32) (imm.setWidth 32) final := by
  rw [udRemoteMaxWords] at short
  have source (other : State) : other.reg t = other.x t := if_neg register
  have one := step_store here (by omega) target message (by decide) (by decide)
  rw [source] at one
  have oneHere := stored_at here 72 ((state.x t).setWidth 32)
  obtain ⟨middle, two⟩ := sets_of_exec oneHere (by omega) mov register rfl
  have three := step_store two.here (by omega) action ((two.others 0 other.symm).trans message)
    (by decide) (by decide)
  have narrow : (imm.setWidth 64 : BitVec 64).setWidth 32 = imm.setWidth 32 :=
    BitVec.setWidth_setWidth_of_le imm (by decide)
  rw [source, two.value, narrow] at three
  have threeHere := stored_at two.here 68 (imm.setWidth 32)
  have rest : first + 3 + (count - 1 - (first + 3)) = count - 1 := by omega
  have nops : ∀ i, first + 3 ≤ i → i < first + 3 + (count - 1 - (first + 3)) →
      pages.code i = nopWord := by
    intro i low high
    have listed : i ∈ List.range' (first + 3) (count - 1 - (first + 3)) :=
      mem_range'.mpr ⟨i - (first + 3), by omega, by omega⟩
    exact beq_iff_eq.mp (all_eq_true.mp padding i listed)
  have run := padding_run threeHere nops (by rw [rest]; exact last) (by omega)
  have length : count - 1 - first = count - 1 - (first + 3) + 1 + 1 + 1 := by omega
  have whole := StraightRun.step here.pc one (StraightRun.step oneHere.pc two.step
    (StraightRun.step two.here.pc three run))
  rw [← length] at whole
  exact ⟨_, whole, rfl⟩

/-- Plain instructions from a place on are performed one after the other. -/
theorem At.follow {instrs : List Instr} {first : Nat} {next : State} (here : At pages first state)
    (decoded : (List.range' first instrs.length).map (fun i => decode (pages.code i)) =
      instrs.map some)
    (plain : instrs.all Instr.plain = true) (inside : first + instrs.length ≤ 1024)
    (done : Machine.run perform state instrs = some next) :
    At pages (first + instrs.length) next ∧ ∀ {count : Nat} {final : State} {stop : Stop},
      StraightRun next codePage (first + instrs.length) count final stop →
        StraightRun state codePage first (count + instrs.length) final stop := by
  induction instrs generalizing first state with
  | nil =>
    cases done
    exact ⟨here, id⟩
  | cons instr instrs ih =>
    obtain ⟨middle, one, rest⟩ := Option.bind_eq_some_iff.mp done
    simp only [length_cons, List.range'_succ, map_cons, List.cons.injEq, all_cons,
      Bool.and_eq_true] at decoded plain inside ⊢
    have one := exec_of_perform one
    obtain ⟨space, pc⟩ := exec_plain plain.1 one
    have later := ih ⟨space.trans here.space, pc.trans here.next⟩ decoded.2 plain.2 (by omega) rest
    rw [Nat.add_assoc, Nat.add_comm 1] at later
    exact ⟨later.1,
      fun run => .step here.pc ((here.step (by omega) decoded.1).trans one) (later.2 run)⟩

/-- The first instructions of an image leave the target in a register. -/
structure Chooses (state : State) (instrs : List Instr) (t : Nat) (target : BitVec 32)
    (next : State) : Prop where
  plain : instrs.all Instr.plain = true
  done : Machine.run perform state instrs = some next
  message : next.x 0 = addressAt argsPage usMappedOffset
  target : (next.x t).setWidth 32 = target

/-- A choice is stored. -/
theorem Chooses.routes {instrs : List Instr} {count t : Nat} {imm : BitVec 16} {target : BitVec 32}
    {next : State} (chooses : Chooses state instrs t target next) (here : At pages 0 state)
    (register : t ≠ 31) (other : t ≠ 0) (short : count ≤ udRemoteMaxWords)
    (long : instrs.length + 3 < count)
    (decoded : (List.range (instrs.length + 3)).map (fun i => decode (pages.code i)) =
      instrs.map some ++ [some (.str .w32 t 0 72), some (.movz32 t imm), some (.str .w32 t 0 68)])
    (padding : padded pages.code (instrs.length + 3) count = true)
    (last : pages.code (count - 1) = brkReturn) :
    ∃ final, Routes pages state 0 count target (imm.setWidth 32) final := by
  simp only [range_succ, map_append, append_assoc] at decoded
  obtain ⟨head, tail⟩ := append_inj decoded (by simp)
  simp only [map_cons, map_nil, singleton_append, List.cons.injEq, and_true] at tail
  rw [range_eq_range'] at head
  obtain ⟨there, follow⟩ := here.follow head chooses.plain
    (by rw [udRemoteMaxWords] at short; omega) chooses.done
  rw [Nat.zero_add] at there follow
  obtain ⟨final, routes⟩ :=
    route_tail there chooses.message register other short long tail.1 tail.2.1
    tail.2.2 padding last
  rw [chooses.target] at routes
  have length : count - 1 - 0 = count - 1 - instrs.length + instrs.length := by omega
  exact ⟨final, length ▸ follow routes.run, routes.space⟩

end Runs

/-- The action that the image of a domain stores. -/
def routeAction : Domain → BitVec 16
  | .direct => 2
  | .middle => 1
  | .leaf => 2
  | .query => 3

/-- The target that the image of a domain stores. -/
def routeTarget (domain : Domain) (pages : DomainPages) (nginx : Nat) : BitVec 32 :=
  match domain with
  | .direct => BitVec.ofNat 32 (usSelectNginx (word64 pages.args 34).toNat nginx)
  | .middle => if pages.code 0 = ldrHome then 103 else 102
  | .leaf => 1
  | .query => 0

section Images

variable {pages : DomainPages} {state : State} {nginx count : Nat}

/-- A remainder. -/
theorem sub_div_mul (a b : BitVec 64) : a - a / b * b = a % b := by
  apply BitVec.eq_of_toNat_eq
  have small := a.isLt
  have parts := Nat.div_add_mod' a.toNat b.toNat
  have bound : a.toNat / b.toNat * b.toNat ≤ a.toNat := Nat.div_mul_le_self _ _
  rw [BitVec.toNat_sub, BitVec.toNat_mul, BitVec.toNat_udiv, BitVec.toNat_umod,
    Nat.mod_eq_of_lt (show a.toNat / b.toNat * b.toNat < _ by omega)]
  omega

/-- A valid configuration. -/
theorem usHeapValidCount_word {heap : Nat → BitVec 32}
    (valid : usHeapValidCount heap nginx = true) {i : Nat} (inside : i < 28) :
    heap i = (usHeapInitCount nginx).getD i 0 := by
  rw [usHeapValidCount] at valid
  split at valid
  case isTrue => contradiction
  case isFalse =>
    exact beq_iff_eq.mp (all_eq_true.mp valid i (mem_range.mpr inside))

/-- One instance or three. -/
theorem usHeapValidCount_count {heap : Nat → BitVec 32}
    (valid : usHeapValidCount heap nginx = true) : nginx = 1 ∨ nginx = 3 := by
  rw [usHeapValidCount] at valid
  split at valid
  case isTrue => contradiction
  case isFalse one => omega

/-- What the first instructions of `ud_remote_social_lb3_word` are. -/
def lb3Head : List Instr :=
  [.ldr .w32 2 1 8, .ldr .w32 3 1 12, .ldr .w64 4 0 8, .udiv 5 4 2, .msub 4 5 2 4, .udiv 5 4 3,
    .msub 4 5 3 4, .addImm 5 1 16, .ldrIndexed 4 5 4]

/-- The code of the balancer. -/
theorem lb3_decoded :
    (List.range lb3Words).map (fun i => decode (remoteSocialLb3Word i)) = lb3Head.map some ++
      [some (.str .w32 4 0 72), some (.movz32 4 2), some (.str .w32 4 0 68)] := by
  decide

/-- The instance of a key. -/
theorem select_index (key : BitVec 64) :
    ∃ j, j < 3 ∧ key % 15360#64 % 3#64 = BitVec.ofNat 64 j ∧ usSelectNginx key.toNat 3 = 2 + j := by
  have bound : key.toNat % 15360 % 3 < 3 := Nat.mod_lt _ (by decide)
  refine ⟨key.toNat % 15360 % 3, bound, ?_, rfl⟩
  apply BitVec.eq_of_toNat_eq
  rw [BitVec.toNat_umod, BitVec.toNat_umod, BitVec.toNat_ofNat]
  exact (Nat.mod_eq_of_lt (Nat.lt_trans bound (by decide))).symm

/-- What a load of the configuration yields. -/
theorem load_config (heap : usHeapValidCount pages.heap nginx = true) (i : Nat) (inside : i < 28) :
    (domainSpace pages).load .w32 (addressAt dataPage (4 * i)) =
      some (((usHeapInitCount nginx).getD i 0).setWidth 64) := by
  rw [load_at domainSpace_data (by decide) (by omega) (show 4 * i % 4 = 0 by omega),
    Nat.mul_div_cancel_left _ (by decide), ← usHeapValidCount_word heap inside]
  rfl

/-- The balancer chooses. -/
theorem lb3_chooses (here : At pages 0 state)
    (message : state.x 0 = addressAt argsPage usMappedOffset)
    (config : state.x 1 = addressAt dataPage (usConfigOffset .direct))
    (heap : usHeapValidCount pages.heap 3 = true) : ∃ next, Chooses state lb3Head 4
      (BitVec.ofNat 32 (usSelectNginx (word64 pages.args 34).toNat 3)) next := by
  have slots : (domainSpace pages).load .w32 (addressAt dataPage 8 + 8#64) = some 15360#64 :=
    load_config heap 4 (by decide)
  have targets : (domainSpace pages).load .w32 (addressAt dataPage 8 + 12#64) = some 3#64 :=
    load_config heap 5 (by decide)
  have key : (domainSpace pages).load .w64 (addressAt argsPage 128 + 8#64) =
      some (word64 pages.args 34) := rfl
  obtain ⟨j, bound, small, selected⟩ := select_index (word64 pages.args 34)
  have target : (domainSpace pages).load .w32
      (addressAt dataPage 8 + 16#64 + BitVec.ofNat 64 j <<< 2) =
        some (BitVec.ofNat 64 (2 + j)) := by
    have cases : j = 0 ∨ j = 1 ∨ j = 2 := by omega
    rcases cases with rfl | rfl | rfl
    · exact load_config heap 6 (by decide)
    · exact load_config heap 7 (by decide)
    · exact load_config heap 8 (by decide)
  obtain ⟨next, done, same, found⟩ : ∃ next, Machine.run perform state lb3Head = some next ∧
      next.x 0 = state.x 0 ∧ next.x 4 = BitVec.ofNat 64 (2 + j) := by
    simp only [usConfigOffset, usMappedOffset] at config message
    simp [lb3Head, Machine.run_cons, perform, State.exec, State.doLoad, State.base, State.reg,
      State.result, State.baseResult, State.record, Except.toOption, here.space, message, config,
      slots, targets, key, sub_div_mul, small, target]
  refine ⟨next, rfl, done, same.trans message, ?_⟩
  rw [found, selected]
  simp

/-- The first instruction of a short image leaves the target in `x2`. -/
theorem short_chooses {first action : BitVec 32} (here : At pages 0 state)
    (message : state.x 0 = addressAt argsPage usMappedOffset)
    (config : state.x 1 = addressAt dataPage (usConfigOffset domain))
    (heap : usHeapValidCount pages.heap nginx = true) (one : domain = .direct → nginx = 1)
    (shape : routeWords domain pages.code = some (first, action)) (word : pages.code 0 = first) :
    decode action = some (.movz32 2 (routeAction domain)) ∧ ∃ instr next,
      decode first = some instr ∧
      Chooses state [instr] 2 (routeTarget domain pages nginx) next := by
  have count := usHeapValidCount_count heap
  have loads {offset : Nat} {value : BitVec 32} (loaded : (domainSpace pages).load .w32
      (addressAt dataPage (usConfigOffset domain) + BitVec.ofNat 64 offset) =
        some (value.setWidth 64)) : ∃ next, Chooses state [.ldr .w32 2 1 offset] 2 value next := by
    obtain ⟨next, done, same, found⟩ : ∃ next, Machine.run perform state [.ldr .w32 2 1 offset] =
        some next ∧ next.x 0 = state.x 0 ∧ next.x 2 = value.setWidth 64 := by
      simp [Machine.run_cons, perform, State.exec, State.doLoad, State.base, State.result,
        State.record, Except.toOption, here.space, config, loaded]
    exact ⟨next, rfl, done, same.trans message, by rw [found]; simp⟩
  cases domain with
  | direct =>
    cases shape
    cases one rfl
    have target : routeTarget .direct pages 1 = 2 := by
      simp [routeTarget, usSelectNginx, Nat.mod_one]
    rw [target]
    refine ⟨by decide, .ldr .w32 2 1 16, (loads ?_).imp fun _ chooses => ⟨by decide, chooses⟩⟩
    exact load_config heap 6 (by decide)
  | middle =>
    simp only [routeWords] at shape
    split at shape
    case isTrue => contradiction
    case isFalse known =>
    cases shape
    by_cases home : pages.code 0 = ldrHome
    · rw [routeTarget, if_pos home, home]
      refine ⟨by decide, .ldr .w32 2 1 40, (loads ?_).imp fun _ chooses => ⟨by decide, chooses⟩⟩
      rcases count with rfl | rfl
      all_goals exact load_config heap 25 (by decide)
    · have user : pages.code 0 = ldrUser := by
        by_contra other
        exact known ⟨other, home⟩
      rw [routeTarget, if_neg home, user]
      refine ⟨by decide, .ldr .w32 2 1 36, (loads ?_).imp fun _ chooses => ⟨by decide, chooses⟩⟩
      rcases count with rfl | rfl
      all_goals exact load_config heap 24 (by decide)
  | leaf =>
    cases shape
    refine ⟨by decide, .ldr .w32 2 1 44, (loads ?_).imp fun _ chooses => ⟨by decide, chooses⟩⟩
    rcases count with rfl | rfl
    all_goals exact load_config heap 26 (by decide)
  | query =>
    cases shape
    exact ⟨by decide, .movz32 2 0, _, by decide, rfl, rfl, message, rfl⟩

/-- Every admitted image routes the message: the load balancer to the nginx that the kernel
selects, nginx to the endpoint of its service, and back. -/
theorem image_routes (valid : remoteSocialImageValid domain pages.code count = true)
    (balancer : domain = .direct → (pages.code 0 = remoteSocialLb3Word 0 ↔ nginx = 3))
    (heap : usHeapValidCount pages.heap nginx = true) (here : At pages 0 state)
    (message : state.x 0 = addressAt argsPage usMappedOffset)
    (config : state.x 1 = addressAt dataPage (usConfigOffset domain)) :
    ∃ final, Routes pages state 0 count (routeTarget domain pages nginx)
      ((routeAction domain).setWidth 32) final := by
  rw [remoteSocialImageValid] at valid
  split at valid
  case isTrue => contradiction
  case isFalse bounds =>
  simp only [not_or, Nat.not_lt, Decidable.not_not] at bounds
  obtain ⟨long, short, last⟩ := bounds
  split at valid
  case isTrue three =>
    obtain ⟨rfl, first⟩ := three
    cases (balancer rfl).mp first
    split at valid
    case isTrue => contradiction
    case isFalse longer =>
    rw [Bool.and_eq_true, all_eq_true] at valid
    have words : ∀ i, i < lb3Words → pages.code i = remoteSocialLb3Word i := fun i inside =>
      beq_iff_eq.mp (valid.1 i (mem_range.mpr inside))
    obtain ⟨next, chooses⟩ := lb3_chooses here message config heap
    refine chooses.routes here (by decide) (by decide) short (Nat.not_lt.mp longer) ?_ valid.2 last
    refine Eq.trans (map_congr_left fun i inside => ?_) lb3_decoded
    rw [words i (mem_range.mp inside)]
  case isFalse other =>
    have single : domain = .direct → nginx = 1 := by
      intro direct
      have two := usHeapValidCount_count heap
      have notThree : ¬nginx = 3 := fun three => other ⟨direct, (balancer direct).mpr three⟩
      omega
    split at valid
    case h_1 => contradiction
    case h_2 first action shape =>
    split at valid
    case isTrue => contradiction
    case isFalse words =>
    simp only [not_or, Decidable.not_not] at words
    obtain ⟨zero, one, two, three⟩ := words
    obtain ⟨mov, instr, next, head, chooses⟩ :=
      short_chooses here message config heap single shape zero
    refine chooses.routes here (by decide) (by decide) short long ?_ valid last
    show [decode (pages.code 0), decode (pages.code 1), decode (pages.code 2),
      decode (pages.code 3)] = [some instr, _, _, _]
    rw [zero, one, two, three, head, mov]
    rfl

end Images

end UbApplication.UbDomain
