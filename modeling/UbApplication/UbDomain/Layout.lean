import UbApplication.Lib.AArch64

/-!
# Domains and their pages

A session has four domains. A domain sees its code, its stack, the heap of the peer and its
argument page at fixed virtual addresses; one domain may also see a page it can write data to.
The numbers are those of `ub_lrpc_ub_domain.h`.
-/

namespace UbApplication.UbDomain

open AArch64
open Function (update update_self update_of_ne update_comm update_idem)

/-- There are four levels of tables, and four further entries. -/
instance neZeroFour : @NeZero Nat Zero.ofOfNat0 4 := ⟨by decide⟩

/-- There are sixteen banks. -/
instance neZeroSixteen : @NeZero Nat Zero.ofOfNat0 16 := ⟨by decide⟩

/-- The domains of a session: `UD_DIRECT`, `UD_MIDDLE`, `UD_LEAF` and `UD_QUERY`. -/
inductive Domain where
  /-- `UD_DIRECT`. -/
  | direct
  /-- `UD_MIDDLE`. -/
  | middle
  /-- `UD_LEAF`. -/
  | leaf
  /-- `UD_QUERY`. -/
  | query
  deriving DecidableEq, Repr

/-- The number of the page at `UD_VA`, where the code of a domain is. -/
def codePage : Nat := 0x100000

/-- The number of the page at `UD_STACK`. -/
def stackPage : Nat := 0x100002

/-- The number of the page at `UD_DATA`, where the heap is. -/
def dataPage : Nat := 0x100004

/-- The number of the page at `UD_ARGS`, where the argument page is. -/
def argsPage : Nat := 0x100006

/-- The number of the page at `UD_WRITE`, where the page for data is. -/
def writePage : Nat := 0x100008

def udPage : Nat := 4096

def udNestedTrapOffset : Nat := 12

def udRemoteMaxWords : Nat := 32

/-- The words of the pages of a domain. -/
structure DomainPages where
  code : Nat → BitVec 32
  stack : Nat → BitVec 32
  heap : Nat → BitVec 32
  args : Nat → BitVec 32
  write : Option (Nat → BitVec 32)

/-- The address space of a domain: code may only be executed, the heap only be read. -/
def domainSpace (pages : DomainPages) : Space := fun page =>
  if page = codePage then some ⟨pages.code, false, true⟩
  else if page = stackPage then some ⟨pages.stack, true, false⟩
  else if page = dataPage then some ⟨pages.heap, false, false⟩
  else if page = argsPage then some ⟨pages.args, true, false⟩
  else if page = writePage then pages.write.map fun words => ⟨words, true, false⟩
  else none

def word64 (words : Nat → BitVec 32) (index : Nat) : BitVec 64 := words (index + 1) ++ words index

def set64 (words : Nat → BitVec 32) (index : Nat) (value : BitVec 64) : Nat → BitVec 32 :=
  update (update words index (value.setWidth 32)) (index + 1)
    ((value >>> 32).setWidth 32)

/-- The word set. -/
@[simp] theorem word64_set64 (words : Nat → BitVec 32) (index : Nat) (value : BitVec 64) :
    word64 (set64 words index value) index = value := by
  have different : index ≠ index + 1 := by omega
  simp only [word64, set64, update_self, update_of_ne different]
  apply BitVec.eq_of_toNat_eq
  simp only [BitVec.toNat_append, BitVec.toNat_setWidth, BitVec.toNat_ushiftRight]
  have small := value.isLt
  rw [← Nat.shiftLeft_add_eq_or_of_lt (Nat.mod_lt _ (by decide)), Nat.shiftLeft_eq,
    Nat.shiftRight_eq_div_pow]
  omega

/-- Words apart stay. -/
theorem word64_set64_of_apart (words : Nat → BitVec 32) {index other : Nat} (value : BitVec 64)
    (apart : index + 2 ≤ other ∨ other + 2 ≤ index) :
    word64 (set64 words index value) other = word64 words other := by
  have one : other ≠ index + 1 := by omega
  have two : other ≠ index := by omega
  have three : other + 1 ≠ index + 1 := by omega
  have four : other + 1 ≠ index := by omega
  simp only [word64, set64, update_of_ne one, update_of_ne two,
    update_of_ne three, update_of_ne four]

/-- The last one stays. -/
@[simp] theorem set64_set64 (words : Nat → BitVec 32) (index : Nat) (first second : BitVec 64) :
    set64 (set64 words index first) index second = set64 words index second := by
  have different : index ≠ index + 1 := by omega
  simp only [set64]
  rw [update_comm different.symm, update_idem, update_idem,
    update_comm different]

/-- The entry context of a domain, `struct ud_initial`. -/
structure Initial where
  args : BitVec 64
  heap : BitVec 64
  sp : BitVec 64
  pc : BitVec 64
  deriving DecidableEq, Repr

/-- The entry context that a commit accepts, with the heap pointer moved by an offset. -/
def Initial.fixed (heapOffset : Nat) : Initial where
  args := addressAt argsPage 0
  heap := addressAt dataPage heapOffset
  sp := addressAt stackPage udPage
  pc := addressAt codePage 0

/-- `ud_initial_regs`: the registers a domain is entered with. -/
def initialRegs (initial : Initial) (n : Nat) : BitVec 64 :=
  if n = 0 then initial.args else if n = 1 then initial.heap else 0

/-- The state a domain is entered in. -/
def entryState (initial : Initial) (pages : DomainPages) : State where
  x := initialRegs initial
  sp := initial.sp
  pc := initial.pc
  zero := false
  space := domainSpace pages
  accesses := []

/-- A program is at an instruction of the code page, with the pages of a domain. -/
structure At (pages : DomainPages) (index : Nat) (state : State) : Prop where
  space : state.space = domainSpace pages
  pc : state.pc = addressAt codePage (4 * index)

section Accesses

variable {pages : DomainPages} {state : State} {index : Nat}

section

variable (here : At pages index state)
include here

/-- The instruction is executed. -/
theorem At.step (inside : index < 1024) {instr : Instr}
    (decoded : decode (pages.code index) = some instr) : state.step = state.exec instr := by
  have found : domainSpace pages codePage = some ⟨pages.code, false, true⟩ := rfl
  have word := fetch_at found rfl (by decide) (show 4 * index < 4096 by omega) (by omega)
  rw [Nat.mul_div_cancel_left _ (by decide)] at word
  simp only [State.step, State.fetched, here.space, here.pc, word, decoded]

/-- The next instruction. -/
theorem At.next :
    state.pc + 4 = addressAt codePage (4 * (index + 1)) := by
  rw [here.pc]
  exact addressAt_add 4

/-- A result is written. -/
theorem At.result (d : Nat) (value : BitVec 64) :
    At pages (index + 1) (state.result d value) where
  space := here.space
  pc := here.next

/-- An access is recorded. -/
theorem At.record (access : Access) :
    At pages index (state.record access) where
  space := here.space
  pc := here.pc

/-- Nothing happens. -/
theorem At.skip :
    At pages (index + 1) { state with pc := state.pc + 4 } where
  space := here.space
  pc := here.next

end

/-- The argument page. -/
theorem domainSpace_args : domainSpace pages argsPage = some ⟨pages.args, true, false⟩ := rfl

/-- The data page. -/
theorem domainSpace_data : domainSpace pages dataPage = some ⟨pages.heap, false, false⟩ := rfl

/-- New arguments. -/
theorem update_args (words : Nat → BitVec 32) :
    update (domainSpace pages) argsPage (some ⟨words, true, false⟩) =
      domainSpace { pages with args := words } := by
  funext other
  by_cases here : other = argsPage
  · rw [here, update_self]
    rfl
  · rw [update_of_ne here]
    simp only [domainSpace, here, if_false]

end Accesses

end UbApplication.UbDomain
