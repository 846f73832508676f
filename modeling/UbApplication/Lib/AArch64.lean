import Mathlib.Logic.Function.Basic
import UbApplication.Lib.Machine

/-!
# A subset of AArch64 at EL0

Instructions, their encodings and their meaning on registers and on pages of memory, as an
unprivileged program sees them. Memory is a map from virtual page numbers to pages of 32-bit
words; accesses are naturally aligned. A step either goes to the next state or stops with an
exception, and the state keeps a list of the memory accesses made.
-/

namespace AArch64

open Function (update)

/-- The width of a load or store. -/
inductive Width where
  | w32
  | w64
  deriving DecidableEq, Repr

/-- Instructions. Registers are numbers up to 31; 31 is the zero register, or the stack pointer
where it is a base address. -/
inductive Instr where
  /-- `ldr Rt, [Xn, #offset]`. -/
  | ldr (width : Width) (t n offset : Nat)
  /-- `str Rt, [Xn, #offset]`. -/
  | str (width : Width) (t n offset : Nat)
  /-- `ldr Wt, [Xn, Xm, lsl #2]`. -/
  | ldrIndexed (t n m : Nat)
  /-- `add Xd, Xn, #imm`. -/
  | addImm (d n : Nat) (imm : BitVec 64)
  /-- `sub Xd, Xn, #imm`. -/
  | subImm (d n : Nat) (imm : BitVec 64)
  /-- `add Xd, Xn, Xm, lsl #shift`. -/
  | addReg (d n m shift : Nat)
  /-- `sub Xd, Xn, Xm, lsl #shift`. -/
  | subReg (d n m shift : Nat)
  /-- `eor Xd, Xn, Xm, lsl #shift`. -/
  | eorReg (d n m shift : Nat)
  /-- `udiv Xd, Xn, Xm`. -/
  | udiv (d n m : Nat)
  /-- `msub Xd, Xn, Xm, Xa`. -/
  | msub (d n m a : Nat)
  /-- `movz Wd, #imm`. -/
  | movz32 (d : Nat) (imm : BitVec 16)
  /-- `movz Xd, #imm, lsl #shift`. -/
  | movz64 (d : Nat) (imm : BitVec 16) (shift : Nat)
  /-- `movk Xd, #imm, lsl #shift`. -/
  | movk64 (d : Nat) (imm : BitVec 16) (shift : Nat)
  /-- `and Xd, Xn, #mask`, for a mask of that many low bits. -/
  | andLow (d n count : Nat)
  /-- `subs Xd, Xn, Xm, lsl #shift`. -/
  | subsReg (d n m shift : Nat)
  /-- `subs Xd, Xn, #imm` or, for the width of a word, `subs Wd, Wn, #imm`. -/
  | subsImm (width : Width) (d n : Nat) (imm : BitVec 64)
  /-- `stp Xt, Xu, [Xn, #offset]!`. -/
  | stpPre (t u n : Nat) (offset : BitVec 64)
  /-- `ldp Xt, Xu, [Xn], #offset`. -/
  | ldpPost (t u n : Nat) (offset : BitVec 64)
  /-- `b offset`. -/
  | b (offset : BitVec 64)
  /-- `b.eq offset`, or `b.ne offset` when the flag is to be clear. -/
  | bZero (set : Bool) (offset : BitVec 64)
  /-- `stlr Xt, [Xn]`. -/
  | stlr (t n : Nat)
  /-- `ldar Xt, [Xn]`. -/
  | ldar (t n : Nat)
  /-- `ldaddal Xs, Xt, [Xn]`. -/
  | ldaddal (s t n : Nat)
  /-- `dsb sy`. -/
  | dsb
  | nop
  /-- `brk #imm`. -/
  | brk (imm : BitVec 16)
  deriving DecidableEq, Repr

/-- Instructions that write no memory and go on to the next one. -/
def Instr.plain : Instr → Bool
  | .str .. | .stpPre .. | .ldpPost .. | .b .. | .bZero .. | .stlr .. | .ldaddal .. | .brk .. =>
    false
  | _ => true

/-! ## Encodings -/

/-- The bits of a word that a mask selects. -/
def field (word mask : BitVec 32) (low : Nat) : Nat := ((word &&& mask) >>> low).toNat

/-- A branch or pair offset: the bits a mask selects, as a signed multiple of a power of two. -/
def offsetOf (word mask : BitVec 32) (low width scale : Nat) : BitVec 64 :=
  (BitVec.ofNat width (field word mask low)).signExtend 64 <<< scale

/-- The instruction of a word; `none` for words outside the subset. -/
def decode (word : BitVec 32) : Option Instr :=
  let d := field word 0x1f 0
  let n := field word 0x3e0 5
  let m := field word 0x1f0000 16
  let imm12 := field word 0x3ffc00 10
  if word &&& 0xffc00000 = 0xf9400000 then some (.ldr .w64 d n (8 * imm12))
  else if word &&& 0xffc00000 = 0xf9000000 then some (.str .w64 d n (8 * imm12))
  else if word &&& 0xffc00000 = 0xb9400000 then some (.ldr .w32 d n (4 * imm12))
  else if word &&& 0xffc00000 = 0xb9000000 then some (.str .w32 d n (4 * imm12))
  else if word &&& 0xffe0fc00 = 0xb8607800 then some (.ldrIndexed d n m)
  else if word &&& 0xffc00000 = 0x91000000 then some (.addImm d n (BitVec.ofNat 64 imm12))
  else if word &&& 0xffc00000 = 0x91400000 then some (.addImm d n (BitVec.ofNat 64 (4096 * imm12)))
  else if word &&& 0xffc00000 = 0xd1000000 then some (.subImm d n (BitVec.ofNat 64 imm12))
  else if word &&& 0xffc00000 = 0xd1400000 then some (.subImm d n (BitVec.ofNat 64 (4096 * imm12)))
  else if word &&& 0xffe00000 = 0x8b000000 then some (.addReg d n m (field word 0xfc00 10))
  else if word &&& 0xffe00000 = 0xcb000000 then some (.subReg d n m (field word 0xfc00 10))
  else if word &&& 0xffe00000 = 0xca000000 then some (.eorReg d n m (field word 0xfc00 10))
  else if word &&& 0xffe0fc00 = 0x9ac00800 then some (.udiv d n m)
  else if word &&& 0xffe08000 = 0x9b008000 then some (.msub d n m (field word 0x7c00 10))
  else if word &&& 0xffe00000 = 0x52800000 then
    some (.movz32 d (BitVec.ofNat 16 (field word 0x1fffe0 5)))
  else if word = 0xd503201f then some .nop
  else if word &&& 0xffe0001f = 0xd4200000 then
    some (.brk (BitVec.ofNat 16 (field word 0x1fffe0 5)))
  else if word &&& 0xff800000 = 0xd2800000 then
    some (.movz64 d (BitVec.ofNat 16 (field word 0x1fffe0 5)) (16 * field word 0x600000 21))
  else if word &&& 0xff800000 = 0xf2800000 then
    some (.movk64 d (BitVec.ofNat 16 (field word 0x1fffe0 5)) (16 * field word 0x600000 21))
  else if word &&& 0xffff0000 = 0x92400000 then some (.andLow d n (field word 0xfc00 10 + 1))
  else if word &&& 0xffe00000 = 0xeb000000 then some (.subsReg d n m (field word 0xfc00 10))
  else if word &&& 0xffc00000 = 0xf1000000 then some (.subsImm .w64 d n (BitVec.ofNat 64 imm12))
  else if word &&& 0xffc00000 = 0x71000000 then some (.subsImm .w32 d n (BitVec.ofNat 64 imm12))
  else if word &&& 0xffc00000 = 0xa9800000 then
    some (.stpPre d (field word 0x7c00 10) n (offsetOf word 0x3f8000 15 7 3))
  else if word &&& 0xffc00000 = 0xa8c00000 then
    some (.ldpPost d (field word 0x7c00 10) n (offsetOf word 0x3f8000 15 7 3))
  else if word &&& 0xfc000000 = 0x14000000 then some (.b (offsetOf word 0x3ffffff 0 26 2))
  else if word &&& 0xff00001f = 0x54000000 then some (.bZero true (offsetOf word 0xffffe0 5 19 2))
  else if word &&& 0xff00001f = 0x54000001 then some (.bZero false (offsetOf word 0xffffe0 5 19 2))
  else if word &&& 0xfffffc00 = 0xc89ffc00 then some (.stlr d n)
  else if word &&& 0xfffffc00 = 0xc8dffc00 then some (.ldar d n)
  else if word &&& 0xffe0fc00 = 0xf8e00000 then some (.ldaddal m d n)
  else if word = 0xd5033f9f then some .dsb
  else none

/-- Bits that a wide mask fixes are fixed for a narrower one. -/
theorem mask_narrow {word wide narrow value : BitVec 32} (fixed : word &&& wide = value)
    (inside : wide &&& narrow = narrow) : word &&& narrow = value &&& narrow := by
  rw [← fixed, BitVec.and_assoc, inside]

/-! ## Memory -/

/-- A page: its words, and whether it may be written and executed. -/
structure Page where
  word : Nat → BitVec 32
  writable : Bool
  executable : Bool

/-- An address space: the pages by their virtual page numbers. -/
abbrev Space := Nat → Option Page

/-- The number of the page an address is in. -/
def pageOf (address : BitVec 64) : Nat := address.toNat / 4096

/-- The place of an address in its page, in words. -/
def wordOf (address : BitVec 64) : Nat := address.toNat % 4096 / 4

namespace Page

/-- Two neighbouring words as a double word, the lower one first. -/
def word64 (page : Page) (index : Nat) : BitVec 64 := page.word (index + 1) ++ page.word index

/-- A page with a word replaced. -/
def set32 (page : Page) (index : Nat) (value : BitVec 32) : Page :=
  { page with word := update page.word index value }

/-- A page with a double word replaced. -/
def set64 (page : Page) (index : Nat) (value : BitVec 64) : Page :=
  (page.set32 index (value.setWidth 32)).set32 (index + 1) ((value >>> 32).setWidth 32)

/-- What a load of a width reads at a word. -/
def read (page : Page) (width : Width) (index : Nat) : BitVec 64 :=
  match width with
  | .w32 => (page.word index).setWidth 64
  | .w64 => page.word64 index

/-- A page after a store of a width at a word. -/
def write (page : Page) (width : Width) (index : Nat) (value : BitVec 64) : Page :=
  match width with
  | .w32 => page.set32 index (value.setWidth 32)
  | .w64 => page.set64 index value

end Page

def Width.bytes : Width → Nat
  | .w32 => 4
  | .w64 => 8

namespace Space

/-- What a load reads; `none` when it faults. -/
def load (space : Space) (width : Width) (address : BitVec 64) : Option (BitVec 64) :=
  match width with
  | .w32 => if address.toNat % 4 = 0 then
      (space (pageOf address)).map fun page => (page.word (wordOf address)).setWidth 64 else none
  | .w64 => if address.toNat % 8 = 0 then
      (space (pageOf address)).map fun page => page.word64 (wordOf address) else none

/-- The address space after a store; `none` when it faults. -/
def store (space : Space) (width : Width) (address value : BitVec 64) : Option Space :=
  match space (pageOf address) with
  | none => none
  | some page =>
    if !page.writable then none
    else match width with
      | .w32 => if address.toNat % 4 = 0 then
          some (update space (pageOf address)
            (some (page.set32 (wordOf address) (value.setWidth 32)))) else none
      | .w64 => if address.toNat % 8 = 0 then
          some (update space (pageOf address)
            (some (page.set64 (wordOf address) value))) else none

/-- The word at an address that is fetched; `none` when the fetch faults. -/
def fetch (space : Space) (address : BitVec 64) : Option (BitVec 32) :=
  match space (pageOf address) with
  | none => none
  | some page => if page.executable && address.toNat % 4 = 0 then some (page.word (wordOf address))
    else none

end Space

/-- The address of a place in a page. -/
def addressAt (page offset : Nat) : BitVec 64 := BitVec.ofNat 64 (4096 * page + offset)

variable {width : Width}

section Addresses

variable {space : Space} {page offset : Nat} {here : Page}

/-- Offsets within a page add up. -/
theorem addressAt_add (more : Nat) :
    addressAt page offset + BitVec.ofNat 64 more = addressAt page (offset + more) := by
  rw [addressAt, ← BitVec.ofNat_add, addressAt, Nat.add_assoc]

section

variable (low : page < 0x1000000000) (inside : offset < 4096)
include low inside

/-- The number of an address below the end of the 48-bit space. -/
theorem addressAt_toNat :
    (addressAt page offset).toNat = 4096 * page + offset := by
  rw [addressAt, BitVec.toNat_ofNat]
  omega

/-- The page of an address. -/
theorem addressAt_pageOf :
    pageOf (addressAt page offset) = page := by
  rw [pageOf, addressAt_toNat low inside]
  omega

/-- The word of an address in its page. -/
theorem addressAt_wordOf :
    wordOf (addressAt page offset) = offset / 4 := by
  rw [wordOf, addressAt_toNat low inside]
  omega

end

section

variable (found : space page = some here)
include found

/-- A load from a mapped page. -/
theorem load_at (low : page < 0x1000000000) (inside : offset < 4096)
    (aligned : offset % width.bytes = 0) :
    space.load width (addressAt page offset) = some (here.read width (offset / 4)) := by
  have whole : (4096 * page + offset) % width.bytes = 0 := by
    cases width <;> simp only [Width.bytes] at aligned ⊢ <;> omega
  cases width <;> simp only [Width.bytes] at whole <;>
    simp only [Space.load, Page.read, addressAt_toNat low inside, addressAt_pageOf low inside,
      addressAt_wordOf low inside, found, whole, if_true, Option.map_some]

/-- A store to a writable page. -/
theorem store_at (allowed : here.writable = true) (low : page < 0x1000000000)
    (inside : offset < 4096) (aligned : offset % width.bytes = 0) (value : BitVec 64) :
    space.store width (addressAt page offset) value =
      some (update space page (some (here.write width (offset / 4) value))) := by
  have whole : (4096 * page + offset) % width.bytes = 0 := by
    cases width <;> simp only [Width.bytes] at aligned ⊢ <;> omega
  cases width <;> simp only [Width.bytes] at whole <;>
    simp only [Space.store, Page.write, addressAt_toNat low inside, addressAt_pageOf low inside,
      addressAt_wordOf low inside, found, allowed, whole, if_true, Bool.not_true,
      Bool.false_eq_true, if_false]

/-- A fetch from an executable page. -/
theorem fetch_at (allowed : here.executable = true)
    (low : page < 0x1000000000) (inside : offset < 4096) (aligned : offset % 4 = 0) :
    space.fetch (addressAt page offset) = some (here.word (offset / 4)) := by
  have whole : (4096 * page + offset) % 4 = 0 := by omega
  simp [Space.fetch, addressAt_toNat low inside, addressAt_pageOf low inside,
    addressAt_wordOf low inside, found, allowed, whole]

end

end Addresses

/-! ## Execution -/

/-- A memory access. -/
structure Access where
  isStore : Bool
  width : Width
  address : BitVec 64
  deriving DecidableEq, Repr

/-- Why an instruction does not complete. -/
inductive Stop where
  | brk (imm : BitVec 16)
  /-- The word is not an instruction of the subset. -/
  | undefined
  /-- The instruction cannot be fetched. -/
  | instructionAbort
  /-- A load or store is not allowed. -/
  | dataAbort (address : BitVec 64)
  deriving DecidableEq, Repr

/-- The state of an unprivileged program. -/
structure State where
  x : Nat → BitVec 64
  sp : BitVec 64
  pc : BitVec 64
  zero : Bool
  space : Space
  accesses : List Access

variable {start : State} {count : Nat}

namespace State

/-- A source register; register 31 is zero. -/
def reg (state : State) (n : Nat) : BitVec 64 := if n = 31 then 0 else state.x n

/-- A base register; register 31 is the stack pointer. -/
def base (state : State) (n : Nat) : BitVec 64 := if n = 31 then state.sp else state.x n

/-- The next instruction, with a result in a register; a result in register 31 is lost. -/
def result (state : State) (d : Nat) (value : BitVec 64) : State :=
  { state with
    x := if d = 31 then state.x else update state.x d value
    pc := state.pc + 4 }

/-- The next instruction, with a result in a register; register 31 is the stack pointer. -/
def baseResult (state : State) (d : Nat) (value : BitVec 64) : State :=
  if d = 31 then { state with sp := value, pc := state.pc + 4 } else state.result d value

/-- An access is put on record. -/
def record (state : State) (access : Access) : State :=
  { state with accesses := state.accesses ++ [access] }

/-- A load into a register. -/
def doLoad (state : State) (width : Width) (t : Nat) (address : BitVec 64) : Except Stop State :=
  match state.space.load width address with
  | none => .error (.dataAbort address)
  | some value => .ok ((state.record ⟨false, width, address⟩).result t value)

/-- A store of a register. -/
def doStore (state : State) (width : Width) (t : Nat) (address : BitVec 64) : Except Stop State :=
  match state.space.store width address (state.reg t) with
  | none => .error (.dataAbort address)
  | some space =>
    .ok { state.record ⟨true, width, address⟩ with space := space, pc := state.pc + 4 }

/-- The next instruction, or one at an offset. -/
def branch (state : State) (taken : Bool) (offset : BitVec 64) : State :=
  { state with pc := state.pc + if taken then offset else 4 }

/-- A subtraction of words or double words. -/
def difference (width : Width) (left right : BitVec 64) : BitVec 64 :=
  match width with
  | .w32 => (left.setWidth 32 - right.setWidth 32).setWidth 64
  | .w64 => left - right

/-- A result in a register, with the zero flag set by it. -/
def resultFlag (state : State) (d : Nat) (value : BitVec 64) : State :=
  { state.result d value with zero := value == 0 }

/-- Two stores to neighbouring places below the base register, which moves down. -/
def doStorePair (state : State) (t u n : Nat) (address : BitVec 64) : Except Stop State := do
  let one ← state.doStore .w64 t address
  let two ← one.doStore .w64 u (address + 8)
  return { two.baseResult n address with pc := state.pc + 4 }

/-- Two loads from neighbouring places at the base register, which moves up. -/
def doLoadPair (state : State) (t u n : Nat) (offset : BitVec 64) : Except Stop State := do
  let address := state.base n
  let one ← state.doLoad .w64 t address
  let two ← one.doLoad .w64 u (address + 8)
  return { two.baseResult n (address + offset) with pc := state.pc + 4 }

/-- A load and a store of the sum in one access. -/
def doFetchAdd (state : State) (s t : Nat) (address : BitVec 64) : Except Stop State :=
  match state.space.load .w64 address with
  | none => .error (.dataAbort address)
  | some old => match state.space.store .w64 address (old + state.reg s) with
    | none => .error (.dataAbort address)
    | some space =>
      .ok { (state.record ⟨true, .w64, address⟩).result t old with space := space }

/-- What an instruction does. -/
def exec (state : State) : Instr → Except Stop State
  | .ldr width t n offset => state.doLoad width t (state.base n + BitVec.ofNat 64 offset)
  | .str width t n offset => state.doStore width t (state.base n + BitVec.ofNat 64 offset)
  | .ldrIndexed t n m => state.doLoad .w32 t (state.base n + state.reg m <<< 2)
  | .addImm d n imm => .ok (state.baseResult d (state.base n + imm))
  | .subImm d n imm => .ok (state.baseResult d (state.base n - imm))
  | .addReg d n m shift => .ok (state.result d (state.reg n + state.reg m <<< shift))
  | .subReg d n m shift => .ok (state.result d (state.reg n - state.reg m <<< shift))
  | .eorReg d n m shift => .ok (state.result d (state.reg n ^^^ state.reg m <<< shift))
  | .udiv d n m => .ok (state.result d (state.reg n / state.reg m))
  | .msub d n m a => .ok (state.result d (state.reg a - state.reg n * state.reg m))
  | .movz32 d imm => .ok (state.result d (imm.setWidth 64))
  | .movz64 d imm shift => .ok (state.result d (imm.setWidth 64 <<< shift))
  | .movk64 d imm shift =>
    .ok (state.result d (state.reg d &&& ~~~((0xffff : BitVec 64) <<< shift) |||
      imm.setWidth 64 <<< shift))
  | .andLow d n count => .ok (state.baseResult d (state.reg n &&& ((1 : BitVec 64) <<< count - 1)))
  | .subsReg d n m shift => .ok (state.resultFlag d (state.reg n - state.reg m <<< shift))
  | .subsImm width d n imm => .ok (state.resultFlag d (difference width (state.base n) imm))
  | .stpPre t u n offset => state.doStorePair t u n (state.base n + offset)
  | .ldpPost t u n offset => state.doLoadPair t u n offset
  | .b offset => .ok (state.branch true offset)
  | .bZero set offset => .ok (state.branch (state.zero == set) offset)
  | .stlr t n => state.doStore .w64 t (state.base n)
  | .ldar t n => state.doLoad .w64 t (state.base n)
  | .ldaddal s t n => state.doFetchAdd s t (state.base n)
  | .dsb => .ok { state with pc := state.pc + 4 }
  | .nop => .ok { state with pc := state.pc + 4 }
  | .brk imm => .error (.brk imm)

/-- The state after an instruction that completes. -/
def perform (state : State) (instr : Instr) : Option State := (state.exec instr).toOption

/-- The instruction at the program counter. -/
def fetched (state : State) : Except Stop Instr :=
  match state.space.fetch state.pc with
  | none => .error .instructionAbort
  | some word => match decode word with
    | none => .error .undefined
    | some instr => .ok instr

/-- One instruction is fetched and executed. -/
def step (state : State) : Except Stop State :=
  match state.fetched with
  | .error stop => .error stop
  | .ok instr => state.exec instr

/-- The state after some instructions; `none` when one of them does not complete. -/
def after (state : State) : Nat → Option State
  | 0 => some state
  | count + 1 => match state.after count with
    | none => none
    | some now => now.step.toOption

/-- Instructions are executed until one does not complete; `none` when the fuel runs out. -/
def run (state : State) : Nat → Option (State × Stop)
  | 0 => none
  | fuel + 1 => match state.step with
    | .ok next => next.run fuel
    | .error stop => some (state, stop)

variable {state middle final : State} {stop : Stop}

section Transfers

variable {page offset more : Nat} {here : Page} {n t : Nat}

section

variable (base : state.base n = addressAt page offset) (found : state.space page = some here)
include base found

/-- A load through a base register. -/
theorem exec_ldr (low : page < 0x1000000000)
    (inside : offset + more < 4096) (aligned : (offset + more) % width.bytes = 0) :
    state.exec (.ldr width t n more) =
      .ok ((state.record ⟨false, width, addressAt page (offset + more)⟩).result t
        (here.read width ((offset + more) / 4))) := by
  simp only [exec, doLoad, base, addressAt_add, load_at found low inside aligned]

/-- A store through a base register. -/
theorem exec_str (allowed : here.writable = true)
    (low : page < 0x1000000000) (inside : offset + more < 4096)
    (aligned : (offset + more) % width.bytes = 0) :
    state.exec (.str width t n more) =
      .ok { state.record ⟨true, width, addressAt page (offset + more)⟩ with
        space := update state.space page
          (some (here.write width ((offset + more) / 4) (state.reg t)))
        pc := state.pc + 4 } := by
  simp only [exec, doStore, base, addressAt_add, store_at found allowed low inside aligned]

end

end Transfers

/-- An instruction that only changes registers. -/
theorem exec_of_perform {instr : Instr} (done : state.perform instr = some middle) :
    state.exec instr = .ok middle := by
  unfold perform at done
  cases executed : state.exec instr with
  | error => simp [executed, Except.toOption] at done
  | ok => simpa [executed, Except.toOption] using done

/-- Plain instructions keep the memory and go on. -/
theorem exec_plain {instr : Instr} (plain : instr.plain = true)
    (executed : state.exec instr = .ok middle) :
    middle.space = state.space ∧ middle.pc = state.pc + 4 := by
  have loads {width : Width} {t : Nat} {address : BitVec 64}
      (loaded : state.doLoad width t address = .ok middle) :
      middle.space = state.space ∧ middle.pc = state.pc + 4 := by
    unfold doLoad at loaded
    split at loaded
    case h_1 => contradiction
    case h_2 =>
      cases loaded
      exact ⟨rfl, rfl⟩
  cases instr
  case ldr | ldrIndexed | ldar => exact loads executed
  case str | stpPre | ldpPost | b | bZero | stlr | ldaddal | brk => contradiction
  all_goals
    cases executed
    simp only [baseResult, apply_ite State.space, apply_ite State.pc, result, resultFlag, ite_self,
      and_self]

/-- One step more. -/
theorem after_succ {next : State} (reached : state.after count = some middle)
    (stepped : middle.step = .ok next) : state.after (count + 1) = some next := by
  simp only [after, reached, stepped, Except.toOption]

/-- Steps after steps. -/
theorem after_add {first second : Nat} (reached : state.after first = some middle) :
    state.after (first + second) = middle.after second := by
  induction second with
  | zero => exact reached
  | succ second ih =>
    rw [← Nat.add_assoc]
    simp only [after, ih]

/-- The program runs straight through some instructions of a page, from a place on, and then
stops. -/
structure StraightRun (start : State) (page first count : Nat) (final : State) (stop : Stop) :
    Prop where
  /-- Every instruction follows the one before. -/
  inside : ∀ done ≤ count, ∃ middle, start.after done = some middle ∧
    middle.pc = addressAt page (4 * (first + done))
  reached : start.after count = some final
  stops : final.step = .error stop

/-- A straight run begins with the part that has been followed so far. -/
theorem StraightRun.prepend {page first early : Nat}
    (inside : ∀ done < early, ∃ now, start.after done = some now ∧
      now.pc = addressAt page (4 * (first + done))) (reached : start.after early = some middle)
    (rest : StraightRun middle page (first + early) count final stop) :
    StraightRun start page first (early + count) final stop where
  inside done bound := by
    by_cases before : done < early
    · exact inside done before
    · obtain ⟨now, taken, pc⟩ := rest.inside (done - early) (by omega)
      have split : done = early + (done - early) := by omega
      refine ⟨now, ?_, ?_⟩
      · rw [split, after_add reached]
        exact taken
      · rw [pc, Nat.add_assoc, ← split]
  reached := (after_add reached).trans rest.reached
  stops := rest.stops

variable {page first : Nat}

/-- The first instruction of a straight run completes. -/
theorem StraightRun.step (pc : start.pc = addressAt page (4 * first))
    (stepped : start.step = .ok middle)
    (rest : StraightRun middle page (first + 1) count final stop) :
    StraightRun start page first (count + 1) final stop := by
  rw [Nat.add_comm]
  refine StraightRun.prepend ?_ (after_succ rfl stepped) rest
  intro done early
  have zero : done = 0 := by omega
  exact ⟨start, by rw [zero]; rfl, by rw [zero, pc]; rfl⟩

/-- A run that stops at once. -/
theorem StraightRun.nil (pc : state.pc = addressAt page (4 * first))
    (stopped : state.step = .error stop) : StraightRun state page first 0 state stop where
  inside done bound :=
    ⟨state, by rw [Nat.le_zero.mp bound]; rfl, by rw [Nat.le_zero.mp bound, pc]; rfl⟩
  reached := rfl
  stops := stopped

/-- Where a straight run ends. -/
theorem StraightRun.final_pc (run : StraightRun start page first count final stop) :
    final.pc = addressAt page (4 * (first + count)) := by
  obtain ⟨now, reached, pc⟩ := run.inside count (Nat.le_refl _)
  cases reached.symm.trans run.reached
  exact pc

/-- Nothing follows an instruction that does not complete. -/
theorem after_of_error (stopped : state.step = .error stop) (count : Nat) :
    state.after (count + 1) = none := by
  induction count with
  | zero => simp only [after, stopped, Except.toOption]
  | succ count ih => rw [after, ih]

/-- Execution finds the state that stops, with enough fuel. -/
theorem run_of_after (reached : state.after count = some final)
    (stopped : final.step = .error stop) (extra : Nat) :
    state.run (count + 1 + extra) = some (final, stop) := by
  induction count generalizing state with
  | zero =>
    cases reached
    rw [Nat.zero_add, Nat.add_comm, run, stopped]
  | succ count ih =>
    have fuel : count + 1 + 1 + extra = (count + 1 + extra) + 1 := by omega
    cases stepped : state.step with
    | error other =>
      rw [after_of_error stepped] at reached
      contradiction
    | ok next =>
      rw [Nat.add_comm, after_add (after_succ rfl stepped)] at reached
      rw [fuel, run, stepped]
      exact ih reached

/-- Execution follows a straight run to its end. -/
theorem StraightRun.run_eq {page first fuel : Nat}
    (run : StraightRun start page first count final stop) (enough : count < fuel) :
    start.run fuel = some (final, stop) := by
  obtain ⟨extra, rfl⟩ : ∃ extra, fuel = count + 1 + extra := ⟨fuel - (count + 1), by omega⟩
  exact run_of_after run.reached run.stops extra

end State

end AArch64
