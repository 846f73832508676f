import UbApplication.UbDomain.Layout

/-!
# The verifier of remote code

The peer publishes the code of its domains as short word sequences. `remoteImageValid` is
`ud_remote_image_valid` of `ub_remote_code.h`: it admits fixed loads, integer arithmetic on `x2`,
one store of the result and the trap that ends the service.
-/

namespace UbApplication.UbDomain

open AArch64 AArch64.State List StraightRun State

/-! ## The verifier -/

/-- `UD_R_LDR_A`: `ldr x2, [x0]`. -/
def ldrA : BitVec 32 := 0xf9400002

/-- `UD_R_LDR_B`: `ldr x3, [x0, #8]`. -/
def ldrB : BitVec 32 := 0xf9400403

/-- `UD_R_LDR_HEAP`: `ldr x4, [x1]`. -/
def ldrHeap : BitVec 32 := 0xf9400024

/-- `UD_R_STR_RESULT`: `str x2, [x0, #16]`. -/
def strResult : BitVec 32 := 0xf9000802

/-- `UD_R_NOP`. -/
def nopWord : BitVec 32 := 0xd503201f

/-- `UD_R_BRK_RETURN`: `brk #0x4c0`. -/
def brkReturn : BitVec 32 := 0xd4209800

/-- `UD_R_BRK_NESTED`: `brk #0x4c1`. -/
def brkNested : BitVec 32 := 0xd4209820

/-- `UD_R_ADD_B`: `add x2, x2, x3`. -/
def addB : BitVec 32 := 0x8b030042

/-- `UD_R_ADD_HEAP`: `add x2, x2, x4`. -/
def addHeap : BitVec 32 := 0x8b040042

/-- `UD_R_SUB_B`: `sub x2, x2, x3`. -/
def subB : BitVec 32 := 0xcb030042

/-- `UD_R_SUB_HEAP`: `sub x2, x2, x4`. -/
def subHeap : BitVec 32 := 0xcb040042

/-- `UD_R_EOR_B`: `eor x2, x2, x3`. -/
def eorB : BitVec 32 := 0xca030042

/-- `UD_R_EOR_HEAP`: `eor x2, x2, x4`. -/
def eorHeap : BitVec 32 := 0xca040042

/-- `ud_r_arithmetic`: the word is arithmetic on `x2` that the domain may use. -/
def rArithmetic (word : BitVec 32) (domain : Domain) : Bool :=
  if word &&& 0xffc003ff = 0x91000042 ∨ word &&& 0xffc003ff = 0xd1000042 then true
  else if domain = .direct then
    word == addB || word == addHeap || word == subB || word == subHeap || word == eorB ||
      word == eorHeap
  else false

/-- The end of an image, after its first words: arithmetic, the store of the result and the
return. -/
def tailValid (domain : Domain) (words : Nat → BitVec 32) (count body : Nat) : Bool :=
  let last := count - 2
  if last ≤ body ∨ words last ≠ strResult ∨ words (last + 1) ≠ brkReturn then false
  else (List.range' body (last - body)).all fun i => rArithmetic (words i) domain

/-- `ud_remote_image_valid`: the first words of a page are code that a domain may run. -/
def remoteImageValid (domain : Domain) (words : Nat → BitVec 32) (count : Nat) : Bool :=
  if count > udRemoteMaxWords then false
  else match domain with
    | .query => count == 1 && words 0 == brkReturn
    | .direct =>
      if count < 6 ∨ words 0 ≠ ldrA ∨ words 1 ≠ ldrB ∨ words 2 ≠ ldrHeap then false
      else tailValid .direct words count 3
    | .middle =>
      if count < 7 ∨ words 0 ≠ ldrA ∨ words 1 ≠ nopWord ∨ words 2 ≠ nopWord ∨
          words 3 ≠ brkNested then false
      else tailValid .middle words count 4
    | .leaf =>
      if count < 4 ∨ words 0 ≠ ldrA then false
      else tailValid .leaf words count 1

section Lengths

variable {domain : Domain} {words : Nat → BitVec 32} {count : Nat}

/-- A check passes. -/
theorem ite_false_eq_true {p : Prop} [Decidable p] {rest : Bool} :
    (if p then false else rest) = true ↔ ¬p ∧ rest = true := by
  split <;> simp_all

/-- An image is short. -/
theorem remoteImageValid_length (valid : remoteImageValid domain words count = true) :
    count ≤ udRemoteMaxWords := by
  simp only [remoteImageValid, ite_false_eq_true] at valid
  exact Nat.not_lt.mp valid.1

/-- An image is not empty. -/
theorem remoteImageValid_pos (valid : remoteImageValid domain words count = true) :
    0 < count := by
  by_contra empty
  cases Nat.eq_zero_of_not_pos empty
  cases domain <;> simp [remoteImageValid] at valid

/-- A middle image has seven words. -/
theorem remoteImageValid_middle (valid : remoteImageValid .middle words count = true) :
    7 ≤ count := by
  by_contra short
  simp only [remoteImageValid] at valid
  split at valid
  case isTrue => contradiction
  rw [if_pos (Or.inl (by omega))] at valid
  contradiction

end Lengths

/-! ## What arithmetic means -/

/-- The immediate of an `add` or `sub`. -/
def immediate (word : BitVec 32) : BitVec 64 := BitVec.ofNat 64 (field word 0x3ffc00 10)

/-- What an arithmetic word makes of the value so far, with the second argument and the heap
word at hand. -/
def arithmetic (b heap : BitVec 64) (value : BitVec 64) (word : BitVec 32) : BitVec 64 :=
  if word = addB then value + b
  else if word = addHeap then value + heap
  else if word = subB then value - b
  else if word = subHeap then value - heap
  else if word = eorB then value ^^^ b
  else if word = eorHeap then value ^^^ heap
  else if word &&& 0xffc003ff = 0x91000042 then value + immediate word
  else value - immediate word

/-- The arithmetic of the words of an image from one place up to another. -/
def composition (b heap : BitVec 64) (words : Nat → BitVec 32) (first count : Nat)
    (value : BitVec 64) : BitVec 64 :=
  ((List.range' first count).map words).foldl (arithmetic b heap) value

/-- The first operand. -/
theorem decode_ldrA : decode ldrA = some (.ldr .w64 2 0 0) := by decide

/-- The second operand. -/
theorem decode_ldrB : decode ldrB = some (.ldr .w64 3 0 8) := by decide

/-- The heap word. -/
theorem decode_ldrHeap : decode ldrHeap = some (.ldr .w64 4 1 0) := by decide

/-- The result. -/
theorem decode_strResult : decode strResult = some (.str .w64 2 0 16) := by decide

/-- Padding. -/
theorem decode_nopWord : decode nopWord = some .nop := by decide

/-- The return trap. -/
theorem decode_brkReturn : decode brkReturn = some (.brk 0x4c0) := by decide

/-- The nested trap. -/
theorem decode_brkNested : decode brkNested = some (.brk 0x4c1) := by decide

/-- The arithmetic that is admitted. -/
theorem decode_immediate {word : BitVec 32} :
    (word &&& 0xffc003ff = 0x91000042 → decode word = some (.addImm 2 2 (immediate word))) ∧
      (word &&& 0xffc003ff = 0xd1000042 → decode word = some (.subImm 2 2 (immediate word))) := by
  constructor
  all_goals
    intro shape
    have opcode := mask_narrow shape (show (0xffc003ff : BitVec 32) &&& 0xffc00000 = _ by decide)
    have d := mask_narrow shape (show (0xffc003ff : BitVec 32) &&& 0x1f = _ by decide)
    have n := mask_narrow shape (show (0xffc003ff : BitVec 32) &&& 0x3e0 = _ by decide)
    have other : word &&& 0xffe0fc00 ≠ 0xb8607800 := by
      intro indexed
      have wrong :=
        mask_narrow indexed (show (0xffe0fc00 : BitVec 32) &&& 0xffc00000 = _ by decide)
      rw [opcode] at wrong
      exact absurd wrong (by decide)
    simp only [decode, field, opcode, d, n, other, if_false]
    rfl

/-- Admitted arithmetic does what `arithmetic` says to the registers. -/
theorem rArithmetic_exec {word : BitVec 32} {domain : Domain}
    (admitted : rArithmetic word domain = true) : ∃ instr, decode word = some instr ∧
      ∀ state : State, state.exec instr =
        .ok (state.result 2 (arithmetic (state.x 3) (state.x 4) (state.x 2) word)) := by
  rw [rArithmetic] at admitted
  split at admitted
  case isTrue shape =>
    have others : word ∉ [addB, addHeap, subB, subHeap, eorB, eorHeap] := by
      intro listed
      have masked : word &&& 0xffc003ff ∈
          [addB, addHeap, subB, subHeap, eorB, eorHeap].map (· &&& 0xffc003ff) :=
        mem_map_of_mem listed
      rcases shape with shape | shape
      all_goals
        rw [shape] at masked
        exact absurd masked (by decide)
    simp only [mem_cons, not_mem_nil, or_false, not_or] at others
    rcases shape with shape | shape
    · refine ⟨_, decode_immediate.1 shape, fun state => ?_⟩
      simp only [arithmetic, others, shape, if_false, if_true]
      rfl
    · refine ⟨_, decode_immediate.2 shape, fun state => ?_⟩
      have different : ¬(0xd1000042 : BitVec 32) = 0x91000042 := by decide
      simp only [arithmetic, others, shape, different, if_false]
      rfl
  case isFalse =>
    split at admitted
    case isFalse => contradiction
    case isTrue =>
      simp only [Bool.or_eq_true, beq_iff_eq] at admitted
      rcases admitted with ((((rfl | rfl) | rfl) | rfl) | rfl) | rfl
      · exact ⟨.addReg 2 2 3 0, by decide, fun state => by simp [exec, reg, arithmetic]⟩
      · exact ⟨.addReg 2 2 4 0, by decide, fun state => by
          simp [exec, reg, arithmetic, addHeap, addB]⟩
      · exact ⟨.subReg 2 2 3 0, by decide, fun state => by
          simp [exec, reg, arithmetic, addHeap, addB, subB]⟩
      · exact ⟨.subReg 2 2 4 0, by decide, fun state => by
          simp [exec, reg, arithmetic, addHeap, addB, subB, subHeap]⟩
      · exact ⟨.eorReg 2 2 3 0, by decide, fun state => by
          simp [exec, reg, arithmetic, addHeap, addB, subB, subHeap, eorB]⟩
      · exact ⟨.eorReg 2 2 4 0, by decide, fun state => by
          simp [exec, reg, arithmetic, addHeap, addB, subB, subHeap, eorB, eorHeap]⟩

/-! ## Runs of admitted words -/

section Runs

variable {pages : DomainPages} {state final : State} {stop : Stop} {domain : Domain}

/-- The body runs. -/
theorem body_run {first count rest : Nat} (here : At pages first state)
    (admitted : ∀ i, first ≤ i → i < first + count → rArithmetic (pages.code i) domain = true)
    (inside : first + count ≤ 1024) (further : StraightRun
      { state with
        x := Function.update state.x 2
          (composition (state.x 3) (state.x 4) pages.code first count (state.x 2))
        pc := addressAt codePage (4 * (first + count)) }
      codePage (first + count) rest final stop) :
    StraightRun state codePage first (count + rest) final stop := by
  induction count generalizing first state with
  | zero =>
    simp only [composition, List.range'_zero, map_nil, foldl_nil, Function.update_eq_self,
      Nat.add_zero, ← here.pc] at further
    rw [Nat.zero_add]
    exact further
  | succ count ih =>
    obtain ⟨instr, decoded, executed⟩ :=
      rArithmetic_exec (admitted first (Nat.le_refl _) (by omega))
    have stepped := (here.step (by omega) decoded).trans (executed state)
    have order : count + 1 + rest = count + rest + 1 := by omega
    rw [order]
    apply step here.pc stepped
    apply ih (here.result 2 _)
    · exact fun i low high => admitted i (by omega) (by omega)
    · omega
    · have place : first + (count + 1) = first + 1 + count := by omega
      simp only [composition, List.range'_succ, map_cons, foldl_cons, place] at further
      simpa [result, composition] using further

/-- What an image does from its arithmetic on: it stores a value as the result and changes no
register but `x2`. -/
structure Finishes (pages : DomainPages) (state final : State) (value : BitVec 64) : Prop where
  space : final.space = domainSpace { pages with args := set64 pages.args 4 value }
  x : ∀ n, n ≠ 2 → final.x n = state.x n
  sp : final.sp = state.sp
  accesses : final.accesses = state.accesses ++ [⟨true, .w64, addressAt argsPage 16⟩]

/-- The tail runs. -/
theorem tail_run {count body : Nat} (here : At pages body state)
    (args : state.x 0 = addressAt argsPage 0) (small : count ≤ udRemoteMaxWords)
    (valid : tailValid domain pages.code count body = true) :
    ∃ final, StraightRun state codePage body (count - 1 - body) final (.brk 0x4c0) ∧
      Finishes pages state final
        (composition (state.x 3) (state.x 4) pages.code body (count - 2 - body) (state.x 2)) := by
  rw [udRemoteMaxWords] at small
  simp only [tailValid] at valid
  split at valid
  case isTrue => contradiction
  case isFalse shape =>
  simp only [not_or, Nat.not_le, Decidable.not_not] at shape
  obtain ⟨longer, stored, returned⟩ := shape
  have place : body + (count - 2 - body) = count - 2 := by omega
  have length : count - 1 - body = count - 2 - body + 1 := by omega
  have admitted : ∀ i, body ≤ i → i < body + (count - 2 - body) →
      rArithmetic (pages.code i) domain = true := by
    intro i low high
    refine all_eq_true.mp valid i (mem_range'.mpr ⟨i - body, by omega, by omega⟩)
  generalize result :
    composition (state.x 3) (state.x 4) pages.code body (count - 2 - body) (state.x 2) = value
  let computed : State :=
    { state with
      x := Function.update state.x 2 value
      pc := addressAt codePage (4 * (count - 2)) }
  let written : State :=
    { computed.record ⟨true, .w64, addressAt argsPage 16⟩ with
      space := domainSpace { pages with args := set64 pages.args 4 value }
      pc := computed.pc + 4 }
  have computedHere : At pages (count - 2) computed := ⟨here.space, rfl⟩
  have base : computed.base 0 = addressAt argsPage 0 := by simp [computed, base, args]
  have storing : computed.step = .ok written := by
    have found : computed.space argsPage = some ⟨pages.args, true, false⟩ := by
      rw [computedHere.space, domainSpace_args]
    rw [computedHere.step (by omega) (by rw [stored]; exact decode_strResult),
      exec_str base found rfl (by decide) (by decide) (by decide)]
    simp only [written, computed, reg, here.space, Except.ok.injEq, State.mk.injEq, true_and,
      and_true]
    exact update_args (set64 pages.args 4 value)
  have writtenHere : At { pages with args := set64 pages.args 4 value } (count - 2 + 1) written :=
    ⟨rfl, computedHere.next⟩
  have returning : written.step = .error (.brk 0x4c0) := by
    rw [writtenHere.step (by omega) (by rw [returned]; exact decode_brkReturn)]
    rfl
  refine ⟨written, ?_, ?_⟩
  · rw [length]
    apply body_run here admitted (by omega)
    rw [place, result]
    exact step rfl storing (nil writtenHere.pc returning)
  · refine ⟨rfl, fun n other => ?_, rfl, rfl⟩
    exact Function.update_of_ne other _ _

end Runs

/-- The registers the kernel sets up at entry and the verifier protects. -/
structure KeepsEntry (state : State) : Prop where
  /-- `x0` is the argument page. -/
  x0 : state.x 0 = addressAt argsPage 0
  /-- `x1` is the heap. -/
  x1 : state.x 1 = addressAt dataPage 0
  sp : state.sp = addressAt stackPage udPage

def readOf (page offset : Nat) : Access := ⟨false, .w64, addressAt page offset⟩

/-- The store of the result. -/
def writeOfResult : Access := ⟨true, .w64, addressAt argsPage 16⟩

/-- What entering an image of the direct or the leaf domain does: it runs straight through its
words to the return trap on the last one, and leaves a value as the result. -/
structure Returns (pages : DomainPages) (count : Nat) (value : BitVec 64) (reads : List Access)
    (final : State) : Prop extends KeepsEntry final where
  run : StraightRun (entryState (.fixed 0) pages) codePage 0 (count - 1) final (.brk 0x4c0)
  space : final.space = domainSpace { pages with args := set64 pages.args 4 value }
  accesses : final.accesses = reads ++ [writeOfResult]

/-- What entering an image of the middle domain does: it runs straight to the nested trap. -/
structure Suspends (pages : DomainPages) (trapped : State) : Prop extends KeepsEntry trapped where
  run : StraightRun (entryState (.fixed 0) pages) codePage 0 (udNestedTrapOffset / 4) trapped
    (.brk 0x4c1)
  x2 : trapped.x 2 = word64 pages.args 0
  others : ∀ n, 2 < n → trapped.x n = 0
  space : trapped.space = domainSpace pages
  accesses : trapped.accesses = [readOf argsPage 0]

/-- The suspended program goes on after its trap, with a new value in `x2`. -/
def resumed (trapped : State) (value : BitVec 64) : State :=
  { trapped with x := Function.update trapped.x 2 value, pc := trapped.pc + 4 }

/-- What resuming an image of the middle domain does: it runs straight from the word after the
nested trap to the return trap on the last word, and leaves a value as the result. -/
structure Resumes (pages : DomainPages) (count : Nat) (start : State) (value : BitVec 64)
    (final : State) : Prop extends KeepsEntry final where
  run : StraightRun start codePage (udNestedTrapOffset / 4 + 1) (count - 5) final (.brk 0x4c0)
  space : final.space = domainSpace { pages with args := set64 pages.args 4 value }
  accesses : final.accesses = start.accesses ++ [writeOfResult]

section Images

variable {pages : DomainPages} {count : Nat}

/-- The entry of a domain. -/
theorem entry_at (pages : DomainPages) (heapOffset : Nat) :
    At pages 0 (entryState (.fixed heapOffset) pages) := ⟨rfl, rfl⟩

/-- The first load. -/
theorem entry_ldrA (first : pages.code 0 = ldrA) :
    (entryState (.fixed 0) pages).step =
      .ok (((entryState (.fixed 0) pages).record (readOf argsPage 0)).result 2
        (word64 pages.args 0)) := by
  rw [(entry_at pages 0).step (by decide) (by rw [first]; exact decode_ldrA),
    exec_ldr (show base _ 0 = addressAt argsPage 0 from rfl) domainSpace_args (by decide)
      (by decide) (by decide)]
  rfl

/-- A leaf image runs. -/
theorem leaf_run (valid : remoteImageValid .leaf pages.code count = true) :
    ∃ final, Returns pages count (composition 0 0 pages.code 1 (count - 3) (word64 pages.args 0))
      [readOf argsPage 0] final := by
  simp only [remoteImageValid, ite_false_eq_true, not_or, Nat.not_lt, Decidable.not_not] at valid
  obtain ⟨small, shape, valid⟩ := valid
  have loaded := ((entry_at pages 0).record (readOf argsPage 0)).result 2 (word64 pages.args 0)
  obtain ⟨final, run, finishes⟩ := tail_run loaded rfl small valid
  refine ⟨final, ⟨?_, ?_, finishes.sp⟩, ?_, ?_, finishes.accesses⟩
  · exact finishes.x 0 (by decide)
  · exact finishes.x 1 (by decide)
  · have length : count - 1 = count - 1 - 1 + 1 := by omega
    rw [length]
    exact step rfl (entry_ldrA shape.2) run
  · have length : count - 2 - 1 = count - 3 := by omega
    rw [finishes.space, length]
    rfl

/-- A direct image runs. -/
theorem direct_run (valid : remoteImageValid .direct pages.code count = true) :
    ∃ final, Returns pages count
      (composition (word64 pages.args 2) (word64 pages.heap 0) pages.code 3 (count - 5)
        (word64 pages.args 0))
      [readOf argsPage 0, readOf argsPage 8, readOf dataPage 0] final := by
  simp only [remoteImageValid, ite_false_eq_true, not_or, Nat.not_lt, Decidable.not_not] at valid
  obtain ⟨small, shape, valid⟩ := valid
  obtain ⟨_, first, second, third⟩ := shape
  have one := ((entry_at pages 0).record (readOf argsPage 0)).result 2 (word64 pages.args 0)
  have two := (one.record (readOf argsPage 8)).result 3 (word64 pages.args 2)
  have three := (two.record (readOf dataPage 0)).result 4 (word64 pages.heap 0)
  have ldrB := one.step (by decide) (by rw [second]; exact decode_ldrB)
  rw [exec_ldr (show base _ 0 = addressAt argsPage 0 from rfl) domainSpace_args (by decide)
    (by decide) (by decide)] at ldrB
  have ldrHeap := two.step (by decide) (by rw [third]; exact decode_ldrHeap)
  rw [exec_ldr (show base _ 1 = addressAt dataPage 0 from rfl) domainSpace_data (by decide)
    (by decide) (by decide)] at ldrHeap
  obtain ⟨final, run, finishes⟩ := tail_run three rfl small valid
  refine ⟨final, ⟨?_, ?_, finishes.sp⟩, ?_, ?_, finishes.accesses⟩
  · exact finishes.x 0 (by decide)
  · exact finishes.x 1 (by decide)
  · have length : count - 1 = count - 1 - 3 + 1 + 1 + 1 := by omega
    rw [length]
    refine step rfl (entry_ldrA first) ?_
    exact step one.pc ldrB (step two.pc ldrHeap run)
  · have length : count - 2 - 3 = count - 5 := by omega
    rw [finishes.space, length]
    rfl

/-- A middle image traps. -/
theorem middle_trap (valid : remoteImageValid .middle pages.code count = true) :
    ∃ trapped, Suspends pages trapped := by
  simp only [remoteImageValid, ite_false_eq_true, not_or, Nat.not_lt, Decidable.not_not] at valid
  obtain ⟨-, ⟨_, first, second, third, fourth⟩, -⟩ := valid
  have one := ((entry_at pages 0).record (readOf argsPage 0)).result 2 (word64 pages.args 0)
  have two := one.skip
  have three := two.skip
  have nopOne := one.step (by decide) (by rw [second]; exact decode_nopWord)
  have nopTwo := two.step (by decide) (by rw [third]; exact decode_nopWord)
  have trap := three.step (by decide) (by rw [fourth]; exact decode_brkNested)
  have run := step rfl (entry_ldrA first)
    (step one.pc nopOne (step two.pc nopTwo (nil three.pc trap)))
  refine ⟨_, ?_, run, ?_, ?_, ?_, ?_⟩
  · exact ⟨rfl, rfl, rfl⟩
  · rfl
  · intro n high
    have low : n ≠ 2 ∧ n ≠ 0 ∧ n ≠ 1 := by omega
    simp [entryState, record, result, initialRegs, low]
  · rfl
  · rfl

/-- And it resumes. -/
theorem middle_resume (valid : remoteImageValid .middle pages.code count = true) {start : State}
    (here : At pages 4 start) (keeps : KeepsEntry start) (others : ∀ n, 2 < n → start.x n = 0) :
    ∃ final, Resumes pages count start (composition 0 0 pages.code 4 (count - 6) (start.x 2))
      final := by
  simp only [remoteImageValid, ite_false_eq_true, Nat.not_lt] at valid
  obtain ⟨small, -, valid⟩ := valid
  obtain ⟨final, run, finishes⟩ := tail_run here keeps.x0 small valid
  refine ⟨final, ⟨?_, ?_, ?_⟩, ?_, ?_, finishes.accesses⟩
  · exact (finishes.x 0 (by decide)).trans keeps.x0
  · exact (finishes.x 1 (by decide)).trans keeps.x1
  · exact finishes.sp.trans keeps.sp
  · have length : count - 5 = count - 1 - 4 := by omega
    rw [length]
    exact run
  · have length : count - 2 - 4 = count - 6 := by omega
    rw [finishes.space, length, others 3 (by decide), others 4 (by decide)]

end Images

end UbApplication.UbDomain
