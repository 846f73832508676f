import UbApplication.UbDomain.Services

/-!
# Calls of the micro profile

`ud_run` of `domain.c` and the checks it makes on the way. The verified images never make it take
its fault path.
-/

namespace UbApplication.UbDomain

open AArch64 AArch64.State Option
open Function (update update_self update_of_ne)

/-- What a call finds of the platform: whether the imported pages are still those of the contract
(`ud_mapping`) and whether the processor is still supported (`ud_supported`). -/
structure Checks where
  mapping : Option Errno
  /-- The result of `ud_supported`. -/
  supported : Option Errno

/-- `struct ud_call`, without the measured time and the processor number. -/
structure Call where
  a : BitVec 64
  b : BitVec 64
  result : BitVec 64
  esr : BitVec 64
  far : BitVec 64
  procedure : Nat
  transitions : Nat
  reserved : Nat

/-- What a call leaves. -/
structure Outcome where
  /-- The error code, `none` for success. -/
  rc : Option Errno
  session : Session
  imported : Imported
  call : Call

def procedureDomain (procedure : Nat) : Domain :=
  if procedure = 1 then .direct else if procedure = 2 then .middle else .query

namespace Session

/-- The size of the image of a domain in words, as `ud_returned` finds it. -/
def imageWords (session : Session) (domain : Domain) : Nat :=
  if session.codeMode = .remoteVerified then session.remoteWords domain
  else (service domain).length

/-- `ud_returned`: the recorded exception is the return trap of a domain, or its nested trap. -/
def returned (session : Session) (regs : Regs) (domain : Domain) (nested : Bool) : Bool :=
  if nested then regs.brkAt 0x4c1 (addressAt codePage udNestedTrapOffset)
  else regs.brkAt 0x4c0 (addressAt codePage (4 * session.imageWords domain - 4))

/-- The label `bad` of `ud_run`. -/
def faulted (session : Session) (imported : Imported) (regs : Regs) (call : Call) : Outcome where
  rc := some .eio
  session := { session with committed := false }
  imported := imported
  call := { call with esr := regs.esr, far := regs.far }

/-- The label `returned` of `ud_run`. -/
def finished (session : Session) (imported : Imported) (domain : Domain) (regs : Regs)
    (call : Call) : Outcome :=
  if session.returned regs domain false then
    { rc := none
      session := session
      imported := imported
      call := { call with result := word64 (session.args domain) 4, esr := 0, far := 0 } }
  else session.faulted imported regs call

/-- The gate that `ud_run_fused` sets up. -/
def microGate (session : Session) : NestedGate where
  middle := session.initialRegs .middle
  leaf := session.initialRegs .leaf
  middleRoot := .base .middle
  leafRoot := .base .leaf
  leafArgs := .leaf
  callPc := addressAt codePage udNestedTrapOffset
  leafPc := addressAt codePage (4 * session.imageWords .leaf - 4)
  returnPc := addressAt codePage (4 * session.imageWords .middle - 4)
  transitions := 0
  complete := 0
  domain := 1
  social := false
  socialArgs := .direct
  socialTarget := 0

/-- `ud_run_fused` and what `ud_run` makes of it. -/
def runFused (fuel : Nat) (session : Session) (imported : Imported) (call : Call) :
    Option Outcome :=
  (session.enterNested fuel imported session.microGate).map fun gated =>
    let gate := gated.gate
    let call := { call with transitions := gate.transitions }
    let regs := if gate.domain = 2 then gate.leaf else gate.middle
    if gate.complete = 1 ∧ gate.transitions = 4 ∧ gate.domain = 1 ∧
        gated.session.returned regs .middle false = true then
      gated.session.finished gated.imported .middle regs call
    else gated.session.faulted gated.imported regs call

/-- The way of `ud_run` through one gate, or through three for a nested call. -/
def runLegacy (fuel : Nat) (session : Session) (imported : Imported) (domain : Domain)
    (call : Call) : Option Outcome := do
  let first ← session.enter fuel imported (.base domain) (session.initialRegs domain)
    (domain = .middle)
  let call := { call with transitions := 2 }
  if domain = .middle ∧ first.session.returned first.regs domain true = true then
    let session := first.session.setArgs .leaf (first.regs.x 2) 0 0
    let second ← session.enter fuel first.imported (.base .leaf) (session.initialRegs .leaf) false
    let call := { call with transitions := 4 }
    if second.session.returned second.regs .leaf false then
      let regs :=
        { first.regs with
          pc := first.regs.pc + 4
          x := update first.regs.x 2 (word64 (second.session.args .leaf) 4) }
      let third ← second.session.enter fuel second.imported (.base domain) regs false
      third.session.finished third.imported domain third.regs { call with transitions := 6 }
    else second.session.faulted second.imported second.regs call
  else first.session.finished first.imported domain first.regs call

/-- The arguments are put into the argument page, unless the caller has it mapped. -/
def writeArgs (session : Session) (domain : Domain) (call : Call) (mapped : Bool) : Session :=
  if mapped then session.withArgs domain (set64 (session.args domain) 4 0)
  else session.setArgs domain call.a call.b 0

/-- The checks of `ud_run` before it reads the platform. -/
def callRejected (session : Session) (call : Call) : Bool :=
  !session.committed || call.procedure < 1 || 3 < call.procedure || call.reserved != 0 ||
    (session.codeMode = .remoteVerified && call.procedure == 3) ||
    (call.procedure == 3 && (call.a == 0 || 32 < call.a.toNat))

/-- `ud_run`; `none` when a domain does not stop. -/
def udRun (fuel : Nat) (checks : Checks) (session : Session) (imported : Imported) (call : Call)
    (mapped : Bool) : Option Outcome :=
  let domain := procedureDomain call.procedure
  if session.profile ≠ .micro then some ⟨some .eopnotsupp, session, imported, call⟩
  else if session.callRejected call then some ⟨some .einval, session, imported, call⟩
  else match checks.mapping with
    | some error => some ⟨some error, session, imported, call⟩
    | none =>
      let session := session.writeArgs domain call mapped
      match checks.supported with
      | some error => some ⟨some error, session, imported, call⟩
      | none =>
        if domain = .middle ∧ session.nestedPath = .fused then session.runFused fuel imported call
        else session.runLegacy fuel imported domain call

/-! ## Verified images -/

/-- What a commit of remote verified code establishes: every code page holds an admitted image of
the recorded length, and the entry contexts are the fixed ones. -/
structure Verified (session : Session) : Prop where
  micro : session.profile = .micro
  mode : session.codeMode = .remoteVerified
  initial : ∀ domain, session.initial domain = .fixed 0
  image : ∀ domain,
    remoteImageValid domain (session.code (.base domain)) (session.remoteWords domain) = true

section Gate

variable {fuel : Nat} {session : Session} {imported : Imported} {entry : Entry} {regs : Regs}
  {left : State} {stop : Stop} {words : Words}

/-- No change. -/
@[simp] theorem withArgs_self (session : Session) (domain : Domain) :
    session.withArgs domain (session.args domain) = session := by
  simp [withArgs]

/-- The page set. -/
@[simp] theorem withArgs_args (session : Session) (domain : Domain) (words : Words) :
    (session.withArgs domain words).args domain = words := update_self _ _ _

section SetArgs

variable (domain : Domain) (a b result : BitVec 64)

/-- The first argument. -/
theorem setArgs_argument : word64 ((session.setArgs domain a b result).args domain) 0 = a := by
  simp only [setArgs, withArgs, update_self]
  rw [word64_set64_of_apart _ _ (by decide), word64_set64_of_apart _ _ (by decide), word64_set64]

/-- The second argument. -/
theorem setArgs_second : word64 ((session.setArgs domain a b result).args domain) 2 = b := by
  simp only [setArgs, withArgs, update_self]
  rw [word64_set64_of_apart _ _ (by decide), word64_set64]

/-- The result. -/
theorem setArgs_result : word64 ((session.setArgs domain a b result).args domain) 4 = result := by
  simp only [setArgs, withArgs, update_self, word64_set64]

/-- A result is stored. -/
theorem setArgs_store (value : BitVec 64) :
    (session.setArgs domain a b result).withArgs domain
        (set64 ((session.setArgs domain a b result).args domain) 4 value) =
      session.setArgs domain a b value := by
  simp only [setArgs, withArgs, update_self, set64_set64, Function.update_idem]

/-- The other domains stay. -/
theorem setArgs_of_ne {other : Domain} (different : other ≠ domain) :
    (session.setArgs domain a b result).args other = session.args other := by
  simp only [setArgs, withArgs, update_of_ne different]

end SetArgs

/-- The pages after a run. -/
theorem put_args (space : left.space =
      domainSpace { session.pages imported entry with args := words }) :
    session.put entry left.space = session.withArgs (session.argsOf entry.domain) words := by
  simp [put, withArgs, space, leftWords, domainSpace, pages, stackPage, argsPage, codePage,
    dataPage]

/-- The written page. -/
theorem leftWords_write (space : left.space =
      domainSpace { session.pages imported entry with args := words }) :
    leftWords left.space writePage imported.write = imported.write := by
  have seen : domainSpace { session.pages imported entry with args := words } writePage =
    (session.pages imported entry).write.map fun words => ⟨words, true, false⟩ := rfl
  rw [leftWords, space, seen, pages]
  by_cases mapped : entry = .base .middle ∧
      (session.profile = .socialWrite ∨ session.profile = .socialShared)
  · rw [if_pos mapped]
    rfl
  · rw [if_neg mapped]
    rfl

/-- A run and what it leaves. -/
theorem execute_of_run {page first count : Nat}
    (run : StraightRun (regs.state (session.pages imported entry)) page first count left stop)
    (space : left.space = domainSpace { session.pages imported entry with args := words })
    (enough : count < fuel) :
    session.execute fuel imported entry regs =
      some ⟨session.withArgs (session.argsOf entry.domain) words, imported, left, stop⟩ := by
  simp only [execute, run.run_eq enough, map_some, put_args space, leftWords_write space]

/-- When a trap is recognised. -/
theorem brkAt_trapped (regs : Regs) (left : State) (imm : BitVec 16) (number pc : BitVec 64) :
    (regs.trapped left (.brk imm)).brkAt number pc =
      (imm.setWidth 64 == number && left.pc == pc) := by
  have high : (0xf2000000 + imm.setWidth 64 : BitVec 64) >>> 26 = 0x3c := by
    have bound := imm.isLt
    apply BitVec.eq_of_toNat_eq
    simp [BitVec.toNat_ushiftRight, BitVec.toNat_add, Nat.shiftRight_eq_div_pow]
    omega
  have low : (0xf2000000 + imm.setWidth 64 : BitVec 64) &&& 0xffff = imm.setWidth 64 := by
    have bound := imm.isLt
    have mask : (0xffff : BitVec 64).toNat = 2 ^ 16 - 1 := rfl
    have top : (0xf2000000 : BitVec 64).toNat = 0xf2000000 := rfl
    apply BitVec.eq_of_toNat_eq
    rw [BitVec.toNat_and, mask, Nat.and_two_pow_sub_one_eq_mod]
    simp only [BitVec.toNat_add, BitVec.toNat_setWidth, top]
    omega
  simp only [Regs.trapped, Regs.brkAt, syndrome, high, low, BEq.rfl, Bool.true_and]

end Gate

section VerifiedCalls

variable {fuel : Nat} {session : Session} {imported : Imported} {domain : Domain}

section

variable (verified : session.Verified)
include verified

/-- A domain has its own arguments. -/
theorem Verified.argsOf (domain : Domain) :
    session.argsOf domain = domain := by
  rw [Session.argsOf, if_pos verified.micro]

/-- The page of its arguments. -/
theorem Verified.pages_args (domain : Domain) :
    (session.pages imported (.base domain)).args = session.args domain := by
  simp only [pages, Entry.domain, verified.argsOf]

/-- New arguments. -/
theorem Verified.withArgs (domain : Domain) (words : Words) :
    (session.withArgs domain words).Verified :=
  { verified with }

/-- The state at the entry. -/
theorem Verified.entry_state (domain : Domain) (pages : DomainPages) :
    (session.initialRegs domain).state pages = entryState (.fixed 0) pages := by
  rw [← verified.initial domain]
  rfl

section

variable (enough : udRemoteMaxWords ≤ fuel)
include enough

/-- A domain returns. -/
theorem Verified.execute_returns {value : BitVec 64} {reads : List Access} {final : State}
    (returns : Returns (session.pages imported (.base domain)) (session.remoteWords domain) value
      reads final) :
    session.execute fuel imported (.base domain) (session.initialRegs domain) =
      some ⟨session.withArgs domain (set64 (session.args domain) 4 value), imported, final,
        .brk 0x4c0⟩ := by
  have short := remoteImageValid_length (verified.image domain)
  have long := remoteImageValid_pos (verified.image domain)
  have run := returns.run
  rw [← verified.entry_state domain] at run
  have executed := execute_of_run run returns.space (show _ < fuel by omega)
  simpa only [pages, Entry.domain, verified.argsOf] using executed

/-- The middle domain traps. -/
theorem Verified.execute_suspends
    {trapped : State} (suspends : Suspends (session.pages imported (.base .middle)) trapped) :
    session.execute fuel imported (.base .middle) (session.initialRegs .middle) =
      some ⟨session, imported, trapped, .brk 0x4c1⟩ := by
  have run := suspends.run
  rw [← verified.entry_state .middle] at run
  rw [udRemoteMaxWords] at enough
  have executed := execute_of_run run suspends.space (show 3 < fuel by omega)
  simpa only [pages, Entry.domain, verified.argsOf, withArgs_self] using executed

/-- The middle domain resumes. -/
theorem Verified.execute_resumes {regs : Regs} {value : BitVec 64} {final : State}
    (resumes : Resumes (session.pages imported (.base .middle)) (session.remoteWords .middle)
      (regs.state (session.pages imported (.base .middle))) value final) :
    session.execute fuel imported (.base .middle) regs =
      some ⟨session.withArgs .middle (set64 (session.args .middle) 4 value), imported, final,
        .brk 0x4c0⟩ := by
  have short := remoteImageValid_length (verified.image .middle)
  have long := remoteImageValid_pos (verified.image .middle)
  have executed := execute_of_run resumes.run resumes.space (show _ < fuel by omega)
  simpa only [pages, Entry.domain, verified.argsOf] using executed

end

/-- Where an image ends. -/
theorem Verified.last_pc (domain : Domain) {pc : BitVec 64}
    (last : pc = addressAt codePage (4 * (0 + (session.remoteWords domain - 1)))) :
    pc = addressAt codePage (4 * session.imageWords domain - 4) := by
  have place : 4 * session.remoteWords domain - 4 = 4 * (0 + (session.remoteWords domain - 1)) := by
    omega
  rw [last, imageWords, if_pos verified.mode, place]

end

/-- A return to the gate. -/
theorem enter_of_return {entry : Entry} {regs : Regs} {left : State} {after : Session}
    (executed : session.execute fuel imported entry regs = some ⟨after, imported, left, .brk 0x4c0⟩)
    (save : Bool) :
    session.enter fuel imported entry regs save =
      some ⟨after, imported, regs.trapped left (.brk 0x4c0)⟩ := by
  have other : (regs.trapped left (.brk 0x4c0)).brkAt 0x4c1 (regs.pc + 12) = false := by
    rw [brkAt_trapped]
    rfl
  simp only [enter, executed, map_some, other, Bool.and_false, Bool.false_eq_true, if_false]

end VerifiedCalls

/-! ## Nested calls -/

/-- The trap of the middle domain, with its registers saved. -/
def suspendedRegs (session : Session) (trapped : State) : Regs :=
  ((session.initialRegs .middle).trapped trapped (.brk 0x4c1)).saved trapped

/-- The registers that the suspended middle domain is resumed with. -/
def resumeRegs (session : Session) (trapped : State) (result : BitVec 64) : Regs :=
  { session.suspendedRegs trapped with
    x := update (session.suspendedRegs trapped).x 2 result
    pc := (session.suspendedRegs trapped).pc + 4 }

/-- The three parts of a nested call as the domains run them: to the nested trap, through the leaf
domain, and from the nested trap to the return. -/
structure NestedChain (fuel : Nat) (session : Session) (imported : Imported)
    (handed after : Session) (trapped left final : State) : Prop where
  first : session.execute fuel imported (.base .middle) (session.initialRegs .middle) =
    some ⟨session, imported, trapped, .brk 0x4c1⟩
  firstPc : trapped.pc = addressAt codePage udNestedTrapOffset
  second : (session.setArgs .leaf (trapped.x 2) 0 0).execute fuel imported (.base .leaf)
    (session.initialRegs .leaf) = some ⟨handed, imported, left, .brk 0x4c0⟩
  secondPc : left.pc = addressAt codePage (4 * session.imageWords .leaf - 4)
  third : handed.execute fuel imported (.base .middle)
    (session.resumeRegs trapped (word64 (handed.args .leaf) 4)) =
      some ⟨after, imported, final, .brk 0x4c0⟩
  thirdPc : final.pc = addressAt codePage (4 * session.imageWords .middle - 4)
  handedWords : handed.imageWords = session.imageWords
  afterWords : after.imageWords = session.imageWords

section Nested

variable {fuel : Nat} {session handed after : Session} {imported : Imported}
  {trapped left final : State} {call : Call}
  (chain : NestedChain fuel session imported handed after trapped left final)

include chain in
/-- The trap is recognised. -/
theorem NestedChain.suspends :
    (session.suspendedRegs trapped).brkAt 0x4c1 (addressAt codePage udNestedTrapOffset) = true := by
  have same := brkAt_trapped (session.initialRegs .middle) trapped 0x4c1 0x4c1
    (addressAt codePage udNestedTrapOffset)
  rw [chain.firstPc] at same
  exact same.trans (by decide)

include chain in
/-- So is the return of the leaf. -/
theorem NestedChain.leaf_returns :
    ((session.initialRegs .leaf).trapped left (.brk 0x4c0)).brkAt 0x4c0
      (addressAt codePage (4 * session.imageWords .leaf - 4)) = true := by
  rw [brkAt_trapped, chain.secondPc]
  simp

/-- And that of the middle domain. -/
theorem NestedChain.middle_returns (regs : Regs)
    (chain : NestedChain fuel session imported handed after trapped left final) :
    (regs.trapped final (.brk 0x4c0)).brkAt 0x4c0
      (addressAt codePage (4 * session.imageWords .middle - 4)) = true := by
  rw [brkAt_trapped, chain.thirdPc]
  simp

/-- The chain is at its end. -/
theorem NestedChain.done (regs : Regs)
    (chain : NestedChain fuel session imported handed after trapped left final) :
    after.returned (regs.trapped final (.brk 0x4c0)) .middle false = true := by
  rw [Session.returned, if_neg (by decide), chain.afterWords]
  exact chain.middle_returns regs

/-- What a nested call leaves: the result of the middle domain. -/
def nestedOutcome (after : Session) (imported : Imported) (call : Call) (transitions : Nat) :
    Outcome where
  rc := none
  session := after
  imported := imported
  call :=
    { call with
      transitions := transitions
      result := word64 (after.args .middle) 4
      esr := 0
      far := 0 }

include chain in
/-- The chain on the legacy path. -/
theorem NestedChain.runLegacy (entry : (session.initial .middle).pc = addressAt codePage 0) :
    session.runLegacy fuel imported .middle call =
      some (nestedOutcome after imported call 6) := by
  have start : (session.initialRegs .middle).pc + 12 = addressAt codePage udNestedTrapOffset := by
    rw [initialRegs, entry]
    rfl
  have first : session.enter fuel imported (.base .middle) (session.initialRegs .middle) true =
      some ⟨session, imported, session.suspendedRegs trapped⟩ := by
    have nested : ((session.initialRegs .middle).trapped trapped (.brk 0x4c1)).brkAt 0x4c1
      ((session.initialRegs .middle).pc + 12) = true := by rw [start]; exact chain.suspends
    simp only [enter, chain.first, map_some, nested, Bool.and_true, if_true]
    rfl
  have suspended : session.returned (session.suspendedRegs trapped) .middle true = true :=
    chain.suspends
  have second := enter_of_return chain.second false
  have returned : handed.returned ((session.initialRegs .leaf).trapped left (.brk 0x4c0)) .leaf
      false = true := by
    rw [Session.returned, if_neg (by decide), chain.handedWords]
    exact chain.leaf_returns
  have third := enter_of_return chain.third false
  have leafRegs (x : BitVec 64) : (session.setArgs .leaf x 0 0).initialRegs .leaf =
      session.initialRegs .leaf := rfl
  have x2 : (session.suspendedRegs trapped).x 2 = trapped.x 2 := rfl
  simp only [Session.runLegacy, decide_true, first, bind_eq_bind, bind_some, suspended,
    and_self, if_true, leafRegs, x2, second, returned]
  rw [resumeRegs] at third
  simp only [third, bind_some, finished, chain.done, if_true, nestedOutcome]

include chain in
/-- The chain on the fused path. -/
theorem NestedChain.runFused :
    session.runFused fuel imported call = some (nestedOutcome after imported call 4) := by
  have suspended : ((session.initialRegs .middle).trapped trapped (.brk 0x4c1)).brkAt 0x4c1
      (addressAt codePage udNestedTrapOffset) = true := chain.suspends
  have third := chain.third
  rw [resumeRegs, suspendedRegs] at third
  simp only [Session.runFused, enterNested, microGate, chain.first, bind_eq_bind,
    bind_some, Bool.false_eq_true, if_false, suspended, if_true, nestedLeaf, chain.second,
    chain.leaf_returns, nestedReturn, third, map_some, chain.middle_returns, nestedRestore]
  have apart : ¬(1 : Nat) = 2 := by decide
  simp only [apart, chain.done, finished, nestedOutcome, Nat.reduceAdd, and_self, if_true, if_false]

/-- What the verified image of the leaf domain makes of its argument. -/
def leafValue (session : Session) (value : BitVec 64) : BitVec 64 :=
  composition 0 0 (session.code (.base .leaf)) 1 (session.remoteWords .leaf - 3) value

/-- What the verified image of the middle domain makes of the nested result. -/
def middleValue (session : Session) (value : BitVec 64) : BitVec 64 :=
  composition 0 0 (session.code (.base .middle)) 4 (session.remoteWords .middle - 6) value

/-- What the verified image of the direct domain makes of both arguments and the heap word. -/
def directValue (session : Session) (a b heap : BitVec 64) : BitVec 64 :=
  composition b heap (session.code (.base .direct)) 3 (session.remoteWords .direct - 5) a

/-- The session that the leaf domain leaves when it was called with an argument. -/
def handedSession (session : Session) (argument : BitVec 64) : Session :=
  session.setArgs .leaf argument 0 (session.leafValue argument)

/-- The session that a nested call through verified images leaves. -/
def nestedSession (session : Session) (argument : BitVec 64) : Session :=
  (session.handedSession argument).withArgs .middle
    (set64 (session.args .middle) 4 (session.middleValue (session.leafValue argument)))

/-- Verified images make a chain. -/
theorem Verified.nestedChain (verified : session.Verified) (enough : udRemoteMaxWords ≤ fuel)
    (imported : Imported) :
    ∃ trapped left final, NestedChain fuel session imported
      (session.handedSession (word64 (session.args .middle) 0))
      (session.nestedSession (word64 (session.args .middle) 0)) trapped left final := by
  obtain ⟨trapped, suspends⟩ : ∃ trapped,
    Suspends (session.pages imported (.base .middle)) trapped :=
    middle_trap (verified.image .middle)
  have x2 : trapped.x 2 = word64 (session.args .middle) 0 := by
    rw [suspends.x2]
    simp only [pages, Entry.domain, verified.argsOf]
  rw [← x2]
  have calledVerified : (session.setArgs .leaf (trapped.x 2) 0 0).Verified := verified.withArgs _ _
  obtain ⟨left, returns⟩ := leaf_run
    (show remoteImageValid .leaf ((session.setArgs .leaf (trapped.x 2) 0 0).pages imported
      (.base .leaf)).code _ = true from calledVerified.image .leaf)
  have second := calledVerified.execute_returns enough returns
  rw [calledVerified.pages_args, setArgs_argument, setArgs_store] at second
  have handedVerified : (session.handedSession (trapped.x 2)).Verified := verified.withArgs _ _
  obtain ⟨regs, regs_eq⟩ : ∃ regs, regs = session.resumeRegs trapped
    (word64 ((session.handedSession (trapped.x 2)).args .leaf) 4) := ⟨_, rfl⟩
  have here : At ((session.handedSession (trapped.x 2)).pages imported (.base .middle)) 4
      (regs.state ((session.handedSession (trapped.x 2)).pages imported (.base .middle))) := by
    refine ⟨rfl, ?_⟩
    rw [regs_eq]
    exact (congrArg (· + 4) suspends.run.final_pc).trans (addressAt_add 4)
  have keeps : KeepsEntry
      (regs.state ((session.handedSession (trapped.x 2)).pages imported (.base .middle))) := by
    rw [regs_eq]
    exact ⟨suspends.x0, suspends.x1, suspends.sp⟩
  have others : ∀ n, 2 < n → regs.x n = 0 := by
    intro n high
    rw [regs_eq]
    exact (update_of_ne (by omega) _ _).trans (suspends.others n high)
  have result : regs.x 2 = session.leafValue (trapped.x 2) := by
    rw [regs_eq, handedSession, setArgs_result, resumeRegs]
    simp only [update_self]
  obtain ⟨final, resumes⟩ := middle_resume (handedVerified.image .middle) here keeps others
  have third := handedVerified.execute_resumes enough resumes
  refine ⟨trapped, left, final, ?_⟩
  constructor
  case first => exact verified.execute_suspends enough suspends
  case firstPc => exact suspends.run.final_pc
  case second => exact second
  case secondPc => exact verified.last_pc .leaf returns.run.final_pc
  case third =>
    have page : (session.handedSession (trapped.x 2)).args .middle = session.args .middle :=
      setArgs_of_ne _ _ _ _ (by decide)
    have start : (regs.state ((session.handedSession (trapped.x 2)).pages imported
      (.base .middle))).x 2 = session.leafValue (trapped.x 2) := result
    rw [start, page] at third
    rw [← regs_eq]
    exact third
  case thirdPc =>
    have long := remoteImageValid_middle (verified.image .middle)
    have place : udNestedTrapOffset / 4 + 1 + (session.remoteWords .middle - 5) =
        0 + (session.remoteWords .middle - 1) := by
      rw [udNestedTrapOffset]
      omega
    exact verified.last_pc .middle (resumes.run.final_pc.trans (by rw [← place]; rfl))
  case handedWords => rfl
  case afterWords => rfl

end Nested

/-! ## All calls -/

section Calls

variable {fuel : Nat} {session : Session} {imported : Imported}

def argument (session : Session) (call : Call) (mapped : Bool) : BitVec 64 :=
  if mapped then word64 (session.args (procedureDomain call.procedure)) 0 else call.a

def secondArgument (session : Session) (call : Call) (mapped : Bool) : BitVec 64 :=
  if mapped then word64 (session.args (procedureDomain call.procedure)) 2 else call.b

/-- What the verified images compute for a call. -/
def verifiedResult (session : Session) (imported : Imported) (call : Call) (mapped : Bool) :
    BitVec 64 :=
  if call.procedure = 1 then
    session.directValue (session.argument call mapped) (session.secondArgument call mapped)
      (word64 imported.heap 0)
  else session.middleValue (session.leafValue (session.argument call mapped))

/-- The arguments of a call. -/
theorem writeArgs_args (session : Session) (call : Call) (mapped : Bool) {words : Words}
    (written : (session.writeArgs (procedureDomain call.procedure) call mapped).args
      (procedureDomain call.procedure) = words) :
    word64 words 0 = session.argument call mapped ∧
      word64 words 2 = session.secondArgument call mapped := by
  subst written
  cases mapped
  · exact ⟨setArgs_argument .., setArgs_second ..⟩
  · simp only [writeArgs, if_true, withArgs, update_self, argument, secondArgument]
    exact ⟨word64_set64_of_apart _ _ (by decide), word64_set64_of_apart _ _ (by decide)⟩

/-- Only arguments are written. -/
theorem writeArgs_eq (session : Session) (domain : Domain) (call : Call) (mapped : Bool) :
    ∃ words, session.writeArgs domain call mapped = session.withArgs domain words := by
  rw [Session.writeArgs]
  split
  · exact ⟨_, rfl⟩
  · exact ⟨_, rfl⟩

section

variable (verified : session.Verified)
include verified

/-- The images stay. -/
theorem Verified.writeArgs (domain : Domain) (call : Call)
    (mapped : Bool) : (session.writeArgs domain call mapped).Verified := by
  obtain ⟨words, written⟩ := session.writeArgs_eq domain call mapped
  rw [written]
  exact verified.withArgs domain words

/-- A direct call. -/
theorem Verified.runLegacy_direct (enough : udRemoteMaxWords ≤ fuel) (imported : Imported)
    (call : Call) : ∃ outcome, session.runLegacy fuel imported .direct call = some outcome ∧
      outcome.rc = none ∧ outcome.session.committed = session.committed ∧
      outcome.call.result = session.directValue (word64 (session.args .direct) 0)
        (word64 (session.args .direct) 2) (word64 imported.heap 0) := by
  obtain ⟨final, returns⟩ := direct_run
    (show remoteImageValid .direct (session.pages imported (.base .direct)).code _ = true from
      verified.image .direct)
  have entered := enter_of_return (verified.execute_returns enough returns) false
  rw [verified.pages_args] at entered
  have returned (words : Words) : (session.withArgs .direct words).returned
      ((session.initialRegs .direct).trapped final (.brk 0x4c0)) .direct false = true := by
    show session.returned _ .direct false = true
    rw [Session.returned, if_neg (by decide), brkAt_trapped,
      verified.last_pc .direct returns.run.final_pc]
    simp
  have apart : ¬Domain.direct = .middle := by decide
  simp only [Session.runLegacy, apart, decide_false, entered, bind_eq_bind, bind_some,
    false_and, if_false, finished, returned, if_true]
  refine ⟨_, rfl, rfl, rfl, ?_⟩
  rw [withArgs_args, word64_set64]
  rfl

/-- A nested call. -/
theorem Verified.run_nested (enough : udRemoteMaxWords ≤ fuel)
    (imported : Imported) (call : Call) (fused : Bool) :
    ∃ outcome, (if fused then session.runFused fuel imported call
        else session.runLegacy fuel imported .middle call) = some outcome ∧
      outcome.rc = none ∧ outcome.session.committed = session.committed ∧
      outcome.call.result =
        session.middleValue (session.leafValue (word64 (session.args .middle) 0)) := by
  obtain ⟨trapped, left, final, chain⟩ := verified.nestedChain enough imported
  have stored (transitions : Nat) :
      (nestedOutcome (session.nestedSession (word64 (session.args .middle) 0)) imported call
        transitions).call.result =
        session.middleValue (session.leafValue (word64 (session.args .middle) 0)) := by
    rw [nestedOutcome, nestedSession, withArgs_args, word64_set64]
  cases fused
  · have entry : (session.initial .middle).pc = addressAt codePage 0 := by
      rw [verified.initial]
      rfl
    exact ⟨_, chain.runLegacy entry, rfl, rfl, stored 6⟩
  · exact ⟨_, chain.runFused, rfl, rfl, stored 4⟩

/-- The procedures of a session. -/
theorem Verified.procedure {call : Call}
    (accepted : session.callRejected call = false) : call.procedure = 1 ∨ call.procedure = 2 := by
  simp only [callRejected, verified.mode, Bool.or_eq_false_iff, decide_true, Bool.true_and,
    decide_eq_false_iff_not, beq_eq_false_iff_ne] at accepted
  omega

/-- No call of a committed session with verified images takes the fault path: the session stays
committed, and a call that the checks admit returns what the images compute. -/
theorem Verified.udRun (committed : session.committed = true)
    (enough : udRemoteMaxWords ≤ fuel) (checks : Checks) (call : Call) (mapped : Bool) :
    ∃ outcome, session.udRun fuel checks imported call mapped = some outcome ∧
      outcome.session.committed = true ∧
      (session.callRejected call = false → checks.mapping = none → checks.supported = none →
        outcome.rc = none ∧ outcome.call.result = session.verifiedResult imported call mapped) := by
  rw [Session.udRun, if_neg (not_not_intro verified.micro)]
  cases rejected : session.callRejected call with
  | true => exact ⟨_, rfl, committed, fun accepted => by contradiction⟩
  | false =>
  rw [if_neg (by decide)]
  cases checks.mapping with
  | some error => exact ⟨_, rfl, committed, fun _ mapping => by contradiction⟩
  | none =>
  have writtenVerified := verified.writeArgs (procedureDomain call.procedure) call mapped
  obtain ⟨argument, second⟩ := session.writeArgs_args call mapped rfl
  obtain ⟨words, written⟩ := session.writeArgs_eq (procedureDomain call.procedure) call mapped
  rw [written] at writtenVerified argument second
  cases checks.supported with
  | some error =>
    refine ⟨_, rfl, ?_, fun _ _ supported => by contradiction⟩
    rw [written]
    exact committed
  | none =>
  simp only [written]
  rcases verified.procedure rejected with one | two
  · have direct : procedureDomain call.procedure = .direct := by rw [procedureDomain, if_pos one]
    rw [direct] at writtenVerified argument second ⊢
    rw [if_neg (fun both => absurd both.1 (by decide))]
    obtain ⟨outcome, ran, success, same, value⟩ :=
      writtenVerified.runLegacy_direct enough imported call
    refine ⟨outcome, ran, same.trans committed, fun _ _ _ => ⟨success, ?_⟩⟩
    rw [value, argument, second, verifiedResult, if_pos one]
    rfl
  · have middle : procedureDomain call.procedure = .middle := by
      rw [procedureDomain, two]
      rfl
    rw [middle] at writtenVerified argument second ⊢
    obtain ⟨outcome, ran, success, same, value⟩ := writtenVerified.run_nested enough
      imported call ((session.withArgs .middle words).nestedPath = .fused)
    refine ⟨outcome, ?_, same.trans committed, fun _ _ _ => ⟨success, ?_⟩⟩
    · simpa using ran
    · rw [value, argument, verifiedResult, two]
      rfl

end

end Calls

end Session

/-- The verifier is sound. An admitted image of the direct or the leaf domain runs straight to the
return trap on its last word, one of the middle domain to its nested trap and, resumed with any
`x2`, to the return trap; each reads the argument and heap words it names, writes the composition of
its arithmetic as the result, and keeps `x0`, `x1` and the stack pointer. So a committed session
with verified images never takes the fault path of `ud_run`. -/
theorem remote_code_sound :
    (∀ (pages : DomainPages) (count : Nat), remoteImageValid .direct pages.code count = true →
      ∃ final, Returns pages count
        (composition (word64 pages.args 2) (word64 pages.heap 0) pages.code 3 (count - 5)
          (word64 pages.args 0))
        [readOf argsPage 0, readOf argsPage 8, readOf dataPage 0] final) ∧
    (∀ (pages : DomainPages) (count : Nat), remoteImageValid .leaf pages.code count = true →
      ∃ final, Returns pages count
        (composition 0 0 pages.code 1 (count - 3) (word64 pages.args 0))
          [readOf argsPage 0] final) ∧
    (∀ (pages : DomainPages) (count : Nat), remoteImageValid .middle pages.code count = true →
      ∃ trapped, Suspends pages trapped ∧ ∀ x2, ∃ final,
        Resumes pages count (resumed trapped x2) (composition 0 0 pages.code 4 (count - 6) x2)
          final) ∧
    (∀ (session : Session) (imported : Imported) (checks : Checks) (call : Call) (mapped : Bool)
        (fuel : Nat), session.Verified → session.committed = true → udRemoteMaxWords ≤ fuel →
      ∃ outcome, session.udRun fuel checks imported call mapped = some outcome ∧
        outcome.session.committed = true ∧
        (session.callRejected call = false → checks.mapping = none → checks.supported = none →
          outcome.rc = none ∧
            outcome.call.result = session.verifiedResult imported call mapped)) := by
  refine ⟨fun _ _ valid => direct_run valid, fun _ _ valid => leaf_run valid, ?_, ?_⟩
  · intro pages count valid
    obtain ⟨trapped, suspends⟩ := middle_trap valid
    refine ⟨trapped, suspends, fun x2 => ?_⟩
    have keeps : KeepsEntry (resumed trapped x2) := ⟨suspends.x0, suspends.x1, suspends.sp⟩
    have others : ∀ n, 2 < n → (resumed trapped x2).x n = 0 := by
      intro n high
      exact (update_of_ne (by omega) _ _).trans (suspends.others n high)
    have argument : (resumed trapped x2).x 2 = x2 := by simp only [resumed, update_self]
    have here : At pages 4 (resumed trapped x2) :=
      ⟨suspends.space, (congrArg (· + 4) suspends.run.final_pc).trans (addressAt_add 4)⟩
    have resumes := middle_resume valid here keeps others
    rw [argument] at resumes
    exact resumes
  · intro session imported checks call mapped fuel verified committed enough
    exact verified.udRun committed enough checks call mapped

/-- Images of the four domains: `a + b - heap`, `nested + 5`, `a + 7` and the bare return. -/
def sampleImage : Domain → List (BitVec 32)
  | .direct => [ldrA, ldrB, ldrHeap, addB, subHeap, strResult, brkReturn]
  | .middle => [ldrA, nopWord, nopWord, brkNested, 0x91001442, strResult, brkReturn]
  | .leaf => [ldrA, 0x91001c42, strResult, brkReturn]
  | .query => [brkReturn]

/-- A committed session with those images. -/
def sampleSession : Session where
  profile := .micro
  codeMode := .remoteVerified
  nestedPath := .fused
  remoteService := 0
  socialNginxCount := 0
  remoteWords domain := (sampleImage domain).length
  initial _ := .fixed 0
  committed := true
  code entry index := (sampleImage entry.domain).getD index 0
  stack _ _ := 0
  args _ _ := 0

/-- A heap with 100 in its first double word. -/
def sampleImported : Imported where
  heap index := if index = 0 then 100 else 0
  write _ := 0

def sampleCall (procedure : Nat) : Call where
  a := 30
  b := 80
  result := 0
  esr := 0
  far := 0
  procedure := procedure
  transitions := 0
  reserved := 0

/-- The sample is verified. -/
theorem sampleSession_verified : sampleSession.Verified where
  micro := rfl
  mode := rfl
  initial _ := rfl
  image domain := by cases domain <;> decide

/-- The images of the sample are admitted, and a nested call through them adds 12. -/
theorem remote_code_sound_sample :
    (∃ trapped, Suspends (sampleSession.pages sampleImported (.base .middle)) trapped) ∧
    (∃ outcome, sampleSession.udRun 32 ⟨none, none⟩ sampleImported (sampleCall 1) false =
      some outcome ∧ outcome.session.committed = true ∧ outcome.rc = none ∧
        outcome.call.result = 10) ∧
    ∃ outcome, sampleSession.udRun 32 ⟨none, none⟩ sampleImported (sampleCall 2) false =
      some outcome ∧ outcome.session.committed = true ∧ outcome.rc = none ∧
        outcome.call.result = 42 := by
  obtain ⟨_, _, middle, calls⟩ := remote_code_sound
  obtain ⟨trapped, suspends, _⟩ :=
    middle (sampleSession.pages sampleImported (.base .middle)) 7 (by decide)
  have served (procedure : Nat) := calls sampleSession sampleImported ⟨none, none⟩
    (sampleCall procedure) false 32 sampleSession_verified rfl (Nat.le_refl _)
  obtain ⟨direct, directRan, directCommitted, directResult⟩ := served 1
  obtain ⟨nested, nestedRan, nestedCommitted, nestedResult⟩ := served 2
  have one := directResult (by decide) rfl rfl
  have two := nestedResult (by decide) rfl rfl
  refine ⟨⟨trapped, suspends⟩, ⟨direct, directRan, directCommitted, one.1, one.2.trans ?_⟩,
    nested, nestedRan, nestedCommitted, two.1, two.2.trans ?_⟩
  · decide
  · decide

end UbApplication.UbDomain
