import Mathlib.Data.Fintype.Pi
import UbApplication.Lib.Translation
import UbApplication.UbDomain.Session

/-!
# The contract of a session and its page tables

The contract names the physical pages of a session: the tables and the heap of the peer, and the
code, stack and argument pages of the kernel. `ub_domain_layout.h` says which contracts are valid
and how the tables of a domain are built from one. The tables of a valid contract map exactly the
pages of the contract.
-/

namespace UbApplication.UbDomain

open Translation
open Function (update update_apply)

instance : Fintype Domain where
  elems := {.direct, .middle, .leaf, .query}
  complete domain := by cases domain <;> decide

def Domain.number : Domain → Nat
  | .direct => 0
  | .middle => 1
  | .leaf => 2
  | .query => 3

def udMagic : BitVec 64 := 0x5542444f4d303031

def udAbi : BitVec 32 := 2

def udVa : Nat := 0x100000000

/-- `struct ud_contract`. -/
@[ext] structure Contract where
  magic : BitVec 64
  nonce : BitVec 64
  abi : BitVec 32
  wbIndex : BitVec 32
  ncIndex : BitVec 32
  reserved : BitVec 32
  tablePa : Domain → Fin 4 → BitVec 64
  heapPa : BitVec 64
  codePa : Domain → BitVec 64
  stackPa : Domain → BitVec 64
  argsPa : Domain → BitVec 64
  writePa : BitVec 64

instance : DecidableEq Contract := fun _ _ => decidable_of_iff _ Contract.ext_iff.symm

/-- `ud_pa_valid`. -/
def paValid (pa : BitVec 64) : Bool := pa != 0 && pa &&& ~~~addressMask == 0

/-- `ud_contract_valid`. -/
def contractValid (c : Contract) : Bool :=
  c.magic == udMagic && c.abi == udAbi && c.nonce != 0 && c.reserved == 0 &&
  decide (c.wbIndex ≤ 7) && decide (c.ncIndex ≤ 7) && c.wbIndex != c.ncIndex && paValid c.heapPa &&
  (c.writePa == 0 || (paValid c.writePa && c.writePa != c.heapPa)) &&
  decide (∀ d,
    (paValid (c.codePa d) = true ∧ paValid (c.stackPa d) = true ∧ paValid (c.argsPa d) = true) ∧
    (∀ level, paValid (c.tablePa d level) = true ∧
      (c.writePa = 0 ∨ c.writePa ≠ c.tablePa d level)) ∧
    (c.writePa = 0 ∨
      (c.writePa ≠ c.codePa d ∧ c.writePa ≠ c.stackPa d ∧ c.writePa ≠ c.argsPa d)))

/-- The attributes of every page: valid, open to EL0, inner shareable, accessed, not global and
never executed by privileged code. -/
def pageFlags : BitVec 64 :=
  3 ||| (1 <<< 6) ||| (3 <<< 8) ||| (1 <<< 10) ||| (1 <<< 11) ||| (1 <<< 53)

/-- The attributes of a page with an index of memory attributes. -/
def indexedFlags (index : BitVec 32) : BitVec 64 := pageFlags ||| (index.setWidth 64 <<< 2)

/-- The bit that makes a page read-only. -/
def readOnlyFlag : BitVec 64 := 1 <<< 7

/-- `UD_UXN`. -/
def uxnFlag : BitVec 64 := 1 <<< 54

/-- `ud_build_table`. -/
def buildTable (c : Contract) (d : Domain) (level : Fin 4) : Nat → BitVec 64 :=
  let wb := indexedFlags c.wbIndex
  let nc := indexedFlags c.ncIndex
  let table : Nat → BitVec 64 := fun _ => 0
  if level < 3 then
    update table ((udVa >>> (39 - 9 * level.val)) &&& 511) (c.tablePa d (level + 1) ||| 3)
  else
    let table := update table 0 (c.codePa d ||| wb ||| readOnlyFlag)
    let table := update table 2 (c.stackPa d ||| wb ||| uxnFlag)
    let table := update table 4 (c.heapPa ||| nc ||| readOnlyFlag ||| uxnFlag)
    let table := update table 6 (c.argsPa d ||| wb ||| uxnFlag)
    if c.writePa ≠ 0 ∧ d = .middle then update table 8 (c.writePa ||| nc ||| uxnFlag)
    else table

/-- `struct ud_social_extra_domain`. -/
@[ext] structure ExtraDomain where
  tablePa : Fin 4 → BitVec 64
  codePa : BitVec 64
  stackPa : BitVec 64

instance : DecidableEq ExtraDomain := fun _ _ => decidable_of_iff _ ExtraDomain.ext_iff.symm

/-- `struct ud_social_extra`. -/
@[ext] structure SocialExtra where
  nonce : BitVec 64
  abi : BitVec 32
  domains : BitVec 32
  domain : Fin 4 → ExtraDomain

instance : DecidableEq SocialExtra := fun _ _ => decidable_of_iff _ SocialExtra.ext_iff.symm

/-- The checks of `ud_social_extra_contract` for one extra domain: none of its pages is a page of
the contract or of another extra domain. -/
def extraApart (base : Contract) (extra : SocialExtra) (e : Fin 4) : Bool :=
  let x := extra.domain e
  paValid x.codePa && paValid x.stackPa && x.codePa != x.stackPa && x.codePa != base.heapPa &&
  x.stackPa != base.heapPa &&
  decide (∀ d, (x.codePa ≠ base.codePa d ∧ x.codePa ≠ base.stackPa d ∧ x.codePa ≠ base.argsPa d ∧
      x.stackPa ≠ base.codePa d ∧ x.stackPa ≠ base.stackPa d ∧ x.stackPa ≠ base.argsPa d) ∧
    ∀ level, x.codePa ≠ base.tablePa d level ∧ x.stackPa ≠ base.tablePa d level) &&
  decide (∀ j, (e ≠ j → x.codePa ≠ (extra.domain j).codePa ∧ x.codePa ≠ (extra.domain j).stackPa ∧
      x.stackPa ≠ (extra.domain j).codePa ∧ x.stackPa ≠ (extra.domain j).stackPa) ∧
    ∀ k, x.codePa ≠ (extra.domain j).tablePa k ∧ x.stackPa ≠ (extra.domain j).tablePa k) &&
  decide (∀ level, (paValid (x.tablePa level) = true ∧ x.tablePa level ≠ base.heapPa) ∧
    (∀ d, (x.tablePa level ≠ base.codePa d ∧ x.tablePa level ≠ base.stackPa d ∧
      x.tablePa level ≠ base.argsPa d) ∧ ∀ k, x.tablePa level ≠ base.tablePa d k) ∧
    ∀ j k, (j ≠ e ∨ k ≠ level) → x.tablePa level ≠ (extra.domain j).tablePa k)

/-- The contract with the pages of an extra domain in place of those of its domain. -/
def adaptedContract (base : Contract) (extra : SocialExtra) (index : Fin 4) : Contract :=
  let d := (Entry.extra index).domain
  { base with
    codePa := update base.codePa d (extra.domain index).codePa
    stackPa := update base.stackPa d (extra.domain index).stackPa
    tablePa := update base.tablePa d (extra.domain index).tablePa }

/-- `ud_social_extra_contract`. -/
def socialExtraContract (base : Contract) (extra : SocialExtra) (index : Fin 4) : Option Contract :=
  if base.writePa ≠ 0 ∨ extra.abi ≠ 1 ∨ extra.domains ≠ 4 ∨ extra.nonce ≠ base.nonce ∨
      contractValid base = false ∨ ¬ ∀ e, extraApart base extra e = true then none
  else if contractValid (adaptedContract base extra index) then
    some (adaptedContract base extra index)
  else none

/-! ## What the tables of a contract map -/

/-- A page of a domain: open to EL0 and never executed by privileged code. -/
def domainMapping (page : BitVec 64) (index : BitVec 32) (readOnly userNever : Bool) : Mapping where
  level := 3
  page := page
  memory := index.setWidth 64
  user := true
  readOnly := readOnly
  accessed := true
  userNever := userNever
  privilegedNever := true

/-- What a domain is to see at a page number: the pages of the contract and nothing else. -/
def contractMapping (c : Contract) (d : Domain) (page : Nat) : Option Mapping :=
  if page = codePage then some (domainMapping (c.codePa d) c.wbIndex true false)
  else if page = stackPage then some (domainMapping (c.stackPa d) c.wbIndex false true)
  else if page = dataPage then some (domainMapping c.heapPa c.ncIndex true true)
  else if page = argsPage then some (domainMapping (c.argsPa d) c.wbIndex false true)
  else if page = writePage ∧ c.writePa ≠ 0 ∧ d = .middle then
    some (domainMapping c.writePa c.ncIndex false true)
  else none

variable {index : BitVec 32}

section Walks

variable {c : Contract} {d : Domain}

/-- A valid address is one of a page. -/
theorem paValid_address {pa : BitVec 64} (valid : paValid pa = true) : PageAddress pa := by
  simp only [paValid, Bool.and_eq_true, beq_iff_eq] at valid
  exact valid.2

/-- The addresses of a valid contract. -/
theorem contractValid_pages (valid : contractValid c = true) :
    (c.wbIndex ≤ 7 ∧ c.ncIndex ≤ 7) ∧ PageAddress c.heapPa ∧
      (c.writePa ≠ 0 → PageAddress c.writePa) ∧ ∀ d, PageAddress (c.codePa d) ∧
        PageAddress (c.stackPa d) ∧ PageAddress (c.argsPa d) ∧
        ∀ level, PageAddress (c.tablePa d level) := by
  simp only [contractValid, Bool.and_eq_true, Bool.or_eq_true, decide_eq_true_eq] at valid
  obtain ⟨⟨⟨⟨⟨⟨_, wb⟩, nc⟩, _⟩, heap⟩, write⟩, rest⟩ := valid
  refine ⟨⟨wb, nc⟩, paValid_address heap, fun some => ?_, fun d => ?_⟩
  · rcases write with none | ⟨aligned, _⟩
    · exact absurd (beq_iff_eq.mp none) some
    · exact paValid_address aligned
  · obtain ⟨⟨code, stack, args⟩, tables, _⟩ := rest d
    exact ⟨paValid_address code, paValid_address stack, paValid_address args,
      fun level => paValid_address (tables level).1⟩

/-- There are eight indices. -/
theorem index_cases (small : index ≤ 7) :
    ∃ n : Fin 8, index = BitVec.ofNat 32 n := by
  have bound : index.toNat ≤ 7 := small
  refine ⟨⟨index.toNat, by omega⟩, ?_⟩
  simp

/-- The attributes of a page that is read-only or never executed by EL0. -/
def attributes (index : BitVec 32) (readOnly userNever : Bool) : BitVec 64 :=
  indexedFlags index ||| (if readOnly then readOnlyFlag else 0) |||
    (if userNever then uxnFlag else 0)

/-- What attributes allow. -/
theorem attributes_mapping (small : index ≤ 7) (readOnly userNever : Bool) (page : BitVec 64) :
    { mappingOf 3 (attributes index readOnly userNever) .nothing with page := page } =
      domainMapping page index readOnly userNever := by
  obtain ⟨n, rfl⟩ := index_cases small
  have fields : ∀ (n : Fin 8) (readOnly userNever : Bool),
      { mappingOf 3 (attributes (BitVec.ofNat 32 n) readOnly userNever) .nothing with page := 0 } =
        domainMapping 0 (BitVec.ofNat 32 n) readOnly userNever := by decide
  exact congrArg (fun mapping : Mapping => { mapping with page := page })
    (fields n readOnly userNever)

/-- Attributes are no address. -/
theorem attributes_kind (small : index ≤ 7) (readOnly userNever : Bool) :
    attributes index readOnly userNever &&& addressMask = 0 ∧
      attributes index readOnly userNever &&& 3 = 3 := by
  obtain ⟨n, rfl⟩ := index_cases small
  have every : ∀ (n : Fin 8) (readOnly userNever : Bool),
      attributes (BitVec.ofNat 32 n) readOnly userNever &&& addressMask = 0 ∧
        attributes (BitVec.ofNat 32 n) readOnly userNever &&& 3 = 3 := by decide
  exact every n readOnly userNever

/-- The last table. -/
theorem buildTable_last (i : Nat) :
    buildTable c d 3 i =
      if i = 0 then c.codePa d ||| attributes c.wbIndex true false
      else if i = 2 then c.stackPa d ||| attributes c.wbIndex false true
      else if i = 4 then c.heapPa ||| attributes c.ncIndex true true
      else if i = 6 then c.argsPa d ||| attributes c.wbIndex false true
      else if i = 8 ∧ c.writePa ≠ 0 ∧ d = .middle then
        c.writePa ||| attributes c.ncIndex false true
      else 0 := by
  have last : ¬ (3 : Fin 4) < 3 := by decide
  simp only [buildTable, last, if_false, attributes, BitVec.or_assoc]
  by_cases write : c.writePa ≠ 0 ∧ d = .middle
  · rw [if_pos write]
    simp only [and_iff_left write, update_apply]
    by_cases code : i = 0
    · simp [code]
    by_cases stack : i = 2
    · simp [stack]
    by_cases heap : i = 4
    · simp [heap]
    by_cases args : i = 6
    · simp [args]
    simp [code, stack, heap, args]
  · rw [if_neg write]
    have never : ¬ (i = 8 ∧ c.writePa ≠ 0 ∧ d = .middle) := fun both => write both.2
    simp only [if_neg never, update_apply]
    by_cases code : i = 0
    · simp [code]
    by_cases stack : i = 2
    · simp [stack]
    by_cases heap : i = 4
    · simp [heap]
    simp [code, stack, heap]

/-- A walk from the last table. -/
theorem buildTable_walk_last (valid : contractValid c = true) {tables : Tables} {address : Nat}
    (built : tables (c.tablePa d 3) (indexAt 3 address) = buildTable c d 3 (indexAt 3 address))
    (region : address / 0x200000 = 0x800) :
    walkFrom tables address 0 (c.tablePa d 3) .nothing = contractMapping c d (address / 4096) := by
  obtain ⟨⟨wb, nc⟩, heap, write, pages⟩ := contractValid_pages valid
  obtain ⟨code, stack, args, -⟩ := pages d
  have three : indexAt 3 address = (address >>> 12) % 512 := indexAt_eq 3 address
  have place : address / 4096 = 0x100000 + indexAt 3 address := by omega
  have page {pa : BitVec 64} {index : BitVec 32} {readOnly userNever : Bool}
      (aligned : PageAddress pa) (small : index ≤ 7)
      (found : tables (c.tablePa d 3) (indexAt 3 address) =
        pa ||| attributes index readOnly userNever) :
      walkFrom tables address 0 (c.tablePa d 3) .nothing =
        some (domainMapping pa index readOnly userNever) := by
    rw [walkFrom_page aligned found (attributes_kind small _ _).1 (attributes_kind small _ _).2,
      attributes_mapping small]
  have unmapped : tables (c.tablePa d 3) (indexAt 3 address) = 0 →
      walkFrom tables address 0 (c.tablePa d 3) .nothing = none :=
        fun empty => by simp [walkFrom, empty]
  rw [buildTable_last] at built
  simp only [contractMapping, place, codePage, stackPage, dataPage, argsPage, writePage]
  generalize indexAt 3 address = slot at built page unmapped ⊢
  by_cases atCode : slot = 0
  · subst atCode
    exact page code wb built
  by_cases atStack : slot = 2
  · subst atStack
    exact page stack wb built
  by_cases atHeap : slot = 4
  · subst atHeap
    exact page heap nc built
  by_cases atArgs : slot = 6
  · subst atArgs
    exact page args wb built
  simp only [atCode, atStack, atHeap, atArgs, if_false] at built
  by_cases atWrite : slot = 8 ∧ c.writePa ≠ 0 ∧ d = .middle
  · rw [if_pos atWrite] at built
    rw [page (write atWrite.2.1) nc built]
    simp only [atWrite.1]
    rw [if_neg (by decide), if_neg (by decide), if_neg (by decide), if_neg (by decide),
      if_pos ⟨trivial, atWrite.2⟩]
  · rw [if_neg atWrite] at built
    rw [unmapped built, if_neg (by omega), if_neg (by omega), if_neg (by omega),
      if_neg (by omega), if_neg]
    exact fun both => atWrite ⟨by omega, both.2⟩

/-- The tables of a domain of a valid contract map the pages of the contract, each with its
rights, and nothing else. -/
theorem buildTable_walk (valid : contractValid c = true) {tables : Tables}
    (built : ∀ level i, i < 512 → tables (c.tablePa d level) i = buildTable c d level i)
    {address : Nat} (canonical : address < 0x1000000000000) :
    walk tables (c.tablePa d 0) address = contractMapping c d (address / 4096) := by
  obtain ⟨-, -, -, aligned⟩ := (contractValid_pages valid).2.2.2 d
  have step (level : Fin 4) (below : Nat) (upper : level < 3) (depth : 2 - below = level.val) :
      walkFrom tables address (below + 1) (c.tablePa d level) .nothing =
        if indexAt level address = (udVa >>> (39 - 9 * level.val)) &&& 511 then
          walkFrom tables address below (c.tablePa d (level + 1)) .nothing
        else none := by
    have found := built level (indexAt level address) (indexAt_lt _ _)
    -- a table above the last one has one descriptor, on the way to `UD_VA`
    simp only [buildTable, upper, if_true, update_apply] at found
    rw [← depth] at found ⊢
    split
    case isTrue here => exact walkFrom_table (aligned _) (by rw [found, if_pos here])
    case isFalse here => simp [walkFrom, found, here]
  have zero : indexAt 0 address = (address >>> 39) % 512 := indexAt_eq 0 address
  have one : indexAt 1 address = (address >>> 30) % 512 := indexAt_eq 1 address
  have two : indexAt 2 address = (address >>> 21) % 512 := indexAt_eq 2 address
  have root : walk tables (c.tablePa d 0) address =
      if indexAt 0 address = 0 then
        if indexAt 1 address = 4 then
          if indexAt 2 address = 0 then walkFrom tables address 0 (c.tablePa d 3) .nothing else none
        else none
      else none := by
    have first := step 0 2 (by decide) rfl
    have second := step 1 1 (by decide) rfl
    have third := step 2 0 (by decide) rfl
    exact first.trans (if_congr Iff.rfl (second.trans (if_congr Iff.rfl third rfl)) rfl)
  rw [root, zero, one, two]
  by_cases region : address / 0x200000 = 0x800
  · rw [if_pos (by omega), if_pos (by omega), if_pos (by omega)]
    exact buildTable_walk_last valid (built 3 _ (indexAt_lt _ _)) region
  · have outside : contractMapping c d (address / 4096) = none := by
      have code : address / 4096 ≠ codePage := by rw [codePage]; omega
      have stack : address / 4096 ≠ stackPage := by rw [stackPage]; omega
      have data : address / 4096 ≠ dataPage := by rw [dataPage]; omega
      have args : address / 4096 ≠ argsPage := by rw [argsPage]; omega
      have write : address / 4096 ≠ writePage := by rw [writePage]; omega
      simp only [contractMapping, code, stack, data, args, write, if_false, false_and]
    rw [outside]
    by_cases first : (address >>> 39) % 512 = 0
    · by_cases second : (address >>> 30) % 512 = 4
      · rw [if_pos first, if_pos second, if_neg (by omega)]
      · rw [if_pos first, if_neg second]
    · rw [if_neg first]

end Walks

end UbApplication.UbDomain
