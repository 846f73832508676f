import UbApplication.UbDomain.Mapped

/-!
# Isolation of the domains of a session

After a commit the tables of a domain lead to the pages of the contract and to nothing else, and
different domains have different tables, code pages and stack pages. This holds of the extra nginx
domains as well.
-/

namespace UbApplication.UbDomain

open Translation OpenSession

namespace OpenSession

/-- The session has the domain: extra ones are there with three nginx domains only. -/
def HasEntry (s : OpenSession) : Entry → Prop
  | .base _ => True
  | .extra _ => s.hasExtras = true

def tablePa (s : OpenSession) : Entry → Fin 4 → BitVec 64
  | .base d => s.contract.tablePa d
  | .extra e => (s.extra.domain e).tablePa

def codePa (s : OpenSession) : Entry → BitVec 64
  | .base d => s.contract.codePa d
  | .extra e => (s.extra.domain e).codePa

def stackPa (s : OpenSession) : Entry → BitVec 64
  | .base d => s.contract.stackPa d
  | .extra e => (s.extra.domain e).stackPa

/-- What a domain is to see at a page number. -/
def entryMapping (s : OpenSession) (entry : Entry) (page : Nat) : Option Mapping :=
  let kernel := s.contract.wbIndex
  let peer := s.contract.ncIndex
  if page = codePage then some (domainMapping (s.codePa entry) kernel true false)
  else if page = stackPage then some (domainMapping (s.stackPa entry) kernel false true)
  else if page = dataPage then some (domainMapping s.contract.heapPa peer true true)
  else if page = argsPage then
    some (domainMapping (s.contract.argsPa entry.domain) kernel false true)
  else if page = writePage ∧ s.contract.writePa ≠ 0 ∧ entry = .base .middle then
    some (domainMapping s.contract.writePa peer false true)
  else none

end OpenSession

/-- The domains of a session see their own pages and nothing else. -/
structure Isolated (s : OpenSession) (tables : Tables) : Prop where
  walks : ∀ entry, s.HasEntry entry → ∀ address, address < 0x1000000000000 →
    walk tables (s.tablePa entry 0) address = s.entryMapping entry (address / 4096)
  tables : ∀ one other, s.HasEntry one → s.HasEntry other → one ≠ other →
    ∀ level level', s.tablePa one level ≠ s.tablePa other level'
  code : ∀ one other, s.HasEntry one → s.HasEntry other → one ≠ other →
    s.codePa one ≠ s.codePa other
  stack : ∀ one other, s.HasEntry one → s.HasEntry other → one ≠ other →
    s.stackPa one ≠ s.stackPa other

section Isolation

variable {seen : Import} {pa : Nat → BitVec 64} {tables : Tables} {start s : OpenSession}

/-- Different pages of the region have different addresses. -/
def PagesApart (pa : Nat → BitVec 64) : Prop :=
  ∀ one other, one % udPage = 0 → other % udPage = 0 → one < udBytes → other < udBytes →
    pa one = pa other → one = other

/-- The tables of a session are as an ioctl has found them. -/
def TablesStay (seen : Import) (s : OpenSession) (tables : Tables) : Prop :=
  ∀ entry level i, s.HasEntry entry →
    tables (s.tablePa entry level) i = seen.memory (s.tablePa entry level) i

/-- Equal tables. -/
theorem sameTable_apply {expected actual : Nat → BitVec 64}
    (same : sameTable expected actual = true)
    {i : Nat} (inside : i < 512) : actual i = expected i := by
  have every := List.all_eq_true.mp same i (List.mem_range.mpr inside)
  exact (beq_iff_eq.mp every).symm

/-- Where a table is. -/
theorem tablePlace_page (ready : Ready s) (d : Domain) (level : Fin 4) :
    s.tablePlace d level % udPage = 0 ∧ s.tablePlace d level < udBytes := by
  have number := d.number_lt
  have bound := level.isLt
  simp only [tablePlace, udPage, udBytes]
  split
  case isTrue multi =>
    have slot := ready.slot multi
    simp only [udPoolTable, udClients] at slot ⊢
    omega
  case isFalse =>
    simp only [udTable]
    omega

/-- Tables of domains are apart. -/
theorem tablePlace_apart {d d' : Domain} (different : d ≠ d') (level level' : Fin 4) :
    s.tablePlace d level ≠ s.tablePlace d' level' := by
  have numbers : d.number ≠ d'.number := by cases d <;> cases d' <;> first | decide | contradiction
  have bound := level.isLt
  have bound' := level'.isLt
  simp only [tablePlace]
  split
  case isTrue => simp only [udPoolTable]; omega
  case isFalse => simp only [udTable]; omega

/-- What an extra domain is checked for. -/
theorem ExtraAdmitted.apart {e : Fin 4} (admitted : ExtraAdmitted seen e s) :
    s.contract.writePa = 0 ∧ contractValid (adaptedContract s.contract s.extra e) = true ∧
      ∀ j, extraApart s.contract s.extra j = true := by
  have contract := admitted.contract
  rw [socialExtraContract] at contract
  split at contract
  case isTrue => contradiction
  case isFalse checks =>
    simp only [not_or, not_not] at checks
    split at contract
    case isTrue valid => exact ⟨checks.1, valid, checks.2.2.2.2.2⟩
    case isFalse => contradiction

/-- It is apart from the base ones. -/
theorem extraApart_base {base : Contract} {extra : SocialExtra} {e : Fin 4}
    (apart : extraApart base extra e = true) (d : Domain) :
    (extra.domain e).codePa ≠ base.codePa d ∧ (extra.domain e).stackPa ≠ base.stackPa d ∧
      ∀ level level', (extra.domain e).tablePa level ≠ base.tablePa d level' := by
  simp only [extraApart, Bool.and_eq_true, decide_eq_true_eq] at apart
  have pages := (apart.1.1.2 d).1
  exact ⟨pages.1, pages.2.2.2.2.1, fun level level' => ((apart.2 level).2.1 d).2 level'⟩

/-- And from the other extra ones. -/
theorem extraApart_extra {base : Contract} {extra : SocialExtra} {e j : Fin 4}
    (apart : extraApart base extra e = true) (different : e ≠ j) :
    (extra.domain e).codePa ≠ (extra.domain j).codePa ∧
      (extra.domain e).stackPa ≠ (extra.domain j).stackPa ∧
      ∀ level level', (extra.domain e).tablePa level ≠ (extra.domain j).tablePa level' := by
  simp only [extraApart, Bool.and_eq_true, decide_eq_true_eq] at apart
  have pages := (apart.1.2 j).1 different
  exact ⟨pages.1, pages.2.2.2,
    fun level level' => (apart.2 level).2.2 j level' (.inl different.symm)⟩

section

variable (admitted : Admitted seen start s)
include admitted

/-- The walk of a base domain. -/
theorem Admitted.walk_base (ready : Ready s)
    (mapped : Mapped seen.pa s) (unchanged : TablesStay seen s tables) (d : Domain) {address : Nat}
    (canonical : address < 0x1000000000000) :
    walk tables (s.tablePa (.base d) 0) address = s.entryMapping (.base d) (address / 4096) := by
  have built (level : Fin 4) (i : Nat) (inside : i < 512) :
      tables (s.contract.tablePa d level) i = buildTable s.contract d level i := by
    have stays : tables (s.contract.tablePa d level) i =
      seen.memory (s.contract.tablePa d level) i :=
      unchanged (.base d) level i trivial
    rw [stays, mapped.tables d level]
    exact sameTable_apply ((admitted.domains d).tables level) inside
  have walked := buildTable_walk ready.valid built canonical
  have write : (Entry.base d = .base .middle) ↔ d = .middle := by simp
  simp only [tablePa, walked, contractMapping, entryMapping,
    codePa, stackPa, Entry.domain, write]

/-- The walk of an extra domain. -/
theorem Admitted.walk_extra (has : s.hasExtras = true)
    (mapped : Mapped seen.pa s) (unchanged : TablesStay seen s tables) (e : Fin 4) {address : Nat}
    (canonical : address < 0x1000000000000) :
    walk tables (s.tablePa (.extra e) 0) address = s.entryMapping (.extra e) (address / 4096) := by
  have extra := admitted.extras has e
  obtain ⟨none, valid, -⟩ := extra.apart
  generalize here : (Entry.extra e).domain = d
  have table (level : Fin 4) : (adaptedContract s.contract s.extra e).tablePa d level =
      (s.extra.domain e).tablePa level := by
    subst here
    simp only [adaptedContract, Function.update_self]
  have built (level : Fin 4) (i : Nat) (inside : i < 512) :
      tables ((adaptedContract s.contract s.extra e).tablePa d level) i =
        buildTable (adaptedContract s.contract s.extra e) d level i := by
    have stays : tables ((s.extra.domain e).tablePa level) i =
      seen.memory ((s.extra.domain e).tablePa level) i := unchanged (.extra e) level i has
    rw [table, stays, mapped.extras has e level]
    have same := extra.tables level
    rw [here] at same
    exact sameTable_apply same inside
  have walked := buildTable_walk valid built canonical
  rw [table] at walked
  have noWrite : (adaptedContract s.contract s.extra e).writePa = 0 := none
  subst here
  simp only [tablePa, walked, contractMapping, entryMapping,
    codePa, stackPa, noWrite, none, ne_eq, not_true_eq_false, false_and,
    and_false, if_false]
  simp only [adaptedContract, Function.update_self]

/-- The pages are apart. -/
theorem Admitted.apart (ready : Ready s) (mapped : Mapped seen.pa s)
    (apart : PagesApart seen.pa) {one other : Entry} (hasOne : s.HasEntry one)
    (hasOther : s.HasEntry other) (different : one ≠ other) :
    s.codePa one ≠ s.codePa other ∧ s.stackPa one ≠ s.stackPa other ∧
      ∀ level level', s.tablePa one level ≠ s.tablePa other level' := by
  cases one with
  | base d =>
    cases other with
    | base d' =>
      have domains : d ≠ d' := fun same => different (congrArg Entry.base same)
      refine ⟨fun same => domains (ready.code same), fun same => domains (ready.stack same), ?_⟩
      intro level level' same
      simp only [tablePa, mapped.tables] at same
      obtain ⟨page, inside⟩ := tablePlace_page ready d level
      obtain ⟨page', inside'⟩ := tablePlace_page ready d' level'
      exact tablePlace_apart domains level level' (apart _ _ page page' inside inside' same)
    | extra e =>
      obtain ⟨code, stack, tables⟩ := extraApart_base ((admitted.extras hasOther e).apart.2.2 e) d
      exact ⟨code.symm, stack.symm, fun level level' => (tables level' level).symm⟩
  | extra e =>
    have checked := (admitted.extras hasOne e).apart.2.2 e
    cases other with
    | base d => exact extraApart_base checked d
    | extra j => exact extraApart_extra checked fun same => different (congrArg Entry.extra same)

/-- The domains are isolated. -/
theorem Admitted.isolated (ready : Ready s)
    (mapped : Mapped seen.pa s) (apart : PagesApart seen.pa)
    (unchanged : TablesStay seen s tables) :
    Isolated s tables where
  walks entry has address canonical := by
    cases entry with
    | base d => exact admitted.walk_base ready mapped unchanged d canonical
    | extra e => exact admitted.walk_extra has mapped unchanged e canonical
  tables _ _ one other different := (admitted.apart ready mapped apart one other different).2.2
  code _ _ one other different := (admitted.apart ready mapped apart one other different).1
  stack _ _ one other different := (admitted.apart ready mapped apart one other different).2.1

end

/-- What a commit has admitted. -/
theorem udCommit_admitted {memory : Bool} (success : udCommit seen memory start = .ok () s) :
    Admitted seen start s := by
  have ends : Fallible.Ends (udCommit seen memory) (fun _ => Admitted seen start)
    (fun _ => Unfinished start) start := ends_udCommit
  rw [Fallible.Ends, success] at ends
  exact ends

/-- Where the check of the mapping passes, which every call makes, a commit that succeeds isolates
the domains. -/
theorem checked_isolates {labels : List Label} {memory : Bool} {ledger : Ledger} {banks : Banks}
    (apart : PagesApart seen.pa) (run : Machine.run step opened labels = some start)
    (success : udCommit seen memory start = .ok () s)
    (checked : mappingError seen ⟨s, ledger, banks⟩ = none)
    (unchanged : TablesStay seen s tables) : Isolated s tables := by
  have admitted := udCommit_admitted success
  have ready : Ready start := (run_lives run).resolve_left fun idle =>
    absurd (idle.prepared.symm.trans admitted.before.1) (by decide)
  exact admitted.isolated (ready.of_standing (standing_of_core admitted.core))
    (mappingError_mapped checked) apart unchanged

/-- In every run over a region that keeps its pages, a commit that succeeds isolates the domains of
the session, for as long as the tables of the peer stay as they are. -/
theorem commit_isolates {labels : List Label} {memory : Bool} (apart : PagesApart seen.pa)
    (region : ∀ label ∈ labels, label.env.seen.pa = seen.pa)
    (run : Machine.run OpenSession.step opened labels = some start)
    (success : udCommit seen memory start = .ok () s) (unchanged : TablesStay seen s tables) :
    Isolated s tables := by
  have admitted := udCommit_admitted success
  have ready : Ready start := (run_lives run).resolve_left fun idle =>
    absurd (idle.prepared.symm.trans admitted.before.1) (by decide)
  have mapped := run_mapped region run admitted.before.1
  have standing := standing_of_core admitted.core
  exact admitted.isolated (ready.of_standing standing) (mapped.of_standing standing) apart unchanged

end Isolation

/-! ## A session outside the pool -/

namespace Sample

/-- The pages of a region. -/
def pa (offset : Nat) : BitVec 64 := BitVec.ofNat 64 (0x10000000 + offset)

/-- The pages and ids that the kernel has to give. -/
def alloc : Resource → BitVec 64
  | .emptyRoot => 0x20000000
  | .token (.base d) => BitVec.ofNat 64 (d.number + 1)
  | .token (.extra e) => BitVec.ofNat 64 (e.val + 5)
  | .asid (.base d) => BitVec.ofNat 64 (d.number + 1)
  | .asid (.extra e) => BitVec.ofNat 64 (e.val + 5)
  | .code (.base d) => BitVec.ofNat 64 (0x20001000 + 0x1000 * d.number)
  | .code (.extra e) => BitVec.ofNat 64 (0x20005000 + 0x1000 * e.val)
  | .stack (.base d) => BitVec.ofNat 64 (0x20009000 + 0x1000 * d.number)
  | .stack (.extra e) => BitVec.ofNat 64 (0x2000d000 + 0x1000 * e.val)
  | .args d => BitVec.ofNat 64 (0x20011000 + 0x1000 * d.number)

/-- A platform with memory attributes for both kinds of pages. -/
def platform : Platform where
  supported := none
  mair := 0x44ff
  mtNormal := 0
  mtNormalNc := 1
  random := 6
  taskSize := 0x1000000000000
  allowRemoteCode := false
  alloc r := some (alloc r)

def contract : Contract where
  magic := udMagic
  nonce := 7
  abi := udAbi
  wbIndex := 0
  ncIndex := 1
  reserved := 0
  tablePa d level := pa (udTable d level)
  heapPa := pa udHeap
  codePa d := alloc (.code (.base d))
  stackPa d := alloc (.stack (.base d))
  argsPa d := alloc (.args d)
  writePa := 0

/-- The tables that the peer builds. -/
def memory (page : BitVec 64) (i : Nat) : BitVec 64 :=
  match domains.find? fun d => (List.finRange 4).any fun level => pa (udTable d level) == page with
  | none => 0
  | some d =>
    match (List.finRange 4).find? fun level => pa (udTable d level) == page with
    | none => 0
    | some level => buildTable contract d level i

/-- The heap: a factor and a ring of records. -/
def heap (word : Nat) : BitVec 32 :=
  if word = 0 then 100
  else if word % 2 = 1 ∨ word < 16 then 0
  else
    let record := (word / 2 - 8) / 8
    match (word / 2) % 8 with
    | 0 => BitVec.ofNat 32 record
    | 1 => BitVec.ofNat 32 ((record + 1) % 32)
    | 2 => BitVec.ofNat 32 (1000 + record)
    | _ => 0

def seen : Import where
  fault _ := false
  header := ⟨0, 0, 0, 0, 0, 0⟩
  profileHeader := ⟨0, 0, 0⟩
  publication := ⟨contract, 7, 7⟩
  slot _ := ⟨⟨blankContract, 0, 0⟩, 0, 0⟩
  manifest := ⟨0, 0, 0, fun _ => 0, 0⟩
  context d := expectedContext .micro d
  image d i := (profileService .micro d).getD i 0
  extra _ := ⟨0, 0, 0, fun _ => ⟨fun _ => 0, 0, 0⟩⟩
  heap := heap
  vma _ := .ok 3
  pte _ := none
  writable _ := true
  pa := pa
  memory := memory

def label (request : Request) : Label where
  env := ⟨platform, seen, fun _ => 0, 200, 0, 0, 0⟩
  request := request
  ledger := ⟨fun _ => ∅, fun _ => 0⟩
  banks _ := ⟨0, 0, 0, 0⟩
  touched _ page := page

def prepared : OpenSession :=
  (Machine.run OpenSession.step opened [label (.prepare (some 0x400000) true)]).getD opened

def committed : OpenSession := Fallible.endState (udCommit seen true) prepared

/-- The pages of the sample are apart. -/
theorem pagesApart : PagesApart pa := by
  intro one other _ _ inside inside' same
  simp only [pa, udBytes] at same inside inside'
  have values := congrArg BitVec.toNat same
  simp only [BitVec.toNat_ofNat] at values
  omega

/-- The sample is prepared. -/
theorem prepared_run :
    Machine.run step opened [label (.prepare (some 0x400000) true)] = some prepared :=
  Machine.some_getD (by decide +kernel) _

/-- The sample is committed. -/
theorem committed_run : udCommit seen true prepared = .ok () committed :=
  Fallible.eq_ok_of_succeeds (by decide +kernel)

/-- The domains of that session are isolated. -/
theorem commit_isolates_sample : Isolated committed memory :=
  commit_isolates pagesApart (by simp [label, seen]) prepared_run committed_run fun _ _ _ _ => rfl

/-- The sample is isolated. -/
theorem checked_isolates_sample : Isolated committed memory :=
  checked_isolates pagesApart prepared_run committed_run
    (show mappingError seen ⟨committed, ⟨fun _ => ∅, fun _ => 0⟩, fun _ => ⟨0, 0, 0, 0⟩⟩ = none by
      decide +kernel) fun _ _ _ _ => rfl

end Sample

end UbApplication.UbDomain
