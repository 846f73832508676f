import Mathlib.Data.Finset.Card
import UbApplication.UbDomain.Ioctl
import UbApplication.UbDomain.Slots

/-!
# What a session holds

While a session is prepared, the ledger of the kernel is what it was before and what the session
holds by now. So `ud_free_pages` restores the ledger, whatever step of the preparation failed, and
everything that a prepared session holds is held once.
-/

namespace UbApplication.UbDomain

open Fallible List
open Function (update update_self update_of_ne update_eq_self)

/-- The number of places that refer to a file. -/
def references (places : Nat → Option Nat) (file : Nat) : Nat :=
  ((Finset.range importFiles).filter fun slot => places slot = some file).card

section References

variable {places : Nat → Option Nat} {slot file other : Nat}

/-- One reference more. -/
theorem references_taken (inside : slot < importFiles) (free : places slot = none) :
    references (update places slot (some file)) file = references places file + 1 := by
  have more : (Finset.range importFiles).filter
      (fun place => update places slot (some file) place = some file) =
      insert slot ((Finset.range importFiles).filter fun place => places place = some file) := by
    ext place
    by_cases here : place = slot
    · simp [here, inside]
    · simp [here]
  rw [references, more, Finset.card_insert_of_notMem (by simp [free]), references]

/-- One reference less. -/
theorem references_dropped (inside : slot < importFiles) (found : places slot = some file) :
    references (update places slot none) file + 1 = references places file := by
  have back : update (update places slot none) slot (some file) = places := by
    rw [Function.update_idem, ← found, update_eq_self]
  rw [← references_taken inside (update_self slot none places), back]

/-- The other files stay. -/
theorem references_other {next : Option Nat} (before : places slot ≠ some other)
    (after : next ≠ some other) :
    references (update places slot next) other = references places other := by
  have alike : (Finset.range importFiles).filter
      (fun place => update places slot next place = some other) =
      (Finset.range importFiles).filter fun place => places place = some other := by
    ext place
    by_cases here : place = slot
    · simp [here, before, after]
    · simp [here]
  rw [references, alike, references]

end References

/-- The ledger is what it was and what the session holds. -/
structure Owned (base : Ledger) (dev : Device) : Prop where
  live : ∀ kind value, value ∈ dev.ledger.live kind ↔
    value ∈ base.live kind ∨ ∃ r : Resource, r.kind = kind ∧ dev.s.held r = some value
  fresh : ∀ r value, dev.s.held r = some value → value ∉ base.live r.kind
  apart : ∀ r r' value, r.kind = r'.kind → dev.s.held r = some value →
    dev.s.held r' = some value → r = r'
  files : ∀ file, dev.ledger.files file = base.files file + references dev.s.importFile file
  places : ∀ slot, importFiles ≤ slot → dev.s.importFile slot = none

/-- A session that holds nothing. -/
structure Clean (s : OpenSession) : Prop where
  held : ∀ r, s.held r = none
  files : ∀ slot, s.importFile slot = none
  slot : s.poolReserved = false

variable {r : Resource}

section Ledger

variable {base : Ledger} {dev : Device}

/-- A clean session owns nothing. -/
theorem Clean.owned (clean : Clean dev.s) : Owned dev.ledger dev where
  live kind value := by simp [clean.held]
  fresh r value held := by simp [clean.held] at held
  apart r r' value _ held := by simp [clean.held] at held
  files file := by simp [references, clean.files]
  places slot _ := clean.files slot

section

variable (owned : Owned base dev)
include owned

/-- A resource is given. -/
theorem Owned.give {value : BitVec 64}
    (free : dev.s.held r = none) (unused : value ∉ dev.ledger.live r.kind) :
    Owned base (dev.give r value) := by
  have given {r' : Resource} {other : BitVec 64} : update dev.s.held r (some value) r' =
    some other ↔
      r' = r ∧ value = other ∨ dev.s.held r' = some other := by
    by_cases here : r' = r
    · simp [here, free]
    · simp [here]
  refine { owned with
    live := fun kind other => ?_
    fresh := fun r' other held => ?_
    apart := fun r₁ r₂ other alike first second => ?_ }
  · by_cases same : r.kind = kind
    · subst same
      simp only [Device.give, update_self, Finset.mem_insert, owned.live, given]
      constructor
      · rintro (rfl | old | ⟨r', alike, held⟩)
        · exact .inr ⟨r, rfl, .inl ⟨rfl, rfl⟩⟩
        · exact .inl old
        · exact .inr ⟨r', alike, .inr held⟩
      · rintro (old | ⟨r', alike, ⟨-, rfl⟩ | held⟩)
        · exact .inr (.inl old)
        · exact .inl rfl
        · exact .inr (.inr ⟨r', alike, held⟩)
    · simp only [Device.give, update_of_ne (Ne.symm same), owned.live]
      refine or_congr Iff.rfl (exists_congr fun r' => and_congr_right fun alike => ?_)
      have different : r' ≠ r := by
        rintro rfl
        exact same alike
      rw [update_of_ne different]
  · obtain ⟨rfl, rfl⟩ | held := given.mp held
    · exact fun old => unused ((owned.live _ _).mpr (.inl old))
    · exact owned.fresh r' other held
  · have new {r' : Resource} (kind : r'.kind = r.kind) (held : dev.s.held r' = some value) :
        False := unused ((owned.live _ _).mpr (.inr ⟨r', kind, held⟩))
    obtain ⟨rfl, rfl⟩ | one := given.mp first
    · obtain ⟨rfl, -⟩ | two := given.mp second
      · rfl
      · exact (new alike.symm two).elim
    · obtain ⟨rfl, rfl⟩ | two := given.mp second
      · exact (new alike one).elim
      · exact owned.apart r₁ r₂ other alike one two

/-- A resource is released. -/
theorem Owned.release (r : Resource) : Owned base (dev.release r) := by
  cases found : dev.s.held r with
  | none => simpa only [Device.release, found] using owned
  | some value =>
    have after : dev.release r =
        { dev with
          s := { dev.s with held := update dev.s.held r none }
          ledger := { dev.ledger with
            live := update dev.ledger.live r.kind
              ((dev.ledger.live r.kind).erase value) } } := by
      simp only [Device.release, found]
    rw [after]
    have kept {r' : Resource} {other : BitVec 64} : update dev.s.held r none r' = some other ↔
        r' ≠ r ∧ dev.s.held r' = some other := by
      by_cases here : r' = r
      · simp [here]
      · simp [here]
    refine { owned with
      live := fun kind other => ?_, fresh := fun r' other held => ?_, apart := ?_ }
    · by_cases same : r.kind = kind
      · subst same
        simp only [update_self, Finset.mem_erase, owned.live, kept]
        constructor
        · rintro ⟨different, old | ⟨r', alike, held⟩⟩
          · exact .inl old
          · refine .inr ⟨r', alike, ?_, held⟩
            rintro rfl
            exact different (Option.some.inj (held.symm.trans found))
        · rintro (old | ⟨r', alike, apart, held⟩)
          · exact ⟨fun here => owned.fresh r value found (here ▸ old), .inl old⟩
          · exact ⟨fun here => apart (owned.apart r' r other alike held (here ▸ found)),
              .inr ⟨r', alike, held⟩⟩
      · simp only [update_of_ne (Ne.symm same), owned.live, kept]
        refine or_congr Iff.rfl (exists_congr fun r' => and_congr_right fun alike => ?_)
        refine (and_iff_right ?_).symm
        rintro rfl
        exact same alike
    · exact owned.fresh r' other (kept.mp held).2
    · intro r₁ r₂ other alike first second
      exact owned.apart r₁ r₂ other alike (kept.mp first).2 (kept.mp second).2

/-- A file is taken. -/
theorem Owned.getFile {slot : Nat} (file : Nat)
    (inside : slot < importFiles) (free : dev.s.importFile slot = none) :
    Owned base (dev.getFile slot file) := by
  refine { owned with files := fun other => ?_, places := fun place outside => ?_ }
  · by_cases same : other = file
    · subst same
      simp only [Device.getFile, update_self, references_taken inside free, owned.files]
      omega
    · have before : dev.s.importFile slot ≠ some other := by simp [free]
      have after : some file ≠ some other := by simp [Ne.symm same]
      simp only [Device.getFile, update_of_ne same, references_other before after]
      exact owned.files other
  · have different : place ≠ slot := by omega
    simp only [Device.getFile, update_of_ne different, owned.places place outside]

/-- A file is put back. -/
theorem Owned.putFile {slot : Nat} (inside : slot < importFiles) :
    Owned base (dev.putFile slot) := by
  cases found : dev.s.importFile slot with
  | none => simpa only [Device.putFile, found] using owned
  | some file =>
    simp only [Device.putFile, found]
    refine { owned with files := fun other => ?_, places := fun place outside => ?_ }
    · by_cases same : other = file
      · subst same
        have one := references_dropped inside found
        have total := owned.files other
        simp only [update_self]
        omega
      · have before : dev.s.importFile slot ≠ some other := by simp [found, Ne.symm same]
        simp only [update_of_ne same, references_other before (by simp : none ≠ _)]
        exact owned.files other
    · have different : place ≠ slot := by omega
      simp only [update_of_ne different, owned.places place outside]

end

/-- What a release changes. -/
theorem release_s (dev : Device) (r : Resource) :
    (dev.release r).s = { dev.s with held := update dev.s.held r none } ∧
      (dev.release r).banks = dev.banks := by
  cases found : dev.s.held r with
  | none =>
    have same : update dev.s.held r none = dev.s.held := by
      rw [← found, update_eq_self]
    simp only [Device.release, found, same, and_self]
  | some value => simp only [Device.release, found, and_self]

/-- What putting back changes. -/
theorem putFile_s (dev : Device) (slot : Nat) :
    (dev.putFile slot).s =
        { dev.s with importFile := update dev.s.importFile slot none } ∧
      (dev.putFile slot).banks = dev.banks := by
  cases found : dev.s.importFile slot with
  | none =>
    have same : update dev.s.importFile slot none = dev.s.importFile := by
      rw [← found, update_eq_self]
    simp only [Device.putFile, found, same, and_self]
  | some value => simp only [Device.putFile, found, and_self]

/-- All are released. -/
theorem Owned.releaseAll (owned : Owned base dev) (list : List Resource) :
    Owned base (list.foldl Device.release dev) := by
  induction list generalizing dev with
  | nil => exact owned
  | cons r list ih => exact ih (owned.release r)

/-- All files are put back. -/
theorem Owned.putAll (owned : Owned base dev) {count : Nat} (inside : count ≤ importFiles) :
    Owned base ((List.range count).foldl Device.putFile dev) := by
  induction count with
  | zero => exact owned
  | succ count ih =>
    rw [range_succ, foldl_append]
    exact (ih (by omega)).putFile (by omega)

/-- What is held then. -/
theorem releaseAll_s (dev : Device) (list : List Resource) :
    (list.foldl Device.release dev).s =
        { dev.s with held := fun r => if r ∈ list then none else dev.s.held r } ∧
      (list.foldl Device.release dev).banks = dev.banks := by
  induction list generalizing dev with
  | nil => exact ⟨by simp, rfl⟩
  | cons r list ih =>
    obtain ⟨session, banks⟩ := ih (dev.release r)
    refine ⟨?_, banks.trans (release_s dev r).2⟩
    have same : (fun other => if other ∈ list then none else update dev.s.held r none other)
        = fun other => if other ∈ r :: list then none else dev.s.held other := by
      funext other
      by_cases here : other = r
      · simp [here]
      · simp [here]
    rw [foldl_cons, session, (release_s dev r).1]
    exact congrArg (fun held => { dev.s with held := held }) same

/-- What files are held then. -/
theorem putAll_s (dev : Device) (count : Nat) :
    ((List.range count).foldl Device.putFile dev).s =
        { dev.s with importFile := fun slot =>
            if slot < count then none else dev.s.importFile slot } ∧
      ((List.range count).foldl Device.putFile dev).banks = dev.banks := by
  induction count with
  | zero => exact ⟨by simp, rfl⟩
  | succ count ih =>
    rw [range_succ, foldl_append]
    refine ⟨?_, (putFile_s _ count).2.trans ih.2⟩
    have same : update (fun slot => if slot < count then none else dev.s.importFile slot)
        count none = fun slot => if slot < count + 1 then none else dev.s.importFile slot := by
      funext slot
      by_cases here : slot = count
      · simp [here]
      · have bound : slot < count + 1 ↔ slot < count := by omega
        simp [here, bound]
    rw [foldl_cons, foldl_nil, (putFile_s _ count).1, ih.1]
    exact congrArg (fun files => { dev.s with importFile := files }) same

/-- Every resource is freed. -/
theorem freeOrder_complete (r : Resource) : r ∈ freeOrder := by
  have entries (entry : Entry) : entry = .base .direct ∨ entry = .base .middle ∨
      entry = .base .leaf ∨ entry = .base .query ∨ ∃ e, entry = .extra e := by
    rcases entry with (_ | _ | _ | _) | e <;> simp
  cases r with
  | emptyRoot => decide
  | token entry | asid entry | code entry | stack entry =>
    rcases entries entry with rfl | rfl | rfl | rfl | ⟨e,
      rfl⟩ <;> first | decide | (revert e; decide)
  | args d => cases d <;> decide

/-- What `ud_free_pages` leaves of a session and of the banks. -/
theorem freePages_s (dev : Device) :
    (freePages dev).s = { dev.s with
        held := fun _ => none
        importFile := fun slot => if slot < importFiles then none else dev.s.importFile slot
        poolReserved := false } ∧
      (freePages dev).banks = if dev.s.poolReserved then
          slotsRelease dev.banks dev.s.poolBank dev.s.poolSlot dev.s.poolExposed dev.s.poolReusable
        else dev.banks := by
  have first := releaseAll_s dev freeOrder
  have second := putAll_s (freeOrder.foldl Device.release dev) importFiles
  simp only [freeOrder_complete, if_true] at first
  rw [first.1, first.2] at second
  rw [freePages]
  generalize (List.range importFiles).foldl Device.putFile
    (freeOrder.foldl Device.release dev) = last at second
  obtain ⟨session, banks⟩ := second
  simp only [Device.releaseSlot, session, banks]
  cases reserved : dev.s.poolReserved with
  | false => exact ⟨session.trans (by rw [← reserved]), banks⟩
  | true => exact ⟨rfl, rfl⟩

/-- `ud_free_pages` gives everything back. -/
theorem freePages_spec (owned : Owned base dev) :
    (freePages dev).ledger = base ∧
      (freePages dev).s = { dev.s with
        held := fun _ => none
        importFile := fun _ => none
        poolReserved := false } ∧
      (freePages dev).banks = if dev.s.poolReserved then
          slotsRelease dev.banks dev.s.poolBank dev.s.poolSlot dev.s.poolExposed dev.s.poolReusable
        else dev.banks := by
  obtain ⟨session, banks⟩ := freePages_s dev
  have last := (owned.releaseAll freeOrder).putAll (Nat.le_refl importFiles)
  have freed : Owned base (freePages dev) := by
    rw [freePages]
    generalize (List.range importFiles).foldl Device.putFile _ = device at last ⊢
    rw [Device.releaseSlot]
    split
    case isTrue => exact { last with }
    case isFalse => exact last
  have unreferenced : (fun slot => if slot < importFiles then none else dev.s.importFile slot) =
      fun _ => none := by
    funext slot
    by_cases inside : slot < importFiles
    · rw [if_pos inside]
    · rw [if_neg inside, owned.places slot (by omega)]
  rw [unreferenced] at session
  refine ⟨Ledger.ext (funext fun kind => ?_) (funext fun file => ?_), session, banks⟩
  · ext value
    rw [freed.live]
    simp [session]
  · rw [freed.files, session]
    simp [references]

end Ledger

/-! ## The pages of the region -/

/-- Four domains. -/
theorem Domain.number_lt (d : Domain) : d.number < 4 := by
  cases d <;> decide

/-- A page that `ud_mapping` looks up. -/
inductive RegionPage where
  | table (d : Domain) (level : Fin 4)
  | heap
  | write
  | extraTable (e level : Fin 4)

namespace RegionPage

/-- The place of the file of a page. -/
def slot : RegionPage → Nat
  | .table d level => d.number * 4 + level.val
  | .heap => 16
  | .write => 17
  | .extraTable e level => 18 + e.val * 4 + level.val

/-- Where the region has a page, if the session needs it. -/
def place (s : OpenSession) : RegionPage → Option Nat
  | .table d level => some (s.tablePlace d level)
  | .heap => some udHeap
  | .write => s.writePlace
  | .extraTable e level =>
    if s.hasExtras then some (udSocialExtraTable s.poolSlot e level) else none

/-- The address of a page on record. -/
def recorded : RegionPage → OpenSession → BitVec 64
  | .table d level => fun s => s.contract.tablePa d level
  | .heap => fun s => s.contract.heapPa
  | .write => fun s => s.contract.writePa
  | .extraTable e level => fun s => (s.extra.domain e).tablePa level

def record : RegionPage → BitVec 64 → OpenSession → OpenSession
  | .table d level => OpenSession.setTable d level
  | .heap => OpenSession.setHeap
  | .write => OpenSession.setWrite
  | .extraTable e level => OpenSession.setExtraTable e level

/-- A page has a file. -/
theorem slot_lt (page : RegionPage) : page.slot < importFiles := by
  cases page with
  | table d level =>
    have bound := d.number_lt
    simp only [slot, importFiles]
    omega
  | heap | write => decide
  | extraTable e level =>
    simp only [slot, importFiles]
    omega

/-- And a file of its own. -/
theorem slot_injective : Function.Injective slot := by
  intro page other same
  have numbered (d d' : Domain) : d = d' ↔ d.number = d'.number := by
    cases d <;> cases d' <;> decide
  cases page <;> cases other <;> simp only [slot, table.injEq, extraTable.injEq, reduceCtorEq,
    numbered, Fin.ext_iff] at same ⊢ <;> grind [Domain.number_lt]

/-- Recording an address changes the contract or the record of the extra domains only. -/
theorem record_eq (page : RegionPage) (pa : BitVec 64) (s : OpenSession) :
    ∃ contract extra, page.record pa s = { s with contract := contract, extra := extra } := by
  cases page <;> exact ⟨_, _, rfl⟩

/-- What was put on record. -/
theorem recorded_self (page : RegionPage) (pa : BitVec 64) (s : OpenSession) :
    page.recorded (page.record pa s) = pa := by
  cases page <;> simp [recorded, record, OpenSession.setTable, OpenSession.setExtraTable,
    OpenSession.setHeap, OpenSession.setWrite]

/-- The other records stay. -/
theorem recorded_other {page other : RegionPage} (different : other ≠ page) (pa : BitVec 64)
    (s : OpenSession) : other.recorded (page.record pa s) = other.recorded s := by
  cases page <;> cases other <;> first | rfl | contradiction | skip
  case table.table d level d' level' =>
    by_cases here : d' = d
    · subst here
      simp_all [recorded, record, OpenSession.setTable]
    · simp [recorded, record, OpenSession.setTable, here]
  case extraTable.extraTable e level e' level' =>
    by_cases here : e' = e
    · subst here
      simp_all [recorded, record, OpenSession.setExtraTable]
    · simp [recorded, record, OpenSession.setExtraTable, here]

end RegionPage

section Mapping

variable {seen : Import} {fresh : Bool} {dev : Device} {I : Nat → Device → Prop}
  {E : Errno → Device → Prop}

/-- The next of a range. -/
theorem finRange_next {count : Nat} {done rest : List (Fin count)} {next : Fin count}
    (whole : List.finRange count = done ++ next :: rest) : next.val = done.length := by
  have here : (List.finRange count)[done.length]? = some next := by simp [whole]
  obtain ⟨inside, found⟩ := List.getElem?_eq_some_iff.mp here
  rw [← found]
  simp

/-- The next domain. -/
theorem domains_next {done rest : List Domain} {next : Domain}
    (whole : domains = done ++ next :: rest) : next.number = done.length := by
  have here : domains[done.length]? = some next := by simp [whole]
  have numbered : ∀ i, i < 4 → ∀ d, domains[i]? = some d → d.number = i := by decide
  obtain ⟨inside, -⟩ := List.getElem?_eq_some_iff.mp here
  exact numbered _ inside next here

/-- A loop over the levels of a table, or over the extra domains. -/
theorem ends_finRange {f : Fin 4 → Ioctl Unit} (first : Nat)
    (step : ∀ (i : Fin 4) t, I (first + i.val) t → Ends (f i) (fun _ => I (first + i.val + 1)) E t)
    (start : I first dev) : Ends ((List.finRange 4).forM f) (fun _ => I (first + 4)) E dev := by
  refine ends_forM (fun done => I (first + done.length)) (fun done i rest t whole here => ?_) start
  rw [← finRange_next whole] at here
  rw [length_append, length_singleton, ← finRange_next whole]
  exact step i t here

/-- `ud_mapping` looks up the pages in the order of their files. -/
theorem ends_udMapping {s : OpenSession}
    (places : ∀ count t, I count t → ∀ page : RegionPage, page.place t.s = page.place s)
    (lookup : ∀ (page : RegionPage) offset t, page.place s = some offset → I page.slot t →
      Ends (mapPage seen fresh offset page.slot page.recorded page.record)
        (fun _ => I (page.slot + 1)) E t)
    (skip : ∀ count later t, I count t → count ≤ later → (∀ page : RegionPage, count ≤ page.slot →
      page.slot < later → page.place s = none) → I later t)
    (start : I 0 dev) : Ends (udMapping seen fresh) (fun _ => I importFiles) E dev := by
  rw [udMapping, ends_bind]
  have tables : Ends (domains.forM (mapTables seen fresh)) (fun _ => I 16) E dev := by
    refine ends_forM (fun done => I (done.length * 4)) (fun done d rest t whole here => ?_) start
    rw [← domains_next whole] at here
    rw [length_append, length_singleton, ← domains_next whole, Nat.add_one_mul, mapTables,
      ends_bind, ends_get]
    exact ends_finRange _ (fun level u now => lookup (.table d level) _ u
      (places _ t here (.table d level)).symm now) here
  refine tables.imp fun _ one here => ?_
  rw [ends_bind]
  refine (lookup .heap _ one rfl here).imp fun _ two here => ?_
  have place := places _ two here .write
  rw [ends_bind]
  have write : Ends (mapWrite seen fresh) (fun _ => I 18) E two := by
    rw [mapWrite, ends_bind, ends_get]
    cases found : two.s.writePlace with
    | none =>
      refine skip 17 18 two here (by decide) fun page after before => ?_
      have same : page = .write :=
        RegionPage.slot_injective (Nat.le_antisymm (Nat.le_of_lt_succ before) after)
      rw [same, ← place]
      exact found
    | some offset => exact lookup .write offset two (place.symm.trans found) here
  refine write.imp fun _ three here => ?_
  have place := places _ three here
  rw [mapExtras, ends_bind, ends_get, ends_ite]
  refine ⟨fun has => ?_, fun none => ?_⟩
  · refine ends_finRange (I := fun count => I (18 + count * 4)) 0 (fun e t here => ?_) here
    rw [Nat.zero_add] at here ⊢
    rw [Nat.add_one_mul, ← Nat.add_assoc]
    exact ends_finRange _ (fun level u now => lookup (.extraTable e level) _ u
      ((place (.extraTable e level)).symm.trans (if_pos has)) now) here
  · refine skip 18 importFiles three here (by decide) fun page after _ => ?_
    rw [← place]
    cases page with
    | table d level =>
      have bound := d.number_lt
      simp only [RegionPage.slot] at after
      omega
    | heap | write => simp only [RegionPage.slot] at after; omega
    | extraTable e level => exact if_neg none

end Mapping

/-! ## Preparing keeps the accounts -/

def blankExtra : SocialExtra := ⟨0, 0, 0, fun _ => ⟨fun _ => 0, 0, 0⟩⟩

/-- What preparing does not change of a session. -/
def OpenSession.fixed (s : OpenSession) : OpenSession :=
  { s with
    session := { s.session with
      code := fun _ _ => 0
      stack := fun _ _ => 0
      args := fun _ _ => 0 }
    contract := blankContract
    extra := blankExtra
    held := fun _ => none
    importFile := fun _ => none
    poolReserved := false
    poolBank := 0
    poolSlot := 0
    importVa := 0 }

/-- A place of a session is filled or emptied. -/
def OpenSession.setHeld (s : OpenSession) (r : Resource) (found : Option (BitVec 64)) :
    OpenSession := { s with held := update s.held r found }

/-- What was set. -/
@[simp] theorem OpenSession.setHeld_self (s : OpenSession) (r : Resource)
    (found : Option (BitVec 64)) : (s.setHeld r found).held r = found := update_self _ _ _

/-- Anything else stays. -/
@[simp] theorem OpenSession.setHeld_of_ne (s : OpenSession) {r other : Resource}
    (found : Option (BitVec 64)) (different : other ≠ r) :
    (s.setHeld r found).held other = s.held other := update_of_ne different _ _

/-- The contract stays. -/
@[simp] theorem OpenSession.setHeld_contract (s : OpenSession) (r : Resource)
    (found : Option (BitVec 64)) : (s.setHeld r found).contract = s.contract := rfl

/-- A session is being prepared: everything it holds by now is accounted for, and the pages that
have been looked up are on record. -/
structure Acquiring (seen : Import) (start : Device) (reserved : Bool) (place : Nat)
    (dev : Device) :
    Prop where
  owned : Owned start.ledger dev
  holds : dev.s.poolReserved = reserved
  without : reserved = false → dev.banks = start.banks
  slot : reserved = true → slotsAcquire start.banks (seen.pa udHeap) dev.s.poolGeneration =
    .ok ((dev.s.poolBank, dev.s.poolSlot), dev.banks)
  fixed : dev.s.fixed = start.s.fixed
  pages : ∀ page : RegionPage, page.slot < place → ∀ offset, page.place dev.s = some offset →
    page.recorded dev.s = seen.pa offset

/-- The accounts of a preparation that has failed. -/
def Given (seen : Import) (start : Device) (_ : Errno) (dev : Device) : Prop :=
  ∃ reserved place, Acquiring seen start reserved place dev

section Acquiring

variable {start dev : Device} {reserved : Bool} {place : Nat} {platform : Platform} {seen : Import}

/-- Where a page is. -/
theorem place_congr {s t : OpenSession} (fixed : t.fixed = s.fixed) (slot : t.poolSlot = s.poolSlot)
    (page : RegionPage) : page.place t = page.place s := by
  have each {α : Type} (field : OpenSession → α) : field t.fixed = field s.fixed :=
    congrArg field fixed
  have multi : t.multi = s.multi := each (·.multi)
  have profile : t.session.profile = s.session.profile := each (·.session.profile)
  have count : t.session.socialNginxCount = s.session.socialNginxCount :=
    each (·.session.socialNginxCount)
  have extras : t.hasExtras = s.hasExtras := by simp only [OpenSession.hasExtras, profile, count]
  cases page <;> simp only [RegionPage.place, OpenSession.tablePlace, OpenSession.writePlace,
    extras, multi, profile, slot]

variable {Q : Unit → Device → Prop} {E : Errno → Device → Prop}

/-- An allocation that may fail. -/
theorem Acquiring.tryAlloc (acquiring : Acquiring seen start reserved place dev)
    (free : dev.s.held r = none) (next : ∀ after found, after.s = dev.s.setHeld r found →
      Acquiring seen start reserved place after → Q () after) :
    Ends (tryAlloc platform r) Q E dev := by
  have nothing : dev.s = dev.s.setHeld r none := by
    rw [OpenSession.setHeld, ← free, update_eq_self]
  rw [UbDomain.tryAlloc, ends_modify]
  cases platform.alloc r with
  | none => exact next dev none nothing acquiring
  | some value =>
    by_cases used : value ∈ dev.ledger.live r.kind
    · simp only [used, if_true]
      exact next dev none nothing acquiring
    · simp only [used, if_false]
      exact next (dev.give r value) (some value) rfl
        { acquiring with
          owned := acquiring.owned.give free used
          pages := fun page => by cases page <;> exact acquiring.pages _ }

/-- An allocation that must not. -/
theorem Acquiring.alloc (acquiring : Acquiring seen start reserved place dev) {error : Errno}
    (free : dev.s.held r = none)
    (next : ∀ after value, after.s = dev.s.setHeld r (some value) →
      Acquiring seen start reserved place after → Q () after) :
    Ends (alloc platform r error) Q (Given seen start) dev := by
  rw [UbDomain.alloc, ends_bind]
  refine acquiring.tryAlloc free fun after found changed kept => ?_
  simp only [refuseMissing, ends_bind, ends_get, ends_refuse]
  refine ⟨fun _ => ⟨reserved, place, kept⟩, fun present => ?_⟩
  cases found with
  | none => exact absurd ⟨r, by simp, by simp [changed]⟩ present
  | some value => exact next after value changed kept

/-- The entry that a resource is for. -/
def Resource.owner : Resource → Option Entry
  | .emptyRoot => none
  | .token entry | .asid entry | .code entry | .stack entry => some entry
  | .args d => some (.base d)

section

variable (acquiring : Acquiring seen start reserved place dev)
include acquiring

/-- The resources that every entry has. -/
theorem Acquiring.allocEntry {entry : Entry}
    (free : ∀ r : Resource, r.owner = some entry → dev.s.held r = none) {rest : Ioctl Unit}
    (next : ∀ after, Acquiring seen start reserved place after → after.s.contract = dev.s.contract →
      (∀ r, (r.owner = some entry → ∃ d, r = .args d) → after.s.held r = dev.s.held r) →
        Ends rest Q (Given seen start) after) :
    Ends (do
      UbDomain.alloc platform (.token entry) .enomem
      UbDomain.alloc platform (.asid entry) .enospc
      UbDomain.tryAlloc platform (.code entry)
      UbDomain.tryAlloc platform (.stack entry)
      rest) Q (Given seen start) dev := by
  rw [ends_bind]
  refine acquiring.alloc (free _ rfl) fun one token changed₁ kept₁ => ?_
  rw [ends_bind]
  refine kept₁.alloc (by simpa [changed₁] using free _ rfl) fun two asid changed₂ kept₂ => ?_
  rw [ends_bind]
  refine kept₂.tryAlloc (by simpa [changed₁, changed₂] using free _ rfl)
    fun three code changed₃ kept₃ => ?_
  rw [ends_bind]
  refine kept₃.tryAlloc (by simpa [changed₁, changed₂, changed₃] using free _ rfl)
    fun four stack changed₄ kept₄ => ?_
  refine next four kept₄ (by simp [changed₁, changed₂, changed₃, changed₄]) fun r outside => ?_
  have apart : ∀ r' ∈ [.token entry, .asid entry, .code entry, .stack entry], r ≠ r' := by
    rintro r' listed rfl
    simp only [mem_cons, not_mem_nil, or_false] at listed
    rcases listed with rfl | rfl | rfl | rfl <;> simp [Resource.owner] at outside
  simp [changed₁, changed₂, changed₃, changed₄, apart]

/-- The pages of a domain. -/
theorem Acquiring.prepareDomain {d : Domain}
    (free : ∀ r : Resource, r.owner = some (.base d) → dev.s.held r = none)
    (next : ∀ after, Acquiring seen start reserved place after →
      (∀ r : Resource, r.owner ≠ some (.base d) → after.s.held r = dev.s.held r) →
      after.s.held (.code (.base d)) = some (after.s.contract.codePa
      d) → after.s.held (.stack (.base d)) = some (after.s.contract.stackPa d) → (∀ d', d' ≠ d →
      after.s.contract.codePa d' = dev.s.contract.codePa d' ∧ after.s.contract.stackPa d' =
      dev.s.contract.stackPa d') → Q () after) :
    Ends (prepareDomain platform d) Q (Given seen start) dev := by
  refine acquiring.allocEntry free fun four kept₄ contract₄ others₄ => ?_
  rw [ends_bind]
  have freeArgs : four.s.held (.args d) = none := by
    rw [others₄ _ fun _ => ⟨d, rfl⟩, free _ rfl]
  refine kept₄.tryAlloc freeArgs fun five args changed kept => ?_
  simp only [refuseMissing, ends_bind, ends_get, ends_refuse, ends_modify]
  refine ⟨fun _ => ⟨reserved, place, kept⟩, fun present => ?_⟩
  have contract : five.s.contract = dev.s.contract := by simp [changed, contract₄]
  have others (r : Resource) (other : r.owner ≠ some (.base d)) :
      five.s.held r = dev.s.held r := by
    have different : r ≠ .args d := by
      rintro rfl
      exact other rfl
    rw [changed, OpenSession.setHeld_of_ne _ _ different]
    exact others₄ r fun mine => absurd mine other
  have codePresent : five.s.held (.code (.base d)) ≠ none := fun missing =>
    present ⟨_, by simp, missing⟩
  have stackPresent : five.s.held (.stack (.base d)) ≠ none := fun missing =>
    present ⟨_, by simp, missing⟩
  refine next _ { kept with
    owned := { kept.owned with }
    pages := fun page => by cases page <;> exact kept.pages _ } others ?_ ?_ fun d' different => ?_
  · simp only [Device.withSession, OpenSession.enlist, OpenSession.pageOf, update_self]
    obtain ⟨value, found⟩ := Option.ne_none_iff_exists'.mp codePresent
    rw [found]
    rfl
  · simp only [Device.withSession, OpenSession.enlist, OpenSession.pageOf, update_self]
    obtain ⟨value, found⟩ := Option.ne_none_iff_exists'.mp stackPresent
    rw [found]
    rfl
  · simp only [Device.withSession, OpenSession.enlist, update_of_ne different, contract,
      and_self]

/-- The pages of an extra domain. -/
theorem Acquiring.prepareExtra {e : Fin 4}
    (free : ∀ r : Resource, r.owner = some (.extra e) → dev.s.held r = none)
    (next : ∀ after, Acquiring seen start reserved place after →
      (∀ r : Resource, r.owner ≠ some (.extra e) → after.s.held r = dev.s.held r) →
        after.s.contract = dev.s.contract → Q () after) :
    Ends (prepareExtra platform e) Q (Given seen start) dev := by
  refine acquiring.allocEntry free fun four kept contract others => ?_
  simp only [refuseMissing, ends_bind, ends_get, ends_refuse, ends_modify]
  refine ⟨fun _ => ⟨reserved, place, kept⟩, fun present => ?_⟩
  refine next _ { kept with owned := { kept.owned with }, pages := fun page before offset here =>
    ?_ } (fun r other => others r fun mine => absurd mine other) contract
  cases page with
  | extraTable e' level =>
    refine Eq.trans ?_ (kept.pages _ before offset here)
    show (update four.s.extra.domain e _ e').tablePa level = _
    by_cases same : e' = e
    · subst same
      rw [update_self]
      rfl
    · rw [update_of_ne same]
      rfl
  | table d level | heap | write => exact kept.pages _ before offset here

end

/-- A page of the import. -/
theorem ends_importPa {offset slot : Nat} {Q : BitVec 64 → Device → Prop}
    (failed : ∀ error, E error dev) (next : ∀ file, Q (seen.pa offset) (dev.getFile slot file)) :
    Ends (importPa seen offset slot true) Q E dev := by
  simp only [importPa, ends_bind, ends_get, ends_attempt, ends_refuse, ends_refuseWith,
    ends_modify, ends_pure, if_true]
  exact ⟨fun error _ => failed error, fun file _ => ⟨fun _ => failed _, fun _ =>
    ⟨fun error _ => failed error, fun _ => ⟨fun _ => failed _, fun _ => ⟨fun _ => failed _, fun _ =>
      next file⟩⟩⟩⟩⟩

/-- The lookup of the region has come to a place: nothing but references is held. -/
structure Looking (seen : Import) (start : Device) (reserved : Bool) (place : Nat) (dev : Device) :
    Prop where
  acquiring : Acquiring seen start reserved place dev
  held : ∀ r, dev.s.held r = none
  files : ∀ slot, place ≤ slot → dev.s.importFile slot = none

/-- A page is looked up. -/
theorem Looking.lookup {page : RegionPage} {offset : Nat}
    (looking : Looking seen start reserved page.slot dev) (here : page.place dev.s = some offset) :
    Ends (mapPage seen true offset page.slot page.recorded page.record)
      (fun _ t => Looking seen start reserved (page.slot + 1) t ∧ t.s.poolSlot = dev.s.poolSlot)
      (Given seen start) dev := by
  rw [mapPage, ends_bind]
  refine ends_importPa (fun _ => ⟨reserved, _, looking.acquiring⟩) fun file => ?_
  simp only [ends_bind, ends_get, ends_refuse, ends_modify, if_true]
  refine ⟨fun wrong => absurd wrong.1 (by decide), fun _ => ?_⟩
  have acquiring := looking.acquiring
  have taken := acquiring.owned.getFile file page.slot_lt (looking.files _ (Nat.le_refl _))
  obtain ⟨contract, extra, same⟩ := page.record_eq (seen.pa offset) (dev.getFile page.slot file).s
  have found (other : RegionPage) (before : other.slot < page.slot + 1) (place : Nat)
      (there : other.place dev.s = some place) :
      other.recorded (page.record (seen.pa offset) (dev.getFile page.slot file).s) =
        seen.pa place := by
    by_cases now : other = page
    · subst now
      rw [RegionPage.recorded_self, Option.some.inj (here.symm.trans there)]
    · have earlier : other.slot ≠ page.slot := fun equal => now (RegionPage.slot_injective equal)
      rw [RegionPage.recorded_other now]
      refine Eq.trans ?_ (acquiring.pages other (by omega) place there)
      cases other <;> rfl
  simp only [Device.withSession]
  rw [same] at found ⊢
  refine ⟨⟨⟨{ taken with }, acquiring.holds, acquiring.without, acquiring.slot,
    acquiring.fixed, fun other before place there => found other before place ?_⟩, looking.held,
    fun slot after => ?_⟩, rfl⟩
  · rw [← there]
    cases other <;> rfl
  · have different : slot ≠ page.slot := by omega
    simp only [Device.getFile, update_of_ne different]
    exact looking.files slot (by omega)

/-- All pages are looked up. -/
theorem Looking.udMapping (looking : Looking seen start reserved 0 dev) :
    Ends (udMapping seen true) (fun _ => Looking seen start reserved importFiles) (Given seen start)
      dev := by
  have places {count : Nat} {t : Device} (now : Looking seen start reserved count t)
      (slot : t.s.poolSlot = dev.s.poolSlot) (page : RegionPage) :
      page.place t.s = page.place dev.s :=
    place_congr (now.acquiring.fixed.trans looking.acquiring.fixed.symm) slot page
  refine (ends_udMapping (I := fun count t => Looking seen start reserved count t ∧
    t.s.poolSlot = dev.s.poolSlot) (s := dev.s) (fun count t now => places now.1 now.2)
    (fun page offset t here now => ?_) (fun count later t now after none => ⟨⟨?_, now.1.held,
      fun slot more => now.1.files slot (after.trans more)⟩, now.2⟩) ⟨looking, rfl⟩).imp
    fun _ _ last => last.1
  · refine (now.1.lookup ((places now.1 now.2 page).trans here)).imp fun _ u next => ?_
    exact ⟨next.1, next.2.trans now.2⟩
  · refine { now.1.acquiring with pages := fun page before offset here => ?_ }
    rcases Nat.lt_or_ge page.slot count with old | new
    · exact now.1.acquiring.pages page old offset here
    · rw [places now.1 now.2, none page new before] at here
      contradiction

/-- A slot is taken. -/
theorem ends_takeSlot (clean : Clean start.s) :
    Ends (takeSlot seen) (fun _ => Looking seen start start.s.multi 0)
      (Given seen start) start := by
  have first : Acquiring seen start false 0 start :=
    ⟨clean.owned, clean.slot, fun _ => rfl, fun wrong => absurd wrong (by decide), rfl,
      fun _ wrong => absurd wrong (Nat.not_lt_zero _)⟩
  rw [takeSlot, ends_bind, ends_get, ends_ite]
  constructor
  · intro multi
    rw [ends_bind]
    refine ends_importPa (fun _ => ⟨false, 0, first⟩) fun file => ?_
    have taken : Owned start.ledger (start.getFile 16 file) :=
      clean.owned.getFile file (by decide) (clean.files 16)
    simp only [ends_bind, ends_get, ends_attempt, ends_modify]
    refine ⟨fun _ _ => ⟨false, 0, { first with
      owned := taken, pages := fun _ wrong => absurd wrong (Nat.not_lt_zero _) }⟩,
        fun found acquired => ?_⟩
    obtain ⟨⟨bank, slot⟩, banks⟩ := found
    generalize here : ({ start.getFile 16 file with
        banks := banks
        s := { (start.getFile 16 file).s with
          poolBank := bank
          poolSlot := slot
          poolReserved := true } } : Device) = dev
    have owned : Owned start.ledger dev := by
      subst here
      exact { taken with }
    have files : (dev.putFile 16).s.importFile = fun _ => none := by
      rw [(putFile_s dev 16).1]
      subst here
      funext place
      by_cases same : place = 16
      · simp [same]
      · simp [Device.getFile, same, clean.files]
    have held : (dev.putFile 16).s.held = fun _ => none := by
      rw [(putFile_s dev 16).1]
      subst here
      funext r
      exact clean.held r
    refine ⟨⟨owned.putFile (by decide), ?_, ?_, fun _ => ?_, ?_,
      fun _ wrong => absurd wrong (Nat.not_lt_zero _)⟩, fun r => congrFun held r,
      fun slot _ => congrFun files slot⟩
    · rw [(putFile_s dev 16).1, multi]
      subst here
      rfl
    · rw [multi]
      exact fun wrong => absurd wrong (by decide)
    · rw [(putFile_s dev 16).1, (putFile_s dev 16).2]
      subst here
      exact acquired
    · rw [(putFile_s dev 16).1]
      subst here
      rfl
  · intro single
    have none : start.s.multi = false := by simpa using single
    rw [none, ends_pure]
    exact ⟨first, clean.held, fun slot _ => clean.files slot⟩

/-- The pages of a session are there, and the contract names them. -/
structure Acquired (seen : Import) (start : Device) (reserved : Bool) (dev : Device) : Prop where
  acquiring : Acquiring seen start reserved importFiles dev
  code : ∀ d, dev.s.held (.code (.base d)) = some (dev.s.contract.codePa d)
  stack : ∀ d, dev.s.held (.stack (.base d)) = some (dev.s.contract.stackPa d)

/-- The pages of all domains. -/
theorem Acquiring.prepareDomains (acquiring : Acquiring seen start reserved importFiles dev)
    (free : ∀ r : Resource, r ≠ .emptyRoot → dev.s.held r = none)
    (next : ∀ after, Acquired seen start reserved after →
      (∀ (r : Resource) e, r.owner = some (.extra e) → after.s.held r = none) → Q () after) :
    Ends (domains.forM (UbDomain.prepareDomain platform)) Q (Given seen start) dev := by
  refine (ends_forM (fun done t => Acquiring seen start reserved importFiles t ∧
      (∀ r : Resource, r.owner ≠ none → (∀ d ∈ done, r.owner ≠ some (.base d)) →
        t.s.held r = none) ∧
      ∀ d ∈ done, t.s.held (.code (.base d)) = some (t.s.contract.codePa d) ∧
        t.s.held (.stack (.base d)) = some (t.s.contract.stackPa d))
    (fun done d rest t whole here => ?_) ⟨acquiring, fun r owned _ => free r (by
      rintro rfl
      exact owned rfl), by simp⟩).imp fun _ after last => ?_
  · obtain ⟨kept, blank, listed⟩ := here
    have new : d ∉ done := by
      have distinct : domains.Nodup := by decide
      rw [whole, nodup_append] at distinct
      exact fun member => distinct.2.2 d member d mem_cons_self rfl
    have different {d' : Domain} (member : d' ∈ done) : d' ≠ d := by
      rintro rfl
      exact new member
    have free (r : Resource) (owner : r.owner = some (.base d)) : t.s.held r = none := by
      refine blank r (by simp [owner]) fun d' member => ?_
      rw [owner]
      simpa using Ne.symm (different member)
    refine kept.prepareDomain free fun after kept' others code stack contract => ⟨kept', ?_, ?_⟩
    · intro r owned outside
      have apart : r.owner ≠ some (.base d) := outside d (by simp)
      rw [others r apart]
      exact blank r owned fun d' member => outside d' (by simp [member])
    · intro d' member
      rcases mem_append.mp member with before | now
      · have old := different before
        rw [others _ (by simpa [Resource.owner] using old), others _ (by
          simpa [Resource.owner] using old), (contract d' old).1, (contract d' old).2]
        exact listed d' before
      · cases mem_singleton.mp now
        exact ⟨code, stack⟩
  · have every (d : Domain) : d ∈ domains := by cases d <;> decide
    refine next after ⟨last.1, fun d => (last.2.2 d (every d)).1, fun d => (last.2.2 d (every d)).2⟩
      fun r e owner => last.2.1 r (by simp [owner]) fun d _ => by simp [owner]

/-- Those of the extra domains. -/
theorem Acquired.prepareExtras (acquired : Acquired seen start reserved dev)
    (free : ∀ (r : Resource) e, r.owner = some (.extra e) → dev.s.held r = none) :
    Ends (UbDomain.prepareExtras platform) (fun _ => Acquired seen start reserved)
      (Given seen start) dev := by
  rw [UbDomain.prepareExtras, ends_bind, ends_get, ends_ite]
  refine ⟨fun _ => ?_, fun _ => acquired⟩
  rw [ends_bind, ends_modify]
  have tagged : Acquired seen start reserved (dev.withSession OpenSession.tagExtra) :=
    { acquired with
      acquiring := { acquired.acquiring with
        owned := { acquired.acquiring.owned with }
        pages := fun page => by cases page <;> exact acquired.acquiring.pages _ } }
  refine (ends_forM (fun done t => Acquired seen start reserved t ∧
      ∀ (r : Resource) e, e ∉ done → r.owner = some (.extra e) → t.s.held r = none)
    (fun done e rest t whole here => ?_) ⟨tagged, fun r e _ => free r e⟩).mono
    (fun _ after last => last.1) fun _ _ => id
  have new : e ∉ done := by
    have distinct := nodup_finRange 4
    rw [whole, nodup_append] at distinct
    exact fun member => distinct.2.2 e member e mem_cons_self rfl
  refine here.1.acquiring.prepareExtra (fun r => here.2 r e new) fun after kept others contract =>
    ?_
  refine ⟨⟨kept, fun d => ?_, fun d => ?_⟩, fun r e' outside owner => ?_⟩
  · rw [others _ (by simp [Resource.owner]), contract, here.1.code]
  · rw [others _ (by simp [Resource.owner]), contract, here.1.stack]
  · have different : e' ≠ e := by
      rintro rfl
      exact outside (by simp)
    rw [others r (by simpa [owner] using different)]
    exact here.2 r e' (fun member => outside (by simp [member])) owner

/-- All pages of a session. -/
theorem ends_acquirePages (clean : Clean start.s) :
    Ends (acquirePages platform seen)
      (fun _ dev => Acquired seen start start.s.multi dev ∧ contractValid dev.s.contract = true)
      (Given seen start) start := by
  rw [acquirePages, ends_bind]
  refine (ends_takeSlot clean).imp fun _ one looking => ?_
  rw [ends_bind]
  refine looking.udMapping.imp fun _ two looked => ?_
  rw [ends_bind]
  refine looked.acquiring.alloc (looked.held _) fun three root changed kept => ?_
  rw [ends_bind]
  refine kept.prepareDomains (fun r different => ?_) fun four acquired free => ?_
  · rw [changed, OpenSession.setHeld_of_ne _ _ different]
    exact looked.held r
  rw [ends_bind]
  refine (acquired.prepareExtras free).imp fun _ five last => ?_
  simp only [ends_bind, ends_get, ends_refuse, Bool.not_eq_false]
  exact ⟨fun _ => ⟨_, _, last.acquiring⟩, fun valid => ⟨last, valid⟩⟩

/-- What a failed preparation leaves: the ledger and the slots in use are as before, and the
session holds nothing. -/
structure Failed (start dev : Device) : Prop where
  ledger : dev.ledger = start.ledger
  banks : Restored start.banks dev.banks
  clean : Clean dev.s
  fixed : dev.s.fixed = start.s.fixed

/-- `ud_free_pages` undoes what was acquired. -/
theorem Acquiring.failed (acquiring : Acquiring seen start reserved place dev)
    (hidden : dev.s.poolReserved = true → dev.s.poolExposed = false) :
    Failed start (freePages dev) := by
  obtain ⟨ledger, session, banks⟩ := freePages_spec acquiring.owned
  refine ⟨ledger, ?_, ?_, ?_⟩
  · rw [banks]
    cases reserved with
    | false =>
      rw [if_neg (by simp [acquiring.holds])]
      exact .inl (acquiring.without rfl)
    | true =>
      rw [if_pos acquiring.holds, hidden acquiring.holds]
      exact .inr ⟨_, _, _, _, _, _, acquiring.slot rfl, rfl⟩
  · rw [session]
    exact ⟨fun _ => rfl, fun _ => rfl, rfl⟩
  · rw [session]
    exact acquiring.fixed

/-- `ud_prepare_pages` acquires everything, or leaves nothing behind. -/
theorem ends_preparePages {importVa : Nat} (clean : Clean start.s)
    (hidden : start.s.poolExposed = false) :
    Ends (preparePages platform seen importVa)
      (fun _ dev => Acquired seen start start.s.multi dev ∧ contractValid dev.s.contract = true)
      (fun _ => Failed start) start := by
  have nothing : Failed start start := ⟨rfl, .inl rfl, clean, rfl⟩
  simp only [preparePages, ends_bind, ends_get, ends_refuse, ends_refuseWith, ends_modify,
    ends_onFailure]
  refine ⟨fun _ => nothing, fun _ => ⟨fun _ => nothing, fun _ =>
    ⟨fun _ _ => ⟨rfl, .inl rfl, { clean with }, rfl⟩, fun _ => ?_⟩⟩⟩
  have begun : Clean ((start.withSession (OpenSession.beginContract platform importVa)).withSession
      (OpenSession.setIndices platform)).s := { clean with }
  refine (ends_acquirePages begun).mono (fun _ dev last => ?_) fun _ dev given => ?_
  · exact ⟨⟨{ last.1.acquiring with }, last.1.code, last.1.stack⟩, last.2⟩
  · obtain ⟨reserved, place, acquiring⟩ := given
    have kept : dev.s.fixed.poolExposed = start.s.fixed.poolExposed :=
      congrArg OpenSession.poolExposed acquiring.fixed
    have whole : Acquiring seen start reserved place dev := { acquiring with }
    exact whole.failed fun _ => kept.trans hidden

end Acquiring

end UbApplication.UbDomain
