import UbApplication.UbDomain.Commit

/-!
# What a commit establishes

A commit that succeeds has compared every table with the one of the contract and admitted every
image; one that fails leaves a session that cannot be called.
-/

namespace UbApplication.UbDomain

open Fallible List Function

/-- What a commit does not change of a session. -/
def OpenSession.core (s : OpenSession) : OpenSession :=
  { s with
    session := { s.session with
      initial := fun _ => ⟨0, 0, 0, 0⟩
      code := fun _ _ => 0
      remoteWords := fun _ => 0
      committed := false }
    poolReusable := false }

/-- What a commit establishes for a domain. -/
structure DomainAdmitted (seen : Import) (d : Domain) (s : OpenSession) : Prop where
  tables : ∀ level, sameTable (buildTable s.contract d level) (seen.table (s.tablePlace d level)) =
    true
  context : s.session.initial d = expectedContext s.session.profile d
  some : imageCount seen s.session d ≠ 0
  image : imageRefused seen s.session d = false
  words : s.session.codeMode ≠ .legacy →
    s.session.remoteWords d = imageCount seen s.session d ∧
      s.session.remoteWords d ≤ udRemoteMaxWords

/-- What a commit establishes for an extra domain. -/
structure ExtraAdmitted (seen : Import) (e : Fin 4) (s : OpenSession) : Prop where
  contract : socialExtraContract s.contract s.extra e = some (adaptedContract s.contract s.extra e)
  tables : ∀ level,
    sameTable (buildTable (adaptedContract s.contract s.extra e) (Entry.extra e).domain level)
      (seen.table (udSocialExtraTable s.poolSlot e level)) = true
  code : ∀ i, i < s.session.remoteWords (Entry.extra e).domain →
    s.session.code (.base (Entry.extra e).domain) i = s.session.code (.extra e) i

/-- What a commit that does not come to its end leaves. -/
structure Unfinished (s t : OpenSession) : Prop where
  core : t.core = s.core
  committed : t.session.committed = s.session.committed
  reusable : t.poolReusable = s.poolReusable

section Commit

variable {seen : Import} {start s : OpenSession} {d : Domain}

/-- What the core fixes. -/
theorem core_eq (same : s.core = start.core) :
    s.contract = start.contract ∧ s.extra = start.extra ∧ s.poolSlot = start.poolSlot ∧
      s.multi = start.multi ∧ s.session.profile = start.session.profile ∧
      s.session.codeMode = start.session.codeMode ∧
      s.session.remoteService = start.session.remoteService ∧
      s.session.socialNginxCount = start.session.socialNginxCount := by
  have each {α : Type} (field : OpenSession → α) : field s.core = field start.core :=
    congrArg field same
  exact ⟨each (·.contract), each (·.extra), each (·.poolSlot), each (·.multi),
    each (·.session.profile), each (·.session.codeMode), each (·.session.remoteService),
      each (·.session.socialNginxCount)⟩

/-- Every table is compared. -/
theorem ends_checkTables {expected : Fin 4 → Nat → BitVec 64} {offset : Fin 4 → Nat}
    {E : Errno → OpenSession → Prop} (failed : ∀ error, E error s) :
    Ends ((List.finRange 4).forM fun level => checkTable seen (expected level) (offset level))
      (fun _ t => t = s ∧ ∀ level, sameTable (expected level) (seen.table (offset level)) = true)
      E s := by
  refine (ends_forM (fun done t => t = s ∧
      ∀ level ∈ done, sameTable (expected level) (seen.table (offset level)) = true)
    (fun done level rest t _ here => ?_) ⟨rfl, by simp⟩).mono
    (fun _ t last => ⟨last.1, fun level => last.2 level (mem_finRange level)⟩) fun _ _ => id
  obtain ⟨rfl, checked⟩ := here
  simp only [checkTable, ends_bind, ends_refuse]
  refine ⟨fun _ => failed _, fun _ =>
    ⟨fun _ => failed _, fun now => ⟨trivial, fun other member => ?_⟩⟩⟩
  rcases mem_append.mp member with before | here
  · exact checked other before
  · cases mem_singleton.mp here
    simpa using now

/-- What admission is about. -/
theorem DomainAdmitted.congr {t : OpenSession} (admitted : DomainAdmitted seen d s)
    (same : t.core = s.core) (initial : t.session.initial d = s.session.initial d)
    (code : t.session.code (.base d) = s.session.code (.base d))
    (words : t.session.remoteWords d = s.session.remoteWords d) : DomainAdmitted seen d t := by
  have kept : DomainAdmitted seen d { s.core with
      session := { s.core.session with
        initial := fun _ => s.session.initial d
        code := fun _ => s.session.code (.base d)
        remoteWords := fun _ => s.session.remoteWords d } } := { admitted with }
  rw [← same, ← initial, ← code, ← words] at kept
  exact { kept with }

variable {Q : Unit → OpenSession → Prop}

/-- One domain is committed. -/
theorem ends_commitDomain
    (next : ∀ t, Unfinished s t → DomainAdmitted seen d t → (∀ d', d' ≠ d → t.session.initial d' =
      s.session.initial d' ∧ t.session.code (.base d') = s.session.code (.base d') ∧
      t.session.remoteWords d' = s.session.remoteWords d') → Q () t) :
    Ends (commitDomain seen d) Q (fun _ => Unfinished s) s := by
  simp only [commitDomain, ends_bind, ends_get, ends_refuse, ends_modify]
  refine ⟨fun _ => ⟨rfl, rfl, rfl⟩, fun length => ?_⟩
  refine (ends_checkTables fun _ => ⟨rfl, rfl, rfl⟩).imp fun _ t checked => ?_
  obtain ⟨rfl, tables⟩ := checked
  refine ⟨fun _ => ⟨rfl, rfl, rfl⟩, fun _ => ⟨fun _ => ⟨rfl, rfl, rfl⟩, fun context =>
    ⟨fun _ => ⟨rfl, rfl, rfl⟩, fun sized => ⟨fun _ => ⟨rfl, rfl, rfl⟩, fun _ =>
      ⟨fun _ => ⟨rfl, rfl, rfl⟩, fun admitted => ?_⟩⟩⟩⟩⟩
  generalize copied : copyImage seen d (copyContext seen d t) = u at admitted
  have core : u.core = t.core := by subst copied; rfl
  obtain ⟨contract, -, slot, multi, profile, mode, -, -⟩ := core_eq core
  have kept : u.session.committed = t.session.committed ∧ u.poolReusable = t.poolReusable ∧
      u.session.initial d = seen.context d ∧ u.session.remoteWords = t.session.remoteWords := by
    subst copied
    exact ⟨rfl, rfl, update_self _ _ _, rfl⟩
  have others (d' : Domain) (different : d' ≠ d) :
      u.session.initial d' = t.session.initial d' ∧
        u.session.code (.base d') = t.session.code (.base d') := by
    have entry : Entry.base d' ≠ Entry.base d := by simpa using different
    subst copied
    exact ⟨update_of_ne different _ _, update_of_ne entry _ _⟩
  have count : imageCount seen u.session d = imageCount seen t.session d := by
    simp only [imageCount, mode, profile]
  have tables' (level : Fin 4) :
      sameTable (buildTable u.contract d level) (seen.table (u.tablePlace d level)) = true := by
    rw [contract, OpenSession.tablePlace, slot, multi]
    exact tables level
  have context' : u.session.initial d = expectedContext u.session.profile d := by
    rw [kept.2.2.1, profile]
    exact not_not.mp context
  have some : imageCount seen u.session d ≠ 0 := by
    rw [count]
    exact fun none => sized (.inl none)
  have image : imageRefused seen u.session d = false := by simpa using admitted
  by_cases legacy : u.session.codeMode = .legacy
  · have same : recordWords seen d u = u := by simp [recordWords, legacy]
    rw [same]
    exact next u ⟨core, kept.1, kept.2.1⟩
      ⟨tables', context', some, image, fun remote => absurd legacy remote⟩
      fun d' different => ⟨(others d' different).1, (others d' different).2, by rw [kept.2.2.2]⟩
  · have recorded : recordWords seen d u = { u with
        session := { u.session with
          remoteWords :=
            Function.update u.session.remoteWords d (seen.manifest.words d).toNat } } := by
      simp [recordWords, legacy]
    have words : imageCount seen u.session d = (seen.manifest.words d).toNat := by
      simp [imageCount, legacy]
    have short : (seen.manifest.words d).toNat ≤ udRemoteMaxWords := by
      rw [mode] at legacy
      exact Nat.le_of_not_lt fun long => length ⟨legacy, .inr long⟩
    rw [recorded]
    refine next _ ⟨core, kept.1, kept.2.1⟩ ⟨tables', context', some, image, fun _ => ⟨?_, ?_⟩⟩
      fun d' different => ⟨(others d' different).1, (others d' different).2, ?_⟩
    · exact (update_self _ _ _).trans words.symm
    · exact Nat.le_trans (Nat.le_of_eq (update_self _ _ _)) short
    · exact (update_of_ne different _ _).trans (by rw [kept.2.2.2])

/-- One part after the other. -/
theorem Unfinished.trans {t u : OpenSession} (first : Unfinished s t) (second : Unfinished t u) :
    Unfinished s u :=
  ⟨second.core.trans first.core, second.committed.trans first.committed,
    second.reusable.trans first.reusable⟩

/-- All domains are committed. -/
theorem ends_commitDomains :
    Ends (domains.forM (commitDomain seen))
      (fun _ t => Unfinished s t ∧ ∀ d, DomainAdmitted seen d t) (fun _ => Unfinished s) s := by
  refine (ends_forM (fun done t => Unfinished s t ∧ ∀ d ∈ done, DomainAdmitted seen d t)
    (fun done d rest t whole here => ?_) ⟨⟨rfl, rfl, rfl⟩, by simp⟩).mono
    (fun _ t last => ⟨last.1, fun d => last.2 d (by cases d <;> decide)⟩) fun _ _ => id
  have new : d ∉ done := by
    have distinct : domains.Nodup := by decide
    rw [whole, nodup_append] at distinct
    exact fun member => distinct.2.2 d member d mem_cons_self rfl
  refine (ends_commitDomain fun u unfinished admitted others => ?_).mono (fun _ _ => id)
    fun _ _ left => here.1.trans left
  refine ⟨here.1.trans unfinished, fun d' member => ?_⟩
  rcases mem_append.mp member with before | now
  · have different : d' ≠ d := by
      rintro rfl
      exact new before
    obtain ⟨initial, code, words⟩ := others d' different
    exact (here.2 d' before).congr unfinished.core initial code words
  · cases mem_singleton.mp now
    exact admitted

/-- The contract of an extra domain. -/
theorem socialExtraContract_adapted {base adapted : Contract} {extra : SocialExtra} {e : Fin 4}
    (valid : socialExtraContract base extra e = some adapted) :
    adapted = adaptedContract base extra e := by
  rw [socialExtraContract] at valid
  split at valid
  case isTrue => contradiction
  case isFalse =>
    split at valid
    case isTrue => exact (Option.some.inj valid).symm
    case isFalse => contradiction

/-- One extra domain is committed. -/
theorem ends_commitExtra {e : Fin 4} (next : ∀ t, Unfinished s t → ExtraAdmitted seen e t →
      t.session.initial = s.session.initial → t.session.remoteWords = s.session.remoteWords →
      (∀ entry, entry ≠ .extra e → t.session.code entry = s.session.code entry) → Q () t) :
    Ends (commitExtra seen e) Q (fun _ => Unfinished s) s := by
  simp only [commitExtra, ends_bind, ends_get, ends_attempt]
  refine ⟨fun _ _ => ⟨rfl, rfl, rfl⟩, fun adapted found => ?_⟩
  have contract : socialExtraContract s.contract s.extra e = some adapted := by
    cases here : socialExtraContract s.contract s.extra e with
    | none => simp [here] at found
    | some c => simpa [here] using found
  have same := socialExtraContract_adapted contract
  subst same
  refine (ends_checkTables fun _ => ⟨rfl, rfl, rfl⟩).imp fun _ t checked => ?_
  obtain ⟨rfl, tables⟩ := checked
  simp only [ends_modify, ends_refuse]
  refine ⟨fun _ => ⟨rfl, rfl, rfl⟩, fun _ => ⟨fun _ => ⟨rfl, rfl, rfl⟩, fun alike => ?_⟩⟩
  refine next _ ⟨rfl, rfl, rfl⟩ ⟨contract, tables, fun i inside => ?_⟩ rfl rfl
    fun entry different => update_of_ne different _ _
  simp only [Bool.not_eq_false, all_eq_true, beq_iff_eq] at alike
  exact alike i (mem_range.mpr inside)

/-- All extra domains are committed. -/
theorem ends_commitExtras (admitted : ∀ d, DomainAdmitted seen d s) :
    Ends (commitExtras seen)
      (fun _ t => Unfinished s t ∧ (∀ d, DomainAdmitted seen d t) ∧
        (t.hasExtras = true → ∀ e, ExtraAdmitted seen e t)) (fun _ => Unfinished s) s := by
  simp only [commitExtras, ends_bind, ends_get, ends_ite]
  refine ⟨fun extras => ?_, fun none => ⟨⟨rfl, rfl, rfl⟩, admitted, fun extras =>
    absurd extras none⟩⟩
  simp only [ends_refuse]
  refine ⟨fun _ => ⟨rfl, rfl, rfl⟩, fun _ => ⟨fun _ => ⟨rfl, rfl, rfl⟩, fun _ => ?_⟩⟩
  refine (ends_forM (fun done t => Unfinished s t ∧ (∀ d, DomainAdmitted seen d t) ∧
      ∀ e ∈ done, ExtraAdmitted seen e t)
    (fun done e rest t whole here => ?_) ⟨⟨rfl, rfl, rfl⟩, admitted, by simp⟩).mono
    (fun _ t last => ⟨last.1, last.2.1, fun _ e => last.2.2 e (mem_finRange e)⟩) fun _ _ => id
  have new : e ∉ done := by
    have distinct := nodup_finRange 4
    rw [whole, nodup_append] at distinct
    exact fun member => distinct.2.2 e member e mem_cons_self rfl
  refine (ends_commitExtra fun u unfinished extra initial words code => ?_).mono (fun _ _ => id)
    fun _ _ left => here.1.trans left
  obtain ⟨contract, record, slot, -⟩ := core_eq unfinished.core
  refine ⟨here.1.trans unfinished, fun d => ?_, fun e' member => ?_⟩
  · exact (here.2.1 d).congr unfinished.core (congrFun initial d) (code _ (by simp))
      (congrFun words d)
  · rcases mem_append.mp member with before | now
    · have different : Entry.extra e' ≠ Entry.extra e := by
        intro same
        cases same
        exact new before
      have old := here.2.2 e' before
      refine ⟨?_, fun level => ?_, fun i inside => ?_⟩
      · rw [contract, record]
        exact old.contract
      · rw [contract, record, slot]
        exact old.tables level
      · rw [words] at inside
        rw [code _ (by simp), code _ different]
        exact old.code i inside
    · cases mem_singleton.mp now
      exact extra

/-- What a commit that succeeds has established. -/
structure Admitted (seen : Import) (start s : OpenSession) : Prop where
  core : s.core = start.core
  before : start.prepared = true ∧ start.session.committed = false
  committed : s.session.committed = true
  reusable : s.poolReusable = true
  published : ∃ pub, (start.multi = true → pub = (seen.slot start.poolSlot).pub) ∧
    pub.contract = start.contract ∧ pub.request = start.contract.nonce ∧ pub.complete = pub.request
  manifest : start.session.codeMode ≠ .legacy → manifestMismatch start.session seen.manifest = false
  domains : ∀ d, DomainAdmitted seen d s
  extras : s.hasExtras = true → ∀ e, ExtraAdmitted seen e s
  heap : heapValid s.session seen.heap = true

/-- The publication is read. -/
theorem ends_readPublication :
    Ends (readPublication seen)
      (fun pub t => t = s ∧ (s.multi = true → pub = (seen.slot s.poolSlot).pub))
      (fun _ => Unfinished s) s := by
  simp only [readPublication, ends_bind, ends_get, ends_refuse, ends_ite, ends_pure]
  refine ⟨fun _ => ⟨rfl, rfl, rfl⟩, fun _ => ⟨fun _ => ⟨fun _ => ⟨rfl, rfl, rfl⟩, fun _ =>
    ⟨fun _ => ⟨rfl, rfl, rfl⟩, fun _ => ⟨fun _ => ⟨rfl, rfl, rfl⟩, fun _ => ?_⟩⟩⟩,
    fun single => ?_⟩⟩
  · exact ⟨trivial, fun _ => trivial⟩
  · exact ⟨trivial, fun multi => absurd multi single⟩

/-- The manifest is checked. -/
theorem ends_checkManifest :
    Ends (checkManifest seen)
      (fun _ t => t = s ∧
        (s.session.codeMode ≠ .legacy → manifestMismatch s.session seen.manifest = false))
      (fun _ => Unfinished s) s := by
  simp only [checkManifest, ends_bind, ends_get, ends_refuse, ends_ite, ends_pure]
  refine ⟨fun _ => ⟨fun _ => ⟨rfl, rfl, rfl⟩, fun _ => ⟨fun _ => ⟨rfl, rfl, rfl⟩, fun fits => ?_⟩⟩,
    fun legacy => ?_⟩
  · exact ⟨trivial, fun _ => by simpa using fits⟩
  · exact ⟨trivial, fun remote => absurd remote legacy⟩

/-- `ud_commit` admits everything or leaves the session as callable as it was. -/
theorem ends_udCommit {memory : Bool} :
    Ends (udCommit seen memory) (fun _ => Admitted seen s) (fun _ => Unfinished s) s := by
  simp only [udCommit, ends_bind, ends_get, ends_refuse]
  refine ⟨fun _ => ⟨rfl, rfl, rfl⟩, fun before => ⟨fun _ => ⟨rfl, rfl, rfl⟩, fun _ => ?_⟩⟩
  refine ends_readPublication.imp fun pub t read => ?_
  obtain ⟨rfl, slot⟩ := read
  refine ⟨fun _ => ⟨rfl, rfl, rfl⟩, fun published => ?_⟩
  refine ends_checkManifest.imp fun _ u checked => ?_
  obtain ⟨rfl, manifest⟩ := checked
  refine ends_commitDomains.imp fun _ t domains => ?_
  refine (ends_commitExtras domains.2).mono (fun _ v extras => ?_) fun _ _ left =>
    domains.1.trans left
  have unfinished := domains.1.trans extras.1
  simp only [ends_modify]
  refine ⟨fun _ => unfinished, fun _ => ⟨fun _ => unfinished, fun heap => ?_⟩⟩
  obtain ⟨-, -, -, -, profile, -, -, count⟩ := core_eq unfinished.core
  simp only [not_or, Bool.not_eq_false, Bool.not_eq_true, not_not] at before published heap
  exact {
    core := unfinished.core
    before := before
    committed := rfl
    reusable := rfl
    published := ⟨pub, slot, published⟩
    manifest := manifest
    domains := fun d => { extras.2.1 d with }
    extras := fun has e => { extras.2.2 has e with }
    heap := by
      rw [← heap]
      simp only [heapValid, profile, count] }

end Commit

end UbApplication.UbDomain
