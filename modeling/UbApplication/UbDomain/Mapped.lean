import UbApplication.UbDomain.Lifecycle

/-!
# The pages on record

The kernel looks up the physical pages of the imported tables when a session is prepared, and again
at every call. While the region keeps its pages, those on record are the pages that the region has
at the places of the tables.
-/

namespace UbApplication.UbDomain

open Fallible

/-- The places of the tables on record are mapped to the pages on record. -/
structure Mapped (pa : Nat → BitVec 64) (s : OpenSession) : Prop where
  tables : ∀ d level, s.contract.tablePa d level = pa (s.tablePlace d level)
  extras : s.hasExtras = true → ∀ e level,
    (s.extra.domain e).tablePa level = pa (udSocialExtraTable s.poolSlot e level)

/-- What the places of the tables depend on. -/
def OpenSession.places (s : OpenSession) : Bool × Nat × Profile × Nat :=
  (s.multi, s.poolSlot, s.session.profile, s.session.socialNginxCount)

section Lookup

variable {seen : Import} {dev : Device} {s t : OpenSession}

/-- Sessions with the same places. -/
theorem places_eq (same : t.places = s.places) :
    (∀ d level, t.tablePlace d level = s.tablePlace d level) ∧ t.hasExtras = s.hasExtras ∧
      t.poolSlot = s.poolSlot := by
  simp only [OpenSession.places, Prod.mk.injEq] at same
  obtain ⟨multi, slot, profile, count⟩ := same
  refine ⟨fun d level => ?_, ?_, slot⟩
  · simp only [OpenSession.tablePlace, multi, slot]
  · simp only [OpenSession.hasExtras, profile, count]

/-- Pages on record are mapped. -/
theorem mapped_of_pages (pages : ∀ (page : RegionPage) offset, page.place s = some offset →
    page.recorded s = seen.pa offset) : Mapped seen.pa s where
  tables d level := pages (.table d level) _ rfl
  extras has e level := pages (.extraTable e level) _ (if_pos has)

/-- What being mapped is about. -/
theorem Mapped.congr {pa : Nat → BitVec 64} (mapped : Mapped pa s) (places : t.places = s.places)
    (tables : t.contract.tablePa = s.contract.tablePa)
    (extras : ∀ e, (t.extra.domain e).tablePa = (s.extra.domain e).tablePa) : Mapped pa t := by
  obtain ⟨place, has, slot⟩ := places_eq places
  constructor
  · intro d level
    rw [tables, place]
    exact mapped.tables d level
  · intro more e level
    rw [extras, slot]
    exact mapped.extras (has ▸ more) e level

/-- A page that is looked up again is the one on record. -/
theorem ends_mapPage {offset slot : Nat} {recorded : OpenSession → BitVec 64}
    {record : BitVec 64 → OpenSession → OpenSession} :
    Ends (mapPage seen false offset slot recorded record)
      (fun _ t => t = dev ∧ recorded dev.s = seen.pa offset) (fun _ _ => True) dev := by
  simp only [mapPage, importPa, ends_bind, ends_get, ends_attempt, ends_refuse, ends_refuseWith,
    ends_modify, ends_pure, implies_true, true_and]
  intro file _ _ _ _ _ same
  exact ⟨rfl, by simpa using same⟩

/-- An accepted mapping. -/
theorem mappingError_mapped (accepted : mappingError seen dev = none) : Mapped seen.pa dev.s := by
  have ends : Ends (udMapping seen false) (fun _ t => t = dev ∧ ∀ page : RegionPage,
      page.slot < importFiles → ∀ offset, page.place dev.s = some offset →
        page.recorded dev.s = seen.pa offset) (fun _ _ => True) dev := by
    refine ends_udMapping (I := fun count t => t = dev ∧ ∀ page : RegionPage, page.slot < count →
        ∀ offset, page.place dev.s = some offset → page.recorded dev.s = seen.pa offset)
          (s := dev.s)
      (fun count t now page => by rw [now.1]) (fun page offset t here now => ?_)
      (fun count later t now after none => ⟨now.1, fun page before offset here => ?_⟩)
      ⟨rfl, fun _ wrong => absurd wrong (Nat.not_lt_zero _)⟩
    · obtain ⟨rfl, known⟩ := now
      refine ends_mapPage.imp fun _ u found => ⟨found.1, fun other before place there => ?_⟩
      by_cases same : other.slot = page.slot
      · cases RegionPage.slot_injective same
        rw [found.2, Option.some.inj (here.symm.trans there)]
      · exact known other (by omega) place there
    · rcases Nat.lt_or_ge page.slot count with old | new
      · exact now.2 page old offset here
      · rw [none page new before] at here
        contradiction
  rcases answer_of_ends ends with ⟨-, found⟩ | ⟨failure, -⟩
  · exact mapped_of_pages fun page => found.2 page page.slot_lt
  · exact absurd accepted failure

end Lookup

section Runs

variable {pa : Nat → BitVec 64} {s : OpenSession}

/-- It stays mapped. -/
theorem Mapped.of_standing {t : OpenSession} (mapped : Mapped pa s)
    (standing : t.standing = s.standing) :
    Mapped pa t := by
  have each {α : Type} (field : OpenSession → α) : field t.standing = field s.standing :=
    congrArg field standing
  exact mapped.congr (each (·.places)) (each (·.contract.tablePa)) fun e =>
    each fun s => (s.extra.domain e).tablePa

/-- Every run keeps it mapped. -/
theorem run_mapped {labels : List Label} (region : ∀ label ∈ labels, label.env.seen.pa = pa)
    (run : Machine.run OpenSession.step opened labels = some s) (prepared : s.prepared = true) :
    Mapped pa s := by
  have holds : Idle s ∨ (Ready s ∧ Mapped pa s) := by
    refine Machine.run_invariant (fun label => label.env.seen.pa = pa)
      (fun s => Idle s ∨ (Ready s ∧ Mapped pa s)) (fun before label after holds fixed stepped => ?_)
      region (.inl opened_idle) run
    obtain ⟨answer, served, rfl⟩ := Option.map_eq_some_iff.mp stepped
    rcases holds with idle | ⟨ready, mapped⟩
    · have idle : Idle (label.device before).s := { idle with clean := { idle.clean with } }
      rcases ioctl_idle idle served with still | ⟨-, begun⟩
      · exact .inl still
      · exact .inr ⟨begun.ready, fixed ▸ mapped_of_pages begun.pages⟩
    · have ready : Ready (label.device before).s := { ready with }
      have mapped : Mapped pa (label.device before).s := mapped.congr rfl rfl fun _ => rfl
      have served := ioctl_served (fun _ => ready.prepared) served
      exact .inr ⟨ready.served served, mapped.of_standing served.standing⟩
  rcases holds with idle | ⟨-, mapped⟩
  · exact absurd (idle.prepared.symm.trans prepared) (by decide)
  · exact mapped

end Runs

end UbApplication.UbDomain
