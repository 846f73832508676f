import UbApplication.UbDomain.Ioctl

/-!
# Calls keep the images

A call writes argument pages and stack pages only, and at most takes back that the session may be
called. Code pages, entry contexts and settings stay.
-/

namespace UbApplication.UbDomain

open AArch64 Option

variable {checks : SocialChecks} {outcome : SocialOutcome} {gated : NestedGated} {call : Call}
  {gate : NestedGate}

namespace Session

/-- What calls do not change of a session. -/
def image (session : Session) : Session :=
  { session with
    stack := fun _ _ => 0
    args := fun _ _ => 0
    committed := false }

/-- One session is what calls may make of another. -/
structure Ran (before after : Session) : Prop where
  image : after.image = before.image
  committed : after.committed = true → before.committed = true

section Ran

variable {fuel : Nat} {session before after : Session} {imported : Imported} {entry : Entry}
  {regs : Regs}

/-- Nothing has run. -/
theorem Ran.refl (session : Session) : Ran session session := ⟨rfl, id⟩

/-- One call after the other. -/
theorem Ran.trans {middle : Session} (first : Ran before middle) (second : Ran middle after) :
    Ran before after :=
  ⟨second.image.trans first.image, fun last => first.committed (second.committed last)⟩

/-- The arguments change. -/
theorem ran_withArgs (domain : Domain) (words : Words) :
    Ran session (session.withArgs domain words) := ⟨rfl, id⟩

/-- A session is no longer committed. -/
theorem ran_uncommitted : Ran session { session with committed := false } :=
  ⟨rfl, fun wrong => absurd wrong (by simp)⟩

/-- Running code keeps the images. -/
theorem execute_ran {exit : Exit}
    (executed : session.execute fuel imported entry regs = some exit) :
    Ran session exit.session := by
  simp only [execute, map_eq_some_iff] at executed
  obtain ⟨_, _, rfl⟩ := executed
  exact ⟨rfl, id⟩

/-- So does entering a domain. -/
theorem enter_ran {saveMiddle : Bool} {gated : Gated}
    (entered : session.enter fuel imported entry regs saveMiddle = some gated) :
    Ran session gated.session := by
  simp only [enter, map_eq_some_iff] at entered
  obtain ⟨exit, executed, rfl⟩ := entered
  exact execute_ran executed

/-- So does a nested return. -/
theorem nestedReturn_ran (returned : session.nestedReturn fuel imported gate = some gated) :
    Ran session gated.session := by
  simp only [nestedReturn, map_eq_some_iff] at returned
  obtain ⟨exit, executed, rfl⟩ := returned
  have ran := execute_ran executed
  split
  · exact ran
  · exact ran

/-- So does the leaf. -/
theorem nestedLeaf_ran
    (left : session.nestedLeaf fuel imported gate = some gated) : Ran session gated.session := by
  simp only [nestedLeaf, bind_eq_bind, bind_eq_some_iff] at left
  obtain ⟨exit, executed, rest⟩ := left
  have ran := execute_ran executed
  split at rest
  · split at rest
    · cases rest
      exact ran
    · exact ran.trans (nestedReturn_ran rest)
  · cases rest
    exact ran

/-- So does a nested entry. -/
theorem enterNested_ran
    (entered : session.enterNested fuel imported gate = some gated) :
    Ran session gated.session := by
  simp only [enterNested, bind_eq_bind, bind_eq_some_iff] at entered
  obtain ⟨exit, executed, rest⟩ := entered
  have ran := execute_ran executed
  split at rest
  · split at rest
    · exact ran.trans (nestedLeaf_ran rest)
    · cases rest
      exact ran
  · split at rest
    · exact ran.trans ((ran_withArgs _ _).trans (nestedLeaf_ran rest))
    · cases rest
      exact ran

/-- So does the end of a call. -/
theorem finished_ran {domain : Domain} :
    Ran session (session.finished imported domain regs call).session := by
  rw [finished]
  split
  · exact .refl _
  · exact ran_uncommitted

/-- So does the fused path. -/
theorem runFused_ran {outcome : Outcome}
    (run : session.runFused fuel imported call = some outcome) : Ran session outcome.session := by
  simp only [runFused, map_eq_some_iff] at run
  obtain ⟨gated, entered, rfl⟩ := run
  have ran := enterNested_ran entered
  generalize (if gated.gate.domain = 2 then gated.gate.leaf else gated.gate.middle) = regs
  split
  · exact ran.trans finished_ran
  · exact ran.trans ran_uncommitted

/-- So does the legacy path. -/
theorem runLegacy_ran {domain : Domain} {outcome : Outcome}
    (run : session.runLegacy fuel imported domain call = some outcome) :
    Ran session outcome.session := by
  simp only [runLegacy, bind_eq_bind, bind_eq_some_iff] at run
  obtain ⟨first, entered, rest⟩ := run
  have ran := enter_ran entered
  split at rest
  · obtain ⟨second, entered', rest⟩ := bind_eq_some_iff.mp rest
    have ran' := (ran.trans (ran_withArgs _ _)).trans (enter_ran entered')
    split at rest
    · obtain ⟨third, entered'', rest⟩ := bind_eq_some_iff.mp rest
      cases rest
      exact (ran'.trans (enter_ran entered'')).trans finished_ran
    · cases rest
      exact ran'.trans ran_uncommitted
  · cases rest
    exact ran.trans finished_ran

/-- So does `ud_run`. -/
theorem udRun_ran {checks : Checks} {mapped : Bool} {outcome : Outcome}
    (run : session.udRun fuel checks imported call mapped = some outcome) :
    Ran session outcome.session := by
  have written : Ran session (session.writeArgs (procedureDomain call.procedure) call mapped) := by
    rw [writeArgs]
    split
    · exact ran_withArgs _ _
    · exact ran_withArgs _ _
  rw [udRun] at run
  split at run
  · cases run
    exact .refl _
  · split at run
    · cases run
      exact .refl _
    · split at run
      · cases run
        exact .refl _
      · split at run
        · cases run
          exact written
        · dsimp only at run
          split at run
          · exact written.trans (runFused_ran run)
          · exact written.trans (runLegacy_ran run)

/-- A message is edited. -/
theorem edit_ran (change : Words → Words) : Ran session (session.edit change) := ran_withArgs _ _

/-- The time is recorded. -/
theorem timed_ran (checks : SocialChecks) : Ran session (session.timed checks) := edit_ran _

/-- A routing fault. -/
theorem socialFaulted_ran {leg : Leg} {error : Errno}
    {visited : List Entry} : Ran leg.session (socialFaulted leg checks error visited).session :=
  ((edit_ran _).trans (timed_ran checks)).trans ran_uncommitted

/-- The end of a route. -/
theorem socialFinished_ran {leg : Leg} {input : Message}
    {visited : List Entry} : Ran leg.session (socialFinished leg checks input visited).session := by
  rw [socialFinished]
  split
  · exact timed_ran checks
  · exact socialFaulted_ran

/-- One leg of a route. -/
theorem socialLeg_ran {slot : Nat} {identity action target : BitVec 32} {leg : Leg}
    (run : session.socialLeg fuel imported entry slot identity action target = some leg) :
    Ran session leg.session := by
  simp only [socialLeg, map_eq_some_iff] at run
  obtain ⟨gated, entered, rfl⟩ := run
  have ran := enter_ran entered
  split
  · dsimp only
    exact (ran.trans (edit_ran _)).trans (edit_ran _)
  · dsimp only
    exact ran.trans (edit_ran _)

/-- The legacy path. -/
theorem socialLegacy_ran {route : Route}
    (run : session.socialLegacy fuel imported checks route = some outcome) :
    Ran session outcome.session := by
  simp only [socialLegacy, bind_eq_bind, bind_eq_some_iff] at run
  obtain ⟨one, first, rest⟩ := run
  have ran := socialLeg_ran first
  split at rest
  · cases rest
    exact ran.trans socialFaulted_ran
  · obtain ⟨two, second, rest⟩ := bind_eq_some_iff.mp rest
    have ran' := ran.trans (socialLeg_ran second)
    split at rest
    · cases rest
      exact ran'.trans socialFaulted_ran
    · cases rest
      exact ran'.trans socialFinished_ran

/-- The fused path. -/
theorem socialFused_ran {route : Route}
    (run : session.socialFused fuel imported checks route = some outcome) :
    Ran session outcome.session := by
  simp only [socialFused, map_eq_some_iff] at run
  obtain ⟨gated, entered, rfl⟩ := run
  have ran := enterNested_ran entered
  generalize (if gated.gate.domain = 2 then gated.gate.leaf else gated.gate.middle) = regs
  split
  · split
    · refine Ran.trans ?_ socialFaulted_ran
      dsimp only
      exact (ran.trans (edit_ran _)).trans (edit_ran _)
    · refine Ran.trans ?_ socialFinished_ran
      dsimp only
      exact (ran.trans (edit_ran _)).trans (edit_ran _)
  · refine Ran.trans ?_ socialFaulted_ran
    dsimp only
    exact ran.trans (edit_ran _)

/-- So does `ud_run_social`. -/
theorem udRunSocial_ran (run : session.udRunSocial fuel checks imported = some outcome) :
    Ran session outcome.session := by
  rw [udRunSocial] at run
  split at run
  · cases run
    exact .refl _
  · split at run
    · cases run
      exact .refl _
    · split at run
      · cases run
        exact .refl _
      · split at run
        · cases run
          exact edit_ran _
        · cases run
          exact edit_ran _
        · dsimp only at run
          split at run
          · exact ((edit_ran _).trans (edit_ran _)).trans (socialFused_ran run)
          · exact ((edit_ran _).trans (edit_ran _)).trans (socialLegacy_ran run)

end Ran

end Session

end UbApplication.UbDomain
