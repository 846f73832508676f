import UbApplication.Tigon.CxlEbr.Books

/-!
# What reclamation guarantees

A list is freed when every thread has entered an epoch after that of its objects. An object is
retired in the epoch of the thread that retires it, and a thread that has already entered the next
one may use the object for longer than that. No object is freed in use in the runs in which this
does not happen.
-/

namespace UbApplication.Tigon.CxlEbr

open Option List State Machine

variable {pod : Pod}

namespace State

/-- No thread that may use a retired object is in a later epoch than that of the retirement. -/
def Guarded (s : State pod) : Prop :=
  ∀ r ∈ s.retired, ∀ u, r.object ∈ (s.own u).held → s.localEpoch u ≤ r.epoch

/-- Everything that is kept in every run. -/
structure Sound (s : State pod) : Prop where
  epochs : s.EpochsSound
  books : s.BooksSound
  resting : s.Resting

/-- The start is sound. -/
theorem initial_sound : (initial pod).Sound where
  epochs := ⟨fun _ => Nat.le_refl _, fun _ => Nat.zero_le _, fun _ => rfl⟩
  books := {
    stamped := fun _ member => by cases member
    listed := fun _ _ => rfl
    once := nodup_nil
    apart := fun _ member => by cases member
    freedOnce := nodup_nil
    freedRetired := fun _ member => by cases member
    freedDone := fun _ member => by cases member }
  resting := fun _ _ => rfl

variable {s s' : State pod} {t : pod.Thread}

section

variable (sound : s.Sound)
include sound

/-- A thread reaches an object. -/
theorem Sound.reach {o : Object} (running : (s.own t).phase = .running) :
    (s.withOwn t { s.own t with held := o :: (s.own t).held }).Sound where
  epochs := by
    apply sound.epochs.moved (grown_withOwn s t _) rfl rfl
    unfold PhaseSound
    rw [withOwn_own_self]
    simp only [running]
    exact (running_known sound.epochs running).1
  books := by
    apply sound.books.quiet (grown_withOwn s t _) rfl rfl rfl
    · rw [withOwn_own_self]
    · rw [withOwn_own_self]
    · rw [withOwn_own_self]
      rfl
  resting u := by
    by_cases mine : u = t
    · rw [mine, withOwn_own_self]
      exact fun idle => absurd running idle
    · rw [withOwn_own_of_ne s _ mine]
      exact sound.resting u

/-- An object is unlinked. -/
theorem Sound.unlink (o : Object) : ({ s with unlinked := o :: s.unlinked } : State pod).Sound where
  epochs := { sound.epochs with }
  books := { sound.books with
    apart := fun r member => mem_cons_of_mem o (sound.books.apart r member) }
  resting := sound.resting

/-- An object is retired. -/
theorem Sound.retire {o : Object} (running : (s.own t).phase = .running)
    (apart : o ∈ s.unlinked) (new : o ∉ s.retired.map Retirement.object) :
    (s.addRetiredObject t o).Sound where
  epochs := sound.epochs.addRetiredObject running
  books := sound.books.addRetiredObject sound.epochs running apart new
  resting u := by
    by_cases mine : u = t
    · rw [mine, addRetiredObject_own]
      exact fun idle => absurd running idle
    · rw [(addRetiredObject_grown s t o).othersOwn u mine]
      exact sound.resting u

/-- An epoch is accessed. -/
theorem Sound.access (stepped : s.access t = some s') : s'.Sound := by
  have moved := accessed sound.epochs sound.resting stepped
  constructor
  · exact moved.epochs
  · exact sound.books.accessed sound.epochs moved
  · intro u
    by_cases mine : u = t
    · rw [mine]
      exact fun _ => moved.held
    · rw [moved.grown.othersOwn u mine]
      exact sound.resting u

/-- Every step keeps soundness. -/
theorem Sound.step (label : Label pod) (stepped : s.step label = some s') : s'.Sound := by
  cases label with
  | reach t o =>
    obtain ⟨allowed, ⟨⟩⟩ := ite_none_right_eq_some.mp stepped
    exact sound.reach allowed.1
  | unlink t o =>
    obtain ⟨allowed, ⟨⟩⟩ := ite_none_right_eq_some.mp stepped
    exact sound.unlink o
  | retire t o =>
    obtain ⟨allowed, ⟨⟩⟩ := ite_none_right_eq_some.mp stepped
    exact sound.retire allowed.1 allowed.2.1 allowed.2.2
  | access t => exact sound.access stepped

end

/-- Every step with no user ahead. -/
theorem Guarded.step (guarded : s.Guarded) (sound : s.Sound) (label : Label pod)
    (notAhead : NotAhead s label) (stepped : s.step label = some s') : s'.Guarded := by
  cases label with
  | reach t o =>
    obtain ⟨allowed, ⟨⟩⟩ := ite_none_right_eq_some.mp stepped
    intro r member u inUse
    by_cases mine : u = t
    · rw [mine, withOwn_own_self] at inUse
      cases mem_cons.mp inUse with
      | inl same => exact absurd (same ▸ sound.books.apart r member) allowed.2
      | inr before => exact mine ▸ guarded r member t before
    · rw [withOwn_own_of_ne s _ mine] at inUse
      exact guarded r member u inUse
  | unlink t o =>
    obtain ⟨allowed, ⟨⟩⟩ := ite_none_right_eq_some.mp stepped
    exact guarded
  | retire t o =>
    obtain ⟨allowed, ⟨⟩⟩ := ite_none_right_eq_some.mp stepped
    intro r member u inUse
    have sameHeld : ((s.addRetiredObject t o).own u).held = (s.own u).held := by
      by_cases mine : u = t
      · rw [mine, addRetiredObject_own]
      · rw [(addRetiredObject_grown s t o).othersOwn u mine]
    rw [sameHeld] at inUse
    cases mem_append.mp member with
    | inl old => exact guarded r old u inUse
    | inr isNew =>
      rw [mem_singleton.mp isNew] at inUse ⊢
      exact notAhead u inUse
  | access t =>
    have moved := accessed sound.epochs sound.resting stepped
    intro r member u inUse
    rw [moved.retired] at member
    by_cases mine : u = t
    · rw [mine, moved.held] at inUse
      cases inUse
    · rw [moved.grown.othersOwn u mine] at inUse
      rw [moved.grown.othersEpoch u mine]
      exact guarded r member u inUse

/-- What is freed is two epochs old. -/
theorem Sound.done_late (sound : s.Sound) {r : Retirement pod}
    (member : r ∈ s.retired) (done : s.Done r) : r.epoch + 2 ≤ s.localEpoch r.thread := by
  have here := sound.epochs.phases r.thread
  have stamp : r.epoch ≤ reclaimedWith r.epoch := by
    unfold reclaimedWith
    split <;> omega
  have known : (s.own r.thread).lastFreedEpoch ≤ s.localEpoch r.thread - 2 := by
    unfold PhaseSound at here
    split at here
    · exact here.le
    · exact here.2.le
    · exact here.2.1.le
    · exact here.2.1.le
    · exact here.2.le
    · exact here.2.1.le
    · omega
    · cases here
  have started : 0 < reclaimedWith r.epoch := by
    unfold reclaimedWith maxEpoch
    split <;> omega
  cases done with
  | inl before => omega
  | inr now =>
    unfold Local.freedNow at now
    split at now
    case h_1 epoch i phase =>
      have isListed := (sound.books.mem_list member).mp (mem_of_mem_take now)
      have stamped := sound.books.stamped r member
      unfold PhaseSound at here
      simp only [phase] at here
      have same := isListed.2.1
      unfold maxEpoch at same
      omega
    case h_2 => cases now

/-- Nothing is freed in use. -/
theorem Sound.noneFreedInUse (sound : s.Sound) (guarded : s.Guarded) :
    s.NoneFreedInUse := by
  intro u o inUse gone
  obtain ⟨r, member, rfl⟩ := mem_map.mp (sound.books.freedRetired o gone)
  have late := sound.done_late member ((sound.books.freedDone r member).mp gone)
  have early := guarded r member u inUse
  have ordered := sound.epochs.behind r.thread
  have limit := sound.epochs.close u
  omega

/-- The checks hold. -/
theorem Sound.checksHold (sound : s.Sound) : s.ChecksHold := by
  intro t check wrong
  have here := sound.epochs.phases t
  unfold PhaseSound at here
  simp only [wrong] at here

/-- What is due is freed once. -/
theorem Sound.freedExactlyOnce (sound : s.Sound) : s.FreedExactlyOnce := by
  intro r member running late
  have known := (running_known sound.epochs running).1
  apply count_eq_one_of_mem sound.books.freedOnce
  apply (sound.books.freedDone r member).mpr
  apply Or.inl
  rw [known]
  unfold lateEnough at late
  unfold reclaimedWith maxEpoch
  split at late
  case isTrue zero =>
    rw [if_pos zero]
    omega
  case isFalse positive =>
    rw [if_neg positive]
    omega

end State

/-- In every run the checks hold, and what is retired is freed at most once, and exactly once when
its thread has entered an epoch that is late enough. No object is freed in use in the runs in which
no user of an object is ahead of the thread that retires it. -/
theorem reclamation_safe {labels : List (Label pod)} {final : State pod}
    (taken : Machine.run State.step (State.initial pod) labels = some final) :
    final.ChecksHold ∧ final.FreedAtMostOnce ∧ final.FreedExactlyOnce ∧
      (Machine.Admits NotAhead State.step (State.initial pod) labels → final.NoneFreedInUse) := by
  have sound : final.Sound := run_invariant (fun _ => True) State.Sound
    (fun _ label _ before _ stepped => before.step label stepped) (fun _ _ => trivial)
    initial_sound taken
  have safe (admitted : Machine.Admits NotAhead step (initial pod) labels) :
      final.Sound ∧ final.Guarded :=
    run_admitted (fun s => s.Sound ∧ s.Guarded)
      (fun _ label _ both notAhead stepped =>
        ⟨both.1.step label stepped, both.2.step both.1 label notAhead stepped⟩)
      admitted ⟨initial_sound, fun _ member => by cases member⟩ taken
  exact ⟨sound.checksHold, ⟨sound.books.freedOnce, sound.books.freedRetired⟩,
    sound.freedExactlyOnce, fun admitted => sound.noneFreedInUse (safe admitted).2⟩

namespace Sample

def pair : Pod := ⟨2, 1, by decide, by decide⟩

def first : pair.Thread := (⟨0, by decide⟩, ⟨0, by decide⟩)

def second : pair.Thread := (⟨1, by decide⟩, ⟨0, by decide⟩)

/-- A thread unlinks and retires an object that it has reached, and enters its next critical
section. -/
def short : List (Label pair) :=
  [.reach first 7, .unlink first 7, .retire first 7, .access first, .access first, .access first]

/-- The guarantees after a short run. -/
theorem reclamation_safe_short :
    ∃ final, Machine.run State.step (State.initial pair) short = some final ∧ final.ChecksHold ∧
      final.FreedAtMostOnce ∧ final.FreedExactlyOnce ∧ final.NoneFreedInUse := by
  obtain ⟨final, taken⟩ : ∃ final, run step (initial pair) short = some final :=
    isSome_iff_exists.mp (by decide +kernel)
  have safe := reclamation_safe taken
  exact ⟨final, taken, safe.1, safe.2.1, safe.2.2.1, safe.2.2.2 (by decide +kernel)⟩

/-- A thread unlinks and retires objects. -/
def garbage (t : pair.Thread) (objects : List Object) : List (Label pair) :=
  objects.flatMap fun o => [.unlink t o, .retire t o]

def littered (s : State pair) (t : pair.Thread) (objects : List Object) : State pair :=
  { s.withOwn t { s.own t with
      retiredObjects := Function.update (s.own t).retiredObjects (s.localEpoch t % maxEpoch)
        ((s.own t).retiredObjects (s.localEpoch t % maxEpoch) ++ objects) } with
    unlinked := objects.reverse ++ s.unlinked
    retired := s.retired ++ objects.map fun o => ⟨t, s.localEpoch t, o⟩ }

/-- No garbage. -/
theorem littered_nil (s : State pair) (t : pair.Thread) : littered s t [] = s := by
  unfold littered withOwn
  simp only [append_nil, Function.update_eq_self, reverse_nil, nil_append, map_nil]

/-- One more object. -/
theorem littered_cons (s : State pair) (t : pair.Thread) (o : Object) (objects : List Object) :
    littered (addRetiredObject { s with unlinked := o :: s.unlinked } t o) t objects =
      littered s t (o :: objects) := by
  unfold littered addRetiredObject withOwn
  simp only [Function.update_self, Function.update_idem, append_assoc, singleton_append,
    reverse_cons, map_cons]

/-- A run that makes garbage. -/
theorem garbage_run {s : State pair} {t : pair.Thread} {objects : List Object}
    (running : (s.own t).phase = .running) (distinct : objects.Nodup)
    (new : ∀ o ∈ objects, o ∉ s.unlinked ∧ o ∉ s.retired.map Retirement.object) :
    run step s (garbage t objects) = some (littered s t objects) := by
  induction objects generalizing s with
  | nil => exact congrArg some (littered_nil s t).symm
  | cons o objects ih =>
    have apart := nodup_cons.mp distinct
    have unlinks : s.step (.unlink t o) = some { s with unlinked := o :: s.unlinked } :=
      if_pos ⟨running, (new o mem_cons_self).1⟩
    have retires : step { s with unlinked := o :: s.unlinked } (.retire t o) =
        some (addRetiredObject { s with unlinked := o :: s.unlinked } t o) :=
      if_pos ⟨running, mem_cons_self, (new o mem_cons_self).2⟩
    show run step s (.unlink t o :: .retire t o :: garbage t objects) = _
    rw [run_cons, unlinks, bind_some, run_cons, retires, bind_some,
      ← littered_cons]
    apply ih
    · rw [addRetiredObject_own]
      exact running
    · exact apart.2
    · intro other member
      have differ : other ≠ o := fun same => apart.1 (same ▸ member)
      have before := new other (mem_cons_of_mem o member)
      simpa [addRetiredObject, withOwn, differ] using before

/-- The objects of a round of garbage. -/
def objects (round : Nat) : List Object := List.range' (1000 * round) epochAdvanceThreshold

/-- Make the garbage of a round when all objects so far have been of earlier rounds. -/
def litter (t : pair.Thread) (round : Nat) (s : State pair) : Option (State pair) :=
  if (s.own t).phase = .running ∧ (∀ o ∈ s.unlinked, o < 1000 * round) ∧
    ∀ r ∈ s.retired, r.object < 1000 * round then some (littered s t (objects round))
  else none

/-- The same before the rest. -/
theorem litter_run {s : State pair} {t : pair.Thread} {round : Nat} {rest : List (Label pair)} :
    ∀ {final}, ((litter t round s).bind fun next => run step next rest) = some final →
      run step s (garbage t (objects round) ++ rest) = some final := by
  intro final taken
  obtain ⟨next, littering, after⟩ := bind_eq_some_iff.mp taken
  obtain ⟨allowed, ⟨⟩⟩ := ite_none_right_eq_some.mp littering
  have late {o : Object} (member : o ∈ objects round) : 1000 * round ≤ o :=
    (mem_range'_1.mp member).1
  have distinct : (objects round).Nodup := nodup_range'
  have new : ∀ o ∈ objects round, o ∉ s.unlinked ∧ o ∉ s.retired.map Retirement.object := by
    refine fun o member =>
      ⟨fun inside => (late member).not_gt (allowed.2.1 o inside), fun inside => ?_⟩
    obtain ⟨r, before, rfl⟩ := mem_map.mp inside
    exact (late member).not_gt (allowed.2.2 r before)
  rw [run_append, garbage_run allowed.1 distinct new]
  exact after

/-- The second thread has entered epoch one and the first has followed. -/
def opening : List (Label pair) :=
  List.replicate 10 (.access second) ++ List.replicate 4 (.access first)

/-- The second thread has entered epoch two and reaches an object there. The first thread retires
the object in epoch one and follows. -/
def crossing : List (Label pair) :=
  List.replicate 10 (.access second) ++
    ([.reach second 7, .unlink first 7, .retire first 7] ++ List.replicate 4 (.access first))

/-- The first thread enters epoch three and frees the objects of epoch one. -/
def closing : List (Label pair) := List.replicate 12 (.access first)

/-- The second thread makes garbage in epochs zero and one, and the first in epoch two. -/
def schedule : List (Label pair) :=
  garbage second (objects 1) ++ (opening ++ (garbage second (objects 2) ++
    (crossing ++ (garbage first (objects 3) ++ closing))))

/-- The same run with the garbage of a round made at once. -/
def played : Option (State pair) :=
  (litter second 1 (State.initial pair)).bind fun one =>
    (Machine.run State.step one opening).bind fun two =>
      (litter second 2 two).bind fun three =>
        (Machine.run State.step three crossing).bind fun four =>
          (litter first 3 four).bind fun five => Machine.run State.step five closing

/-- The whole schedule. -/
theorem schedule_run {final : State pair} (taken : played = some final) :
    run step (initial pair) schedule = some final := by
  obtain ⟨one, littered, taken⟩ := bind_eq_some_iff.mp taken
  obtain ⟨two, opened, taken⟩ := bind_eq_some_iff.mp taken
  obtain ⟨three, litteredAgain, taken⟩ := bind_eq_some_iff.mp taken
  obtain ⟨four, crossed, taken⟩ := bind_eq_some_iff.mp taken
  apply litter_run
  rw [littered, bind_some, run_append, opened, bind_some]
  apply litter_run
  rw [litteredAgain, bind_some, run_append, crossed, bind_some]
  exact litter_run taken

/-- An object is freed that a thread still uses: it has been retired in the epoch of the thread that
retired it, and its user has been one epoch ahead of that thread from the start. -/
theorem freed_in_use : ∃ final, Machine.run State.step (State.initial pair) schedule = some final ∧
    7 ∈ (final.own second).held ∧ 7 ∈ final.freed := by
  have seen : played.any (fun s => decide (7 ∈ (s.own second).held ∧ 7 ∈ s.freed)) = true := by
    decide +kernel
  obtain ⟨final, taken, both⟩ := (any_eq_true _ _).mp seen
  exact ⟨final, schedule_run taken, of_decide_eq_true both⟩

end Sample

end UbApplication.Tigon.CxlEbr
