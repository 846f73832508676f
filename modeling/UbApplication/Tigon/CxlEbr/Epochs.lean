import UbApplication.Tigon.CxlEbr.Model

/-!
# The epochs

The global epoch is at most one ahead of every local epoch, because a thread advances it only after
it has found every local epoch to be at least the global one. So the checks cannot fail.
-/

namespace UbApplication.Tigon.CxlEbr

open Function (update_self update_of_ne update)

variable {pod : Pod}

/-- The objects of its list that a thread has freed so far. -/
def Local.freedNow (own : Local) : List Object :=
  match own.phase with
  | .reclaim epoch i => (own.retiredObjects (epoch % maxEpoch)).take i
  | _ => []

/-- A thread comes before a position of the scan. -/
def Before (u : pod.Thread) (i j : Nat) : Prop := u.1.val < i ∨ u.1.val = i ∧ u.2.val < j

variable {s : State pod} {curGlobal : Nat} {s' : State pod}

namespace State

/-- What is known where a thread is. -/
def PhaseSound (s : State pod) (t : pod.Thread) : Prop :=
  match (s.own t).phase with
  | .running => (s.own t).lastFreedEpoch = s.localEpoch t - 2
  | .loadGlobal curLocal =>
    curLocal = s.localEpoch t ∧ (s.own t).lastFreedEpoch = s.localEpoch t - 2
  | .scan curLocal curGlobal i j advance =>
    curLocal = s.localEpoch t ∧ (s.own t).lastFreedEpoch = s.localEpoch t - 2 ∧
      (advance = true → ∀ u, Before u i j → curGlobal ≤ s.localEpoch u)
  | .swap curLocal curGlobal =>
    curLocal = s.localEpoch t ∧ (s.own t).lastFreedEpoch = s.localEpoch t - 2 ∧
      ∀ u, curGlobal ≤ s.localEpoch u
  | .reload curLocal =>
    curLocal = s.localEpoch t ∧ (s.own t).lastFreedEpoch = s.localEpoch t - 2
  | .store curLocal curGlobal =>
    curLocal = s.localEpoch t ∧ (s.own t).lastFreedEpoch = s.localEpoch t - 2 ∧
      s.localEpoch t ≤ curGlobal ∧ curGlobal ≤ s.globalEpoch
  | .reclaim epoch _ =>
    s.localEpoch t = epoch + 2 ∧ epoch = (s.own t).lastFreedEpoch + 1
  | .failed _ => False

/-- The epochs and the threads. -/
structure EpochsSound (s : State pod) : Prop where
  behind : ∀ t, s.localEpoch t ≤ s.globalEpoch
  close : ∀ t, s.globalEpoch ≤ s.localEpoch t + 1
  phases : ∀ t, s.PhaseSound t

/-- Only a thread in its transaction uses objects. -/
def Resting (s : State pod) : Prop := ∀ t, (s.own t).phase ≠ .running → (s.own t).held = []

/-- The epochs have not gone back, and a thread other than the one that moved is as before. -/
structure Grown (s s' : State pod) (t : pod.Thread) : Prop where
  globalGrown : s.globalEpoch ≤ s'.globalEpoch
  localGrown : ∀ u, s.localEpoch u ≤ s'.localEpoch u
  othersOwn : ∀ u, u ≠ t → s'.own u = s.own u
  othersEpoch : ∀ u, u ≠ t → s'.localEpoch u = s.localEpoch u

/-- The thread set. -/
@[simp] theorem withOwn_own_self (s : State pod) (t : pod.Thread) (own : Local) :
    (s.withOwn t own).own t = own := update_self ..

variable {t : pod.Thread} {phase : Phase} {i epoch : Nat} {own : Local}

/-- The other threads stay. -/
theorem withOwn_own_of_ne (s : State pod) (own : Local) {u : pod.Thread} (other : u ≠ t) :
    (s.withOwn t own).own u = s.own u := update_of_ne other ..

/-- The phase set. -/
@[simp] theorem withPhase_own_self (s : State pod) (t : pod.Thread) (phase : Phase) :
    (s.withPhase t phase).own t = { s.own t with phase := phase } := withOwn_own_self ..

/-- One thread changes. -/
theorem grown_withOwn (s : State pod) (t : pod.Thread) (own : Local) :
    s.Grown (s.withOwn t own) t :=
  ⟨Nat.le_refl _, fun _ => Nat.le_refl _, fun _ other => withOwn_own_of_ne s own other,
    fun _ _ => rfl⟩

/-- The other phases stay sound. -/
theorem PhaseSound.kept {u : pod.Thread} (grown : s.Grown s' t) (other : u ≠ t)
    (sound : s.PhaseSound u) : s'.PhaseSound u := by
  unfold PhaseSound at sound ⊢
  rw [grown.othersOwn u other, grown.othersEpoch u other]
  cases here : (s.own u).phase with
  | running => simpa only [here] using sound
  | loadGlobal curLocal => simpa only [here] using sound
  | scan curLocal curGlobal i j advance =>
    simp only [here] at sound ⊢
    exact ⟨sound.1, sound.2.1, fun all v before =>
      Nat.le_trans (sound.2.2 all v before) (grown.localGrown v)⟩
  | swap curLocal curGlobal =>
    simp only [here] at sound ⊢
    exact ⟨sound.1, sound.2.1, fun v => Nat.le_trans (sound.2.2 v) (grown.localGrown v)⟩
  | reload curLocal => simpa only [here] using sound
  | store curLocal curGlobal =>
    simp only [here] at sound ⊢
    exact ⟨sound.1, sound.2.1, sound.2.2.1, Nat.le_trans sound.2.2.2 grown.globalGrown⟩
  | reclaim epoch i => simpa only [here] using sound
  | failed check => simp only [here] at sound

/-- A step that changes no epoch. -/
theorem EpochsSound.moved (sound : s.EpochsSound)
    (grown : s.Grown s' t) (globalSame : s'.globalEpoch = s.globalEpoch)
    (localSame : s'.localEpoch = s.localEpoch) (here : s'.PhaseSound t) : s'.EpochsSound where
  behind u := by
    rw [globalSame, localSame]
    exact sound.behind u
  close u := by
    rw [globalSame, localSame]
    exact sound.close u
  phases u := by
    by_cases same : u = t
    · rw [same]
      exact here
    · exact (sound.phases u).kept grown same

/-- After the comparison. -/
theorem compared_sound (sound : s.EpochsSound)
    (last : (s.own t).lastFreedEpoch = s.localEpoch t - 2) :
    (s.withPhase t (compared (s.own t) (s.localEpoch t) s.globalEpoch)).PhaseSound t := by
  have ordered := sound.behind t
  unfold PhaseSound
  rw [withPhase_own_self]
  unfold compared
  by_cases same : s.globalEpoch = s.localEpoch t
  · rw [if_pos same]
    by_cases much : epochAdvanceThreshold ≤
      ((s.own t).retiredObjects (s.localEpoch t % maxEpoch)).length
    · rw [if_pos much]
      exact ⟨rfl, last, fun _ u before => by
        unfold Before at before
        omega⟩
    · rw [if_neg much]
      exact ⟨rfl, last⟩
  · rw [if_neg same, if_pos (by omega)]
    exact ⟨rfl, last⟩

/-- After one local epoch was read. -/
theorem scanned_sound {j : Nat} {advance : Bool}
    (last : (s.own t).lastFreedEpoch = s.localEpoch t - 2)
    (late : advance = true → ∀ u, Before u i j → curGlobal ≤ s.localEpoch u) :
    (s.withPhase t (s.scanned (s.localEpoch t) curGlobal i j advance)).PhaseSound t := by
  unfold PhaseSound
  rw [withPhase_own_self]
  unfold scanned
  by_cases here : i < pod.coordinatorNum ∧ j < pod.threadNum
  · rw [dif_pos here]
    by_cases behind : s.localEpoch (⟨i, here.1⟩, ⟨j, here.2⟩) < curGlobal
    · rw [if_pos behind]
      exact ⟨rfl, last, fun wrong => by cases wrong⟩
    · rw [if_neg behind]
      exact ⟨rfl, last, fun all u before => by
        by_cases earlier : Before u i j
        · exact late all u earlier
        · have isHere : u = (⟨i, here.1⟩, ⟨j, here.2⟩) := by
            unfold Before at before earlier
            exact Prod.ext (Fin.ext (show u.1.val = i by omega))
              (Fin.ext (show u.2.val = j by omega))
          rw [isHere]
          exact Nat.le_of_not_lt behind⟩
  · rw [dif_neg here]
    -- the position is past the last thread of its host, or past the last host
    by_cases more : i < pod.coordinatorNum
    · rw [if_pos more]
      exact ⟨rfl, last, fun all u before => late all u (by
        have bound := u.2.isLt
        unfold Before at before ⊢
        omega)⟩
    · rw [if_neg more]
      cases advance with
      | false => exact ⟨rfl, last⟩
      | true => exact ⟨rfl, last, fun u => late rfl u (.inl (by
          have bound := u.1.isLt
          omega))⟩

/-- After the exchange. -/
theorem swapped_sound (sound : s.EpochsSound)
    (last : (s.own t).lastFreedEpoch = s.localEpoch t - 2)
    (late : ∀ u, curGlobal ≤ s.localEpoch u) :
    ({ s.withPhase t (.reload (s.localEpoch t)) with
      globalEpoch := if s.globalEpoch = curGlobal then curGlobal + 1 else s.globalEpoch } :
      State pod).EpochsSound := by
  have here {globalEpoch : Nat} : ({ s.withPhase t (.reload (s.localEpoch t)) with
      globalEpoch := globalEpoch } : State pod).PhaseSound t := by
    unfold PhaseSound
    rw [show ({ s.withPhase t (.reload (s.localEpoch t)) with
      globalEpoch := globalEpoch } : State pod).own t = _ from withPhase_own_self s t _]
    exact ⟨rfl, last⟩
  have reached : s.globalEpoch ≤
      if s.globalEpoch = curGlobal then curGlobal + 1 else s.globalEpoch := by
    split <;> omega
  have grown : s.Grown { s.withPhase t (.reload (s.localEpoch t)) with
      globalEpoch := if s.globalEpoch = curGlobal then curGlobal + 1 else s.globalEpoch } t :=
    ⟨reached, fun _ => Nat.le_refl _, fun _ other => withOwn_own_of_ne s _ other, fun _ _ => rfl⟩
  constructor
  · intro u
    exact Nat.le_trans (sound.behind u) reached
  · intro u
    have limit := sound.close u
    have scanned := late u
    show (if s.globalEpoch = curGlobal then curGlobal + 1 else s.globalEpoch) ≤ s.localEpoch u + 1
    split <;> omega
  · intro u
    by_cases mine : u = t
    · rw [mine]
      exact here
    · exact (sound.phases u).kept grown mine

/-- On entering an epoch. -/
theorem entered_sound (own : Local) (curGlobal : Nat)
    (here : s.own t = { own with phase := entered own curGlobal })
    (epoch : s.localEpoch t = curGlobal)
    (last : own.lastFreedEpoch = curGlobal - 2 ∨ own.lastFreedEpoch = curGlobal - 1 - 2) :
    s.PhaseSound t := by
  unfold PhaseSound
  rw [here, epoch]
  unfold entered
  by_cases garbage : 2 ≤ curGlobal ∧ own.lastFreedEpoch < curGlobal - 2
  · rw [if_pos garbage]
    have next : curGlobal - 2 = own.lastFreedEpoch + 1 := by omega
    rw [if_pos next]
    exact ⟨by omega, next⟩
  · rw [if_neg garbage]
    show own.lastFreedEpoch = curGlobal - 2
    omega

/-- A later local epoch. -/
theorem stored_grown (phase : Phase) (later : s.localEpoch t ≤ curGlobal) :
    s.Grown { s.withPhase t phase with localEpoch := update s.localEpoch t curGlobal } t where
  globalGrown := Nat.le_refl _
  localGrown u := by
    show s.localEpoch u ≤ update s.localEpoch t curGlobal u
    by_cases mine : u = t
    · rw [mine, update_self]
      exact later
    · rw [update_of_ne mine]
  othersOwn _ other := withOwn_own_of_ne s _ other
  othersEpoch _ other := update_of_ne other ..

/-- After the local epoch was stored. -/
theorem stored_sound (sound : s.EpochsSound) (last : (s.own t).lastFreedEpoch = s.localEpoch t - 2)
    (later : s.localEpoch t < curGlobal) (known : curGlobal ≤ s.globalEpoch) :
    ({ s.withPhase t (entered (s.own t) curGlobal) with
      localEpoch := update s.localEpoch t curGlobal } : State pod).EpochsSound := by
  have grown := stored_grown (s := s) (t := t) (entered (s.own t) curGlobal) (Nat.le_of_lt later)
  have limit := sound.close t
  constructor
  · intro u
    show update s.localEpoch t curGlobal u ≤ s.globalEpoch
    by_cases mine : u = t
    · rw [mine, update_self]
      exact known
    · rw [update_of_ne mine]
      exact sound.behind u
  · intro u
    exact Nat.le_trans (sound.close u) (Nat.succ_le_succ (grown.localGrown u))
  · intro u
    by_cases mine : u = t
    · rw [mine]
      exact entered_sound (s.own t) curGlobal (withPhase_own_self s t _) (update_self ..)
        (.inr (by omega))
    · exact (sound.phases u).kept grown mine

/-- What an access does to the objects: nothing, one is freed, or the list of the epoch is
cleared. -/
inductive Disposed (s s' : State pod) (t : pod.Thread) : Prop where
  | quiet (freed : s'.freed = s.freed) (last : (s'.own t).lastFreedEpoch = (s.own t).lastFreedEpoch)
      (lists : (s'.own t).retiredObjects = (s.own t).retiredObjects)
      (now : (s'.own t).freedNow = (s.own t).freedNow)
  | frees (epoch i : Nat) (o : Object) (phase : (s.own t).phase = .reclaim epoch i)
      (found : ((s.own t).retiredObjects (epoch % maxEpoch))[i]? = some o)
      (own : s'.own t = { s.own t with phase := .reclaim epoch (i + 1) })
      (freed : s'.freed = s.freed ++ [o])
  | clears (epoch i : Nat) (phase : (s.own t).phase = .reclaim epoch i)
      (ended : ((s.own t).retiredObjects (epoch % maxEpoch))[i]? = none)
      (own : s'.own t = reclaimed (s.own t) epoch) (freed : s'.freed = s.freed)

/-- What an access does. -/
structure Accessed (s s' : State pod) (t : pod.Thread) : Prop where
  epochs : s'.EpochsSound
  grown : s.Grown s' t
  retired : s'.retired = s.retired
  unlinked : s'.unlinked = s.unlinked
  held : (s'.own t).held = []
  disposed : s.Disposed s' t

/-- Nothing has been freed yet. -/
theorem freedNow_eq_nil (idle : ∀ epoch i, own.phase = .reclaim epoch i → i = 0) :
    own.freedNow = [] := by
  unfold Local.freedNow
  split
  case h_1 epoch i here =>
    rw [idle epoch i here, List.take_zero]
  case h_2 => rfl

/-- A reclamation starts at the first object. -/
theorem entered_start (here : entered own curGlobal = .reclaim epoch i) : i = 0 := by
  unfold entered at here
  split at here
  · split at here
    · cases here
      rfl
    · cases here
  · cases here

/-- A scan is no reclamation. -/
theorem scanned_not_reclaim {curLocal j k : Nat} {advance : Bool} :
    s.scanned curLocal curGlobal i j advance ≠ .reclaim epoch k := by
  unfold scanned
  repeat' split
  all_goals simp

/-- A comparison is none either. -/
theorem compared_not_reclaim {curLocal : Nat} :
    compared own curLocal curGlobal ≠ .reclaim epoch i := by
  unfold compared
  repeat' split
  all_goals simp

/-- A phase frees nothing. -/
theorem disposed_withPhase (own : s'.own t = { s.own t with phase := phase })
    (freed : s'.freed = s.freed) (before : ∀ epoch i, (s.own t).phase = .reclaim epoch i → i = 0)
    (after : ∀ epoch i, phase = .reclaim epoch i → i = 0) : s.Disposed s' t := by
  apply Disposed.quiet freed
  · rw [own]
  · rw [own]
  · rw [freedNow_eq_nil before]
    apply freedNow_eq_nil
    rw [own]
    exact after

/-- An access that only changes the phase. -/
theorem accessed_withPhase (sound : s.EpochsSound) (here : (s.withPhase t phase).PhaseSound t)
    (idle : (s.own t).held = []) (before : ∀ epoch i, (s.own t).phase = .reclaim epoch i → i = 0)
    (after : ∀ epoch i, phase = .reclaim epoch i → i = 0) : s.Accessed (s.withPhase t phase) t where
  epochs := sound.moved (grown_withOwn s t _) rfl rfl here
  grown := grown_withOwn ..
  retired := rfl
  unlinked := rfl
  held := by
    rw [withPhase_own_self]
    exact idle
  disposed := disposed_withPhase (withPhase_own_self ..) rfl before after

/-- An access that frees an object. -/
theorem accessed_frees {o : Object} (sound : s.EpochsSound)
    (phase : (s.own t).phase = .reclaim epoch i)
    (idle : (s.own t).held = [])
    (found : ((s.own t).retiredObjects (epoch % maxEpoch))[i]? = some o) :
    s.Accessed { s.withPhase t (.reclaim epoch (i + 1)) with freed := s.freed ++ [o] } t := by
  have own : ({ s.withPhase t (.reclaim epoch (i + 1)) with freed := s.freed ++ [o] } :
    State pod).own t =
      { s.own t with phase := .reclaim epoch (i + 1) } := withPhase_own_self s t _
  have grown : s.Grown { s.withPhase t (.reclaim epoch (i + 1)) with freed := s.freed ++ [o] } t :=
    ⟨Nat.le_refl _, fun _ => Nat.le_refl _, fun _ other => withOwn_own_of_ne s _ other,
      fun _ _ => rfl⟩
  have here := sound.phases t
  unfold PhaseSound at here
  simp only [phase] at here
  constructor
  · apply sound.moved grown rfl rfl
    unfold PhaseSound
    rw [own]
    exact here
  · exact grown
  · rfl
  · rfl
  · rw [own]
    exact idle
  · exact .frees epoch i o phase found own rfl

/-- An access that clears a list. -/
theorem accessed_clears (sound : s.EpochsSound) (phase : (s.own t).phase = .reclaim epoch i)
    (idle : (s.own t).held = [])
    (ended : ((s.own t).retiredObjects (epoch % maxEpoch))[i]? = none) :
    s.Accessed (s.withOwn t (reclaimed (s.own t) epoch)) t := by
  have here := sound.phases t
  unfold PhaseSound at here
  simp only [phase] at here
  constructor
  · apply sound.moved (grown_withOwn s t _) rfl rfl
    unfold PhaseSound
    rw [withOwn_own_self]
    show epoch = s.localEpoch t - 2
    omega
  · exact grown_withOwn ..
  · rfl
  · rfl
  · rw [withOwn_own_self]
    exact idle
  · exact .clears epoch i phase ended (withOwn_own_self ..) rfl

/-- Every access is one of these. -/
theorem accessed (sound : s.EpochsSound) (resting : s.Resting)
    (stepped : s.access t = some s') : s.Accessed s' t := by
  have here := sound.phases t
  have idle := resting t
  unfold PhaseSound at here
  unfold State.access at stepped
  cases phase : (s.own t).phase with
  | running =>
    simp only [phase, Option.some.injEq] at here stepped
    rw [← stepped]
    constructor
    · apply sound.moved (grown_withOwn s t _) rfl rfl
      unfold PhaseSound
      rw [withOwn_own_self]
      exact ⟨rfl, here⟩
    · exact grown_withOwn ..
    · rfl
    · rfl
    · rw [withOwn_own_self]
    · refine .quiet rfl ?_ ?_ ?_
      · rw [withOwn_own_self]
      · rw [withOwn_own_self]
      · have nothing : (s.own t).freedNow = [] := freedNow_eq_nil (by simp [phase])
        rw [withOwn_own_self, nothing]
        rfl
  | loadGlobal curLocal =>
    simp only [phase, Option.some.injEq] at here stepped
    rw [← stepped, here.1]
    exact accessed_withPhase sound (compared_sound sound here.2) (idle (by simp [phase]))
      (by simp [phase]) (fun _ _ wrong => absurd wrong compared_not_reclaim)
  | scan curLocal curGlobal i j advance =>
    simp only [phase, Option.some.injEq] at here stepped
    rw [← stepped, here.1]
    exact accessed_withPhase sound (scanned_sound here.2.1 here.2.2) (idle (by simp [phase]))
      (by simp [phase]) (fun _ _ wrong => absurd wrong scanned_not_reclaim)
  | swap curLocal curGlobal =>
    simp only [phase, Option.some.injEq] at here stepped
    rw [← stepped, here.1]
    have own := withPhase_own_self s t (.reload (s.localEpoch t))
    constructor
    · exact swapped_sound sound here.2.1 here.2.2
    · refine ⟨?_, fun _ => Nat.le_refl _, fun _ other => withOwn_own_of_ne s _ other,
        fun _ _ => rfl⟩
      show s.globalEpoch ≤ if s.globalEpoch = curGlobal then curGlobal + 1 else s.globalEpoch
      split <;> omega
    · rfl
    · rfl
    · exact (congrArg Local.held own).trans (idle (by simp [phase]))
    · exact disposed_withPhase own rfl (by simp [phase]) (by simp)
  | reload curLocal =>
    simp only [phase, Option.some.injEq] at here stepped
    rw [← stepped, here.1]
    apply accessed_withPhase sound _ (idle (by simp [phase])) (by simp [phase]) (by simp)
    unfold PhaseSound
    rw [withPhase_own_self]
    exact ⟨rfl, here.2, sound.behind t, Nat.le_refl _⟩
  | store curLocal curGlobal =>
    simp only [phase] at here stepped
    have limit := sound.close t
    by_cases later : curLocal < curGlobal
    · rw [if_pos later, if_pos (by omega), Option.some.injEq] at stepped
      rw [← stepped]
      have own := withPhase_own_self s t (entered (s.own t) curGlobal)
      constructor
      · exact stored_sound sound here.2.1 (by omega) here.2.2.2
      · exact stored_grown _ here.2.2.1
      · rfl
      · rfl
      · exact (congrArg Local.held own).trans (idle (by simp [phase]))
      · exact disposed_withPhase own rfl (by simp [phase]) (fun _ _ => entered_start)
    · rw [if_neg later, Option.some.injEq] at stepped
      rw [← stepped]
      exact accessed_withPhase sound (entered_sound (s.own t) curGlobal (withPhase_own_self s t _)
        (show s.localEpoch t = curGlobal by omega) (.inl (by omega))) (idle (by simp [phase]))
        (by simp [phase]) (fun _ _ => entered_start)
  | reclaim epoch i =>
    simp only [phase] at stepped
    split at stepped
    case h_1 o found =>
      rw [← Option.some.inj stepped]
      exact accessed_frees sound phase (idle (by simp [phase])) found
    case h_2 ended =>
      rw [← Option.some.inj stepped]
      exact accessed_clears sound phase (idle (by simp [phase])) ended
  | failed check => simp only [phase] at here

end State

end UbApplication.Tigon.CxlEbr
