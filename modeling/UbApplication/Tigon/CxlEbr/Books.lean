import Mathlib.Data.List.Nodup
import UbApplication.Tigon.CxlEbr.Epochs

/-!
# Retired and freed objects

The lists of a thread hold what it has retired and not yet reclaimed, each object in the list of its
epoch modulo three. An object has been freed when its epoch has been reclaimed, or when the
reclamation that is going on has come past it. Epoch zero is never reclaimed itself; its objects are
freed with those of epoch three.
-/

namespace UbApplication.Tigon.CxlEbr

open List

variable {pod : Pod}

/-- The epoch with which the objects of an epoch are freed. Epoch zero is never reclaimed itself;
epoch three uses the same list. -/
def reclaimedWith (epoch : Nat) : Nat := if epoch = 0 then maxEpoch else epoch

variable {s : State pod} {s' : State pod}

namespace State

/-- What a thread has retired and not yet taken off its lists is in the list of its epoch. -/
def Listed (s : State pod) (t : pod.Thread) : Prop :=
  ∀ slot, (s.own t).retiredObjects slot =
    (s.retired.filter fun r => r.thread = t ∧ r.epoch % maxEpoch = slot ∧
      (s.own t).lastFreedEpoch < reclaimedWith r.epoch).map Retirement.object

/-- The object of a retirement has been freed. -/
def Done (s : State pod) (r : Retirement pod) : Prop :=
  reclaimedWith r.epoch ≤ (s.own r.thread).lastFreedEpoch ∨ r.object ∈ (s.own r.thread).freedNow

/-- The objects. -/
structure BooksSound (s : State pod) : Prop where
  stamped : ∀ r ∈ s.retired, r.epoch ≤ s.localEpoch r.thread
  listed : ∀ t, s.Listed t
  once : (s.retired.map Retirement.object).Nodup
  apart : ∀ r ∈ s.retired, r.object ∈ s.unlinked
  freedOnce : s.freed.Nodup
  freedRetired : ∀ o ∈ s.freed, o ∈ s.retired.map Retirement.object
  freedDone : ∀ r ∈ s.retired, r.object ∈ s.freed ↔ s.Done r

/-- An object is retired once. -/
theorem BooksSound.eq_of_object (books : s.BooksSound) {r r' : Retirement pod}
    (member : r ∈ s.retired) (member' : r' ∈ s.retired) (same : r.object = r'.object) : r = r' :=
  inj_on_of_nodup_map books.once member member' same

variable {t : pod.Thread} {o : Object}

/-- When a list has an object. -/
theorem BooksSound.mem_list (books : s.BooksSound) {r : Retirement pod}
    (member : r ∈ s.retired) {slot : Nat} :
    r.object ∈ (s.own t).retiredObjects slot ↔
      r.thread = t ∧ r.epoch % maxEpoch = slot ∧ (s.own t).lastFreedEpoch <
        reclaimedWith r.epoch := by
  rw [books.listed t slot, mem_map]
  constructor
  · intro found
    obtain ⟨other, kept, same⟩ := found
    have isListed := mem_filter.mp kept
    rw [← books.eq_of_object isListed.1 member same]
    simpa using isListed.2
  · intro isListed
    exact ⟨r, mem_filter.mpr ⟨member, by simpa using isListed⟩, rfl⟩

/-- What is listed was retired. -/
theorem BooksSound.list_retired (books : s.BooksSound) {slot : Nat}
    (found : o ∈ (s.own t).retiredObjects slot) : ∃ r ∈ s.retired, r.object = o := by
  rw [books.listed t slot, mem_map] at found
  obtain ⟨r, kept, same⟩ := found
  exact ⟨r, (mem_filter.mp kept).1, same⟩

/-- The lists stay. -/
theorem Listed.kept (isListed : s.Listed t) (retired : s'.retired = s.retired)
    (last : (s'.own t).lastFreedEpoch = (s.own t).lastFreedEpoch)
    (lists : (s'.own t).retiredObjects = (s.own t).retiredObjects) : s'.Listed t := by
  intro slot
  rw [lists, retired, last]
  exact isListed slot

section

variable (books : s.BooksSound)
include books

variable {t : pod.Thread} {epoch i : Nat}

/-- What is freed next is not freed yet. -/
theorem BooksSound.fresh {o : Object} (phase : (s.own t).phase = .reclaim epoch i)
    (found : ((s.own t).retiredObjects (epoch % maxEpoch))[i]? = some o) : o ∉ s.freed := by
  intro already
  have inList := mem_of_getElem? found
  obtain ⟨r, member, rfl⟩ := books.list_retired inList
  have isListed := (books.mem_list member).mp inList
  cases (books.freedDone r member).mp already with
  | inl before =>
    rw [isListed.1] at before
    omega
  | inr now =>
    rw [isListed.1] at now
    unfold Local.freedNow at now
    rw [phase] at now
    obtain ⟨k, bound, same⟩ := mem_take_iff_getElem.mp now
    obtain ⟨position, here⟩ := List.getElem?_eq_some_iff.mp found
    have nodup : ((s.own t).retiredObjects (epoch % maxEpoch)).Nodup :=
      books.listed t _ ▸ books.once.sublist (filter_sublist.map _)
    have equal := nodup.getElem_inj_iff.mp (same.trans here.symm)
    omega

variable (grown : s.Grown s' t) (retired : s'.retired = s.retired)
  (unlinked : s'.unlinked = s.unlinked)
include grown retired unlinked

/-- The books after a step of a thread. -/
theorem BooksSound.moved (isListed : s'.Listed t) (freedOnce : s'.freed.Nodup)
    (freedRetired : ∀ o ∈ s'.freed, o ∈ s.retired.map Retirement.object)
    (mine : ∀ r ∈ s.retired, r.thread = t → (r.object ∈ s'.freed ↔ s'.Done r))
    (others : ∀ r ∈ s.retired, r.thread ≠ t → (r.object ∈ s'.freed ↔ r.object ∈ s.freed)) :
    s'.BooksSound := by
  refine ⟨?_, fun u => ?_, retired ▸ books.once, ?_, freedOnce, retired ▸ freedRetired, ?_⟩
  · rw [retired]
    exact fun r member => Nat.le_trans (books.stamped r member) (grown.localGrown _)
  · by_cases own : u = t
    · rw [own]
      exact isListed
    · exact (books.listed u).kept retired (by rw [grown.othersOwn u own])
        (by rw [grown.othersOwn u own])
  · rw [retired, unlinked]
    exact books.apart
  · rw [retired]
    intro r member
    by_cases own : r.thread = t
    · exact mine r member own
    · rw [others r member own, books.freedDone r member]
      unfold Done
      rw [grown.othersOwn r.thread own]

/-- A step that frees nothing. -/
theorem BooksSound.quiet (freed : s'.freed = s.freed)
    (last : (s'.own t).lastFreedEpoch = (s.own t).lastFreedEpoch)
    (lists : (s'.own t).retiredObjects = (s.own t).retiredObjects)
    (now : (s'.own t).freedNow = (s.own t).freedNow) : s'.BooksSound := by
  apply books.moved grown retired unlinked ((books.listed t).kept retired last lists)
  · rw [freed]
    exact books.freedOnce
  · rw [freed]
    exact books.freedRetired
  · intro r member mine
    rw [freed, books.freedDone r member]
    unfold Done
    rw [mine, last, now]
  · intro r _ _
    rw [freed]

/-- An object is freed. -/
theorem BooksSound.frees {o : Object} (phase : (s.own t).phase = .reclaim epoch i)
    (found : ((s.own t).retiredObjects (epoch % maxEpoch))[i]? = some o)
    (own : s'.own t = { s.own t with phase := .reclaim epoch (i + 1) })
    (freed : s'.freed = s.freed ++ [o]) : s'.BooksSound := by
  have inList := mem_of_getElem? found
  obtain ⟨r', member', same⟩ := books.list_retired inList
  apply books.moved grown retired unlinked ((books.listed t).kept retired (by rw [own])
    (by rw [own]))
  · rw [freed, nodup_append]
    exact ⟨books.freedOnce, nodup_singleton o, fun a before b last => by
      rw [mem_singleton.mp last]
      exact fun same => books.fresh phase found (same ▸ before)⟩
  · rw [freed]
    intro a member
    cases mem_append.mp member with
    | inl before => exact books.freedRetired a before
    | inr last =>
      rw [mem_singleton.mp last]
      exact mem_map.mpr ⟨r', member', same⟩
  · intro r member mine
    have now : (s.own t).freedNow = ((s.own t).retiredObjects (epoch % maxEpoch)).take i := by
      unfold Local.freedNow
      rw [phase]
    have next : ({ s.own t with phase := .reclaim epoch (i + 1) } : Local).freedNow =
        ((s.own t).retiredObjects (epoch % maxEpoch)).take i ++ [o] := by
      show ((s.own t).retiredObjects (epoch % maxEpoch)).take (i + 1) = _
      rw [take_add_one, found]
      rfl
    rw [freed, mem_append, mem_singleton, books.freedDone r member]
    unfold Done
    rw [mine, own, now, next, mem_append, mem_singleton, or_assoc]
  · intro r member other
    rw [freed, mem_append, mem_singleton]
    apply or_iff_left
    intro isIt
    have equal := books.eq_of_object member member' (isIt.trans same.symm)
    rw [← same] at inList
    exact other (equal ▸ ((books.mem_list member').mp inList).1)

/-- A list is cleared. -/
theorem BooksSound.clears (epochs : s.EpochsSound) (phase : (s.own t).phase = .reclaim epoch i)
    (ended : ((s.own t).retiredObjects (epoch % maxEpoch))[i]? = none)
    (own : s'.own t = reclaimed (s.own t) epoch) (freed : s'.freed = s.freed) : s'.BooksSound := by
  have here := epochs.phases t
  unfold PhaseSound at here
  simp only [phase] at here
  have last : (s.own t).lastFreedEpoch = epoch - 1 := by omega
  -- what is freed with an epoch: of the objects not yet taken off the lists, those in its list
  have recent (r : Retirement pod) (member : r ∈ s.retired) (mine : r.thread = t) :
      reclaimedWith r.epoch ≤ epoch ↔ reclaimedWith r.epoch ≤ epoch - 1 ∨
        r.epoch % maxEpoch = epoch % maxEpoch ∧ epoch - 1 < reclaimedWith r.epoch := by
    have stamp := books.stamped r member
    rw [mine] at stamp
    unfold reclaimedWith maxEpoch
    split <;> omega
  apply books.moved grown retired unlinked
  · intro slot
    rw [own, retired]
    show Function.update (s.own t).retiredObjects (epoch % maxEpoch) [] slot = _
    by_cases isSlot : slot = epoch % maxEpoch
    · rw [isSlot, Function.update_self, eq_comm, map_eq_nil_iff, filter_eq_nil_iff]
      intro r member
      simp only [decide_eq_true_eq]
      intro both
      have split := recent r member both.1
      have late : epoch < reclaimedWith r.epoch := both.2.2
      omega
    · rw [Function.update_of_ne isSlot, books.listed t slot, last]
      apply congrArg
      apply filter_congr
      intro r member
      apply decide_eq_decide.mpr
      show _ ↔ r.thread = t ∧ r.epoch % maxEpoch = slot ∧ epoch < reclaimedWith r.epoch
      constructor
      · intro all
        have split := recent r member all.1
        exact ⟨all.1, all.2.1, by omega⟩
      · intro all
        exact ⟨all.1, all.2.1, by omega⟩
  · rw [freed]
    exact books.freedOnce
  · rw [freed]
    exact books.freedRetired
  · intro r member mine
    have now : (s.own t).freedNow = (s.own t).retiredObjects (epoch % maxEpoch) := by
      unfold Local.freedNow
      rw [phase]
      exact take_of_length_le (getElem?_eq_none_iff.mp ended)
    have next : (reclaimed (s.own t) epoch).freedNow = [] := rfl
    rw [freed, books.freedDone r member]
    unfold Done
    rw [mine, own, now, next, books.mem_list member, last]
    show _ ↔ reclaimedWith r.epoch ≤ epoch ∨ r.object ∈ []
    have split := recent r member mine
    simp only [mine, true_and, not_mem_nil, or_false]
    exact split.symm
  · intro r _ _
    rw [freed]

omit grown retired unlinked in
/-- Every access keeps the books. -/
theorem BooksSound.accessed (epochs : s.EpochsSound) (moved : s.Accessed s' t) : s'.BooksSound := by
  cases moved.disposed with
  | quiet freed last lists now =>
    exact books.quiet moved.grown moved.retired moved.unlinked freed last lists now
  | frees epoch i o phase found own freed =>
    exact books.frees moved.grown moved.retired moved.unlinked phase found own freed
  | clears epoch i phase ended own freed =>
    exact books.clears moved.grown moved.retired moved.unlinked epochs phase ended own freed

end

/-- What is known of a running thread. -/
theorem running_known (epochs : s.EpochsSound) (running : (s.own t).phase = .running) :
    (s.own t).lastFreedEpoch = s.localEpoch t - 2 ∧ (s.own t).freedNow = [] := by
  have here := epochs.phases t
  unfold PhaseSound at here
  simp only [running] at here
  exact ⟨here, freedNow_eq_nil (by simp [running])⟩

/-- The list of an epoch is not yet due. -/
theorem lt_reclaimedWith (epoch : Nat) : epoch - 2 < reclaimedWith epoch := by
  unfold reclaimedWith maxEpoch
  split <;> omega

/-- The lists after a retirement. -/
theorem addRetiredObject_own (s : State pod) (t : pod.Thread) (o : Object) :
    (s.addRetiredObject t o).own t = { s.own t with
      retiredObjects := Function.update (s.own t).retiredObjects (s.localEpoch t % maxEpoch)
        ((s.own t).retiredObjects (s.localEpoch t % maxEpoch) ++ [o]) } := withOwn_own_self s t _

/-- A retirement grows. -/
theorem addRetiredObject_grown (s : State pod) (t : pod.Thread) (o : Object) :
    s.Grown (s.addRetiredObject t o) t :=
  ⟨Nat.le_refl _, fun _ => Nat.le_refl _, fun _ other => withOwn_own_of_ne s _ other,
    fun _ _ => rfl⟩

/-- The epochs after a retirement. -/
theorem EpochsSound.addRetiredObject (epochs : s.EpochsSound)
    (running : (s.own t).phase = .running) :
    (s.addRetiredObject t o).EpochsSound := by
  apply epochs.moved (addRetiredObject_grown s t o) rfl rfl
  unfold PhaseSound
  rw [addRetiredObject_own]
  simp only [running]
  exact (running_known epochs running).1

/-- The lists are right after it. -/
theorem Listed.addRetiredObject (epochs : s.EpochsSound)
    (running : (s.own t).phase = .running) (isListed : ∀ u, s.Listed u) (u : pod.Thread) :
    (s.addRetiredObject t o).Listed u := by
  intro slot
  show ((s.addRetiredObject t o).own u).retiredObjects slot =
    ((s.retired ++ [(⟨t, s.localEpoch t, o⟩ : Retirement pod)]).filter _).map _
  rw [filter_append, map_append]
  by_cases mine : u = t
  · rw [mine, addRetiredObject_own]
    have known := (running_known epochs running).1
    have recent := lt_reclaimedWith (s.localEpoch t)
    by_cases isSlot : slot = s.localEpoch t % maxEpoch
    · rw [isSlot]
      show Function.update _ _ _ _ = _
      rw [Function.update_self, isListed t]
      apply congrArg
      rw [filter_cons_of_pos (by simp [known, recent])]
      rfl
    · show Function.update _ _ _ _ = _
      rw [Function.update_of_ne isSlot, isListed t]
      rw [filter_cons_of_neg (by
        simp only [decide_eq_true_eq]
        exact fun all => isSlot all.2.1.symm)]
      exact (append_nil _).symm
  · rw [(addRetiredObject_grown s t o).othersOwn u mine, isListed u,
      filter_cons_of_neg (by
        simp only [decide_eq_true_eq]
        exact fun all => mine all.1.symm)]
    exact (append_nil _).symm

/-- The books after a retirement. -/
theorem BooksSound.addRetiredObject
    (books : s.BooksSound) (epochs : s.EpochsSound) (running : (s.own t).phase = .running)
    (apart : o ∈ s.unlinked) (new : o ∉ s.retired.map Retirement.object) :
    (s.addRetiredObject t o).BooksSound := by
  have known := running_known epochs running
  have nothing : ((s.addRetiredObject t o).own t).freedNow = [] := by
    rw [addRetiredObject_own]
    exact freedNow_eq_nil (by simp [running])
  have last : ((s.addRetiredObject t o).own t).lastFreedEpoch = (s.own t).lastFreedEpoch := by
    rw [addRetiredObject_own]
  constructor
  · intro r member
    cases mem_append.mp member with
    | inl old => exact books.stamped r old
    | inr isNew =>
      rw [mem_singleton.mp isNew]
      exact Nat.le_refl _
  · exact Listed.addRetiredObject epochs running books.listed
  · show ((s.retired ++ [(⟨t, s.localEpoch t, o⟩ : Retirement pod)]).map _).Nodup
    rw [map_append, nodup_append]
    exact ⟨books.once, nodup_singleton o, fun a before b isNew same => by
      rw [same, mem_singleton.mp isNew] at before
      exact new before⟩
  · intro r member
    cases mem_append.mp member with
    | inl old => exact books.apart r old
    | inr isNew =>
      rw [mem_singleton.mp isNew]
      exact apart
  · exact books.freedOnce
  · intro a member
    show a ∈ (s.retired ++ [(⟨t, s.localEpoch t, o⟩ : Retirement pod)]).map _
    rw [map_append]
    exact mem_append_left _ (books.freedRetired a member)
  · intro r member
    cases mem_append.mp member with
    | inl old =>
      show r.object ∈ s.freed ↔ _
      rw [books.freedDone r old]
      unfold Done
      by_cases mine : r.thread = t
      · rw [mine, last, nothing, known.2]
      · rw [(addRetiredObject_grown s t o).othersOwn r.thread mine]
    | inr isNew =>
      rw [mem_singleton.mp isNew]
      have recent := lt_reclaimedWith (s.localEpoch t)
      constructor
      · exact fun already => absurd (books.freedRetired o already) new
      · intro done
        unfold Done at done
        cases done with
        | inl before =>
          have before : reclaimedWith (s.localEpoch t) ≤
              ((s.addRetiredObject t o).own t).lastFreedEpoch := before
          rw [last, known.1] at before
          omega
        | inr now =>
          have now : o ∈ ((s.addRetiredObject t o).own t).freedNow := now
          rw [nothing] at now
          cases now

end State

end UbApplication.Tigon.CxlEbr
