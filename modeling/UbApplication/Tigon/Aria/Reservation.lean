import UbApplication.Tigon.Aria.Model

/-!
# What the reservations leave

Whatever the interleaving, the word of a key ends with the smallest reading and the smallest writing
transaction among those that have reserved the key. A transaction therefore finds a conflict exactly
when a smaller one has made the reservation that conflicts.
-/

namespace UbApplication.Tigon.Aria

open Function (update update_self update_of_ne)

variable {access : Access} {word : Word} {tid : Nat}

/-- A stamp that was set is read back. -/
theorem Access.stamp_setStamp (narrow : tid < 2 ^ 20) :
    access.stamp (access.setStamp word tid) = tid := by
  cases access with
  | read => exact BitField.get_set_self (by decide) narrow
  | write => exact BitField.get_set_self (by decide) narrow

/-- The other stamp stays. -/
theorem Access.stamp_setStamp_of_ne {other : Access} (narrow : tid < 2 ^ 20)
    (differ : other ≠ access) :
    other.stamp (access.setStamp word tid) = other.stamp word := by
  cases access with
  | read =>
    cases other with
    | read => exact absurd rfl differ
    | write => exact BitField.get_set_of_disjoint (by decide) narrow (by decide)
  | write =>
    cases other with
    | read => exact BitField.get_set_of_disjoint (by decide) narrow (by decide)
    | write => exact absurd rfl differ

/-- The epoch stays. -/
theorem Access.getEpoch_setStamp (narrow : tid < 2 ^ 20) :
    getEpoch (access.setStamp word tid) = getEpoch word := by
  cases access with
  | read => exact BitField.get_set_of_disjoint (by decide) narrow (by decide)
  | write => exact BitField.get_set_of_disjoint (by decide) narrow (by decide)

variable {epoch : Nat} {old : Word}

/-- A new epoch has no stamps. -/
theorem Access.stamp_setEpoch (access : Access) (narrow : epoch < 2 ^ 24) :
    access.stamp (setEpoch 0 epoch) = 0 := by
  have zero {offset : Nat} (below : offset + 20 ≤ 40) :
      BitField.get offset 20 (BitField.set 40 24 (0 : Word) epoch) = 0 := by
    rw [BitField.get_set_of_disjoint (by omega) narrow (.inl below), BitField.get_zero]
  cases access with
  | read => exact zero (by decide)
  | write => exact zero (by decide)

/-- What the word is before and after a successful exchange. -/
structure Exchanged (access : Access) (epoch tid : Nat) (old new : Word) : Prop where
  reached : getEpoch new = epoch
  stamped : access.stamp new = tid
  least : getEpoch old = epoch → access.stamp old ≠ 0 → tid ≤ access.stamp old
  others : getEpoch old = epoch → ∀ other, other ≠ access → other.stamp new = other.stamp old
  cleared : getEpoch old ≠ epoch → ∀ other, other ≠ access → other.stamp new = 0

/-- What an exchange puts into the word. -/
theorem reserve_exchange {new : Word} (narrow : tid < 2 ^ 20)
    (epochNarrow : epoch < 2 ^ 24) (tries : reserve access old epoch tid = .exchange new) :
    Exchanged access epoch tid old new := by
  unfold reserve at tries
  by_cases ahead : epoch < getEpoch old
  · rw [if_pos ahead] at tries
    cases tries
  · rw [if_neg ahead] at tries
    by_cases earlier : getEpoch old < epoch
    · rw [if_pos earlier] at tries
      cases tries
      constructor
      · rw [Access.getEpoch_setStamp narrow]
        exact BitField.get_set_self (by decide) epochNarrow
      · exact Access.stamp_setStamp narrow
      · intro same
        omega
      · intro same
        omega
      · intro _ other differ
        rw [Access.stamp_setStamp_of_ne narrow differ, Access.stamp_setEpoch other epochNarrow]
    · rw [if_neg earlier] at tries
      by_cases taken : access.stamp old < tid ∧ access.stamp old ≠ 0
      · rw [if_pos taken] at tries
        cases tries
      · rw [if_neg taken] at tries
        cases tries
        constructor
        · rw [Access.getEpoch_setStamp narrow]
          omega
        · exact Access.stamp_setStamp narrow
        · intro _ used
          omega
        · intro _ other differ
          exact Access.stamp_setStamp_of_ne narrow differ
        · intro differ
          omega

/-- When a reservation is given up. -/
theorem reserve_giveUp (left : reserve access old epoch tid = .giveUp) :
    getEpoch old = epoch ∧ access.stamp old ≠ 0 ∧ access.stamp old < tid := by
  unfold reserve at left
  by_cases ahead : epoch < getEpoch old
  · rw [if_pos ahead] at left
    cases left
  · rw [if_neg ahead] at left
    by_cases earlier : getEpoch old < epoch
    · rw [if_pos earlier] at left
      cases left
    · rw [if_neg earlier] at left
      by_cases taken : access.stamp old < tid ∧ access.stamp old ≠ 0
      · exact ⟨by omega, taken.2, taken.1⟩
      · rw [if_neg taken] at left
        cases left

/-- When the check fails. -/
theorem reserve_checkFailed (failed : reserve access old epoch tid = .checkFailed) :
    epoch < getEpoch old := by
  unfold reserve at failed
  by_cases ahead : epoch < getEpoch old
  · exact ahead
  · rw [if_neg ahead] at failed
    split at failed
    · cases failed
    · split at failed <;> cases failed

variable {Key : Type} {r : Reservation Key}

namespace Reserving

/-- What holds while the reservations are made. -/
structure Sound (epoch : Nat) (all : List (Reservation Key)) (s : Reserving Key) : Prop where
  bounded : ∀ key, getEpoch (s.words key) ≤ epoch
  owned : ∀ key access, getEpoch (s.words key) = epoch → access.stamp (s.words key) ≠ 0 →
    ∃ r ∈ all, r.key = key ∧ r.access = access ∧ r.tid = access.stamp (s.words key)
  made : ∀ index r, all[index]? = some r → s.progress index = .finished →
    getEpoch (s.words r.key) = epoch ∧ r.access.stamp (s.words r.key) ≠ 0 ∧
      r.access.stamp (s.words r.key) ≤ r.tid
  tried : ∀ index r old new, all[index]? = some r → s.progress index = .loaded old new →
    reserve r.access old epoch r.tid = .exchange new
  checked : ∀ index, s.progress index ≠ .failed

variable {epoch : Nat} {all : List (Reservation Key)} {s : Reserving Key} {index : Nat}

/-- Soundness after one reservation goes on. -/
theorem Sound.withProgress {progress : Progress}
    (sound : s.Sound epoch all) (found : all[index]? = some r)
    (made : progress = .finished → getEpoch (s.words r.key) = epoch ∧
      r.access.stamp (s.words r.key) ≠ 0 ∧ r.access.stamp (s.words r.key) ≤ r.tid)
    (tried : ∀ old new, progress = .loaded old new →
      reserve r.access old epoch r.tid = .exchange new)
    (checked : progress ≠ .failed) : (s.withProgress index progress).Sound epoch all where
  bounded := sound.bounded
  owned := sound.owned
  made i other isOther done := by
    have done : update s.progress index progress i = .finished := done
    by_cases here : i = index
    · rw [here, update_self] at done
      rw [here, found] at isOther
      cases isOther
      exact made done
    · rw [update_of_ne here] at done
      exact sound.made i other isOther done
  tried i other old new isOther ready := by
    have ready : update s.progress index progress i = .loaded old new := ready
    by_cases here : i = index
    · rw [here, update_self] at ready
      rw [here, found] at isOther
      cases isOther
      exact tried old new ready
    · rw [update_of_ne here] at ready
      exact sound.tried i other old new isOther ready
  checked i := by
    show update s.progress index progress i ≠ .failed
    by_cases here : i = index
    · rw [here, update_self]
      exact checked
    · rw [update_of_ne here]
      exact sound.checked i

/-- A load keeps soundness. -/
theorem Sound.load (sound : s.Sound epoch all) (found : all[index]? = some r) :
    (s.withProgress index (afterLoad epoch r (s.words r.key))).Sound epoch all := by
  unfold afterLoad
  cases attempt : reserve r.access (s.words r.key) epoch r.tid with
  | checkFailed =>
    have ahead := reserve_checkFailed attempt
    have bound := sound.bounded r.key
    omega
  | giveUp =>
    have smaller := reserve_giveUp attempt
    apply sound.withProgress found
    · intro _
      exact ⟨smaller.1, smaller.2.1, Nat.le_of_lt smaller.2.2⟩
    · intro _ _ wrong
      cases wrong
    · intro wrong
      cases wrong
  | exchange new =>
    apply sound.withProgress found
    · intro wrong
      cases wrong
    · intro old value ready
      cases ready
      exact attempt
    · intro wrong
      cases wrong

variable [DecidableEq Key]

/-- An exchange keeps soundness. -/
theorem Sound.exchange {new : Word} (sound : s.Sound epoch all) (found : all[index]? = some r)
    (positive : 0 < r.tid) (exchanged : Exchanged r.access epoch r.tid (s.words r.key) new) :
    ({ s.withProgress index .finished with words := update s.words r.key new } :
      Reserving Key).Sound epoch all where
  bounded key := by
    show getEpoch (update s.words r.key new key) ≤ epoch
    by_cases here : key = r.key
    · rw [here, update_self]
      exact exchanged.reached.le
    · rw [update_of_ne here]
      exact sound.bounded key
  owned key access := by
    show getEpoch (update s.words r.key new key) = epoch →
      access.stamp (update s.words r.key new key) ≠ 0 →
      ∃ other ∈ all, other.key = key ∧ other.access = access ∧
        other.tid = access.stamp (update s.words r.key new key)
    by_cases here : key = r.key
    · rw [here, update_self]
      intro _ used
      by_cases mine : access = r.access
      · rw [mine]
        exact ⟨r, List.mem_of_getElem? found, rfl, rfl, exchanged.stamped.symm⟩
      · -- the other stamp is the old one, or zero in a new word
        by_cases same : getEpoch (s.words r.key) = epoch
        · have kept := exchanged.others same access mine
          rw [kept] at used ⊢
          exact sound.owned r.key access same used
        · exact absurd (exchanged.cleared same access mine) used
    · rw [update_of_ne here]
      exact sound.owned key access
  made i other isOther done := by
    have done : update s.progress index .finished i = .finished := done
    show getEpoch (update s.words r.key new other.key) = epoch ∧
      other.access.stamp (update s.words r.key new other.key) ≠ 0 ∧
      other.access.stamp (update s.words r.key new other.key) ≤ other.tid
    by_cases here : i = index
    · rw [here, found] at isOther
      cases isOther
      rw [update_self, exchanged.stamped]
      exact ⟨exchanged.reached, Nat.ne_of_gt positive, Nat.le_refl _⟩
    · rw [update_of_ne here] at done
      have before := sound.made i other isOther done
      by_cases sameKey : other.key = r.key
      · rw [sameKey] at before
        rw [sameKey, update_self]
        by_cases mine : other.access = r.access
        · rw [mine] at before
          have least := exchanged.least before.1 before.2.1
          rw [mine, exchanged.stamped]
          exact ⟨exchanged.reached, Nat.ne_of_gt positive, Nat.le_trans least before.2.2⟩
        · rw [exchanged.others before.1 other.access mine]
          exact ⟨exchanged.reached, before.2⟩
      · rw [update_of_ne sameKey]
        exact before
  tried i other old value isOther ready := by
    have ready : update s.progress index .finished i = .loaded old value := ready
    by_cases here : i = index
    · rw [here, update_self] at ready
      cases ready
    · rw [update_of_ne here] at ready
      exact sound.tried i other old value isOther ready
  checked i := by
    show update s.progress index .finished i ≠ .failed
    by_cases here : i = index
    · rw [here, update_self]
      intro wrong
      cases wrong
    · rw [update_of_ne here]
      exact sound.checked i

/-- Every step keeps soundness. -/
theorem Sound.step {s' : Reserving Key} (sound : s.Sound epoch all) (epochNarrow : epoch < 2 ^ 24)
    (ids : ∀ r ∈ all, 0 < r.tid ∧ r.tid < 2 ^ 20) (label : ReserveLabel)
    (stepped : s.step epoch all label = some s') : s'.Sound epoch all := by
  unfold Reserving.step at stepped
  cases label with
  | load index =>
    simp only at stepped
    split at stepped
    case h_1 r found _ =>
      cases stepped
      exact sound.load found
    case h_2 => cases stepped
  | exchange index spurious =>
    simp only at stepped
    split at stepped
    case h_1 r old new found ready =>
      have range := ids r (List.mem_of_getElem? found)
      split at stepped
      case isTrue succeeds =>
        cases stepped
        have exchanged :=
          reserve_exchange range.2 epochNarrow (sound.tried index r old new found ready)
        rw [← succeeds.1] at exchanged
        exact sound.exchange found range.1 exchanged
      case isFalse =>
        cases stepped
        apply sound.withProgress found
        · intro wrong
          cases wrong
        · intro _ _ wrong
          cases wrong
        · intro wrong
          cases wrong
    case h_2 => cases stepped

end Reserving

end UbApplication.Tigon.Aria
