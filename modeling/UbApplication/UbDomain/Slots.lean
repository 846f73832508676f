import UbApplication.UbDomain.Device

/-!
# Taking and giving back slots of the pool

What `ud_slots_acquire` and `ud_slots_release` do to the banks. A bank in use has the heap and the
generation of its region; its slots are bits of a word.
-/

namespace UbApplication.UbDomain

open List
open Function (update_self update_of_ne)

section Bits

variable {word : BitVec 64} {slot other : Nat}

/-- The bit of a slot. -/
theorem slotBit_getLsbD (inside : slot < 64) :
    (slotBit slot).getLsbD other = decide (other = slot) := by
  rw [slotBit, BitVec.getLsbD_shiftLeft]
  by_cases here : other = slot
  · simp [here, inside]
  · have one : (1 : BitVec 64).getLsbD (other - slot) = decide (other - slot = 0) := by
      simp [BitVec.getLsbD_one]
    rw [one]
    by_cases below : other < slot
    · simp [here, below]
    · have positive : other - slot ≠ 0 := by omega
      simp [here, positive]

/-- A bit is set. -/
theorem set_bit (inside : slot < 64) :
    (word ||| slotBit slot).getLsbD other = (word.getLsbD other || decide (other = slot)) := by
  rw [BitVec.getLsbD_or, slotBit_getLsbD inside]

/-- A bit is cleared. -/
theorem clear_bit (inside : slot < 64) :
    (word &&& ~~~slotBit slot).getLsbD other = (word.getLsbD other && !decide (other = slot)) := by
  rw [BitVec.getLsbD_and, BitVec.getLsbD_not, slotBit_getLsbD inside]
  by_cases bound : other < 64
  · simp [bound]
  · simp [BitVec.getLsbD_of_ge word other (by omega)]

/-- Set and cleared again. -/
theorem clear_set_bit (inside : slot < 64) (free : word.getLsbD slot = false) :
    (word ||| slotBit slot) &&& ~~~slotBit slot = word := by
  apply BitVec.eq_of_getLsbD_eq
  intro i _
  rw [clear_bit inside, set_bit inside]
  by_cases here : i = slot
  · simp [here, free]
  · simp [here]

end Bits

section Banks

variable {banks : Banks} {heap generation : BitVec 64}

/-- What the scan of banks finds. -/
theorem scanBanks_spec {list : List (Fin 16)} {empty : Option (Fin 16)}
    {found : Option (Fin 16) × Option (Fin 16)}
    (scanned : scanBanks banks heap generation list empty = .ok found) :
    (∀ i, found.1 = some i → i ∈ list ∧ (banks i).heap = heap ∧ (banks i).heap ≠ 0 ∧
      (banks i).generation = generation) ∧
    (found.1 = none → ∀ i ∈ list, (banks i).heap = 0 ∨ (banks i).heap ≠ heap) ∧
    (∀ i, found.2 = some i → empty = some i ∨ (i ∈ list ∧ (banks i).heap = 0)) := by
  induction list generalizing empty with
  | nil =>
    cases scanned
    exact ⟨fun i wrong => (nomatch wrong), fun _ i wrong => (nomatch wrong), fun i here =>
      .inl here⟩
  | cons j rest ih =>
    rw [scanBanks] at scanned
    split at scanned
    case isTrue zero =>
      obtain ⟨one, two, three⟩ := ih scanned
      refine ⟨fun i here => ⟨mem_cons_of_mem _ (one i here).1, (one i here).2⟩,
        fun none i member => ?_, fun i here => ?_⟩
      · rcases mem_cons.mp member with rfl | later
        · exact .inl zero
        · exact two none i later
      · rcases three i here with before | ⟨later, free⟩
        · cases empty with
          | none =>
            cases before
            exact .inr ⟨mem_cons_self, zero⟩
          | some first => exact .inl before
        · exact .inr ⟨mem_cons_of_mem _ later, free⟩
    case isFalse used =>
      split at scanned
      case isTrue same =>
        split at scanned
        case isTrue => contradiction
        case isFalse current =>
          cases scanned
          refine ⟨fun i here => ?_, fun wrong => (nomatch wrong), fun i here => .inl here⟩
          cases here
          exact ⟨mem_cons_self, same, used, not_not.mp current⟩
      case isFalse different =>
        obtain ⟨one, two, three⟩ := ih scanned
        refine ⟨fun i here => ⟨mem_cons_of_mem _ (one i here).1, (one i here).2⟩,
          fun none i member => ?_, fun i here => ?_⟩
        · rcases mem_cons.mp member with rfl | later
          · exact .inr different
          · exact two none i later
        · rcases three i here with before | ⟨later, free⟩
          · exact .inl before
          · exact .inr ⟨mem_cons_of_mem _ later, free⟩

/-- What taking a slot does: a bank of the heap, or an empty one that becomes it when no bank is of
the heap, gets one more slot in use. -/
structure Taken (banks : Banks) (heap generation : BitVec 64) (i : Fin 16) (slot : Nat)
    (after : Banks) : Prop where
  inside : slot < udClients
  some : heap ≠ 0
  current : generation ≠ 0
  free : (banks i).used.getLsbD slot = false
  bank : ((banks i).heap = heap ∧ (banks i).generation = generation) ∨
    ((banks i).heap = 0 ∧ ∀ j, (banks j).heap = 0 ∨ (banks j).heap ≠ heap)
  after : after = Function.update banks i
    { heap := heap
      generation := generation
      used := (banks i).used ||| slotBit slot
      quarantined := (banks i).quarantined }

variable {after : Banks}

/-- What an acquisition takes. -/
theorem slotsAcquire_taken {i : Fin 16} {slot : Nat}
    (acquired : slotsAcquire banks heap generation = .ok ((i, slot), after)) :
    Taken banks heap generation i slot after := by
  rw [slotsAcquire] at acquired
  split at acquired
  case isTrue => contradiction
  case isFalse given =>
    rw [not_or] at given
    cases chosen : chooseBank banks heap generation with
    | error error => simp [chosen] at acquired
    | ok found =>
      obtain ⟨bank, prepared⟩ := found
      simp only [chosen] at acquired
      cases looked : (List.range udClients).find? fun slot =>
        !(prepared bank).used.getLsbD slot with
      | none => simp [looked] at acquired
      | some place =>
        simp only [looked, Except.ok.injEq, Prod.mk.injEq] at acquired
        obtain ⟨⟨rfl, rfl⟩, rfl⟩ := acquired
        have inside : place < udClients := mem_range.mp (mem_of_find?_eq_some looked)
        have free : (prepared bank).used.getLsbD place = false := by
          simpa using find?_some looked
        rw [chooseBank] at chosen
        cases scanned : scanBanks banks heap generation (List.finRange 16) none with
        | error error => simp [scanned] at chosen
        | ok pair =>
          obtain ⟨one, two, three⟩ := scanBanks_spec scanned
          obtain ⟨present, empty⟩ := pair
          cases present with
          | some j =>
            simp only [scanned, Except.ok.injEq, Prod.mk.injEq] at chosen
            obtain ⟨rfl, rfl⟩ := chosen
            obtain ⟨-, same, -, generation⟩ := one j rfl
            exact ⟨inside, given.1, given.2, free, .inl ⟨same, generation⟩, by
              rw [← same, ← generation]⟩
          | none =>
            cases empty with
            | none => simp [scanned] at chosen
            | some j =>
              simp only [scanned, Except.ok.injEq, Prod.mk.injEq] at chosen
              obtain ⟨rfl, rfl⟩ := chosen
              rcases three j rfl with wrong | ⟨-, zero⟩
              · contradiction
              · simp only [update_self] at free
                refine ⟨inside, given.1, given.2, free, .inr ⟨zero, fun k => ?_⟩, ?_⟩
                · exact two rfl k (mem_finRange k)
                · simp only [update_self, Function.update_idem]

/-- A release after it. -/
theorem Taken.release_used {i : Fin 16} {slot : Nat} {reusable : Bool}
    (taken : Taken banks heap generation i slot after) (j : Fin 16) :
    (slotsRelease after i slot false reusable j).used = (banks j).used := by
  have small : slot < 64 := Nat.lt_trans taken.inside (by decide)
  have cleared := clear_set_bit small taken.free
  by_cases here : j = i
  · subst here
    have off : ¬ ((false && !reusable) = true) := by simp
    simp only [slotsRelease, if_neg off, taken.after, update_self, cleared]
    split <;> rfl
  · simp only [slotsRelease, taken.after, update_of_ne here]

/-- The banks are as they were, or a slot was taken and given back unused. -/
def Restored (before after : Banks) : Prop :=
  after = before ∨ ∃ heap generation i slot taken reusable,
    slotsAcquire before heap generation = .ok ((i, slot), taken) ∧
      after = slotsRelease taken i slot false reusable

/-- The slots in use stay. -/
theorem Restored.used {before : Banks} (restored : Restored before after) (i : Fin 16) :
    (after i).used = (before i).used := by
  rcases restored with rfl | ⟨heap, generation, j, slot, taken, reusable, acquired, rfl⟩
  · rfl
  · exact (slotsAcquire_taken acquired).release_used i

/-- The banks account for the slots that are held: a slot in use is held or in quarantine. -/
structure BanksSound (banks : Banks) (held : Fin 16 → Nat → Prop) : Prop where
  heaps : ∀ i j, (banks i).heap ≠ 0 → (banks i).heap = (banks j).heap → i = j
  empty : ∀ i, (banks i).heap = 0 → (banks i).used = 0 ∧ (banks i).quarantined = 0
  holds : ∀ i slot, held i slot → slot < udClients ∧ (banks i).used.getLsbD slot = true ∧
    (banks i).quarantined.getLsbD slot = false
  within : ∀ i slot, (banks i).quarantined.getLsbD slot = true → (banks i).used.getLsbD slot = true
  accounted : ∀ i slot, (banks i).used.getLsbD slot = true →
    (banks i).quarantined.getLsbD slot = true ∨ held i slot

section Sound

variable {held : Fin 16 → Nat → Prop} {i : Fin 16} {slot : Nat}

/-- A bank in use has a heap. -/
theorem BanksSound.heap_ne (sound : BanksSound banks held)
    (used : (banks i).used.getLsbD slot = true) : (banks i).heap ≠ 0 := by
  intro none
  rw [(sound.empty i none).1] at used
  simp at used

/-- Empty banks are sound. -/
theorem banksSound_empty (nothing : ∀ i slot, ¬ held i slot)
    (blank : ∀ i, banks i = ⟨0, 0, 0, 0⟩) : BanksSound banks held where
  heaps i j some _ := absurd (by rw [blank]) some
  empty i _ := by rw [blank]; exact ⟨rfl, rfl⟩
  holds i slot here := absurd here (nothing i slot)
  within i slot here := by rw [blank] at here; simp at here
  accounted i slot here := by rw [blank] at here; simp at here

variable {held' : Fin 16 → Nat → Prop}

/-- The same holders. -/
theorem BanksSound.congr (sound : BanksSound banks held)
    (same : ∀ i slot, held' i slot ↔ held i slot) : BanksSound banks held' := by
  have equal : held' = held := by
    funext i slot
    exact propext (same i slot)
  exact equal ▸ sound

/-- What one bank says of its slots. -/
structure BankSound (bank : Bank) (held : Nat → Prop) : Prop where
  empty : bank.heap = 0 → bank.used = 0 ∧ bank.quarantined = 0
  holds : ∀ slot, held slot → slot < udClients ∧ bank.used.getLsbD slot = true ∧
    bank.quarantined.getLsbD slot = false
  within : ∀ slot, bank.quarantined.getLsbD slot = true → bank.used.getLsbD slot = true
  accounted : ∀ slot, bank.used.getLsbD slot = true → bank.quarantined.getLsbD slot = true ∨
    held slot

/-- One bank changes. -/
theorem BanksSound.update {bank : Bank} (sound : BanksSound banks held)
    (alone : bank.heap ≠ 0 → ∀ j, j ≠ i → (banks j).heap ≠ bank.heap)
    (after : BankSound bank (held' i))
    (others : ∀ j place, j ≠ i → (held' j place ↔ held j place)) :
    BanksSound (Function.update banks i bank) held' := by
  have each : ∀ j, BankSound (Function.update banks i bank j) (held' j) := by
    refine (Function.forall_update_iff banks fun j b => BankSound b (held' j)).mpr ⟨after, ?_⟩
    exact fun j left => ⟨sound.empty j,
      fun place now => sound.holds j place ((others j place left).mp now), sound.within j,
      fun place used => (sound.accounted j place used).imp_right (others j place left).mpr⟩
  refine ⟨fun j k some same => ?_, fun j => (each j).empty, fun j => (each j).holds,
    fun j => (each j).within, fun j => (each j).accounted⟩
  by_cases left : j = i
  · by_cases right : k = i
    · rw [left, right]
    · rw [left, update_self] at some same
      rw [update_of_ne right] at same
      exact absurd same.symm (alone some k right)
  · rw [update_of_ne left] at some same
    by_cases right : k = i
    · rw [right, update_self] at same
      exact absurd same (alone (same ▸ some) j left)
    · rw [update_of_ne right] at same
      exact sound.heaps j k some same

variable {after : Banks} {j : Fin 16} {place : Nat}

/-- A slot is taken. -/
theorem BanksSound.take (sound : BanksSound banks held)
    (taken : Taken banks heap generation i slot after) :
    BanksSound after fun j place => held j place ∨ (j = i ∧ place = slot) := by
  have small : slot < 64 := Nat.lt_trans taken.inside (by decide)
  have fresh : (banks i).quarantined.getLsbD slot = false := by
    cases here : (banks i).quarantined.getLsbD slot with
    | false => rfl
    | true => exact absurd (taken.free.symm.trans (sound.within i slot here)) (by decide)
  rw [taken.after]
  refine sound.update (fun some j different same => ?_) ⟨fun zero => absurd zero taken.some, ?_, ?_,
    ?_⟩ fun j place left => or_iff_left fun both => left both.1
  · -- a bank of the heap was there before exactly when the slot is taken of it
    rcases taken.bank with ⟨mine, -⟩ | ⟨-, none⟩
    · exact different (sound.heaps j i (same ▸ some) (same.trans mine.symm))
    · exact (none j).elim (fun zero => some (same.symm.trans zero)) fun wrong => wrong same
  · intro place held'
    simp only [set_bit small]
    rcases held' with old | ⟨-, rfl⟩
    · obtain ⟨inside, used, free⟩ := sound.holds i place old
      exact ⟨inside, by rw [used]; rfl, free⟩
    · exact ⟨taken.inside, by simp, fresh⟩
  · intro place quarantined
    simp only [set_bit small]
    rw [sound.within i place quarantined]
    rfl
  · intro place used
    simp only [set_bit small, Bool.or_eq_true, decide_eq_true_eq] at used
    rcases used with old | now
    · exact (sound.accounted i place old).imp_right .inl
    · exact .inr (.inr ⟨rfl, now⟩)

/-- The other slots stay. -/
theorem BanksSound.take_heap (sound : BanksSound banks held)
    (taken : Taken banks heap generation i slot after)
    (used : (banks j).used.getLsbD place = true) :
    (after j).heap = (banks j).heap ∧ (after j).used.getLsbD place = true ∧
      (after j).quarantined.getLsbD place = (banks j).quarantined.getLsbD place := by
  have small : slot < 64 := Nat.lt_trans taken.inside (by decide)
  rw [taken.after]
  by_cases here : j = i
  · subst here
    rw [update_self]
    refine ⟨?_, ?_, rfl⟩
    · rcases taken.bank with ⟨mine, -⟩ | ⟨none, -⟩
      · exact mine.symm
      · exact absurd none (sound.heap_ne used)
    · rw [set_bit small, used]
      rfl
  · rw [update_of_ne here]
    exact ⟨rfl, used, rfl⟩

/-- A slot goes into quarantine. -/
theorem slotsRelease_quarantine {exposed reusable : Bool} (kept : (exposed && !reusable) = true)
    (used : (banks i).used.getLsbD slot = true) :
    slotsRelease banks i slot exposed reusable = Function.update banks i
      { banks i with quarantined := (banks i).quarantined ||| slotBit slot } := by
  have some : (banks i).used ≠ 0 := by
    intro none
    rw [none] at used
    simp at used
  simp only [slotsRelease, kept, if_true, some, if_false]

/-- A slot becomes free. -/
theorem slotsRelease_free {exposed reusable : Bool} (freed : (exposed && !reusable) = false) :
    slotsRelease banks i slot exposed reusable = Function.update banks i
      (if (banks i).used &&& ~~~slotBit slot = 0 then ⟨0, 0, 0, 0⟩
        else { banks i with used := (banks i).used &&& ~~~slotBit slot }) := by
  simp only [slotsRelease, freed, Bool.false_eq_true, if_false]
  by_cases last : (banks i).used &&& ~~~slotBit slot = 0
  · simp only [last, if_true]
  · simp only [last, if_false]

section

variable (sound : BanksSound banks held)
include sound

/-- A slot is given back. -/
theorem BanksSound.give (mine : held i slot) (exposed reusable : Bool) :
    BanksSound (slotsRelease banks i slot exposed reusable) fun j place =>
      held j place ∧ ¬ (j = i ∧ place = slot) := by
  obtain ⟨inside, used, free⟩ := sound.holds i slot mine
  have small : slot < 64 := Nat.lt_trans inside (by decide)
  have some := sound.heap_ne used
  have alone (j : Fin 16) (different : j ≠ i) : (banks j).heap ≠ (banks i).heap := fun same =>
    different (sound.heaps i j some same.symm).symm
  have others (j : Fin 16) (place : Nat) (left : j ≠ i) :
      (held j place ∧ ¬ (j = i ∧ place = slot)) ↔ held j place :=
    and_iff_left fun both => left both.1
  have apart {place : Nat} (now : ¬ (i = i ∧ place = slot)) : place ≠ slot :=
    fun same => now ⟨rfl, same⟩
  cases kept : exposed && !reusable with
  | true =>
    rw [slotsRelease_quarantine kept used]
    refine sound.update (fun _ => alone) ⟨fun zero => absurd zero some, ?_, ?_, ?_⟩ others
    · intro place here
      obtain ⟨bound, set, clear⟩ := sound.holds i place here.1
      simp only [set_bit small]
      exact ⟨bound, set, by simp [clear, apart here.2]⟩
    · intro place here
      simp only [set_bit small, Bool.or_eq_true, decide_eq_true_eq] at here
      rcases here with old | rfl
      · exact sound.within i place old
      · exact used
    · intro place here
      simp only [set_bit small, Bool.or_eq_true, decide_eq_true_eq]
      by_cases now : place = slot
      · exact .inl (.inr now)
      · exact (sound.accounted i place here).imp .inl fun old => ⟨old, fun both => now both.2⟩
  | false =>
    rw [slotsRelease_free kept]
    by_cases last : (banks i).used &&& ~~~slotBit slot = 0
    · rw [if_pos last]
      refine sound.update (fun wrong => absurd rfl wrong) ⟨fun _ => ⟨rfl, rfl⟩, ?_, ?_, ?_⟩ others
      · -- every other slot of the bank is free, so that nothing in it is held
        intro place here
        have bit := congrArg (·.getLsbD place) last
        simp only [clear_bit small, apart here.2, (sound.holds i place here.1).2.1] at bit
        simp at bit
      · intro place wrong
        simp at wrong
      · intro place wrong
        simp at wrong
    · rw [if_neg last]
      refine sound.update (fun _ => alone) ⟨fun zero => absurd zero some, ?_, ?_, ?_⟩ others
      · intro place here
        obtain ⟨bound, set, clear⟩ := sound.holds i place here.1
        simp only [clear_bit small]
        exact ⟨bound, by simp [set, apart here.2], clear⟩
      · intro place here
        have different : place ≠ slot := by
          rintro rfl
          exact absurd (here.symm.trans free) (by decide)
        simp only [clear_bit small]
        simp [sound.within i place here, different]
      · intro place here
        simp only [clear_bit small, Bool.and_eq_true, Bool.not_eq_true',
          decide_eq_false_iff_not] at here
        exact (sound.accounted i place here.1).imp_right fun old => ⟨old, fun both => here.2 both.2⟩

/-- The other slots stay. -/
theorem BanksSound.give_heap (mine : held i slot)
    (exposed reusable : Bool) (different : ¬ (j = i ∧ place = slot))
    (other : (banks j).used.getLsbD place = true) :
    (slotsRelease banks i slot exposed reusable j).heap = (banks j).heap ∧
      (slotsRelease banks i slot exposed reusable j).used.getLsbD place = true ∧
      (slotsRelease banks i slot exposed reusable j).quarantined.getLsbD place =
        (banks j).quarantined.getLsbD place := by
  obtain ⟨inside, used, free⟩ := sound.holds i slot mine
  have small : slot < 64 := Nat.lt_trans inside (by decide)
  by_cases here : j = i
  · subst here
    have apart : place ≠ slot := fun same => different ⟨rfl, same⟩
    cases kept : exposed && !reusable with
    | true =>
      rw [slotsRelease_quarantine kept used, update_self]
      refine ⟨rfl, other, ?_⟩
      rw [set_bit small]
      simp [apart]
    | false =>
      have still : ((banks j).used &&& ~~~slotBit slot).getLsbD place = true := by
        rw [clear_bit small, other]
        simp [apart]
      have some : (banks j).used &&& ~~~slotBit slot ≠ 0 := by
        intro none
        rw [none] at still
        simp at still
      rw [slotsRelease_free kept, update_self, if_neg some]
      exact ⟨rfl, still, rfl⟩
  · simp only [slotsRelease, update_of_ne here]
    exact ⟨trivial, other, trivial⟩

/-- The banks are restored. -/
theorem BanksSound.restore (restored : Restored banks after) : BanksSound after held := by
  rcases restored with rfl | ⟨heap, generation, i, slot, taken, reusable, acquired, rfl⟩
  · exact sound
  · have took := slotsAcquire_taken acquired
    have free : ¬ held i slot := fun mine =>
      absurd (took.free.symm.trans (sound.holds i slot mine).2.1) (by decide)
    refine ((sound.take took).give (.inr ⟨rfl, rfl⟩) false reusable).congr fun j place => ?_
    constructor
    · intro old
      refine ⟨.inl old, fun both => free ?_⟩
      rw [← both.1, ← both.2]
      exact old
    · exact fun both => both.1.resolve_right both.2

/-- The slots in use stay. -/
theorem BanksSound.restore_heap (restored : Restored banks after)
    (used : (banks j).used.getLsbD place = true) :
    (after j).heap = (banks j).heap ∧ (after j).used.getLsbD place = true ∧
      (after j).quarantined.getLsbD place = (banks j).quarantined.getLsbD place := by
  rcases restored with rfl | ⟨heap, generation, i, slot, taken, reusable, acquired, rfl⟩
  · exact ⟨rfl, used, rfl⟩
  · have took := slotsAcquire_taken acquired
    obtain ⟨first, still, same⟩ := sound.take_heap took used
    have different : ¬ (j = i ∧ place = slot) := by
      rintro ⟨rfl, rfl⟩
      exact absurd (took.free.symm.trans used) (by decide)
    have given := (sound.take took).give_heap (.inr ⟨rfl, rfl⟩) false reusable different still
    exact ⟨given.1.trans first, given.2.1, given.2.2.trans same⟩

end

end Sound

end Banks

end UbApplication.UbDomain
