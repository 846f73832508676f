import Mathlib.Logic.Function.Basic

/-!
# Tables of slots

A table has a number in each slot, and zero where nothing is. Items are kept in it under their
slots, with a tag that is not zero. `Holds` says that a table has exactly the items of a set; it
stays true when an item is put into a free slot and when one is cleared, as long as no two items
share a slot.
-/

namespace SlotTable

open Function

variable {κ α : Type} {slot : α → κ} {tag : α → Nat} {table : κ → Nat}
  {Item : α → Prop}

/-- A table holds exactly the items of a set. -/
structure Holds (slot : α → κ) (tag : α → Nat) (table : κ → Nat) (Item : α → Prop) : Prop where
  here : ∀ item, Item item → table (slot item) = tag item
  only : ∀ place, table place ≠ 0 → ∃ item, Item item ∧ slot item = place

/-- An empty table. -/
theorem holds_empty (none : ∀ item, ¬ Item item) : Holds slot tag (fun _ => 0) Item :=
  ⟨fun item member => absurd member (none item), fun _ wrong => absurd rfl wrong⟩

/-- The same items. -/
theorem Holds.congr {Other : α → Prop} (holds : Holds slot tag table Item)
    (same : ∀ item, Other item ↔ Item item) : Holds slot tag table Other := by
  constructor
  · intro item member
    exact holds.here item ((same item).mp member)
  · intro place full
    obtain ⟨item, member, at_⟩ := holds.only place full
    exact ⟨item, (same item).mpr member, at_⟩

/-- A slot of no item is zero. -/
theorem Holds.free (holds : Holds slot tag table Item) {place : κ}
    (apart : ∀ item, Item item → slot item ≠ place) : table place = 0 := by
  by_contra full
  obtain ⟨item, member, at_⟩ := holds.only place full
  exact apart item member at_

variable [DecidableEq κ]

/-- One item more, in a slot that no other has. -/
theorem Holds.put (holds : Holds slot tag table Item) {new : α}
    (apart : ∀ item, Item item → slot item ≠ slot new) :
    Holds slot tag (Function.update table (slot new) (tag new)) fun item =>
    item = new ∨ Item item := by
  constructor
  · rintro item (rfl | member)
    · exact update_self ..
    · rw [update_of_ne (apart item member)]
      exact holds.here item member
  · intro place full
    by_cases same : place = slot new
    · exact ⟨new, .inl rfl, same.symm⟩
    · rw [update_of_ne same] at full
      obtain ⟨item, member, at_⟩ := holds.only place full
      exact ⟨item, .inr member, at_⟩

/-- An item is cleared. -/
theorem Holds.clear (holds : Holds slot tag table Item) {old : α}
    (apart : ∀ item, Item item → slot item = slot old → item = old) :
    Holds slot tag (Function.update table (slot old) 0) fun item => Item item ∧ item ≠ old := by
  constructor
  · rintro item ⟨member, other⟩
    rw [update_of_ne fun same => other (apart item member same)]
    exact holds.here item member
  · intro place full
    by_cases same : place = slot old
    · rw [same, update_self] at full
      exact absurd rfl full
    · rw [update_of_ne same] at full
      obtain ⟨item, member, at_⟩ := holds.only place full
      refine ⟨item, ⟨member, ?_⟩, at_⟩
      rintro rfl
      exact same at_.symm

end SlotTable
