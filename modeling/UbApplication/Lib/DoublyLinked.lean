import Mathlib.Data.List.Basic

/-!
# Doubly linked lists in a store

A store gives every address a predecessor and a successor. A list of addresses is
chained when each of them points at its neighbours, with given end markers. Appending,
framing and insertion behind an element are the rules a store that links a new element
in place needs.
-/

namespace DoublyLinked

variable {A : Type}

/-- Every address of the list points back to the one before it and forward to the one
after it; the outer neighbours are the given end markers. -/
def Chain (prevOf nextOf : A → A) (before : A) : List A → A → Prop
  | [], _ => True
  | addr :: rest, after => (prevOf addr = before ∧ nextOf addr = rest.headD after) ∧
      Chain prevOf nextOf addr rest after

variable {prevOf nextOf prevOf' nextOf' : A → A}

/-- A chain splits at every position; the halves point at each other. -/
theorem chain_append (before : A) (left right : List A) (after : A) :
    Chain prevOf nextOf before (left ++ right) after ↔
      Chain prevOf nextOf before left (right.headD after) ∧
        Chain prevOf nextOf (left.getLastD before) right after := by
  induction left generalizing before with
  | nil => simp [Chain]
  | cons addr rest ih =>
    have head : (rest ++ right).headD after = rest.headD (right.headD after) := by
      cases rest <;> simp
    simp only [List.cons_append, Chain, ih, head, List.getLastD_cons, and_assoc]

/-- A chain only depends on the links of its own addresses. -/
theorem Chain.congr {before after : A} {list : List A}
    (chain : Chain prevOf nextOf before list after)
    (prevs : ∀ addr ∈ list, prevOf' addr = prevOf addr)
    (nexts : ∀ addr ∈ list, nextOf' addr = nextOf addr) :
    Chain prevOf' nextOf' before list after := by
  induction list generalizing before with
  | nil => trivial
  | cons addr rest ih =>
    obtain ⟨⟨prev, next⟩, tail⟩ := chain
    refine ⟨⟨?_, ?_⟩, ih tail ?_ ?_⟩
    · rw [prevs addr (by simp), prev]
    · rw [nexts addr (by simp), next]
    · exact fun other member => prevs other (by simp [member])
    · exact fun other member => nexts other (by simp [member])

/-- Linking a new element behind an element of the chain: the new element points at both
neighbours, its neighbours point at it, and nothing else changes. -/
theorem Chain.insert {before after addr fresh : A} {left right : List A}
    (chain : Chain prevOf nextOf before (left ++ addr :: right) after)
    (freshPrev : prevOf' fresh = addr) (freshNext : nextOf' fresh = nextOf addr)
    (addrPrev : prevOf' addr = prevOf addr) (addrNext : nextOf' addr = fresh)
    (headPrev : ∀ head ∈ right.head?, prevOf' head = fresh)
    (headNext : ∀ head ∈ right.head?, nextOf' head = nextOf head)
    (others : ∀ other ∈ left ++ right.tail, prevOf' other = prevOf other ∧
      nextOf' other = nextOf other) :
    Chain prevOf' nextOf' before (left ++ addr :: fresh :: right) after := by
  rw [chain_append] at chain ⊢
  obtain ⟨low, ⟨prev, next⟩, high⟩ := chain
  refine ⟨?_, ⟨by rw [addrPrev, prev], by rw [addrNext]; rfl⟩,
    ⟨freshPrev, by rw [freshNext, next]⟩, ?_⟩
  · refine Chain.congr (by simpa using low) ?_ ?_
    · exact fun other member => (others other (by simp [member])).1
    · exact fun other member => (others other (by simp [member])).2
  · cases right with
    | nil => trivial
    | cons head rest =>
      obtain ⟨⟨_, forward⟩, tail⟩ := high
      refine ⟨⟨headPrev head (by simp), by rw [headNext head (by simp), forward]⟩, tail.congr ?_ ?_⟩
      · exact fun other member => (others other (by simp [member])).1
      · exact fun other member => (others other (by simp [member])).2

end DoublyLinked
