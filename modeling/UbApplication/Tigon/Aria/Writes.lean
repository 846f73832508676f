import UbApplication.Tigon.Aria.Model

/-!
# Applying writes

Lists of writes without common keys may be applied in any order and in any interleaving: what is
left is what one list after the other leaves.
-/

namespace UbApplication.Tigon.Aria

open List
open Function (update update_of_ne update_self)

variable {Key Value : Type} [DecidableEq Key]

abbrev keysOf (writes : List (Key × Value)) : List Key := writes.map Prod.fst

variable {db : Database Key Value} {writes : List (Key × Value)} {key : Key}

/-- Keys that are not written stay. -/
theorem applyWrites_of_not_mem (other : key ∉ keysOf writes) :
    applyWrites db writes key = db key := by
  induction writes generalizing db with
  | nil => rfl
  | cons write writes ih =>
    have apart := not_or.mp (mt mem_cons.mpr other)
    show applyWrites (update db write.1 write.2) writes key = db key
    rw [ih apart.2, update_of_ne apart.1]

/-- Keys that are written do not depend on the database. -/
theorem applyWrites_of_mem {db' : Database Key Value}
    (written : key ∈ keysOf writes) : applyWrites db writes key = applyWrites db' writes key := by
  induction writes generalizing db db' with
  | nil => cases written
  | cons write writes ih =>
    show applyWrites (update db write.1 write.2) writes key =
      applyWrites (update db' write.1 write.2) writes key
    by_cases again : key ∈ keysOf writes
    · exact ih again
    · have here : key = write.1 := by
        cases mem_cons.mp written with
        | inl same => exact same
        | inr later => exact absurd later again
      rw [applyWrites_of_not_mem again, applyWrites_of_not_mem again, here, update_self,
        update_self]

/-- One list after the other. -/
theorem applyWrites_append (db : Database Key Value) (first second : List (Key × Value)) :
    applyWrites db (first ++ second) = applyWrites (applyWrites db first) second :=
  foldl_append

/-- A write to another key may come first. -/
theorem applyWrites_early {first second : List (Key × Value)}
    {value : Value} (apart : key ∉ keysOf first) :
    applyWrites db (first ++ (key, value) :: second) =
      applyWrites (update db key value) (first ++ second) := by
  rw [applyWrites_append, applyWrites_append]
  show applyWrites (update (applyWrites db first) key value) second = _
  apply congrArg (applyWrites · second)
  funext other
  by_cases written : other ∈ keysOf first
  · have differ : other ≠ key := fun same => apart (same ▸ written)
    rw [update_of_ne differ]
    exact applyWrites_of_mem written
  · rw [applyWrites_of_not_mem written]
    by_cases same : other = key
    · rw [same, update_self, update_self]
    · rw [update_of_ne same, update_of_ne same, applyWrites_of_not_mem written]

/-- Two lists of writes have no key in common. -/
def Apart (first second : List (Key × Value)) : Prop := ∀ key ∈ keysOf first, key ∉ keysOf second

/-- The list that has the key decides. -/
theorem applyWrites_flatten {lists : List (List (Key × Value))}
    (apart : lists.Pairwise Apart) (member : writes ∈ lists)
    (written : key ∈ keysOf writes) :
    applyWrites db lists.flatten key = applyWrites db writes key := by
  induction lists generalizing db with
  | nil => cases member
  | cons first lists ih =>
    have split := pairwise_cons.mp apart
    rw [flatten_cons, applyWrites_append]
    cases mem_cons.mp member with
    | inl same =>
      rw [same] at written ⊢
      apply applyWrites_of_not_mem
      intro again
      obtain ⟨write, inside, isKey⟩ := mem_map.mp again
      obtain ⟨other, later, here⟩ := mem_flatten.mp inside
      exact split.1 other later key written (isKey ▸ mem_map_of_mem here)
    | inr later =>
      rw [ih split.2 later]
      exact applyWrites_of_mem written

/-- Lists apart may come in any order. -/
theorem applyWrites_flatten_perm {lists lists' : List (List (Key × Value))}
    (apart : lists.Pairwise Apart) (perm : lists.Perm lists') :
    applyWrites db lists.flatten = applyWrites db lists'.flatten := by
  have apart' : lists'.Pairwise Apart :=
    perm.pairwise apart fun disjoint key inSecond inFirst => disjoint key inFirst inSecond
  funext key
  by_cases written : ∃ writes ∈ lists, key ∈ keysOf writes
  · obtain ⟨writes, member, isKey⟩ := written
    rw [applyWrites_flatten apart member isKey,
      applyWrites_flatten apart' (perm.mem_iff.mp member) isKey]
  · have never {all : List (List (Key × Value))} (same : ∀ writes, writes ∈ all → writes ∈ lists) :
        key ∉ keysOf all.flatten := by
      intro inside
      obtain ⟨write, member, isKey⟩ := mem_map.mp inside
      obtain ⟨writes, inAll, here⟩ := mem_flatten.mp member
      exact written ⟨writes, same writes inAll, isKey ▸ mem_map_of_mem here⟩
    rw [applyWrites_of_not_mem (never fun _ => id),
      applyWrites_of_not_mem (never fun _ member => perm.mem_iff.mpr member)]

namespace Writing

/-- What the writes that are pending will leave. -/
def Leads (goal : Database Key Value) (s : Writing Key Value) : Prop :=
  s.pending.Pairwise Apart ∧ applyWrites s.db s.pending.flatten = goal

/-- A write on its way leads to the same database. -/
theorem Leads.step {goal : Database Key Value} {s s' : Writing Key Value} (leads : s.Leads goal)
    (index : Nat) (stepped : s.step index = some s') : s'.Leads goal := by
  unfold Writing.step at stepped
  split at stepped
  case h_1 key value rest found =>
    cases stepped
    obtain ⟨bound, here⟩ := List.getElem?_eq_some_iff.mp found
    obtain ⟨before, after, parts, _, parts'⟩ : ∃ before after,
        s.pending = before ++ s.pending[index] :: after ∧ before.length = index ∧
          s.pending.set index rest = before ++ rest :: after := exists_of_set bound
    rw [here] at parts
    have apart := leads.1
    rw [parts] at apart
    have split := pairwise_append.mp apart
    have splitHere := pairwise_cons.mp split.2.1
    constructor
    · show (s.pending.set index rest).Pairwise Apart
      rw [parts']
      apply pairwise_append.mpr
      refine ⟨split.1, pairwise_cons.mpr ⟨fun writes member other inside => ?_, splitHere.2⟩, ?_⟩
      · exact splitHere.1 writes member other (mem_cons_of_mem _ inside)
      · intro first inFirst second inSecond
        cases mem_cons.mp inSecond with
        | inl same =>
          intro other inside again
          exact split.2.2 first inFirst _ mem_cons_self other inside
            (mem_cons_of_mem _ (same ▸ again))
        | inr later => exact split.2.2 first inFirst second (mem_cons_of_mem _ later)
    · show applyWrites (update s.db key value) (s.pending.set index rest).flatten = goal
      have early : key ∉ keysOf before.flatten := by
        intro inside
        obtain ⟨write, member, isKey⟩ := mem_map.mp inside
        obtain ⟨writes, inBefore, isHere⟩ := mem_flatten.mp member
        exact split.2.2 writes inBefore _ mem_cons_self key
          (isKey ▸ mem_map_of_mem isHere) mem_cons_self
      rw [parts', flatten_append, flatten_cons, ← applyWrites_early early, ← leads.2, parts,
        flatten_append, flatten_cons]
      rfl
  case h_2 => cases stepped

end Writing

end UbApplication.Tigon.Aria
