import Mathlib.Data.List.Induction
import Mathlib.Data.List.Perm.Basic

/-!
# Runs of labelled machines

A machine takes labelled steps, and a step may be impossible. A run is a list of labels
taken one after the other. What every step with an admissible label preserves is preserved
by every run of such labels. Machines often keep a list of parties of which one takes a step;
what the parties own together then changes by what that one party owns.
-/

namespace Machine

variable {S L : Type}

/-- Take steps one after the other. -/
def run (step : S → L → Option S) (state : S) (labels : List L) : Option S :=
  labels.foldlM step state

variable {step : S → L → Option S} {state final : S}

/-- A run without steps. -/
@[simp] theorem run_nil : run step state [] = some state := rfl

variable {labels : List L}

/-- A run by its first step. -/
theorem run_cons {label : L} :
    run step state (label :: labels) = (step state label).bind fun next => run step next labels :=
  rfl

/-- A run in two parts. -/
theorem run_append {first second : List L} :
    run step state (first ++ second) =
      (run step state first).bind fun middle => run step middle second := by
  simp only [run, List.foldlM_append]
  rfl

/-- A run and one step more. -/
theorem run_snoc {label : L} {next : S} (taken : run step state labels = some final)
    (stepped : step final label = some next) : run step state (labels ++ [label]) = some next := by
  rw [run_append, taken, Option.bind_some, run_cons, stepped]
  rfl

/-- What the steps of a run say about the run so far holds at its end. -/
theorem run_history (Holds : List L → S → Prop) (first : Holds [] state)
    (kept : ∀ labels before label after, run step state labels = some before →
      Holds labels before → step before label = some after → Holds (labels ++ [label]) after)
    (taken : run step state labels = some final) : Holds labels final := by
  induction labels using List.reverseRecOn generalizing final with
  | nil =>
    cases taken
    exact first
  | append_singleton labels label ih =>
    rw [run_append] at taken
    obtain ⟨before, reached, last⟩ := Option.bind_eq_some_iff.mp taken
    rw [run_cons] at last
    obtain ⟨after, stepped, done⟩ := Option.bind_eq_some_iff.mp last
    cases done
    exact kept labels before label final reached (ih reached) stepped

/-- Every label of a run is admissible in the state it is taken in. -/
def Admits (Admissible : S → L → Prop) (step : S → L → Option S) : S → List L → Prop
  | _, [] => True
  | state, label :: labels =>
    Admissible state label ∧ ∀ next, step state label = some next →
      Admits Admissible step next labels

/-- Whether a run is admissible can be found out by taking it. -/
instance decidableAdmits (Admissible : S → L → Prop)
    [∀ state label, Decidable (Admissible state label)]
    (step : S → L → Option S) : ∀ state labels, Decidable (Admits Admissible step state labels)
  | _, [] => .isTrue trivial
  | state, label :: labels =>
    match here : step state label with
    | none => decidable_of_iff (Admissible state label)
        ⟨fun admissible => ⟨admissible, fun _ stepped => by rw [here] at stepped; contradiction⟩,
          And.left⟩
    | some next =>
      have := decidableAdmits Admissible step next labels
      decidable_of_iff (Admissible state label ∧ Admits Admissible step next labels)
        ⟨fun both => ⟨both.1, fun _ stepped => by
          rw [here] at stepped; cases stepped; exact both.2⟩,
          fun both => ⟨both.1, both.2 next here⟩⟩

/-- Whether a run goes through, and to where, can be found out by taking it. -/
instance decidableReaches {result : Option S} {Holds : S → Prop} [DecidablePred Holds] :
    Decidable (∃ state, result = some state ∧ Holds state) :=
  match result with
  | none => .isFalse (by simp)
  | some state => decidable_of_iff (Holds state) (by simp)

/-- A run that goes through ends in the state it returns. -/
theorem some_getD {result : Option S} (ends : result.isSome = true) (other : S) :
    result = some (result.getD other) := by
  obtain ⟨final, reached⟩ := Option.isSome_iff_exists.mp ends
  rw [reached, Option.getD_some]

variable {Admissible : S → L → Prop}

/-- Where every label of a run is admissible in every state the run is. -/
theorem admits_of_forall (every : ∀ label ∈ labels, ∀ state, Admissible state label) :
    Admits Admissible step state labels := by
  induction labels generalizing state with
  | nil => trivial
  | cons label labels ih =>
    exact ⟨every label List.mem_cons_self state, fun _ _ =>
      ih fun other member => every other (List.mem_cons_of_mem _ member)⟩

/-- A run that is admissible in two ways. -/
theorem Admits.and {One Two : S → L → Prop} (one : Admits One step state labels)
    (two : Admits Two step state labels) :
    Admits (fun state label => One state label ∧ Two state label) step state labels := by
  induction labels generalizing state with
  | nil => trivial
  | cons label labels ih =>
    exact ⟨⟨one.1, two.1⟩, fun next stepped => ih (one.2 next stepped) (two.2 next stepped)⟩

/-- What every step preserves where it is admissible holds at the end of every admitted run. -/
theorem run_admitted (Holds : S → Prop)
    (preserved : ∀ before label after, Holds before → Admissible before label → step before label =
      some after → Holds after) (admitted : Admits Admissible step state labels)
        (first : Holds state)
    (taken : run step state labels = some final) : Holds final := by
  induction labels generalizing state with
  | nil =>
    cases taken
    exact first
  | cons label labels ih =>
    rw [run_cons] at taken
    obtain ⟨next, stepped, rest⟩ := Option.bind_eq_some_iff.mp taken
    exact ih (admitted.2 next stepped) (preserved state label next first admitted.1 stepped) rest

/-- What every admissible step preserves holds at the end of every admissible run. -/
theorem run_invariant (Admissible : L → Prop) (Holds : S → Prop)
    (preserved : ∀ before label after, Holds before → Admissible label →
      step before label = some after → Holds after) (admissible : ∀ label ∈ labels,
        Admissible label) (first : Holds state)
    (taken : run step state labels = some final) : Holds final :=
  run_admitted Holds preserved (admits_of_forall fun label member _ => admissible label member)
    first taken

/-- When admissible steps are always possible and preserve something, every admissible run goes
through and preserves it. -/
theorem run_total (Holds : S → Prop)
    (progress : ∀ state label, Holds state → Admissible state label →
      ∃ next, step state label = some next ∧ Holds next) (first : Holds state)
        (admitted : Admits Admissible step state labels) :
    ∃ final, run step state labels = some final ∧ Holds final := by
  induction labels generalizing state with
  | nil => exact ⟨state, rfl, first⟩
  | cons label labels ih =>
    obtain ⟨next, stepped, holds⟩ := progress state label first admitted.1
    obtain ⟨final, taken, last⟩ := ih holds (admitted.2 next stepped)
    exact ⟨final, by rw [run_cons, stepped]; exact taken, last⟩

end Machine

namespace Parties

variable {P Q : Type}

/-- Parties that own nothing. -/
@[simp] theorem owned_nothing (parties : List P) :
    parties.flatMap (fun _ => ([] : List Q)) = [] := by
  simp

/-- What the chosen parties own. -/
theorem owned_filter (own : P → List Q) (chosen : P → Bool) (parties : List P) :
    (parties.filter chosen).flatMap own =
      parties.flatMap fun party => if chosen party then own party else [] := by
  induction parties with
  | nil => rfl
  | cons party parties ih =>
    cases here : chosen party <;> simp [here, ih]

variable {parties : List P} {index : Nat} {party : P}

/-- A party is one of the old ones or the one that has just joined. -/
theorem joined {newcomer : P} (found : (parties ++ [newcomer])[index]? = some party) :
    parties[index]? = some party ∨ (parties.length ≤ index ∧ party = newcomer) := by
  by_cases old : index < parties.length
  · rw [List.getElem?_append_left old] at found
    exact .inl found
  · have long : parties.length ≤ index := Nat.le_of_not_lt old
    rw [List.getElem?_append_right long] at found
    exact .inr ⟨long, by simpa using List.mem_of_getElem? found⟩

/-- What the parties own, with one of them set apart. -/
theorem owned_perm (own : P → List Q) (found : parties[index]? = some party) :
    (parties.flatMap own).Perm (own party ++ (parties.eraseIdx index).flatMap own) := by
  obtain ⟨bound, rfl⟩ := List.getElem?_eq_some_iff.mp found
  exact ((List.getElem_cons_eraseIdx_perm bound).symm.flatMap fun _ _ => .rfl)

/-- What the parties own after one of them has changed. -/
theorem owned_set_perm (own : P → List Q) (found : parties[index]? = some party) (next : P) :
    ((parties.set index next).flatMap own).Perm
      (own next ++ (parties.eraseIdx index).flatMap own) := by
  obtain ⟨bound, -⟩ := List.getElem?_eq_some_iff.mp found
  exact (List.set_perm_cons_eraseIdx bound next).flatMap fun _ _ => .rfl

/-- One party owns more. -/
theorem owned_more (own : P → List Q) {next : P} (found : parties[index]? = some party)
    {new : List Q} (more : (own next).Perm (new ++ own party)) :
    ((parties.set index next).flatMap own).Perm (new ++ parties.flatMap own) := by
  have before := owned_perm own found
  calc ((parties.set index next).flatMap own)
      |>.Perm (own next ++ (parties.eraseIdx index).flatMap own) := owned_set_perm own found next
    _ |>.Perm (new ++ own party ++ (parties.eraseIdx index).flatMap own) := more.append_right _
    _ |>.Perm (new ++ parties.flatMap own) := by
      rw [List.append_assoc]
      exact before.symm.append_left new

end Parties
