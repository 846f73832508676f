import Mathlib.Logic.Basic

/-!
# Programs that return or fail

A program of `Except` returns a value or fails. `Ends` says what holds of either, and its rules take
a program apart in the order in which it runs.
-/

namespace Outcome

variable {ε α β : Type} {E : ε → Prop}

/-- A program returns with `Q` or fails with `E`. -/
def Ends (m : Except ε α) (Q : α → Prop) (E : ε → Prop) : Prop :=
  match m with
  | .ok value => Q value
  | .error error => E error

/-- Fail with an error unless something holds. -/
def ensure (p : Prop) [Decidable p] (error : ε) : Except ε Unit :=
  if p then .ok () else .error error

variable {Q : α → Prop} {value : α} {p : Prop} {error : ε} {rest : Except ε α}

/-- A success. -/
theorem ends_ok (holds : Q value) : Ends (.ok value) Q E := holds

/-- A program that returns has passed its checks. -/
theorem of_ite_error [Decidable p] (done : (if p then .error error else rest) = .ok value) :
    ¬ p ∧ rest = .ok value := by
  split at done
  case isTrue => contradiction
  case isFalse holds => exact ⟨holds, done⟩

variable {m : Except ε α} {f : α → Except ε β}

/-- One part after the other. -/
theorem ends_bind {R : α → Prop} {Q : β → Prop}
    (first : Ends m R E) (rest : ∀ value, R value → Ends (f value) Q E) : Ends (m >>= f) Q E := by
  cases m with
  | ok value => exact rest value first
  | error error => exact first

/-- What is ensured may be used afterwards. -/
theorem ends_ensure [Decidable p] (after : p → Ends rest Q E) (otherwise : ¬ p → E error) :
    Ends (ensure p error >>= fun _ => rest) Q E := by
  by_cases holds : p
  · rw [ensure, if_pos holds]
    exact after holds
  · rw [ensure, if_neg holds]
    exact otherwise holds

/-- What holds in any case holds of the value of a program that has one. -/
theorem Ends.of_toOption (ends : Ends m Q E) (done : m.toOption = some value) : Q value := by
  cases m with
  | ok found =>
    cases done
    exact ends
  | error error => contradiction

/-- A consequence of what a program ends with. -/
theorem Ends.mono {R : α → Prop} (ends : Ends m Q E) (weaker : ∀ value, Q value → R value) :
    Ends m R E := by
  cases m with
  | ok value => exact weaker value ends
  | error error => exact ends

/-- A program whose value is used further. -/
theorem ends_map {f : α → β} {Q : β → Prop}
    (first : Ends m (fun value => Q (f value)) E) : Ends (m.map f) Q E := by
  cases m with
  | ok value => exact first
  | error error => exact first

/-- A program after one that has returned. -/
@[simp] theorem ok_bind : (.ok value : Except ε α) >>= f = f value :=
  rfl

/-- A program after something that holds is ensured. -/
theorem ensure_bind [Decidable p] (holds : p) :
    (ensure p error >>= fun _ => rest) = rest := by
  rw [ensure, if_pos holds, ok_bind]

/-- When one program after another returns. -/
theorem bind_eq_ok {result : β} :
    m >>= f = .ok result ↔ ∃ value, m = .ok value ∧ f value = .ok result := by
  constructor
  · intro returned
    cases m with
    | ok value => exact ⟨value, rfl, returned⟩
    | error error => contradiction
  · rintro ⟨value, rfl, returned⟩
    exact returned

/-- When a program returns that first ensures something. -/
theorem ensure_bind_eq_ok [Decidable p] {result : α} :
    (ensure p error >>= fun _ => rest) = .ok result ↔ p ∧ rest = .ok result := by
  by_cases holds : p
  · rw [ensure, if_pos holds]
    exact ⟨fun returned => ⟨holds, returned⟩, fun both => both.2⟩
  · rw [ensure, if_neg holds]
    exact ⟨fun returned => (nomatch returned), fun both => absurd both.1 holds⟩

end Outcome
