import Mathlib.Logic.Basic

/-!
# Programs that fail and keep their state

A program of `EStateM` ends with a value or with an error, and in both cases in a state: what was
done before a failure stays done. `Ends` says what holds at the end of a program, and its rules
take a program apart. A loop carries an invariant over the part of the list it has been through.
-/

namespace Fallible

variable {ε σ α β : Type}

/-- A program run from a state ends well with `Q` or fails with `E`. -/
def Ends (m : EStateM ε σ α) (Q : α → σ → Prop) (E : ε → σ → Prop) (s : σ) : Prop :=
  match m s with
  | .ok value t => Q value t
  | .error error t => E error t

/-- Fail with an error when something is wrong. -/
def refuse (bad : Prop) [Decidable bad] (error : ε) : EStateM ε σ Unit :=
  if bad then throw error else pure ()

/-- Fail with the error that was found, if one was. -/
def refuseWith (found : Option ε) : EStateM ε σ Unit :=
  match found with
  | some error => throw error
  | none => pure ()

/-- The outcome of something done elsewhere. -/
def attempt (outcome : Except ε α) : EStateM ε σ α :=
  match outcome with
  | .ok value => pure value
  | .error error => throw error

/-- Clean up when a program fails. -/
def onFailure (m : EStateM ε σ α) (clean : σ → σ) : EStateM ε σ α := fun s =>
  match m s with
  | .ok value t => .ok value t
  | .error error t => .error error (clean t)

/-- The state that a program ends in. -/
def endState (m : EStateM ε σ α) (s : σ) : σ :=
  match m s with
  | .ok _ t => t
  | .error _ t => t

/-- A program ends well. -/
def succeeds (m : EStateM ε σ α) (s : σ) : Bool :=
  match m s with
  | .ok _ _ => true
  | .error _ _ => false

/-- A program that reads the state first. -/
theorem get_bind {f : σ → EStateM ε σ α} (s : σ) : (get >>= f) s = f s s := rfl

/-- A program that fails at its first check. -/
theorem refuse_bind {bad : Prop} [Decidable bad] (wrong : bad) {error : ε}
    {f : Unit → EStateM ε σ α} (s : σ) : (refuse bad error >>= f) s = .error error s := by
  rw [refuse, if_pos wrong]
  rfl

/-- A program without a value that ends well. -/
theorem eq_ok_of_succeeds {m : EStateM ε σ Unit} {s : σ} (success : succeeds m s = true) :
    m s = .ok () (endState m s) := by
  unfold succeeds at success
  unfold endState
  cases here : m s with
  | ok value t => rfl
  | error error t =>
    rw [here] at success
    contradiction

variable {m : EStateM ε σ α} {Q : α → σ → Prop} {E : ε → σ → Prop} {s : σ}

/-- A value ends at once. -/
@[simp] theorem ends_pure {value : α} : Ends (pure value) Q E s ↔ Q value s := Iff.rfl

/-- An error ends at once. -/
@[simp] theorem ends_throw {error : ε} : Ends (throw error) Q E s ↔ E error s := Iff.rfl

/-- The state is the value. -/
@[simp] theorem ends_get {Q : σ → σ → Prop} : Ends get Q E s ↔ Q s s := Iff.rfl

/-- The state changes. -/
@[simp] theorem ends_modify {f : σ → σ} {Q : PUnit → σ → Prop} :
    Ends (modify f) Q E s ↔ Q ⟨⟩ (f s) := Iff.rfl

/-- One after the other. -/
@[simp] theorem ends_bind {f : α → EStateM ε σ β} {Q : β → σ → Prop} :
    Ends (m >>= f) Q E s ↔ Ends m (fun value t => Ends (f value) Q E t) E s := by
  show (match EStateM.bind m f s with | .ok value t => Q value t | .error error t => E error t) ↔ _
  unfold Ends EStateM.bind
  cases m s <;> rfl

/-- A check that may fail. -/
@[simp] theorem ends_refuse {bad : Prop} [Decidable bad] {error : ε} {Q : Unit → σ → Prop} :
    Ends (refuse bad error) Q E s ↔ (bad → E error s) ∧ (¬ bad → Q () s) := by
  by_cases here : bad <;> simp [refuse, here]

/-- A check with a reason. -/
@[simp] theorem ends_refuseWith {found : Option ε} {Q : Unit → σ → Prop} :
    Ends (refuseWith found) Q E s ↔
      (∀ error, found = some error → E error s) ∧ (found = none → Q () s) := by
  cases found <;> simp [refuseWith]

/-- A computed outcome. -/
@[simp] theorem ends_attempt {outcome : Except ε α} :
    Ends (attempt outcome) Q E s ↔
      (∀ error, outcome = .error error → E error s) ∧
      (∀ value, outcome = .ok value → Q value s) := by
  cases outcome <;> simp [attempt]

/-- Either branch. -/
@[simp] theorem ends_ite {chosen : Prop} [Decidable chosen] {n : EStateM ε σ α} :
    Ends (if chosen then m else n) Q E s ↔
      (chosen → Ends m Q E s) ∧ (¬ chosen → Ends n Q E s) := by
  by_cases here : chosen <;> simp [here]

/-- A cleanup on failure. -/
@[simp] theorem ends_onFailure {clean : σ → σ} :
    Ends (onFailure m clean) Q E s ↔ Ends m Q (fun error t => E error (clean t)) s := by
  unfold Ends onFailure
  cases m s <;> rfl

/-- What holds at the end may be weakened. -/
theorem Ends.mono {Q' : α → σ → Prop} {E' : ε → σ → Prop} (ends : Ends m Q E s)
    (well : ∀ value t, Q value t → Q' value t) (failed : ∀ error t, E error t → E' error t) :
    Ends m Q' E' s := by
  unfold Ends at ends ⊢
  cases here : m s with
  | ok value t =>
    rw [here] at ends
    exact well value t ends
  | error error t =>
    rw [here] at ends
    exact failed error t ends

/-- A weaker postcondition. -/
theorem Ends.imp {Q' : α → σ → Prop} (ends : Ends m Q E s)
    (well : ∀ value t, Q value t → Q' value t) : Ends m Q' E s := ends.mono well fun _ _ => id

/-- A loop carries an invariant over the elements it has been through. -/
theorem ends_forM {f : α → EStateM ε σ PUnit} (Inv : List α → σ → Prop) {list : List α}
    (step : ∀ done next rest t, list = done ++ next :: rest → Inv done t →
      Ends (f next) (fun _ => Inv (done ++ [next])) E t)
    (first : Inv [] s) : Ends (list.forM f) (fun _ => Inv list) E s := by
  suffices loop : ∀ rest done t, list = done ++ rest → Inv done t →
      Ends (rest.forM f) (fun _ => Inv list) E t from loop list [] s rfl first
  intro rest
  induction rest with
  | nil =>
    intro done t whole holds
    rw [List.append_nil] at whole
    exact whole ▸ holds
  | cons next rest ih =>
    intro done t whole holds
    refine ends_bind.mpr ((step done next rest t whole holds).imp fun _ u kept => ?_)
    exact ih (done ++ [next]) u (by simp [whole]) kept

end Fallible
