import UbApplication.Lrpc.Channel

/-!
# What the hand-off guarantees

A caller that was woken looks at the pending flag again, and by then the flag may be that of a later
call: the first caller then sleeps again, and nobody wakes it. As long as no call is accepted before
the caller of the last one has returned, every call returns once with its own answer. The shadow
receives every call once unless a signal interrupts its `RETURN`: the kernel executes it again, and
it answers a call that the shadow has not received.
-/

namespace UbApplication.Lrpc

open Option
open Function (update_apply update update_of_ne)

/-- A step in the kernel that neither begins nor ends a call. -/
def SystemLabel.setup : SystemLabel → Bool
  | .setRole _ _ | .bind _ _ | .pin _ _ _ | .registerShadow _ | .signal _ => true
  | _ => false

namespace System

/-- A thread is in the loop of `CALL`. -/
def Calling (s : System) (t c : Nat) : Prop := (s.tasks t).phase = .calling c

/-- The caller of a call that has not returned: it waits for the answer, or it has been woken to
fetch it. -/
structure Outstanding (s : System) (t c : Nat) : Prop where
  latest : c + 1 = s.accepted.length
  open_ : s.returned c = []
  state : (s.channel.callPending = true ∧ s.channel.callerTask = some t ∧ s.answers c = none) ∨
    (s.channel.callPending = false ∧ (s.tasks t).asleep = false ∧
      ∃ a, s.answers c = some a ∧ s.channel.handoff.result = a.result)

/-- What holds as long as calls do not overlap. -/
structure Sound (s : System) : Prop where
  outstanding : ∀ t c, s.Calling t c → s.Outstanding t c
  single : ∀ t t' c c', s.Calling t c → s.Calling t' c' → t = t'
  pending : s.channel.callPending = true → (∃ t c, s.Calling t c) ∧
    ∃ o, s.channel.shadowOwner = some o ∧ (s.tasks o).asleep = false
  owner : ∀ o, s.channel.shadowOwner = some o →
    s.channel.shadowMm = (s.tasks o).mm ∧ ∀ c, ¬ s.Calling o c
  handoff : ∀ h, s.accepted[s.last]? = some h → s.channel.handoff.Same h
  returns : ∀ c o, o ∈ s.returned c → ∃ a h, s.answers c = some a ∧ s.accepted[c]? = some h ∧
    ∀ out, o = some out → out.result = a.result ∧ out.Same h
  once : ∀ c, (s.returned c).length ≤ 1
  complete : ∀ c, c < s.accepted.length → s.returned c = [] → ∃ t, s.Calling t c
  fresh : ∀ c, s.accepted.length ≤ c → s.answers c = none ∧ s.received c = [] ∧ s.returned c = []
  received : ∀ c h, h ∈ s.received c → ∃ g, s.accepted[c]? = some g ∧ h.Same g

variable {label : SystemLabel}

section Steps

variable {s : System} {t : Nat} {task : Task}

/-- The tasks after one of them changes. -/
theorem setTask_tasks (s : System) (t : Nat) (task : Task) (u : Nat) :
    (s.setTask t task).tasks u = if u = t then task else s.tasks u := by
  simp only [setTask, update_apply]

/-- A thread changes, but not what it does in `CALL`. -/
theorem Sound.setTask (sound : s.Sound) (phase : ∀ c, task.phase = .calling c ↔ s.Calling t c)
    (mm : task.mm = (s.tasks t).mm)
    (awake : (s.channel.callPending = false ∧ ∃ c, s.Calling t c) ∨ (s.channel.callPending = true ∧
      s.channel.shadowOwner = some t) → (s.tasks t).asleep = false → task.asleep = false) :
    (s.setTask t task).Sound := by
  have same (u c : Nat) : (s.setTask t task).Calling u c ↔ s.Calling u c := by
    simp only [Calling, setTask_tasks]
    by_cases here : u = t
    · rw [if_pos here, here]
      exact phase c
    · rw [if_neg here]
  refine { sound with
    outstanding := fun u c calls => ?_
    single := fun u u' c c' one two =>
      sound.single u u' c c' ((same u c).mp one) ((same u' c').mp two)
    pending := fun waits => ?_
    owner := fun o owns => ?_
    complete := fun c inside none => (sound.complete c inside none).imp fun u => (same u c).mpr }
  · have calls' := (same u c).mp calls
    have facts := sound.outstanding u c calls'
    refine ⟨facts.latest, facts.open_, facts.state.imp_right fun ⟨answered, runs, rest⟩ => ?_⟩
    refine ⟨answered, ?_, rest⟩
    rw [setTask_tasks]
    split
    case isTrue here => exact awake (.inl ⟨answered, c, here ▸ calls'⟩) (here ▸ runs)
    case isFalse => exact runs
  · obtain ⟨⟨u, c, calls⟩, o, owns, runs⟩ := sound.pending waits
    refine ⟨⟨u, c, (same u c).mpr calls⟩, o, owns, ?_⟩
    rw [setTask_tasks]
    split
    case isTrue here => exact awake (.inr ⟨waits, here ▸ owns⟩) (here ▸ runs)
    case isFalse => exact runs
  · have facts := sound.owner o owns
    refine ⟨?_, fun c calls => facts.2 c ((same o c).mp calls)⟩
    rw [setTask_tasks]
    split
    case isTrue here => exact facts.1.trans (by rw [here, mm])
    case isFalse => exact facts.1

/-- A thread outside `CALL` changes and stays outside. -/
theorem Sound.setOther (sound : s.Sound) (before : ∀ c, ¬ s.Calling t c)
    (after : ∀ c, task.phase ≠ .calling c) (mm : task.mm = (s.tasks t).mm)
    (awake : s.channel.callPending = true → (s.tasks t).asleep = false → task.asleep = false) :
    (s.setTask t task).Sound := by
  apply sound.setTask (fun c => iff_of_false (after c) (before c)) mm
  rintro (⟨-, c, calls⟩ | ⟨waits, -⟩)
  · exact absurd calls (before c)
  · exact awake waits

/-- A task in another phase is in no call. -/
theorem not_calling_of_phase {phase : Phase} (here : (s.tasks t).phase = phase)
    (other : ∀ c, phase ≠ .calling c) (c : Nat) : ¬ s.Calling t c := by
  intro calls
  exact other c (here.symm.trans calls)

/-- The caller of a pending call. -/
theorem Sound.caller (sound : s.Sound) (waits : s.channel.callPending = true) :
    ∃ t, s.Calling t s.last ∧ s.channel.callerTask = some t ∧ s.last + 1 = s.accepted.length ∧
      s.returned s.last = [] := by
  obtain ⟨⟨t, c, calls⟩, -⟩ := sound.pending waits
  have facts := sound.outstanding t c calls
  have number : c = s.last := by
    have latest := facts.latest
    simp only [last]
    omega
  subst number
  refine ⟨t, calls, ?_, facts.latest, facts.open_⟩
  rcases facts.state with ⟨-, called, -⟩ | ⟨answered, -⟩
  · exact called
  · exact absurd (waits.symm.trans answered) (by decide)

/-- A pending call is answered. -/
structure Answered (s s' : System) (a : Answer) : Prop where
  accepted : s'.accepted = s.accepted
  answers : s'.answers = update s.answers s.last (some a)
  received : s'.received = s.received
  returned : s'.returned = s.returned
  pending : s'.channel.callPending = false
  result : s'.channel.handoff.result = a.result
  handoff : s'.channel.handoff.Same s.channel.handoff
  calling : ∀ t c, s'.Calling t c ↔ s.Calling t c
  woken : ∀ caller, s.channel.callerTask = some caller → (s'.tasks caller).asleep = false
  owner : ∀ o, s'.channel.shadowOwner = some o →
    s.channel.shadowOwner = some o ∧ s'.channel.shadowMm = s.channel.shadowMm ∧
      (s'.tasks o).mm = (s.tasks o).mm

variable {s' : System}

/-- The pending call is answered. -/
theorem Sound.answered (sound : s.Sound) {a : Answer}
    (waits : s.channel.callPending = true) (done : Answered s s' a) : s'.Sound := by
  obtain ⟨t, calls, called, latest, opened⟩ := sound.caller waits
  have last' : s'.last = s.last := by simp only [last, done.accepted]
  have open_ (c : Nat) (o : Option Handoff) (member : o ∈ s.returned c) : c ≠ s.last := by
    rintro rfl
    rw [opened] at member
    contradiction
  constructor
  · intro u d calls'
    have calls' := (done.calling u d).mp calls'
    have here := sound.outstanding u d calls'
    have same : t = u := sound.single t u _ _ calls calls'
    have number : d = s.last := by
      have latest' := here.latest
      omega
    refine ⟨by rw [done.accepted]; exact here.latest, by rw [done.returned]; exact here.open_, ?_⟩
    refine .inr ⟨done.pending, done.woken u (same ▸ called), a, ?_, done.result⟩
    rw [done.answers, number, Function.update_self]
  · intro u u' d d' one two
    exact sound.single u u' d d' ((done.calling u d).mp one) ((done.calling u' d').mp two)
  · intro waits'
    rw [done.pending] at waits'
    contradiction
  · intro o owns
    obtain ⟨owned, shadowMm, mm⟩ := done.owner o owns
    have old := sound.owner o owned
    exact ⟨shadowMm.trans (old.1.trans mm.symm), fun d calls =>
      old.2 d ((done.calling o d).mp calls)⟩
  · intro h found
    rw [last', done.accepted] at found
    have same := sound.handoff h found
    have handoff := done.handoff
    exact ⟨handoff.1.trans same.1, handoff.2.trans same.2, handoff.3.trans same.3,
      handoff.4.trans same.4⟩
  · intro d o member
    rw [done.returned] at member
    obtain ⟨b, h, answer, rest⟩ := sound.returns d o member
    refine ⟨b, h, ?_, by rw [done.accepted]; exact rest⟩
    rw [done.answers, update_of_ne (open_ d o member)]
    exact answer
  · intro d
    rw [done.returned]
    exact sound.once d
  · intro d inside none
    rw [done.accepted] at inside
    rw [done.returned] at none
    exact (sound.complete d inside none).imp fun u => (done.calling u d).mpr
  · intro d beyond
    rw [done.accepted] at beyond
    obtain ⟨answer, received, returned⟩ := sound.fresh d beyond
    have other : d ≠ s.last := by omega
    rw [done.answers, done.received, done.returned, update_of_ne other]
    exact ⟨answer, received, returned⟩
  · intro d h member
    rw [done.received] at member
    rw [done.accepted]
    exact sound.received d h member

variable {now : BitVec 64} {procedure : BitVec 32}

/-- Once a call is accepted, its caller is the only one in `CALL`. -/
theorem accept_calling {shadow : Nat}
    (none : ∀ u c, ¬ s.Calling u c) (other : t ≠ shadow) (u c : Nat) :
    (s.accept t shadow procedure now).Calling u c ↔ u = t ∧ c = s.accepted.length := by
  simp only [Calling, System.accept, wake, setTask_tasks, last, List.length_append,
    List.length_singleton, Nat.add_sub_cancel]
  by_cases here : u = t
  · subst here
    rw [if_neg other, if_pos rfl]
    constructor
    · intro calls
      injection calls with number
      exact ⟨rfl, number.symm⟩
    · rintro ⟨-, rfl⟩
      rfl
  · have silent : (if u = shadow then { s.tasks shadow with asleep := false }
        else s.tasks u : Task).phase ≠ .calling c := by
      split
      case isTrue => exact none shadow c
      case isFalse => exact none u c
    simp only [if_neg here, if_neg (Ne.symm other)]
    exact iff_of_false silent fun both => here both.1

section

variable (sound : s.Sound)
include sound

/-- A call is accepted. -/
theorem Sound.accept {shadow : Nat} (alone : ∀ c, c < s.accepted.length → s.returned c ≠ [])
    (owns : s.channel.shadowOwner = some shadow) (apart : (s.tasks t).mm ≠ s.channel.shadowMm) :
    (s.accept t shadow procedure now).Sound := by
  have mm := (sound.owner shadow owns).1
  have other : t ≠ shadow := by
    rintro rfl
    exact apart mm.symm
  have none (u c : Nat) : ¬ s.Calling u c := by
    intro calls
    have facts := sound.outstanding u c calls
    have latest := facts.latest
    exact alone c (by omega) facts.open_
  have calling (u c : Nat) : (s.accept t shadow procedure now).Calling u c ↔
      u = t ∧ c = s.accepted.length := accept_calling none other u c
  have fresh := sound.fresh s.accepted.length (Nat.le_refl _)
  constructor
  · intro u c calls
    obtain ⟨rfl, rfl⟩ := (calling u c).mp calls
    exact ⟨by simp [System.accept, wake, System.setTask], fresh.2.2, .inl ⟨rfl, rfl, fresh.1⟩⟩
  · intro u u' c c' one two
    exact ((calling u c).mp one).1.trans ((calling u' c').mp two).1.symm
  · intro _
    refine ⟨⟨t, s.accepted.length, (calling _ _).mpr ⟨rfl, rfl⟩⟩, shadow, owns, ?_⟩
    simp [System.accept, wake, setTask_tasks]
  · intro o owns'
    have same : o = shadow := Option.some.inj (owns'.symm.trans owns)
    subst same
    refine ⟨?_, fun c calls => other ((calling o c).mp calls).1.symm⟩
    simp only [System.accept, wake, setTask_tasks, if_true, if_neg (Ne.symm other)]
    exact mm
  · intro h found
    have number : (s.accept t shadow procedure now).last = s.accepted.length := by
      simp [last, System.accept, wake, System.setTask]
    rw [number] at found
    have new : (s.accepted ++ [(s.accept t shadow procedure now).channel.handoff])[
        s.accepted.length]? = some h := found
    rw [List.getElem?_concat_length] at new
    cases new
    exact ⟨rfl, rfl, rfl, rfl⟩
  · intro c o member
    obtain ⟨a, h, answer, found, rest⟩ := sound.returns c o member
    refine ⟨a, h, answer, ?_, rest⟩
    obtain ⟨inside, -⟩ := List.getElem?_eq_some_iff.mp found
    exact (List.getElem?_append_left inside).trans found
  · exact sound.once
  · intro c inside open_
    refine ⟨t, (calling t c).mpr ⟨rfl, ?_⟩⟩
    have bound : c < s.accepted.length + 1 := by
      simpa [System.accept, wake, System.setTask] using inside
    by_contra older
    exact alone c (by omega) open_
  · intro c beyond
    have bound : s.accepted.length + 1 ≤ c := by
      simpa [System.accept, wake, System.setTask] using beyond
    exact sound.fresh c (by omega)
  · intro c h member
    obtain ⟨g, found, same⟩ := sound.received c h member
    obtain ⟨inside, -⟩ := List.getElem?_eq_some_iff.mp found
    exact ⟨g, (List.getElem?_append_left inside).trans found, same⟩

/-- A caller is resumed. -/
theorem Sound.resume {c : Nat} (calls : s.Calling t c) (copied : Bool)
    (now : BitVec 64) : (s.resume t c copied now).Sound := by
  have facts := sound.outstanding t c calls
  simp only [System.resume]
  split
  case isTrue waits =>
    refine sound.setTask (fun _ => Iff.rfl) rfl ?_
    rintro (⟨answered, -⟩ | ⟨-, owns⟩)
    · rw [waits] at answered
      contradiction
    · exact absurd calls ((sound.owner t owns).2 c)
  case isFalse answered =>
    have answered : s.channel.callPending = false := by simpa using answered
    obtain ⟨-, -, a, answer, result⟩ := facts.state.resolve_left fun waits => by
      rw [answered] at waits
      exact absurd waits.1 (by decide)
    have latest := facts.latest
    obtain ⟨h, found⟩ : ∃ h, s.accepted[c]? = some h :=
      ⟨_, List.getElem?_eq_getElem (by omega)⟩
    have same : s.channel.handoff.Same h := by
      refine sound.handoff h ?_
      have number : s.last = c := by
        simp only [last]
        omega
      rw [number]
      exact found
    have silent (u d : Nat) : ¬ (s.setTask t { s.tasks t with phase := .user }).Calling u d := by
      simp only [Calling, setTask_tasks]
      split
      case isTrue => exact nofun
      case isFalse other => exact fun calls' => other (sound.single u t d c calls' calls)
    constructor
    · exact fun u d calls' => absurd calls' (silent u d)
    · exact fun u u' d d' calls' => absurd calls' (silent u d)
    · intro waits
      exact absurd (waits.symm.trans answered) (by decide)
    · intro o owns
      refine ⟨?_, silent o⟩
      have mm := (sound.owner o owns).1
      simp only [setTask_tasks]
      split
      case isTrue here => exact here ▸ mm
      case isFalse => exact mm
    · intro g last
      exact { sound.handoff g last with }
    · intro d o member
      simp only [facts.open_, update_apply] at member
      split at member
      case isTrue here =>
        subst here
        refine ⟨a, h, answer, found, fun out shown => ?_⟩
        rw [List.mem_singleton.mp member] at shown
        cases copied with
        | false => contradiction
        | true =>
          cases shown
          exact ⟨result, { same with }⟩
      case isFalse => exact sound.returns d o member
    · intro d
      simp only [facts.open_, update_apply]
      split
      case isTrue => exact Nat.le_refl 1
      case isFalse => exact sound.once d
    · intro d inside none
      simp only [facts.open_, update_apply] at none
      split at none
      case isTrue => contradiction
      case isFalse other =>
        obtain ⟨u, calls'⟩ := sound.complete d inside none
        have latest' := (sound.outstanding u d calls').latest
        omega
    · intro d beyond
      have outside : s.accepted.length ≤ d := beyond
      have other : d ≠ c := by omega
      simp only [update_of_ne other]
      exact sound.fresh d outside
    · exact sound.received

/-- A shadow waits. -/
theorem Sound.wait (apart : ∀ c, ¬ s.Calling t c) (copied : Bool)
    (now : BitVec 64) : (s.wait t copied now).Sound := by
  simp only [System.wait]
  split
  case isTrue => exact sound.setOther apart (fun c => nofun) rfl fun _ awake => awake
  case isFalse =>
    split
    case isFalse idle =>
      exact sound.setOther apart (fun c => nofun) rfl fun waits => absurd waits idle
    case isTrue waits =>
      have next : (s.setTask t { s.tasks t with phase := .user }).Sound :=
        sound.setOther apart (fun c => nofun) rfl fun _ awake => awake
      obtain ⟨-, -, -, latest, -⟩ := sound.caller waits
      have number : s.last < s.accepted.length := by omega
      have found : s.accepted[s.last]? = some (s.accepted[s.last]) :=
        List.getElem?_eq_getElem number
      have same := sound.handoff _ found
      refine { next with
        outstanding := fun u c calls => { next.outstanding u c calls with }
        handoff := fun h last => { sound.handoff h last with }
        fresh := fun c beyond => ?_
        received := fun c h member => ?_ }
      · have outside : s.accepted.length ≤ c := beyond
        have facts := sound.fresh c outside
        refine ⟨facts.1, ?_, facts.2.2⟩
        have other : c ≠ s.last := by omega
        cases copied with
        | false => exact facts.2.1
        | true => exact (update_of_ne other _ _).trans facts.2.1
      · cases copied with
        | false => exact sound.received c h member
        | true =>
          simp only [if_true, update_apply] at member
          split at member
          case isFalse => exact sound.received c h member
          case isTrue here =>
            rcases List.mem_append.mp member with old | new
            · exact here ▸ sound.received s.last h old
            · rw [List.mem_singleton.mp new, here]
              exact ⟨_, found, { same with }⟩

/-- `RETURN` answers the pending call or does nothing. -/
theorem Sound.ret_cases (apart : ∀ c, ¬ s.Calling t c) {result : BitVec 32}
    {copied : Bool} (done : s.ret t result copied now = some s') :
    (s' = s ∧ ¬ (copied = true ∧ s.channel.shadowOwner = some t ∧ s.channel.callPending = true)) ∨
      s.channel.shadowOwner = some t ∧ s.channel.callPending = true ∧
        Answered s s' (.returned result) := by
  simp only [System.ret] at done
  split at done
  case isTrue idle =>
    cases done
    refine .inl ⟨rfl, fun ⟨copied, owns, waits⟩ => ?_⟩
    simp [copied, owns, waits] at idle
  case isFalse effective =>
    simp only [not_or, not_not, Bool.not_eq_false] at effective
    obtain ⟨caller, called, done⟩ := bind_eq_some_iff.mp done
    cases done
    obtain ⟨u, calls, here, -⟩ := sound.caller effective.2.2
    have task : u = caller := Option.some.inj (here.symm.trans called)
    have other : caller ≠ t := by
      rintro rfl
      exact apart _ (task ▸ calls)
    refine .inr ⟨effective.2.1, effective.2.2, rfl, rfl, rfl, rfl, rfl, rfl,
      ⟨rfl, rfl, rfl, rfl⟩, fun v d => ?_, fun v here => ?_, fun o owns => ⟨owns, rfl, ?_⟩⟩
    · simp only [Calling, System.answer, wake, setTask_tasks, if_neg other]
      by_cases same : v = caller
      · simp [same]
      · rw [if_neg same]
        by_cases own : v = t
        · rw [if_pos own, own]
          exact iff_of_false nofun (apart d)
        · rw [if_neg own]
    · have same : v = caller := Option.some.inj (here.symm.trans called)
      simp [System.answer, wake, setTask_tasks, same]
    · simp only [System.answer, wake, setTask_tasks]
      split
      case isTrue same => rw [same]
      case isFalse =>
        split
        case isTrue own => rw [own]
        case isFalse => rfl

/-- The shadow that gives up the channel answers the pending call. -/
theorem Sound.unregister_cases : (s.channel.callPending = false ∧ s.unregister =
      { s with channel := { s.channel with shadowOwner := none, callerTask := none } }) ∨
    (s.channel.callPending = true ∧ Answered s s.unregister .broken) := by
  simp only [System.unregister]
  split
  case isFalse idle => exact .inl ⟨by simpa using idle, rfl⟩
  case isTrue waits =>
    obtain ⟨u, -, called, -⟩ := sound.caller waits
    rw [called]
    refine .inr ⟨waits, rfl, rfl, rfl, rfl, rfl, rfl, ⟨rfl, rfl, rfl, rfl⟩, fun v d => ?_,
      fun v here => ?_, fun o owns => (nomatch owns)⟩
    · simp only [Calling, System.answer, wake, setTask_tasks]
      by_cases same : v = u
      · simp [same]
      · rw [if_neg same]
    · have same : v = u := Option.some.inj (here.symm.trans called)
      simp [System.answer, wake, setTask_tasks, same]

/-- The shadow is unregistered. -/
theorem Sound.unregister : s.unregister.Sound := by
  rcases sound.unregister_cases with ⟨idle, unchanged⟩ | ⟨waits, answered⟩
  · have idle : ¬ s.channel.callPending = true := by simp [idle]
    rw [unchanged]
    exact { sound with
      outstanding := fun t c calls => { sound.outstanding t c calls with
        state := .inr ((sound.outstanding t c calls).state.resolve_left fun waits => idle waits.1) }
      pending := fun waits => absurd waits idle
      owner := fun o owns => (nomatch owns) }
  · exact sound.answered waits answered

/-- An unregistration ends no call by itself. -/
theorem Sound.unregister_calling (t c : Nat) : s.unregister.Calling t c ↔ s.Calling t c := by
  rcases sound.unregister_cases with ⟨-, unchanged⟩ | ⟨-, answered⟩
  · rw [unchanged]
    exact Iff.rfl
  · exact answered.calling t c

/-- A task is released. -/
theorem Sound.release (apart : ∀ c, ¬ s.Calling t c) : (s.release t).Sound := by
  simp only [System.release]
  split
  case isFalse =>
    refine sound.setOther apart ?_ rfl fun _ awake => awake
    exact apart
  case isTrue =>
    have apart' (c : Nat) : ¬ s.unregister.Calling t c := fun calls =>
      apart c ((sound.unregister_calling t c).mp calls)
    refine sound.unregister.setOther apart' ?_ rfl fun _ awake => awake
    exact apart'

end

/-- A thread changes, but not what it does in `CALL`, and it does not fall asleep. -/
structure Quiet (s : System) (t : Nat) (task : Task) : Prop where
  calling : ∀ c, task.phase = .calling c ↔ s.Calling t c
  mm : task.mm = (s.tasks t).mm
  awake : (s.tasks t).asleep = false → task.asleep = false
  waiting : task.phase = .waiting → (s.tasks t).phase = .waiting

/-- What setting up can do. -/
theorem setup_cases (setup : label.setup = true) (stepped : s.step label = some s') :
    s' = s ∨ (∃ t task, s' = s.setTask t task ∧ s.Quiet t task) ∨
      ∃ t, (∀ c, ¬ s.Calling t c) ∧ s.channel.shadowOwner = none ∧ s' = { s with
        channel := { s.channel with
          shadowOwner := some t
          shadowMm := (s.tasks t).mm
          shadowCpu := (s.tasks t).cpu } } := by
  cases label with
  | setRole t role =>
    obtain ⟨-, ⟨⟩⟩ := ite_none_right_eq_some.mp stepped
    simp only [System.setRole]
    split
    case isTrue => exact .inl rfl
    case isFalse => exact .inr (.inl ⟨t, _, rfl, fun _ => Iff.rfl, rfl, id, id⟩)
  | bind t procedure =>
    obtain ⟨-, ⟨⟩⟩ := ite_none_right_eq_some.mp stepped
    simp only [System.bind]
    split
    case isTrue => exact .inl rfl
    case isFalse => exact .inr (.inl ⟨t, _, rfl, fun _ => Iff.rfl, rfl, id, id⟩)
  | pin t cpu pinned =>
    obtain ⟨-, ⟨⟩⟩ := ite_none_right_eq_some.mp stepped
    exact .inr (.inl ⟨t, _, rfl, fun _ => Iff.rfl, rfl, id, id⟩)
  | registerShadow t =>
    obtain ⟨here, ⟨⟩⟩ := ite_none_right_eq_some.mp stepped
    have apart := not_calling_of_phase here fun _ => nofun
    simp only [System.registerShadow]
    split
    case isTrue => exact .inl rfl
    case isFalse =>
      split
      case isTrue => exact .inl rfl
      case isFalse free => exact .inr (.inr ⟨t, apart, by simpa using free, rfl⟩)
  | signal t =>
    cases stepped
    refine .inr (.inl ⟨t, _, rfl, fun _ => Iff.rfl, rfl, fun awake => ?_, id⟩)
    dsimp only
    split
    case isTrue => rfl
    case isFalse => exact awake
  | call | resume | waitCall | waitAgain | ret | retEnd | release => exact Bool.noConfusion setup

/-- Setting up keeps soundness. -/
theorem Sound.setup (sound : s.Sound)
    (setup : label.setup = true) (stepped : s.step label = some s') : s'.Sound := by
  rcases setup_cases setup stepped with rfl | ⟨t, task, rfl, quiet⟩ | ⟨t, apart, free, rfl⟩
  · exact sound
  · exact sound.setTask quiet.calling quiet.mm fun _ => quiet.awake
  · exact { sound with
      outstanding := fun t c calls => { sound.outstanding t c calls with }
      pending := fun waits => by
        obtain ⟨-, o, owns, -⟩ := sound.pending waits
        cases free.symm.trans owns
      owner := fun o owns => by
        cases owns
        exact ⟨rfl, apart⟩ }

/-- A thread that leaves `RETURN` is in its program again, or its `RETURN` was interrupted, is
executed again and answers the call that is pending by then. -/
theorem Sound.retEnd_cases (sound : s.Sound) {restart copied : Bool}
    (stepped : s.step (.retEnd t restart copied now) = some s') :
    ∃ task, s.Quiet t task ∧ (s' = s.setTask t task ∨
      (s.tasks t).signalled = true ∧ restart = true ∧ s.channel.callPending = true ∧
        (s.setTask t task).Sound ∧ ∃ result,
          Answered (s.setTask t task) s' (.returned result)) := by
  simp only [System.step] at stepped
  split at stepped
  case h_2 => contradiction
  case h_1 result here _ =>
    have apart := not_calling_of_phase here fun _ => nofun
    have quiet : s.Quiet t { s.tasks t with phase := .user, signalled := false } :=
      ⟨fun c => iff_of_false nofun (apart c), rfl, id, nofun⟩
    refine ⟨_, quiet, ?_⟩
    split at stepped
    case isFalse =>
      cases stepped
      exact .inl rfl
    case isTrue again =>
      have next := sound.setTask quiet.calling quiet.mm fun _ => quiet.awake
      have outside (c : Nat) : ¬ (s.setTask t { s.tasks t with
          phase := .user, signalled := false }).Calling t c := by
        simp [Calling, setTask_tasks]
      rcases next.ret_cases outside stepped with ⟨same, -⟩ | ⟨-, waits, answered⟩
      · exact .inl same
      · exact .inr ⟨again.1, again.2, waits, next, result, answered⟩

/-- No call is accepted before the last one has returned. -/
def Alone (s : System) : SystemLabel → Prop
  | .call _ _ _ =>
    s.channel.callPending = false → ∀ c ∈ List.range s.accepted.length, s.returned c ≠ []
  | _ => True

instance (s : System) : (label : SystemLabel) → Decidable (s.Alone label)
  | .call _ _ _ => inferInstanceAs (Decidable (_ → _))
  | .setRole .. | .bind .. | .pin .. | .registerShadow .. | .resume .. | .waitCall ..
  | .waitAgain .. | .ret .. | .retEnd .. | .release .. | .signal .. => .isTrue trivial

/-- A call changes nothing or is accepted. -/
theorem call_cases (s : System) (t : Nat) (copied : Bool) (now : BitVec 64) :
    s.call t copied now = s ∨ ∃ shadow procedure, s.channel.shadowOwner = some shadow ∧
      (s.tasks t).mm ≠ s.channel.shadowMm ∧ s.channel.callPending = false ∧
      s.call t copied now = s.accept t shadow procedure now := by
  simp only [System.call]
  split
  case h_2 => exact .inl rfl
  case h_1 procedure shadow _ _ owns =>
    split
    case isTrue => exact .inl rfl
    case isFalse fine =>
      simp only [not_or] at fine
      exact .inr ⟨shadow, procedure, owns, fine.2.1, by simpa using fine.2.2.2.2, rfl⟩

/-- Every step keeps soundness. -/
theorem Sound.step (sound : s.Sound) (alone : s.Alone label)
    (stepped : s.step label = some s') : s'.Sound := by
  have user {t : Nat} (here : (s.tasks t).phase = .user) (c : Nat) : ¬ s.Calling t c :=
    not_calling_of_phase here (fun _ => nofun) c
  cases label with
  | setRole | bind | pin | registerShadow | signal => exact sound.setup rfl stepped
  | call t copied now =>
    obtain ⟨here, ⟨⟩⟩ := ite_none_right_eq_some.mp stepped
    rcases s.call_cases t copied now with same | ⟨shadow, procedure, owns, apart, idle, accepted⟩
    · rw [same]
      exact sound
    · rw [accepted]
      exact sound.accept (fun c inside => alone idle c (List.mem_range.mpr inside)) owns apart
  | resume t copied now =>
    simp only [System.step] at stepped
    split at stepped
    case h_1 c calls _ =>
      cases stepped
      exact sound.resume calls copied now
    case h_2 => contradiction
  | waitCall t copied now =>
    obtain ⟨here, stepped⟩ := ite_none_right_eq_some.mp stepped
    split at stepped
    case isTrue =>
      cases stepped
      exact sound
    case isFalse =>
      split at stepped
      case isTrue => contradiction
      case isFalse =>
        cases stepped
        exact sound.wait (user here) copied now
  | waitAgain t copied now =>
    obtain ⟨here, stepped⟩ := ite_none_right_eq_some.mp stepped
    have apart := not_calling_of_phase here.1 fun _ => nofun
    split at stepped
    case isTrue =>
      cases stepped
      exact sound.setOther apart (fun _ => nofun) rfl fun _ awake => awake
    case isFalse =>
      cases stepped
      exact sound.wait apart copied now
  | ret t result copied now =>
    obtain ⟨here, stepped⟩ := ite_none_right_eq_some.mp stepped
    rcases sound.ret_cases (user here.1) stepped with ⟨rfl, -⟩ | ⟨-, waits, answered⟩
    · exact sound
    · exact sound.answered waits answered
  | retEnd t restart copied now =>
    obtain ⟨task, quiet, rfl | ⟨-, -, waits, next, _, answered⟩⟩ := sound.retEnd_cases stepped
    · exact sound.setTask quiet.calling quiet.mm fun _ => quiet.awake
    · exact next.answered waits answered
  | release t =>
    obtain ⟨here, ⟨⟩⟩ := ite_none_right_eq_some.mp stepped
    exact sound.release (user here)

/-- The start is sound. -/
theorem start_sound (mm : Nat → Nat) : (System.start mm).Sound where
  outstanding _ _ calls := (nomatch calls)
  single _ _ _ _ calls := (nomatch calls)
  pending waits := (nomatch waits)
  owner _ owns := (nomatch owns)
  handoff _ found := (nomatch found)
  returns _ _ member := (nomatch member)
  once _ := Nat.zero_le 1
  complete _ inside := (nomatch inside)
  fresh _ _ := ⟨rfl, rfl, rfl⟩
  received _ _ member := (nomatch member)

end Steps

/-! ## The shadow -/

/-- A shadow that answers every call it received with one return: it looks for a call when it has
answered the last one, and returns when it has received one. -/
def Answers (s : System) : SystemLabel → Prop
  | .waitCall t _ _ => s.channel.shadowOwner = some t → s.channel.callPending = true →
      s.received s.last = []
  | .ret t _ _ _ => s.channel.shadowOwner = some t → s.channel.callPending = true →
      s.received s.last ≠ []
  | _ => True

instance (s : System) : (label : SystemLabel) → Decidable (s.Answers label)
  | .waitCall .. | .ret .. => inferInstanceAs (Decidable (_ → _ → _))
  | .setRole .. | .bind .. | .pin .. | .registerShadow .. | .call .. | .resume .. | .waitAgain ..
  | .retEnd .. | .release .. | .signal .. => .isTrue trivial

/-- No interrupted `RETURN` is executed again while a call is pending. The kernel executes it again
by itself, so a shadow that answers what it receives does not see to this. -/
def Unrepeated (s : System) : SystemLabel → Prop
  | .retEnd t restart _ _ =>
    (s.tasks t).signalled = true → restart = true → s.channel.callPending = false
  | _ => True

instance (s : System) : (label : SystemLabel) → Decidable (s.Unrepeated label)
  | .retEnd .. => inferInstanceAs (Decidable (_ → _ → _))
  | .setRole .. | .bind .. | .pin .. | .registerShadow .. | .call .. | .resume .. | .waitCall ..
  | .waitAgain .. | .ret .. | .release .. | .signal .. => .isTrue trivial

/-- What holds with such a shadow. -/
structure Served (s : System) : Prop where
  atMost : ∀ c, (s.received c).length ≤ 1
  answered : ∀ c r, s.answers c = some (.returned r) → (s.received c).length = 1
  waiting : ∀ o, s.channel.shadowOwner = some o → (s.tasks o).phase = .waiting →
    s.channel.callPending = true → s.received s.last = []

section Served

variable {s s' : System} {t : Nat} (served : s.Served)
include served

/-- A task that does not begin to wait. -/
theorem Served.setTask {task : Task}
    (phase : task.phase = .waiting → (s.tasks t).phase = .waiting) : (s.setTask t task).Served := by
  refine { served with waiting := fun o owns waits pending => served.waiting o owns ?_ pending }
  rw [setTask_tasks] at waits
  split at waits
  case isTrue here => exact here ▸ phase waits
  case isFalse => exact waits

/-- A wait hands a new call over. -/
theorem Served.wait (new : s.channel.shadowOwner = some t →
    s.channel.callPending = true → s.received s.last = []) (copied : Bool) (now : BitVec 64) :
    (s.wait t copied now).Served := by
  simp only [System.wait]
  split
  case isTrue => exact served.setTask nofun
  case isFalse owns =>
    split
    case isFalse idle =>
      exact { served with waiting := fun _ _ _ pending => absurd pending idle }
    case isTrue waits =>
      have owns := not_not.mp owns
      have none := new owns waits
      have silent (o : Nat) (owner : s.channel.shadowOwner = some o)
          (other : ((s.setTask t { s.tasks t with phase := .user }).tasks o).phase = .waiting) :
          False := by
        have here : o = t := Option.some.inj (owner.symm.trans owns)
        rw [setTask_tasks, if_pos here] at other
        contradiction
      cases copied with
      | false => exact { served with waiting := fun o owner other _ => (silent o owner other).elim }
      | true =>
        refine ⟨fun c => ?_, fun c r answer => ?_, fun o owner other _ =>
          (silent o owner other).elim⟩
        · simp only [none, if_true, update_apply]
          split
          case isTrue => exact Nat.le_refl 1
          case isFalse => exact served.atMost c
        · simp only [none, if_true, update_apply]
          split
          case isTrue => rfl
          case isFalse => exact served.answered c r answer

/-- A call that was received is answered. -/
theorem Served.answer {a : Answer} (answered : Answered s s' a)
    (received : ∀ r, a = .returned r → s.received s.last ≠ []) : s'.Served := by
  refine ⟨fun c => ?_, fun c r answer => ?_, fun _ _ _ pending => ?_⟩
  · rw [answered.received]
    exact served.atMost c
  · rw [answered.received]
    rw [answered.answers, update_apply] at answer
    split at answer
    case isTrue here =>
      have some := List.length_pos_iff.mpr (received r (Option.some.inj answer))
      have most := served.atMost s.last
      rw [here]
      omega
    case isFalse => exact served.answered c r answer
  · exact absurd (answered.pending.symm.trans pending) (by decide)

/-- An unregistration answers without a result. -/
theorem Served.unregister (sound : s.Sound) : s.unregister.Served := by
  rcases sound.unregister_cases with ⟨-, unchanged⟩ | ⟨-, answered⟩
  · rw [unchanged]
    exact { served with waiting := fun _ owns => (nomatch owns) }
  · exact served.answer answered nofun

/-- Setting up serves nothing. -/
theorem Served.setup (sound : s.Sound)
    (setup : label.setup = true) (stepped : s.step label = some s') : s'.Served := by
  rcases setup_cases setup stepped with rfl | ⟨t, task, rfl, quiet⟩ | ⟨t, apart, free, rfl⟩
  · exact served
  · exact served.setTask quiet.waiting
  · refine { served with waiting := fun _ _ _ pending => ?_ }
    obtain ⟨-, o, owns, -⟩ := sound.pending pending
    cases free.symm.trans owns

/-- Every step that repeats no return. -/
theorem Served.step (sound : s.Sound) (answers : s.Answers label)
    (unrepeated : s.Unrepeated label) (stepped : s.step label = some s') : s'.Served := by
  cases label with
  | setRole | bind | pin | registerShadow | signal => exact served.setup sound rfl stepped
  | call t copied now =>
    obtain ⟨here, ⟨⟩⟩ := ite_none_right_eq_some.mp stepped
    rcases s.call_cases t copied now with same | ⟨shadow, procedure, -, -, -, accepted⟩
    · rw [same]
      exact served
    · rw [accepted]
      refine { served with waiting := fun _ _ _ _ => ?_ }
      have number : (s.accept t shadow procedure now).last = s.accepted.length := by
        simp [last, System.accept, wake, System.setTask]
      rw [number]
      exact (sound.fresh s.accepted.length (Nat.le_refl _)).2.1
  | resume t copied now =>
    simp only [System.step] at stepped
    split at stepped
    case h_2 => contradiction
    case h_1 c calls _ =>
      cases stepped
      simp only [System.resume]
      split
      case isTrue => exact served.setTask id
      case isFalse idle => exact { served with waiting := fun _ _ _ pending => absurd pending idle }
  | waitCall t copied now =>
    obtain ⟨here, stepped⟩ := ite_none_right_eq_some.mp stepped
    split at stepped
    case isTrue =>
      cases stepped
      exact served
    case isFalse =>
      split at stepped
      case isTrue => contradiction
      case isFalse =>
        cases stepped
        exact served.wait answers copied now
  | waitAgain t copied now =>
    obtain ⟨here, stepped⟩ := ite_none_right_eq_some.mp stepped
    split at stepped
    case isTrue =>
      cases stepped
      exact served.setTask nofun
    case isFalse =>
      cases stepped
      exact served.wait (fun owns => served.waiting t owns here.1) copied now
  | ret t result copied now =>
    obtain ⟨here, stepped⟩ := ite_none_right_eq_some.mp stepped
    have apart := not_calling_of_phase here.1 fun _ => nofun
    rcases sound.ret_cases apart stepped with ⟨rfl, -⟩ | ⟨owns, waits, answered⟩
    · exact served
    · exact served.answer answered fun _ _ => answers owns waits
  | retEnd t restart copied now =>
    obtain ⟨task, quiet, rfl | ⟨signalled, again, waits, -⟩⟩ := sound.retEnd_cases stepped
    · exact served.setTask quiet.waiting
    · exact absurd (waits.symm.trans (unrepeated signalled again)) (by decide)
  | release t =>
    obtain ⟨here, ⟨⟩⟩ := ite_none_right_eq_some.mp stepped
    simp only [System.release]
    split
    case isTrue => exact (served.unregister sound).setTask id
    case isFalse => exact served.setTask id

end Served

/-! ## Runs -/

/-- Every call that was accepted returns once, with its own answer. -/
structure HandedOff (s : System) : Prop where
  once : ∀ c, (s.returned c).length ≤ 1
  kept : ∀ c, c < s.accepted.length → s.returned c = [] → ∃ t, s.Calling t c
  own : ∀ c o, o ∈ s.returned c → ∃ a h, s.answers c = some a ∧ s.accepted[c]? = some h ∧
    ∀ out, o = some out → out.result = a.result ∧ out.Same h
  /-- Nobody sleeps whose call is answered, and the next step of the caller returns the answer. -/
  awake : ∀ t c a, s.Calling t c → s.answers c = some a → (s.tasks t).asleep = false ∧
    ∀ copied now, ∃ s' out, s.step (.resume t copied now) = some s' ∧
      s'.returned c = [if copied then some out else none] ∧ out.result = a.result

/-- A shadow that answers every call it received with one return receives every call once. -/
structure Delivered (s : System) : Prop where
  atMost : ∀ c, (s.received c).length ≤ 1
  answered : ∀ c r, s.answers c = some (.returned r) → (s.received c).length = 1
  data : ∀ c h, h ∈ s.received c → ∃ g, s.accepted[c]? = some g ∧ h.Same g
  prompt : s.channel.callPending = true →
    ∃ o, s.channel.shadowOwner = some o ∧ (s.tasks o).asleep = false

/-- What soundness says of the calls. -/
theorem Sound.handedOff {s : System} (sound : s.Sound) : s.HandedOff where
  once := sound.once
  kept := sound.complete
  own := sound.returns
  awake t c a calls answer := by
    have facts := sound.outstanding t c calls
    rcases facts.state with ⟨-, -, none⟩ | ⟨idle, awake, b, answer', result⟩
    · rw [none] at answer
      contradiction
    · rw [answer] at answer'
      cases answer'
      refine ⟨awake, fun copied now =>
        ⟨s.resume t c copied now, { s.channel.handoff with callerResumeNs := now }, ?_, ?_, result⟩⟩
      · have phase : (s.tasks t).phase = .calling c := calls
        simp only [System.step, phase, awake]
      · simp [System.resume, idle, facts.open_]

/-- In every run in which no call is accepted before the last one has returned, every call returns
once with its own answer, and nobody sleeps on an answer; a shadow that answers what it receives
receives every call once, as long as no interrupted `RETURN` is executed again. -/
theorem handoff_sound {mm : Nat → Nat} {labels : List SystemLabel} {s : System}
    (alone : Machine.Admits Alone step (start mm) labels)
    (run : Machine.run step (start mm) labels = some s) :
    s.HandedOff ∧ (Machine.Admits Answers step (start mm) labels →
      Machine.Admits Unrepeated step (start mm) labels → s.Delivered) := by
  have sound := Machine.run_admitted Sound (fun _ _ _ sound alone stepped =>
    sound.step alone stepped) alone (start_sound mm) run
  refine ⟨sound.handedOff, fun answers unrepeated => ?_⟩
  have served := (Machine.run_admitted (fun s => s.Sound ∧ s.Served)
    (fun _ _ _ both admitted stepped =>
      ⟨both.1.step admitted.1 stepped, both.2.step both.1 admitted.2.1 admitted.2.2 stepped⟩)
    (alone.and (answers.and unrepeated)) ⟨start_sound mm, fun _ => Nat.zero_le 1, nofun,
      nofun⟩ run).2
  exact ⟨served.atMost, served.answered, sound.received, fun waits => (sound.pending waits).2⟩

end System

namespace Sample

/-- A shadow and two callers on one channel, in three processes. -/
def threads : List SystemLabel :=
  [.setRole 0 .shadow, .bind 0 7, .pin 0 1 true, .registerShadow 0,
    .setRole 1 .caller, .bind 1 7, .pin 1 1 true, .setRole 2 .caller, .bind 2 7, .pin 2 1 true]

/-- The shadow waits, and the first caller is served. -/
def served : List SystemLabel :=
  threads ++ [.waitCall 0 true 1, .call 1 true 2, .waitAgain 0 true 3, .ret 0 5 true 4]

/-- The first caller returns before the second one calls. -/
def inTurn : List SystemLabel := served ++ [.resume 1 true 5, .call 2 true 6]

/-- The second caller calls before the first one has fetched its answer. -/
def overlapping : List SystemLabel := served ++ [.call 2 true 5, .resume 1 true 6]

/-- The shadow is interrupted in `RETURN` once the first caller has returned, and the second one
calls before `RETURN` is executed again. -/
def interrupted : List SystemLabel :=
  served ++ [.resume 1 true 5, .signal 0, .call 2 true 6, .retEnd 0 true true 7]

/-- Callers that take turns are served. -/
theorem handoff_sound_inTurn : ∃ s, Machine.run System.step (System.start id) inTurn = some s ∧
    s.HandedOff ∧ s.Delivered := by
  have taken : (Machine.run System.step (System.start id) inTurn).isSome = true := by decide +kernel
  obtain ⟨s, reached⟩ := isSome_iff_exists.mp taken
  have facts := System.handoff_sound (by decide +kernel) reached
  exact ⟨s, reached, facts.1, facts.2 (by decide +kernel) (by decide +kernel)⟩

/-- The call of the first caller is answered, and it sleeps. In the other run the callers take turns
and the shadow answers what it receives, but the second call is answered and never received. -/
theorem answered_asleep :
    (∃ s, Machine.run System.step (System.start id) overlapping = some s ∧ ¬ s.HandedOff) ∧
    ∃ s, Machine.run System.step (System.start id) interrupted = some s ∧
      Machine.Admits System.Alone System.step (System.start id) interrupted ∧
      Machine.Admits System.Answers System.step (System.start id) interrupted ∧ ¬ s.Delivered := by
  constructor
  · obtain ⟨s, reached, calls, answer, asleep⟩ : ∃ s,
        Machine.run System.step (System.start id) overlapping = some s ∧
        (s.tasks 1).phase = .calling 0 ∧ s.answers 0 = some (.returned 5) ∧
        (s.tasks 1).asleep = true := by
      decide +kernel
    refine ⟨s, reached, fun good => ?_⟩
    exact absurd (asleep.symm.trans (good.awake 1 0 _ calls answer).1) (by decide)
  · obtain ⟨s, reached, answer, missed⟩ : ∃ s,
        Machine.run System.step (System.start id) interrupted = some s ∧
        s.answers 1 = some (.returned 5) ∧ s.received 1 = [] := by
      decide +kernel
    refine ⟨s, reached, by decide +kernel, by decide +kernel, fun good => ?_⟩
    have once := good.answered 1 5 answer
    rw [missed] at once
    contradiction

end Sample

end UbApplication.Lrpc
