import UbApplication.UbDomain.Pool

/-!
# Who owns the slots of the pool

In every run of both machines a slot belongs to one session at most, the banks account for every
slot in use, a slot that the peer may still act upon is not handed out again, and B never rewrites
the tables of a committed session.
-/

namespace UbApplication.UbDomain

open Fallible Option
open Function (update_self update_of_ne)

section Banks

variable {dev : Device} {env : Environment} {request : Request} {a : Answer}

/-- What a session says about its slot. -/
def OpenSession.ticket (s : OpenSession) : Bool × Fin 16 × Nat × Bool × Bool :=
  (s.poolReserved, s.poolBank, s.poolSlot, s.poolExposed, s.poolReusable)

/-- Other ioctls keep the banks. -/
theorem ioctl_banks (other : request.prepares = false) (served : ioctl env request dev = some a) :
    a.dev.banks = dev.banks := by
  have kept {m : Ioctl Unit} (ends : Ends m (fun _ t => t.banks = dev.banks)
      (fun _ t => t.banks = dev.banks) dev) : (answer m dev).dev.banks = dev.banks := by
    rcases answer_of_ends ends with ⟨-, same⟩ | ⟨-, same⟩
    · exact same
    · exact same
  cases later : request.configures with
  | false => exact (ioctl_answered (by simp [later]) served).2
  | true =>
    cases request with
    | setCodeMode mode =>
      cases served
      refine kept ?_
      simp only [setCodeMode, input, ends_bind, ends_get, ends_refuse, ends_attempt, ends_modify]
      simp [Device.withSession]
    | setProfile profile =>
      cases served
      refine kept ?_
      simp only [setProfile, input, ends_bind, ends_get, ends_refuse, ends_attempt, ends_modify]
      simp [Device.withSession]
    | setNestedPath path =>
      cases served
      refine kept ?_
      simp only [setNestedPath, input, ends_bind, ends_get, ends_refuse, ends_attempt, ends_modify]
      simp [Device.withSession]
    | _ => contradiction

/-- A failed one restores them. -/
theorem ioctl_restored (idle : Idle dev.s) (served : ioctl env request dev = some a)
    (still : Idle a.dev.s) : Restored dev.banks a.dev.banks := by
  have never {start : Device} (begun : Begun env.seen start a.dev) :
    Restored dev.banks a.dev.banks :=
    absurd (still.prepared.symm.trans begun.ready.prepared) (by decide)
  cases prepares : request.prepares with
  | false => exact .inl (ioctl_banks prepares served)
  | true =>
    cases request with
    | prepare value copied =>
      cases served
      rcases answer_of_ends (ends_prepareSession idle) with ⟨-, begun⟩ | ⟨-, undone⟩
      · exact never begun
      · exact undone.banks
    | poolPrepare value copied =>
      cases served
      rcases answer_of_ends (ends_preparePool idle) with ⟨-, begun⟩ | ⟨-, undone⟩
      · exact never begun
      · exact undone.banks
    | _ => contradiction

end Banks

/-! ## The invariant -/

/-- A session holds a slot of a bank. -/
def Pool.HeldBy (p : Pool) (k : Nat) (i : Fin 16) (slot : Nat) : Prop :=
  ∃ s, p.sessions k = some s ∧ s.poolReserved = true ∧ s.poolBank = i ∧ s.poolSlot = slot

/-- What holds of a session of the pool. -/
structure SessionSound (banks : Banks) (region : BitVec 64 → Nat → PoolPublication)
    (s : OpenSession) : Prop where
  lives : Lives s
  reserved : s.prepared = true → s.poolReserved = s.multi
  bank : s.poolReserved = true → s.poolExposed = true ∧ (banks s.poolBank).heap = s.contract.heapPa
  reusable : s.session.committed = true → s.poolReusable = true
  published : s.poolReserved = true → s.poolReusable = true →
    (region s.contract.heapPa s.poolSlot).pub.request = s.contract.nonce ∧
      (region s.contract.heapPa s.poolSlot).pub.complete = s.contract.nonce

/-- What holds of both machines. -/
structure PoolSound (p : Pool) : Prop where
  session : ∀ k s, p.sessions k = some s → SessionSound p.banks p.region s
  apart : ∀ k k' i slot, p.HeldBy k i slot → p.HeldBy k' i slot → k = k'
  banks : BanksSound p.banks fun i slot => ∃ k, p.HeldBy k i slot
  busy : ∀ heap handling, p.owner heap = some handling →
    (p.region heap handling.slot).pub.request = handling.request ∧
      (p.region heap handling.slot).pub.request ≠ (p.region heap handling.slot).pub.complete

section Sessions

variable {banks banks' : Banks} {region region' : BitVec 64 → Nat → PoolPublication}
  {s t : OpenSession}

/-- An idle session is sound. -/
theorem Idle.sound (idle : Idle s) : SessionSound banks region s where
  lives := .inl idle
  reserved wrong := absurd (idle.prepared.symm.trans wrong) (by decide)
  bank wrong := absurd (idle.clean.slot.symm.trans wrong) (by decide)
  reusable wrong := absurd (idle.committed.symm.trans wrong) (by decide)
  published wrong := absurd (idle.clean.slot.symm.trans wrong) (by decide)

section

variable (sound : SessionSound banks region s)
include sound

/-- What soundness is about. -/
theorem SessionSound.frame
    (heap : s.poolReserved = true → (banks' s.poolBank).heap = (banks s.poolBank).heap)
    (pub : s.poolReserved = true → s.poolReusable = true → (region' s.contract.heapPa
      s.poolSlot).pub.request = (region s.contract.heapPa s.poolSlot).pub.request ∧ (region'
      s.contract.heapPa s.poolSlot).pub.complete =
        (region s.contract.heapPa s.poolSlot).pub.complete) :
    SessionSound banks' region' s where
  __ := sound
  bank holds := ⟨(sound.bank holds).1, (heap holds).trans (sound.bank holds).2⟩
  published holds again := by
    rw [(pub holds again).1, (pub holds again).2]
    exact sound.published holds again

/-- An ioctl keeps it. -/
theorem SessionSound.served {env : Environment} {request : Request} {rc : Option Errno}
    (ready : Ready s)
    (seen : env.seen.slot = region s.contract.heapPa) (served : Served env request s rc t) :
    SessionSound banks region t ∧ (t.poolReserved, t.poolBank, t.poolSlot) =
      (s.poolReserved, s.poolBank, s.poolSlot) ∧ (t.poolReusable = true → s.poolReusable = true ∨
        (t.session.committed = true ∧ rc = none ∧ ∃ memory, request = .commit memory)) := by
  have lives : Lives t := .inr (ready.served served)
  have each {α : Type} (field : OpenSession → α) : field t.standing = field s.standing :=
    congrArg field served.standing
  have prepared : t.prepared = s.prepared := each (·.prepared)
  have multi : t.multi = s.multi := each (·.multi)
  have contract : t.contract = s.contract := each (·.contract)
  have exposed : t.poolExposed = s.poolExposed := each (·.poolExposed)
  have parts : (t.poolReserved, t.poolBank, t.poolSlot) =
    (s.poolReserved, s.poolBank, s.poolSlot) :=
    each fun s => (s.poolReserved, s.poolBank, s.poolSlot)
  have places := parts
  simp only [Prod.mk.injEq] at places
  obtain ⟨reserved, bank, slot⟩ := places
  have still (reusable : t.poolReusable = s.poolReusable)
      (committed : t.session.committed = true → s.session.committed = true) :
      SessionSound banks region t := by
    constructor
    · exact lives
    · rw [prepared, multi, reserved]
      exact sound.reserved
    · rw [reserved, exposed, bank, contract]
      exact sound.bank
    · rw [reusable]
      exact fun now => sound.reusable (committed now)
    · rw [reserved, reusable, contract, slot]
      exact sound.published
  cases served with
  | same unchanged =>
    rw [unchanged]
    exact ⟨sound, rfl, .inl⟩
  | called ran rest =>
    have reusable : t.poolReusable = s.poolReusable := by rw [← rest]
    exact ⟨still reusable ran.committed, parts, fun now => .inl (reusable.symm.trans now)⟩
  | committed memory asked success admitted =>
    refine ⟨⟨lives, fun here => (reserved.trans (sound.reserved (prepared.symm.trans here))).trans
      multi.symm, fun holds => ?_, fun _ => admitted.reusable, fun holds _ => ?_⟩, parts,
      fun _ => .inr ⟨admitted.committed, success, memory, asked⟩⟩
    · obtain ⟨known, heap⟩ := sound.bank (reserved.symm.trans holds)
      refine ⟨exposed.trans known, ?_⟩
      rw [bank, contract]
      exact heap
    · obtain ⟨pub, found, -, asks, done⟩ := admitted.published
      have pool : s.multi = true :=
        (sound.reserved ready.prepared).symm.trans (reserved.symm.trans holds)
      rw [seen] at found
      rw [contract, slot, ← found pool]
      exact ⟨asks, done.trans asks⟩
  | refused memory asked failure unfinished =>
    exact ⟨still unfinished.reusable fun now => unfinished.committed.symm.trans now, parts,
      fun now => .inl (unfinished.reusable.symm.trans now)⟩

end

end Sessions

/-! ## Steps -/

/-- The session that a label closes. -/
def PoolLabel.Closes (label : PoolLabel) (k : Nat) : Prop := ∃ ledger, label = .close k ledger

/-- The session that a label asks to commit. -/
def PoolLabel.Commits (label : PoolLabel) (k : Nat) : Prop :=
  ∃ inner memory, label = .ioctl k inner ∧ inner.request = .commit memory

/-- What a step keeps: sessions that are not closed hold what they held, other slots in use stay as
they are, and a slot that is held may be used again only after a commit that succeeded. -/
structure Advanced (p p' : Pool) (label : PoolLabel) : Prop where
  held : ∀ k i slot, p.HeldBy k i slot → ¬ label.Closes k → p'.HeldBy k i slot
  slots : ∀ i slot, (p.banks i).used.getLsbD slot = true →
    (∀ k, label.Closes k → ¬ p.HeldBy k i slot) →
    (p'.banks i).heap = (p.banks i).heap ∧ (p'.banks i).used.getLsbD slot = true ∧
      (p'.banks i).quarantined.getLsbD slot = (p.banks i).quarantined.getLsbD slot
  marked : ∀ k s t, p.sessions k = some s → p'.sessions k = some t → t.poolReserved = true →
    t.poolReusable = true →
    s.poolReusable = true ∨ (t.session.committed = true ∧ label.Commits k)

variable {next : Option OpenSession} {slot : Nat}

section Steps

variable {p p' : Pool} {k : Nat} {s t : OpenSession} {label : PoolLabel} {banks : Banks}

/-- Who holds a slot. -/
theorem heldBy_session {j : Nat} {i : Fin 16} :
    ({ p with banks := banks }.session k next).HeldBy j i slot ↔
      if j = k then ∃ s, next = some s ∧ s.poolReserved = true ∧ s.poolBank = i ∧ s.poolSlot = slot
      else p.HeldBy j i slot := by
  by_cases here : j = k
  · subst here
    simp only [Pool.HeldBy, Pool.session, update_self, if_true]
  · simp only [Pool.HeldBy, Pool.session, update_of_ne here, if_neg here]

/-- A session is replaced: the others keep what they hold. -/
theorem PoolSound.replace (sound : PoolSound p)
    (mine : ∀ t, next = some t → SessionSound banks p.region t)
    (alone : ∀ t, next = some t → t.poolReserved = true → ∀ j, j ≠ k → ¬ p.HeldBy j t.poolBank
      t.poolSlot)
    (accounted : BanksSound banks fun i slot =>
      ∃ j, ({ p with banks := banks }.session k next).HeldBy j i slot)
    (held : ∀ i slot, p.HeldBy k i slot → ¬ label.Closes k →
      ({ p with banks := banks }.session k next).HeldBy k i slot)
    (slots : ∀ i slot, (p.banks i).used.getLsbD slot = true →
      ¬ (label.Closes k ∧ p.HeldBy k i slot) → (banks i).heap = (p.banks i).heap ∧
      (banks i).used.getLsbD slot = true ∧
        (banks i).quarantined.getLsbD slot = (p.banks i).quarantined.getLsbD slot)
    (marked : ∀ s t, p.sessions k = some s → next = some t → t.poolReserved = true →
      t.poolReusable = true → s.poolReusable = true ∨
        (t.session.committed = true ∧ label.Commits k)) :
    PoolSound ({ p with banks := banks }.session k next) ∧
      Advanced p ({ p with banks := banks }.session k next) label := by
  refine ⟨⟨fun j t found => ?_, fun j j' i slot left right => ?_, accounted, sound.busy⟩,
    ⟨fun j i slot owns open_ => ?_, fun i slot used free =>
      slots i slot used fun both => free k both.1 both.2, fun j s t before after holds again => ?_⟩⟩
  · by_cases here : j = k
    · subst here
      simp only [Pool.session, update_self] at found
      exact mine t found
    · simp only [Pool.session, update_of_ne here] at found
      refine (sound.session j t found).frame (fun holds => ?_) fun _ _ => ⟨rfl, rfl⟩
      have owns : p.HeldBy j t.poolBank t.poolSlot := ⟨t, found, holds, rfl, rfl⟩
      exact (slots _ _ (sound.banks.holds _ _ ⟨j, owns⟩).2.1 fun both =>
        here (sound.apart j k _ _ owns both.2)).1
  · rw [heldBy_session] at left right
    by_cases here : j = k
    · rw [if_pos here] at left
      obtain ⟨t, same, holds, rfl, rfl⟩ := left
      by_cases there : j' = k
      · rw [here, there]
      · rw [if_neg there] at right
        exact absurd right (alone t same holds j' there)
    · rw [if_neg here] at left
      by_cases there : j' = k
      · rw [if_pos there] at right
        obtain ⟨t, same, holds, rfl, rfl⟩ := right
        exact absurd left (alone t same holds j here)
      · rw [if_neg there] at right
        exact sound.apart j j' i slot left right
  · by_cases here : j = k
    · subst here
      exact held i slot owns open_
    · rw [heldBy_session, if_neg here]
      exact owns
  · by_cases here : j = k
    · subst here
      simp only [Pool.session, update_self] at after
      exact marked s t before after holds again
    · simp only [Pool.session, update_of_ne here, before] at after
      cases after
      exact .inl again

/-- A session keeps its slot. -/
theorem PoolSound.keep (sound : PoolSound p) (found : p.sessions k = some s)
    (mine : SessionSound p.banks p.region t)
    (ticket : (t.poolReserved, t.poolBank, t.poolSlot) = (s.poolReserved, s.poolBank, s.poolSlot))
    (reused : t.poolReusable = true →
      s.poolReusable = true ∨ (t.session.committed = true ∧ label.Commits k)) :
    PoolSound ({ p with banks := p.banks }.session k (some t)) ∧
      Advanced p ({ p with banks := p.banks }.session k (some t)) label := by
  simp only [Prod.mk.injEq] at ticket
  obtain ⟨reserved, bank, slot⟩ := ticket
  have same (j : Nat) (i : Fin 16) (place : Nat) :
      ({ p with banks := p.banks }.session k (some t)).HeldBy j i place ↔ p.HeldBy j i place := by
    rw [heldBy_session]
    by_cases here : j = k
    · subst here
      simp only [if_true, Pool.HeldBy, found, Option.some.injEq, exists_eq_left', reserved, bank,
        slot]
    · rw [if_neg here]
  refine sound.replace ?_ ?_ ?_ (fun i place held _ => (same k i place).mpr held)
    (fun i place used _ => ⟨rfl, used, rfl⟩) ?_
  · intro t' equal
    cases equal
    exact mine
  · intro t' equal holds j different wrong
    cases equal
    rw [bank, slot] at wrong
    exact different (sound.apart j k _ _ wrong ⟨s, found, reserved.symm.trans holds, rfl, rfl⟩)
  · refine sound.banks.congr fun i place => ?_
    simp only [same]
  · intro s' t' before equal _ again
    rw [found] at before
    cases before
    cases equal
    exact reused again

/-- A session without a slot. -/
theorem PoolSound.restore (sound : PoolSound p) (free : ∀ i slot, ¬ p.HeldBy k i slot)
    (restored : Restored p.banks banks) (mine : ∀ t, next = some t → SessionSound banks p.region t)
    (nothing : ∀ t, next = some t → t.poolReserved = false) :
    PoolSound ({ p with banks := banks }.session k next) ∧
      Advanced p ({ p with banks := banks }.session k next) label := by
  have never {t : OpenSession} (equal : next = some t) : ¬ t.poolReserved = true := by
    simp [nothing t equal]
  refine sound.replace mine (fun t equal holds => absurd holds (never equal)) ?_
    (fun i place held => absurd held (free i place))
    (fun i place used _ => sound.banks.restore_heap restored used)
    fun _ t _ equal holds => absurd holds (never equal)
  refine (sound.banks.restore restored).congr fun i place => exists_congr fun j => ?_
  rw [heldBy_session]
  by_cases here : j = k
  · subst here
    rw [if_pos rfl]
    exact iff_of_false (fun ⟨t, equal, holds, _⟩ => never equal holds) (free i place)
  · rw [if_neg here]

/-- A slot is taken. -/
theorem PoolSound.take (sound : PoolSound p) {heap generation : BitVec 64}
    (free : ∀ i slot, ¬ p.HeldBy k i slot)
    (taken : Taken p.banks heap generation t.poolBank t.poolSlot banks)
    (holds : t.poolReserved = true) (fresh : t.poolReusable = false)
    (mine : SessionSound banks p.region t) :
    PoolSound ({ p with banks := banks }.session k (some t)) ∧
      Advanced p ({ p with banks := banks }.session k (some t)) label := by
  refine sound.replace ?_ ?_ ((sound.banks.take taken).congr fun i place => ?_)
    (fun i place held => absurd held (free i place))
    (fun i place used _ => sound.banks.take_heap taken used) ?_
  · intro t' equal
    cases equal
    exact mine
  · intro t' equal _ j _ wrong
    cases equal
    have used := (sound.banks.holds _ _ ⟨j, wrong⟩).2.1
    exact absurd (taken.free.symm.trans used) (by decide)
  · simp only [heldBy_session]
    constructor
    · rintro ⟨j, held⟩
      by_cases here : j = k
      · rw [if_pos here] at held
        obtain ⟨t', equal, -, rfl, rfl⟩ := held
        cases equal
        exact .inr ⟨rfl, rfl⟩
      · rw [if_neg here] at held
        exact .inl ⟨j, held⟩
    · rintro (⟨j, held⟩ | ⟨rfl, rfl⟩)
      · have different : j ≠ k := by
          rintro rfl
          exact free i place held
        exact ⟨j, by rw [if_neg different]; exact held⟩
      · exact ⟨k, by rw [if_pos rfl]; exact ⟨t, rfl, holds, rfl, rfl⟩⟩
  · intro s' t' _ equal _ again
    cases equal
    exact absurd (fresh.symm.trans again) (by decide)

/-- No slot is held. -/
theorem not_heldBy (found : p.sessions k = some s) (nothing : s.poolReserved = false) (i : Fin 16)
    (slot : Nat) : ¬ p.HeldBy k i slot := by
  rintro ⟨t, there, holds, -⟩
  cases found.symm.trans there
  exact absurd (nothing.symm.trans holds) (by decide)

/-- An ioctl of a process. -/
theorem PoolSound.ioctl (sound : PoolSound p) {label : Label}
    (stepped : p.ioctl k label = some p') :
    PoolSound p' ∧ Advanced p p' (.ioctl k label) := by
  obtain ⟨s, found, stepped⟩ := bind_eq_some_iff.mp stepped
  obtain ⟨a, answered, stepped⟩ := bind_eq_some_iff.mp stepped
  cases stepped
  have mine : SessionSound p.banks p.region (s.touch label.touched) :=
    { sound.session k s found with lives := (sound.session k s found).lives.touch label.touched }
  rcases mine.lives with idle | ready
  · have free := not_heldBy found idle.clean.slot
    have touched : Idle ((label.inPool p s).device s).s := idle
    rcases ioctl_idle touched answered with still | ⟨-, begun⟩
    · exact sound.restore free (ioctl_restored touched answered still)
        (fun t equal => by cases equal; exact still.sound)
        fun t equal => by cases equal; exact still.clean.slot
    · cases multi : a.dev.s.multi with
      | false =>
        have banks : a.dev.banks = p.banks := begun.single multi
        have holds : a.dev.s.poolReserved = false := begun.reserved.trans multi
        have session : SessionSound p.banks p.region a.dev.s :=
          ⟨.inr begun.ready, fun _ => begun.reserved,
            fun wrong => absurd (holds.symm.trans wrong) (by decide),
            fun wrong => absurd (begun.committed.symm.trans wrong) (by decide),
            fun wrong => absurd (holds.symm.trans wrong) (by decide)⟩
        exact sound.restore free (.inl banks)
          (fun t equal => by cases equal; exact banks ▸ session)
          fun t equal => by cases equal; exact holds
      | true =>
        have taken := slotsAcquire_taken (begun.slot multi)
        obtain ⟨exposed, fresh⟩ := begun.exposed multi
        have bank : (a.dev.banks a.dev.s.poolBank).heap = a.dev.s.contract.heapPa := by
          rw [taken.after, update_self]
          exact (begun.pages .heap _ rfl).symm
        have session : SessionSound a.dev.banks p.region a.dev.s :=
          ⟨.inr begun.ready, fun _ => begun.reserved,
            fun _ => ⟨exposed, bank⟩,
            fun wrong => absurd (begun.committed.symm.trans wrong) (by decide),
            fun _ wrong => absurd (fresh.symm.trans wrong) (by decide)⟩
        exact sound.take free taken (begun.reserved.trans multi) fresh session
  · have touched : Ready ((label.inPool p s).device s).s := ready
    have banks : a.dev.banks = p.banks := (ioctl_answered (fun _ => touched.prepared) answered).2
    obtain ⟨session, ticket, reused⟩ := mine.served ready rfl
      (ioctl_served (fun _ => touched.prepared) answered)
    rw [banks]
    refine sound.keep found session ticket fun again => ?_
    exact (reused again).imp_right fun ⟨committed, _, memory, asked⟩ =>
      ⟨committed, label, memory, rfl, asked⟩

/-- A process connects. -/
theorem PoolSound.connect (sound : PoolSound p) (stepped : p.connect k = some p') :
    PoolSound p' ∧ Advanced p p' (.connect k) := by
  obtain ⟨none, stepped⟩ := ite_none_left_eq_some.mp stepped
  cases stepped
  have free : ∀ i slot, ¬ p.HeldBy k i slot := by
    rintro i slot ⟨t, there, -⟩
    simp [there] at none
  exact sound.restore free (.inl rfl) (fun t equal => by cases equal; exact opened_idle.sound)
    fun t equal => by cases equal; rfl

/-- What closing does. -/
theorem close_eq {ledger : Ledger} (stepped : p.close k ledger = some p') :
    ∃ s, p.sessions k = some s ∧ p' = { p with
      banks := if s.poolReserved then
          slotsRelease p.banks s.poolBank s.poolSlot s.poolExposed s.poolReusable
        else p.banks }.session k none := by
  obtain ⟨s, found, stepped⟩ := bind_eq_some_iff.mp stepped
  refine ⟨s, found, ?_⟩
  have banks := (freePages_s ⟨s, ledger, p.banks⟩).2
  generalize (freePages ⟨s, ledger, p.banks⟩).banks = after at stepped banks
  rw [← (Option.some.inj stepped), banks]

/-- A process closes. -/
theorem PoolSound.close (sound : PoolSound p) {ledger : Ledger}
    (stepped : p.close k ledger = some p') :
    (PoolSound p' ∧ Advanced p p' (.close k ledger)) ∧
      ∃ s, p.sessions k = some s ∧ p'.sessions k = none ∧
        (s.poolReserved = false → p'.banks = p.banks) ∧
        (s.poolReserved = true →
          (p'.banks s.poolBank).used.getLsbD s.poolSlot = !s.poolReusable ∧
          (s.poolReusable = false →
            (p'.banks s.poolBank).quarantined.getLsbD s.poolSlot = true)) := by
  obtain ⟨s, found, rfl⟩ := close_eq stepped
  have gone {banks : Banks} : ({ p with banks := banks }.session k none).sessions k = none :=
    update_self _ _ _
  cases reserved : s.poolReserved with
  | false =>
    exact ⟨sound.restore (not_heldBy found reserved) (.inl rfl) (fun t wrong => (nomatch wrong))
      fun t wrong => (nomatch wrong),
      s, found, gone, fun _ => rfl, fun wrong => absurd (reserved.symm.trans wrong) (by decide)⟩
  | true =>
    have mine : p.HeldBy k s.poolBank s.poolSlot := ⟨s, found, reserved, rfl, rfl⟩
    have exposed := ((sound.session k s found).bank reserved).1
    obtain ⟨inside, used, -⟩ := sound.banks.holds _ _ ⟨k, mine⟩
    have small : s.poolSlot < 64 := Nat.lt_trans inside (by decide)
    have closes : (PoolLabel.close k ledger).Closes k := ⟨ledger, rfl⟩
    simp only [if_true]
    refine ⟨sound.replace (fun t wrong => (nomatch wrong)) (fun t wrong => (nomatch wrong)) ?_
      (fun i slot _ open_ => absurd closes open_) (fun i slot set free => ?_)
      (fun _ t _ wrong => (nomatch wrong)), s, found, gone,
      fun wrong => absurd (reserved.symm.trans wrong) (by decide), fun _ => ?_⟩
    · refine (sound.banks.give ⟨k, mine⟩ s.poolExposed s.poolReusable).congr fun i slot => ?_
      simp only [heldBy_session]
      constructor
      · rintro ⟨j, held⟩
        by_cases here : j = k
        · rw [if_pos here] at held
          obtain ⟨t, wrong, -⟩ := held
          exact (nomatch wrong)
        · rw [if_neg here] at held
          refine ⟨⟨j, held⟩, ?_⟩
          rintro ⟨rfl, rfl⟩
          exact here (sound.apart j k _ _ held mine)
      · rintro ⟨⟨j, held⟩, apart⟩
        have different : j ≠ k := by
          rintro rfl
          obtain ⟨t, there, -, rfl, rfl⟩ := held
          rw [found] at there
          cases there
          exact apart ⟨rfl, rfl⟩
        exact ⟨j, by rw [if_neg different]; exact held⟩
    · refine sound.banks.give_heap ⟨k, mine⟩ _ _ ?_ set
      rintro ⟨rfl, rfl⟩
      exact free ⟨closes, mine⟩
    · show (slotsRelease p.banks s.poolBank s.poolSlot s.poolExposed s.poolReusable
          s.poolBank).used.getLsbD s.poolSlot = _ ∧ (_ → (slotsRelease p.banks s.poolBank s.poolSlot
          s.poolExposed s.poolReusable s.poolBank).quarantined.getLsbD s.poolSlot = true)
      cases again : s.poolReusable with
      | false =>
        rw [slotsRelease_quarantine (by rw [exposed]; rfl) used, update_self]
        refine ⟨used, fun _ => ?_⟩
        rw [set_bit small]
        simp
      | true =>
        rw [slotsRelease_free (by simp), update_self]
        refine ⟨?_, fun wrong => absurd wrong (by decide)⟩
        split
        case isTrue => simp
        case isFalse =>
          rw [clear_bit small]
          simp

/-- The regions change. -/
theorem PoolSound.regions (sound : PoolSound p)
    (regions : { p with region := p'.region, tables := p'.tables, owner := p'.owner } = p')
    (kept : ∀ k s, p.sessions k = some s → s.poolReserved = true → s.poolReusable = true →
      (p'.region s.contract.heapPa s.poolSlot).pub.request =
        (p.region s.contract.heapPa s.poolSlot).pub.request ∧
      (p'.region s.contract.heapPa s.poolSlot).pub.complete = (p.region s.contract.heapPa
      s.poolSlot).pub.complete)
    (busy : ∀ heap handling, p'.owner heap = some handling →
      (p'.region heap handling.slot).pub.request = handling.request ∧
      (p'.region heap handling.slot).pub.request ≠ (p'.region heap
      handling.slot).pub.complete) :
    PoolSound p' ∧ Advanced p p' label := by
  rw [← regions]
  refine ⟨{ sound with busy, session := fun k s found => ?_ }, fun j i slot held _ => held,
    fun i slot used _ => ⟨rfl, used, rfl⟩, fun k s t before after _ again => ?_⟩
  · exact (sound.session k s found).frame (fun _ => rfl) (kept k s found)
  · cases before.symm.trans after
    exact .inl again

/-- A publication is written. -/
theorem publication_region (p : Pool) (heap heap' : BitVec 64) (slot slot' : Nat)
    (pub : PoolPublication) :
    (p.publication heap slot pub).region heap' slot' =
      if heap' = heap ∧ slot' = slot then pub else p.region heap' slot' := by
  by_cases here : heap' = heap
  · subst here
    by_cases there : slot' = slot
    · subst there
      simp [Pool.publication]
    · simp [Pool.publication, there]
  · simp [Pool.publication, here]

section

variable (sound : PoolSound p)
include sound

/-- A slot has one owner. -/
theorem PoolSound.same_slot {k' : Nat} (found : p.sessions k = some s)
    (found' : p.sessions k' = some t)
    (holds : s.poolReserved = true) (holds' : t.poolReserved = true)
    (heap : s.contract.heapPa = t.contract.heapPa) (slot : s.poolSlot = t.poolSlot) : k = k' := by
  have bank := ((sound.session k s found).bank holds).2
  have bank' := ((sound.session k' t found').bank holds').2
  have mine : p.HeldBy k s.poolBank s.poolSlot := ⟨s, found, holds, rfl, rfl⟩
  have used := (sound.banks.holds _ _ ⟨k, mine⟩).2.1
  have same : s.poolBank = t.poolBank :=
    sound.banks.heaps _ _ (sound.banks.heap_ne used) (by rw [bank, bank', heap])
  exact sound.apart k k' _ _ mine ⟨t, found', holds', same.symm, slot.symm⟩

/-- A request is published. -/
theorem PoolSound.publish (stepped : p.publish k = some p') :
    PoolSound p' ∧ Advanced p p' label := by
  obtain ⟨s, found, stepped⟩ := bind_eq_some_iff.mp stepped
  obtain ⟨free, stepped⟩ := ite_none_left_eq_some.mp stepped
  simp only [not_or, Bool.not_eq_false, ne_eq, not_not] at free
  obtain ⟨prepared, multi, complete, fresh⟩ := free
  cases stepped
  have mine := sound.session k s found
  have holds : s.poolReserved = true := (mine.reserved prepared).trans multi
  refine sound.regions rfl (fun j t there held again => ?_) fun heap handling busy => ?_
  · have apart : ¬ (t.contract.heapPa = s.contract.heapPa ∧ t.poolSlot = s.poolSlot) := by
      rintro ⟨heap, slot⟩
      have same := sound.same_slot there found held holds heap slot
      subst same
      rw [found] at there
      cases there
      exact fresh (mine.published held again).1
    rw [publication_region, if_neg apart]
    exact ⟨rfl, rfl⟩
  · have old := sound.busy heap handling busy
    rw [publication_region]
    split
    case isTrue here =>
      rw [here.1, here.2] at old
      exact absurd complete old.2
    case isFalse => exact old

variable {heap : BitVec 64}

/-- The server polls. -/
theorem PoolSound.poll {seen : Import}
    (stepped : p.poll heap slot seen = some p') : PoolSound p' ∧ Advanced p p' label := by
  obtain ⟨ready, stepped⟩ := ite_none_left_eq_some.mp stepped
  simp only [not_or] at ready
  cases stepped
  have words (heap' : BitVec 64) (slot' : Nat) (failed : Bool) :
      ((p.publication heap slot { p.region heap slot with
        error := if failed then 22 else 0 }).region heap' slot').pub =
          (p.region heap' slot').pub := by
    rw [publication_region]
    split
    case isTrue here => rw [here.1, here.2]
    case isFalse => rfl
  refine sound.regions rfl (fun j t there held again => ?_) fun heap' handling busy => ?_
  · dsimp only
    rw [words]
    exact ⟨rfl, rfl⟩
  · dsimp only at busy ⊢
    rw [words]
    by_cases here : heap' = heap
    · subst here
      rw [update_self] at busy
      cases busy
      exact ⟨rfl, ready.2.2.2.2⟩
    · rw [update_of_ne here] at busy
      exact sound.busy heap' handling busy

/-- The server writes a table. -/
theorem PoolSound.rewrite {entry : Entry} {level : Fin 4}
    (stepped : p.rewrite heap entry level = some p') : PoolSound p' ∧ Advanced p p' label := by
  obtain ⟨handling, busy, stepped⟩ := bind_eq_some_iff.mp stepped
  obtain ⟨table, built, stepped⟩ := bind_eq_some_iff.mp stepped
  obtain ⟨-, stepped⟩ := ite_none_right_eq_some.mp stepped
  cases stepped
  exact sound.regions rfl (fun _ _ _ _ _ => ⟨rfl, rfl⟩) sound.busy

/-- A handled slot is not reused. -/
theorem PoolSound.handled {handling : Handling} (busy : p.owner heap = some handling)
    (found : p.sessions k = some s) (holds : s.poolReserved = true)
    (again : s.poolReusable = true) :
    ¬ (s.contract.heapPa = heap ∧ s.poolSlot = handling.slot) := by
  rintro ⟨rfl, slot⟩
  obtain ⟨-, pending⟩ := sound.busy _ handling busy
  obtain ⟨asked, done⟩ := (sound.session k s found).published holds again
  rw [← slot] at pending
  exact pending (asked.trans done.symm)

/-- The server completes. -/
theorem PoolSound.complete (stepped : p.complete heap = some p') :
    PoolSound p' ∧ Advanced p p' label := by
  obtain ⟨handling, busy, stepped⟩ := bind_eq_some_iff.mp stepped
  cases stepped
  refine sound.regions rfl (fun j t there held again => ?_) fun heap' handling' busy' => ?_
  · dsimp only
    rw [publication_region, if_neg (sound.handled busy there held again)]
    exact ⟨rfl, rfl⟩
  · dsimp only at busy' ⊢
    have different : heap' ≠ heap := by
      rintro rfl
      rw [update_self] at busy'
      contradiction
    rw [update_of_ne different] at busy'
    rw [publication_region, if_neg fun both => different both.1]
    exact sound.busy heap' handling' busy'

end

/-- Every step. -/
theorem PoolSound.step (sound : PoolSound p) (stepped : p.step label = some p') :
    PoolSound p' ∧ Advanced p p' label := by
  cases label with
  | connect k => exact sound.connect stepped
  | ioctl k label => exact sound.ioctl stepped
  | publish k => exact sound.publish stepped
  | close k ledger => exact (sound.close stepped).1
  | poll heap slot seen => exact sound.poll stepped
  | rewrite heap entry level => exact sound.rewrite stepped
  | complete heap => exact sound.complete stepped

end Steps

/-! ## Runs -/

/-- Who owns the slots, and what B does with them. -/
structure PoolSafe (p : Pool) : Prop where
  unique : ∀ k k' i slot, p.HeldBy k i slot → p.HeldBy k' i slot → k = k'
  heaps : ∀ i j, (p.banks i).heap ≠ 0 → (p.banks i).heap = (p.banks j).heap → i = j
  /-- A slot is in use exactly when a session holds it or it is in quarantine, and never both. -/
  accounted : ∀ i slot, ((p.banks i).used.getLsbD slot = true ↔
      (p.banks i).quarantined.getLsbD slot = true ∨ ∃ k, p.HeldBy k i slot) ∧
    ¬ ((p.banks i).quarantined.getLsbD slot = true ∧ ∃ k, p.HeldBy k i slot)
  within : ∀ i slot, (p.banks i).quarantined.getLsbD slot = true →
    (p.banks i).used.getLsbD slot = true
  kept : ∀ label p', p.step label = some p' → ∀ k i slot, p.HeldBy k i slot →
    (∀ ledger, label ≠ .close k ledger) → p'.HeldBy k i slot
  /-- Closing a session gives back its slot: it becomes free when a commit has used it, and goes
  into quarantine when none has. A session without a slot leaves the banks alone. -/
  released : ∀ k ledger p' s, p.close k ledger = some p' → p.sessions k = some s →
    p'.sessions k = none ∧ (s.poolReserved = false → p'.banks = p.banks) ∧
      (s.poolReserved = true →
        (p'.banks s.poolBank).used.getLsbD s.poolSlot = !s.poolReusable ∧
        (s.poolReusable = false → (p'.banks s.poolBank).quarantined.getLsbD s.poolSlot = true))
  marked : ∀ label p' k s t, p.step label = some p' → p.sessions k = some s →
    p'.sessions k = some t → t.poolReserved = true → t.poolReusable = true →
    s.poolReusable = true ∨ (t.session.committed = true ∧
      ∃ inner memory, label = .ioctl k inner ∧ inner.request = .commit memory)
  untouched : ∀ heap entry level p' handling k s, p.rewrite heap entry level = some p' →
    p.owner heap = some handling → p.sessions k = some s → s.poolReserved = true →
    s.session.committed = true → ¬ (s.contract.heapPa = heap ∧ s.poolSlot = handling.slot)
  /-- A slot in quarantine stays there, in the bank of its heap, and is never held again. -/
  quarantine : ∀ labels p', Machine.run Pool.step p labels = some p' → ∀ i slot,
    (p.banks i).quarantined.getLsbD slot = true →
    (p'.banks i).quarantined.getLsbD slot = true ∧ (p'.banks i).heap = (p.banks i).heap ∧
      ∀ k, ¬ p'.HeldBy k i slot

section Runs

variable {p p' : Pool}

/-- The start is sound. -/
theorem poolSound_start : PoolSound .start where
  session k s found := (nomatch found)
  apart k k' i slot left _ := by
    obtain ⟨s, found, -⟩ := left
    exact (nomatch found)
  banks := by
    refine banksSound_empty ?_ fun _ => rfl
    rintro i slot ⟨k, s, found, -⟩
    exact (nomatch found)
  busy heap handling busy := (nomatch busy)

/-- Every run. -/
theorem PoolSound.run {labels : List PoolLabel} (sound : PoolSound p)
    (run : Machine.run Pool.step p labels = some p') : PoolSound p' :=
  Machine.run_invariant (fun _ => True) PoolSound
    (fun _ _ _ here _ stepped => (here.step stepped).1) (fun _ _ => trivial) sound run

/-- Quarantine is for ever. -/
theorem PoolSound.quarantine (sound : PoolSound p) {labels : List PoolLabel}
    (run : Machine.run Pool.step p labels = some p') {i : Fin 16}
    (inside : (p.banks i).quarantined.getLsbD slot = true) :
    (p'.banks i).quarantined.getLsbD slot = true ∧ (p'.banks i).heap = (p.banks i).heap := by
  have holds := Machine.run_invariant (fun _ => True)
    (fun q => PoolSound q ∧ (q.banks i).quarantined.getLsbD slot = true ∧
      (q.banks i).heap = (p.banks i).heap) (fun before label after here _ stepped => ?_)
    (fun _ _ => trivial) ⟨sound, inside, rfl⟩ run
  · exact holds.2
  · obtain ⟨here, kept, heap⟩ := here
    obtain ⟨next, advanced⟩ := here.step stepped
    have apart (k : Nat) (_ : label.Closes k) : ¬ before.HeldBy k i slot := fun held =>
      absurd ((here.banks.holds i slot ⟨k, held⟩).2.2.symm.trans kept) (by decide)
    obtain ⟨same, -, still⟩ := advanced.slots i slot (here.banks.within i slot kept) apart
    exact ⟨next, still.trans kept, same.trans heap⟩

/-- In every run of both machines the slots of the pool are safe. -/
theorem pool_slots_safe {labels : List PoolLabel}
    (run : Machine.run Pool.step .start labels = some p) : PoolSafe p := by
  have sound := poolSound_start.run run
  constructor
  · exact sound.apart
  · exact sound.banks.heaps
  · intro i slot
    refine ⟨⟨sound.banks.accounted i slot, ?_⟩, ?_⟩
    · rintro (quarantined | held)
      · exact sound.banks.within i slot quarantined
      · exact (sound.banks.holds i slot held).2.1
    · rintro ⟨quarantined, held⟩
      exact absurd ((sound.banks.holds i slot held).2.2.symm.trans quarantined) (by decide)
  · exact sound.banks.within
  · intro label p' stepped k i slot held open_
    exact (sound.step stepped).2.held k i slot held fun ⟨ledger, closes⟩ => open_ ledger closes
  · intro k ledger p' s stepped found
    obtain ⟨-, s', there, facts⟩ := sound.close stepped
    rw [found] at there
    cases there
    exact facts
  · exact fun label p' k s t stepped => (sound.step stepped).2.marked k s t
  · intro heap entry level p' handling k s _ busy found holds committed
    exact sound.handled busy found holds ((sound.session k s found).reusable committed)
  · intro later p' more i slot inside
    obtain ⟨quarantined, heap⟩ := sound.quarantine more inside
    refine ⟨quarantined, heap, fun k held => ?_⟩
    have next := sound.run more
    exact absurd ((next.banks.holds i slot ⟨k, held⟩).2.2.symm.trans quarantined) (by decide)

end Runs

namespace Sample

/-- The contract of a session with the first slot of a pool. -/
def poolContract : Contract :=
  { contract with tablePa := fun d level => pa (udPoolTable 0 d level) }

/-- The tables that the peer builds in the first slot. -/
def poolMemory (page : BitVec 64) (i : Nat) : BitVec 64 :=
  match domains.find? fun d =>
      (List.finRange 4).any fun level => pa (udPoolTable 0 d level) == page with
  | none => 0
  | some d =>
    match (List.finRange 4).find? fun level => pa (udPoolTable 0 d level) == page with
    | none => 0
    | some level => buildTable poolContract d level i

def poolSeen : Import :=
  { seen with
    header := ⟨udPoolMagic, 5, udPoolAbi, 8, 4, 0⟩
    profileHeader := ⟨udProfileMagic, udPoolAbi, 0⟩
    memory := poolMemory }

def poolLabel (request : Request) : Label :=
  { label request with env := { (label request).env with seen := poolSeen } }

/-- Two sessions take slots. One publishes, B builds a table for it, and it commits; the other one
is closed before it publishes. -/
def poolRun : List PoolLabel :=
  [.connect 0, .ioctl 0 (poolLabel (.poolPrepare (some ⟨0x400000, 5, udPoolAbi, 0⟩) true)),
    .publish 0, .poll (pa udHeap) 0 poolSeen, .rewrite (pa udHeap) (.base .direct) 0,
    .complete (pa udHeap), .ioctl 0 (poolLabel (.commit true)),
    .connect 1, .ioctl 1 (poolLabel (.poolPrepare (some ⟨0x400000, 5, udPoolAbi, 0⟩) true)),
    .close 1 ⟨fun _ => ∅, fun _ => 0⟩]

/-- Where that leads. -/
def poolEnd : Pool := (Machine.run Pool.step .start poolRun).getD .start

/-- The run of the sample. -/
theorem poolRun_end : Machine.run Pool.step .start poolRun = some poolEnd :=
  Machine.some_getD (by decide +kernel) _

/-- The first session of that run is committed, and the slot of the other one is in quarantine. -/
example : (poolEnd.sessions 0).any (fun s => s.session.committed && s.poolSlot == 0) = true ∧
    (poolEnd.banks 0).used = 3 ∧ (poolEnd.banks 0).quarantined = 2 := by
  decide +kernel

/-- The slots of that pool are safe. -/
theorem pool_slots_safe_sample : PoolSafe poolEnd := pool_slots_safe poolRun_end

end Sample

end UbApplication.UbDomain
