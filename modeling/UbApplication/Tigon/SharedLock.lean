import UbApplication.Lib.Machine
import UbApplication.Tigon.Tuple

/-!
# Threads at a shared lock

`UBSharedRWLock` when its calls overlap. A call is made by a party, which takes one access to the
lock word at a time; a thread that holds the lock more than once is more than one party. A party
unlocks only what it has locked.
-/

namespace UbApplication.Tigon.SharedLock

open List

/-- Where a party is. -/
inductive Phase where
  | idle
  /-- In the loop of `try_lock_shared`, before the exchange. -/
  | locking (observed : Word)
  | reading
  /-- In the loop of `unlock_shared`, before the exchange. -/
  | unlocking (observed : Word)
  | writing
  | thrown (message : String)
  deriving DecidableEq

namespace Phase

def reads : Phase → Bool
  | .reading | .unlocking _ => true
  | _ => false

def writes : Phase → Bool
  | .writing => true
  | _ => false

/-- The checks of `try_lock_shared` before its exchange. -/
def tryShared (observed : Word) : Phase :=
  if (sharedLockOf observed).isSome then .locking observed else .idle

/-- The check of `unlock_shared` before its exchange. -/
def releaseShared (observed : Word) : Phase :=
  match sharedUnlockOf observed with
  | .ok _ => .unlocking observed
  | .error message => .thrown message

end Phase

inductive Access where
  | tryLock
  | unlock
  /-- The load at the beginning of `try_lock_shared` and of `unlock_shared`. -/
  | load
  /-- The weak exchange of these two, which may fail without a cause. -/
  | exchange (spurious : Bool)

/-- The word and the party after an access. -/
def access (word : Word) : Phase → Access → Option (Word × Phase)
  | .idle, .tryLock => some ((tryLock word).2, if (tryLock word).1 then .writing else .idle)
  | .writing, .unlock =>
    match unlock word with
    | .ok free => some (free, .idle)
    | .error message => some (word, .thrown message)
  | .idle, .load => some (word, .tryShared word)
  | .reading, .load => some (word, .releaseShared word)
  | .locking observed, .exchange spurious =>
    if word = observed ∧ spurious = false then some (observed + 1, .reading)
    else some (word, .tryShared word)
  | .unlocking observed, .exchange spurious =>
    if word = observed ∧ spurious = false then some (observed - 1, .idle)
    else some (word, .releaseShared word)
  | _, _ => none

structure System where
  state : Word
  parties : List Phase
  deriving DecidableEq

namespace System

def readers (s : System) : Nat := s.parties.countP Phase.reads

def writers (s : System) : Nat := s.parties.countP Phase.writes

/-- A party makes an access. -/
def step (s : System) (label : Nat × Access) : Option System :=
  s.parties[label.1]?.bind fun phase => (access s.state phase label.2).map fun (word, next) =>
    ⟨word, s.parties.set label.1 next⟩

end System

/-- What `try_lock_shared` has observed passed its checks, and no unlock threw. -/
def Phase.Fine : Phase → Prop
  | .locking observed => (sharedLockOf observed).isSome = true
  | .thrown _ => False
  | _ => True

variable {word word' : Word} {phase next : Phase} {a : Access} {readers writers : Nat}

/-- A try holds nothing yet. -/
theorem tryShared_spec (observed : Word) :
    (Phase.tryShared observed).Fine ∧ (Phase.tryShared observed).reads = false ∧
      (Phase.tryShared observed).writes = false := by
  unfold Phase.tryShared
  split
  case isTrue passes => exact ⟨passes, rfl, rfl⟩
  case isFalse => exact ⟨trivial, rfl, rfl⟩

/-- A reader comes in. -/
theorem sharedLockOf_held (held : HeldBy word readers writers)
    (passes : (sharedLockOf word).isSome = true) : HeldBy (word + 1) (readers + 1) writers := by
  refine held.tryLockShared ?_
  unfold tryLockShared sharedLockOf at *
  grind

/-- A reader leaves. -/
theorem releaseShared_held (held : HeldBy word (readers + 1) writers) :
    Phase.releaseShared word = .unlocking word ∧ HeldBy (word - 1) readers writers := by
  obtain ⟨free, released, less⟩ := held.unlockShared
  have same : free = word - 1 := by
    unfold sharedUnlockOf at released
    grind
  subst same
  exact ⟨by rw [Phase.releaseShared, released], less⟩

/-- What an access of one party keeps, whatever the other parties hold. -/
theorem access_held
    (held : HeldBy word (readers + phase.reads.toNat) (writers + phase.writes.toNat))
    (fine : phase.Fine) (taken : access word phase a = some (word', next)) :
    HeldBy word' (readers + next.reads.toNat) (writers + next.writes.toNat) ∧ next.Fine := by
  cases phase with
  | idle =>
    cases a with
    | tryLock =>
      cases taken
      by_cases free : (tryLock word).1 = true
      · rw [if_pos free]
        exact ⟨held.tryLock (Prod.ext free rfl), trivial⟩
      · have same : (tryLock word).2 = word := by
          unfold tryLock at free ⊢
          grind
        rw [if_neg free, same]
        exact ⟨held, trivial⟩
    | load =>
      cases taken
      obtain ⟨fine, reads, writes⟩ := tryShared_spec word
      rw [reads, writes]
      exact ⟨held, fine⟩
    | unlock | exchange => cases taken
  | locking observed =>
    cases a with
    | exchange spurious =>
      simp only [access] at taken
      split at taken
      case isTrue same =>
        cases taken
        rw [same.1] at held
        exact ⟨sharedLockOf_held held fine, trivial⟩
      case isFalse =>
        cases taken
        obtain ⟨fine, reads, writes⟩ := tryShared_spec word
        rw [reads, writes]
        exact ⟨held, fine⟩
    | tryLock | unlock | load => cases taken
  | reading =>
    cases a with
    | load =>
      cases taken
      rw [(releaseShared_held held).1]
      exact ⟨held, trivial⟩
    | tryLock | unlock | exchange => cases taken
  | unlocking observed =>
    obtain ⟨here, less⟩ := releaseShared_held held
    cases a with
    | exchange spurious =>
      simp only [access] at taken
      split at taken
      case isTrue same =>
        cases taken
        rw [same.1] at less
        exact ⟨less, trivial⟩
      case isFalse =>
        cases taken
        rw [here]
        exact ⟨held, trivial⟩
    | tryLock | unlock | load => cases taken
  | writing =>
    cases a with
    | unlock =>
      obtain ⟨free, released, less⟩ := held.unlock
      simp only [access, released] at taken
      cases taken
      exact ⟨less, trivial⟩
    | tryLock | load | exchange => cases taken
  | thrown => exact fine.elim

/-- An access that leaves a party without the lock does not change the word, unless it unlocks. -/
theorem access_failed (taken : access word phase a = some (word', next))
    (before : phase.reads = false ∧ phase.writes = false)
    (after : next.reads = false ∧ next.writes = false) : word' = word := by
  cases phase <;> cases a <;> simp only [access, Option.some.injEq, Prod.mk.injEq] at taken <;>
    grind [tryLock, Phase.reads, Phase.writes]

/-- What the parties hold, with one of them set apart. -/
theorem countP_set {parties : List Phase} {i : Nat} (found : parties[i]? = some phase)
    (next : Phase)
    (p : Phase → Bool) : parties.countP p = (parties.eraseIdx i).countP p + (p phase).toNat ∧
      (parties.set i next).countP p = (parties.eraseIdx i).countP p + (p next).toNat := by
  obtain ⟨bound, rfl⟩ := List.getElem?_eq_some_iff.mp found
  constructor
  · rw [← (getElem_cons_eraseIdx_perm bound).countP_eq, countP_cons]
    cases p parties[i] <;> rfl
  · rw [(set_perm_cons_eraseIdx bound next).countP_eq, countP_cons]
    cases p next <;> rfl

namespace System

variable {s t : System} {i : Nat}

structure Sound (s : System) : Prop where
  held : HeldBy s.state s.readers s.writers
  fine : ∀ phase ∈ s.parties, phase.Fine

/-- Every access keeps soundness. -/
theorem Sound.step {label : Nat × Access} (sound : s.Sound) (stepped : s.step label = some t) :
    t.Sound := by
  obtain ⟨phase, found, stepped⟩ := Option.bind_eq_some_iff.mp stepped
  obtain ⟨⟨word, next⟩, taken, rfl⟩ := Option.map_eq_some_iff.mp stepped
  have reads := countP_set found next Phase.reads
  have writes := countP_set found next Phase.writes
  have held := sound.held
  rw [readers, writers, reads.1, writes.1] at held
  obtain ⟨held, fine⟩ := access_held held (sound.fine phase (mem_of_getElem? found)) taken
  refine ⟨?_, fun other member => ?_⟩
  · rw [readers, writers, reads.2, writes.2]
    exact held
  · rcases mem_or_eq_of_mem_set member with old | rfl
    · exact sound.fine other old
    · exact fine

/-- The start is sound. -/
theorem started_sound (count : Nat) : Sound ⟨0, List.replicate count .idle⟩ where
  held := by
    simpa [readers, writers, countP_replicate, Phase.reads, Phase.writes] using HeldBy.zero
  fine phase member := by
    rw [eq_of_mem_replicate member]
    trivial

/-- Without interference a loop ends with its first exchange that does not fail by itself. -/
theorem run_exchange {middle final : Phase} (found : s.parties[i]? = some middle)
    (again : access s.state middle (.exchange true) = some (s.state, middle))
    (last : access s.state middle (.exchange false) = some (word, final)) (failures : Nat) :
    Machine.run step s (List.replicate failures (i, .exchange true) ++ [(i, .exchange false)]) =
      some ⟨word, s.parties.set i final⟩ := by
  have same : s.parties.set i middle = s.parties := by
    obtain ⟨bound, rfl⟩ := List.getElem?_eq_some_iff.mp found
    exact set_getElem_self bound
  induction failures with
  | zero => simp [Machine.run_cons, step, found, last]
  | succ failures ih =>
    rw [replicate_succ, cons_append, Machine.run_cons]
    simpa [step, found, again, same] using ih

end System

/-- For any number of parties and any interleaving of their accesses: one writer excludes everyone
else, the count is that of the readers, no unlock throws, an attempt that fails changes nothing, and
where nobody holds the lock an attempt without interference succeeds. -/
theorem shared_lock_correct {count : Nat} {labels : List (Nat × Access)} {s : System}
    (taken : Machine.run System.step ⟨0, List.replicate count .idle⟩ labels = some s) :
    (s.writers = 0 ∨ s.writers = 1 ∧ s.readers = 0) ∧ readerCount s.state = s.readers ∧
    (∀ message, .thrown message ∉ s.parties) ∧
    (∀ phase ∈ s.parties, phase.reads = false ∧ phase.writes = false → ∀ a word next,
      access s.state phase a = some (word, next) → next.reads = false ∧ next.writes = false →
        word = s.state) ∧
    (s.readers = 0 → s.writers = 0 → ∀ i, s.parties[i]? = some .idle →
      s.step (i, .tryLock) = some ⟨writerBit, s.parties.set i .writing⟩ ∧
      ∀ failures, Machine.run System.step s ((i, .load) ::
        (List.replicate failures (i, .exchange true) ++ [(i, .exchange false)])) =
          some ⟨1, s.parties.set i .reading⟩) := by
  have sound : s.Sound := Machine.run_invariant (fun _ => True) System.Sound
    (fun _ _ _ sound _ => sound.step) (fun _ _ => trivial) (System.started_sound count) taken
  refine ⟨?_, ?_, fun message member => sound.fine _ member,
    fun phase _ before a word next taken => access_failed taken before, fun none free i found => ?_⟩
  · have exclusive := sound.held.exclusive
    omega
  · rcases sound.held with ⟨-, same, small⟩ | ⟨-, none, same⟩
    · rw [same]
      exact (HeldBy.readers_word small).2
    · rw [same, none]
      rfl
  · have held := sound.held
    rw [none, free] at held
    obtain ⟨state, parties⟩ := s
    obtain rfl : state = 0 := held.word_eq_zero
    obtain ⟨bound, -⟩ := List.getElem?_eq_some_iff.mp found
    refine ⟨by simp [System.step, found, access], fun failures => ?_⟩
    rw [Machine.run_cons]
    have first : System.step ⟨0, parties⟩ (i, .load) = some ⟨0, parties.set i (.locking 0)⟩ := by
      simp only [System.step, found]
      rfl
    have again : access 0 (.locking 0) (.exchange true) = some (0, .locking 0) := by decide +kernel
    rw [first, Option.bind_some, System.run_exchange (getElem?_set_self bound) again rfl,
      set_set]

/-- Two readers load the same word. The exchange of the second one fails and is made again. -/
def contended : List (Nat × Access) :=
  [(0, .load), (1, .load), (0, .exchange false), (1, .exchange false), (1, .exchange false)]

/-- Two readers at once. -/
theorem shared_lock_correct_contended : ∃ s,
    Machine.run System.step ⟨0, List.replicate 2 .idle⟩ contended = some s ∧ s.readers = 2 ∧
      readerCount s.state = s.readers := by
  have taken : Machine.run System.step ⟨0, List.replicate 2 .idle⟩ contended =
    some ⟨2, [.reading, .reading]⟩ := by decide +kernel
  exact ⟨_, taken, rfl, (shared_lock_correct taken).2.1⟩

end UbApplication.Tigon.SharedLock
