import Mathlib.Data.List.Nodup
import UbApplication.Tigon.Sundial.Model

/-!
# What Sundial transactions leave behind

A write lock is known to the transaction that has it: to its sets, or to what it still has to do
once it has been decided. The same holds of the placeholders of its inserts. What is visible in the
tables is what the changes of the committed transactions say. Four things break this: a lock of a
read for update that no write goes with, a lock that is taken at commit on an outdated row, a read
of a placeholder, and a key that a transaction deletes twice.
-/

namespace UbApplication.Tigon.Sundial

open Option Txn
open Function (comp_def forall_update_iff update_self update_of_ne)

variable {K V : Type}

namespace Txn

variable (txn : Txn K V) (k : K)

/-- The sets of the transaction have a lock. -/
def Taken : Prop :=
  k ∈ txn.deleteSet ∨ (∃ r ∈ txn.readSet, r.key = k ∧ r.writeLock = true) ∨
    ∃ w ∈ txn.writeSet, w.key = k ∧ w.writeLock = true

/-- The transaction knows of a lock. -/
def Locks : Prop :=
  match txn.phase with
  | .finishing _ actions => .unlock k ∈ actions ∨ .remove k ∈ actions
  | .fetching _ key => k = key ∨ txn.Taken k
  | _ => txn.Taken k

def inserting : List K :=
  match txn.phase with
  | .finishing _ actions => actions.filterMap fun
    | .markTupleAsValid key | .discard key => some key
    | _ => none
  | _ => txn.insertSet

/-- The keys of the rows that a commit takes away. -/
def removing : List K :=
  match txn.phase with
  | .finishing _ actions => actions.filterMap fun
    | .remove key => some key
    | _ => none
  | _ => txn.deleteSet

/-- The transaction relies on a lock without a further check. -/
def Holds : Prop := k ∈ txn.removing ∨ ∃ address, txn.phase = .fetching address k

/-- The transaction has been decided to commit. -/
def Committing : Prop := ∃ actions, txn.phase = .finishing true actions

/-- Every lock of a read for update belongs to a write that an abort unlocks. -/
def covered [DecidableEq K] : Bool :=
  txn.readSet.all fun r => !r.writeLock ||
    txn.writeSet.any fun w => w.key = r.key && (w.writeLock || txn.readLocked w)

/-- What holds of a transaction by itself. -/
structure Sound : Prop where
  inserting : txn.inserting.Nodup
  removing : txn.removing.Nodup
  ordered : ∀ committed actions, txn.phase = .finishing committed actions →
    (∀ action ∈ actions, action.publishes = true → committed = true) ∧
    actions.Pairwise fun first later => ∀ key, first = .unlock key → later ≠ .remove key

/-- As far as a key goes, one transaction may take the place of another. -/
structure Agrees (old new : Txn K V) : Prop where
  locks : old.Locks k → new.Locks k
  holds : new.Holds k → old.Holds k
  inserting : k ∈ new.inserting ↔ k ∈ old.inserting
  committing : old.Committing → new.Committing

end Txn

/-- What holds of a row that is there. -/
structure RowSound (txns : Nat → Txn K V) (k : K) (row : Row V) : Prop where
  owned : row.owner ≠ 0 → (txns row.owner).Locks k
  held : ∀ t, (txns t).Holds k → row.isValid = true ∧ row.owner = t ∧ t ≠ 0
  inserted : ∀ t, k ∈ (txns t).inserting → row.isValid = false ∧ row.inserter = t
  placeholder : row.isValid = false → k ∈ (txns row.inserter).inserting
  settled : row.isValid = true → row.inserter = 0 ∨ (txns row.inserter).Committing

/-- What holds of a key. -/
def KeySound (txns : Nat → Txn K V) (k : K) : Option (Row V) → Prop
  | none => ∀ t, ¬(txns t).Holds k ∧ k ∉ (txns t).inserting
  | some row => RowSound txns k row

/-- What others may see of a row. -/
def contentsOf (row : Option (Row V)) : Option (V × BitVec 64) :=
  (row.filter Row.isValid).map fun row => (row.value, row.wts)

/-- What the changes so far say is in the tables. -/
def replay [DecidableEq K] (start : K → Option V) (log : List (Effect K V)) :
    K → Option (V × BitVec 64) :=
  log.foldl (fun contents effect => Function.update contents effect.key effect.contents)
    fun key => (start key).map fun value => (value, 0)

namespace State

variable [DecidableEq K]

/-- The commit or the abort of a transaction has returned. -/
def Returned (s : State K V) (t : Nat) (committed : Bool) : Prop :=
  t ≠ 0 ∧ (s.txns t).phase = .finishing committed []

/-- The transactions that have returned have left nothing behind, and no read has met the
placeholder of another transaction. -/
structure Clean (start : K → Option V) (s : State K V) : Prop where
  owners : ∀ t committed, s.Returned t committed → ∀ k row, s.rows k = some row → row.owner ≠ t
  inserts : ∀ t, s.Returned t false → ∀ k row, s.rows k = some row → row.inserter ≠ t
  contents : ∀ t, s.Returned t false → ∀ k, contentsOf (s.rows k) =
    replay start (s.log.filter fun effect => effect.tid ≠ t) k
  reads : ∀ t, ∀ r ∈ (s.txns t).readSet, r.uncommitted = false

/-- No read meets the placeholder of another transaction, no key is deleted twice by a transaction,
every lock of a read for update belongs to a write when the transaction ends, and a row that is
locked at commit has the version that was read. -/
def careful (s : State K V) : Nat × Op K V → Bool
  | (t, op) =>
    let txn := s.txns t
    match op, txn.phase with
    | .read _ key false, _ => (s.rows key).all fun row => row.isValid || row.inserter = t
    | .delete key, _ => key ∉ txn.deleteSet
    | .abort, _ | .validate, _ => txn.covered
    | .lock, .locking index => txn.covered && txn.writeSet[index]?.all fun w =>
        txn.readLocked w || (s.rows w.key).all fun row =>
          (row.writeLock t).isNone || !txn.outdated w row
    | _, _ => true

/-- What holds in every state. -/
structure Sound (start : K → Option V) (s : State K V) : Prop where
  keys : ∀ k, KeySound s.txns k (s.rows k)
  txns : ∀ t, (s.txns t).Sound
  contents : ∀ k, contentsOf (s.rows k) = replay start s.log k
  authors : ∀ effect ∈ s.log, (s.txns effect.tid).Committing
  reads : ∀ t, ∀ r ∈ (s.txns t).readSet, r.uncommitted = false

end State

/-- The sets of the transaction say what it has. -/
def Phase.plain : Phase K V → Bool
  | .fetching .. | .finishing .. => false
  | _ => true

variable {k : K} {txns : Nat → Txn K V} {t : Nat}

/-- Covered locks are in the sets. -/
theorem Txn.Taken.known [DecidableEq K] {txn : Txn K V} (taken : txn.Taken k)
    (covered : txn.covered = true) : k ∈ txn.deleteSet ∨
      ∃ w ∈ txn.writeSet, w.key = k ∧ (w.writeLock = true ∨ txn.readLocked w = true) := by
  rcases taken with deleted | ⟨r, member, rfl, locked⟩ | ⟨w, member, key, locked⟩
  · exact .inl deleted
  · have known := List.all_eq_true.mp covered r member
    exact .inr (by simpa [locked] using known)
  · exact .inr ⟨w, member, key, .inl locked⟩

/-- An abort publishes nothing. -/
theorem Txn.abortActions_publishes (txn : Txn K V) (action : Action K V)
    (member : action ∈ txn.abortActions) : action.publishes = false := by
  simp only [Txn.abortActions, List.mem_append, List.mem_map] at member
  rcases member with (⟨_, _, rfl⟩ | ⟨_, _, rfl⟩) | ⟨_, _, rfl⟩ <;> rfl

variable {new : Txn K V}

section Plain

variable {txn : Txn K V} {k : K} (plain : txn.phase.plain = true)
include plain

/-- Before the decision locks are those taken. -/
theorem Txn.locks_plain : txn.Locks k ↔ txn.Taken k := by
  unfold Txn.Locks
  split <;> simp_all [Phase.plain]

/-- And inserts are those of the set. -/
theorem Txn.inserting_plain : txn.inserting = txn.insertSet := by
  unfold Txn.inserting
  split <;> simp_all [Phase.plain]

/-- And removals are the deletes. -/
theorem Txn.removing_plain : txn.removing = txn.deleteSet := by
  unfold Txn.removing
  split <;> simp_all [Phase.plain]

/-- And it holds what it deletes. -/
theorem Txn.holds_plain : txn.Holds k ↔ k ∈ txn.deleteSet := by
  unfold Txn.Holds
  rw [removing_plain plain]
  constructor
  · rintro (member | ⟨address, fetching⟩)
    · exact member
    · rw [fetching] at plain
      contradiction
  · exact .inl

/-- And it does not commit. -/
theorem Txn.not_committing_plain : ¬txn.Committing := by
  rintro ⟨actions, finishing⟩
  rw [finishing] at plain
  contradiction

/-- A transaction before its decision. -/
theorem Txn.sound_plain (inserts : txn.insertSet.Nodup) (deletes : txn.deleteSet.Nodup) :
    txn.Sound where
  inserting := by rwa [inserting_plain plain]
  removing := by rwa [removing_plain plain]
  ordered committed actions finishing := by
    rw [finishing] at plain
    contradiction

/-- A change of the sets. -/
theorem Txn.Agrees.within (after : new.phase.plain = true)
    (inserts : k ∈ new.insertSet ↔ k ∈ txn.insertSet)
    (deletes : k ∈ new.deleteSet → k ∈ txn.deleteSet)
    (taken : txn.Taken k → new.Taken k) : Txn.Agrees k txn new where
  locks := by rwa [locks_plain plain, locks_plain after]
  holds := by rwa [holds_plain plain, holds_plain after]
  inserting := by rwa [inserting_plain plain, inserting_plain after]
  committing := fun committing => absurd committing (not_committing_plain plain)

/-- An abort accounts for all locks. -/
theorem Txn.Agrees.abort [DecidableEq K] (covered : txn.covered = true) :
    Txn.Agrees k txn txn.abort where
  locks := by
    rw [locks_plain plain]
    intro taken
    rcases taken.known covered with deleted | ⟨w, written, same, known⟩
    · exact .inl (by simp [Txn.abortActions, deleted])
    · exact .inl (by simpa [Txn.abortActions] using .inr ⟨w, ⟨written, known⟩, same⟩)
  holds := by simp [Txn.Holds, Txn.abort, Txn.removing, Txn.abortActions]
  inserting := by
    rw [inserting_plain plain]
    simp [Txn.abort, Txn.inserting, Txn.abortActions]
  committing := fun committing => absurd committing (not_committing_plain plain)

/-- An abort is sound. -/
theorem Txn.Sound.abort (sound : txn.Sound) : txn.abort.Sound where
  inserting := by
    have distinct := sound.inserting
    rw [inserting_plain plain] at distinct
    simpa [Txn.abort, Txn.inserting, Txn.abortActions, List.filterMap_map, comp_def] using distinct
  removing := by simp [Txn.abort, Txn.removing, Txn.abortActions]
  ordered committed actions finishing := by
    cases finishing
    constructor
    · intro action member publishes
      rw [txn.abortActions_publishes action member] at publishes
      contradiction
    · apply List.pairwise_of_forall_mem_list
      rintro first - later member key - rfl
      have publishes := txn.abortActions_publishes _ member
      contradiction

/-- A commit accounts for all locks. -/
theorem Txn.Agrees.commit [DecidableEq K] (covered : txn.covered = true) :
    Txn.Agrees k txn { txn with phase := .finishing true txn.commitActions } where
  locks := by
    rw [locks_plain plain]
    intro taken
    rcases taken.known covered with deleted | ⟨w, written, same, -⟩
    · exact .inr (by simp [Txn.commitActions, deleted])
    · exact .inl (by simpa [Txn.commitActions] using ⟨w, written, same⟩)
  holds := by
    rw [holds_plain plain]
    simp [Txn.Holds, Txn.removing, Txn.commitActions]
  inserting := by
    rw [inserting_plain plain]
    simp [Txn.inserting, Txn.commitActions]
  committing := fun _ => ⟨_, rfl⟩

/-- A commit is sound. -/
theorem Txn.Sound.commit (sound : txn.Sound) :
    Txn.Sound { txn with phase := .finishing true txn.commitActions } where
  inserting := by
    have distinct := sound.inserting
    rw [inserting_plain plain] at distinct
    simpa [Txn.inserting, Txn.commitActions, List.filterMap_map, comp_def] using distinct
  removing := by
    have distinct := sound.removing
    rw [removing_plain plain] at distinct
    simpa [Txn.removing, Txn.commitActions, List.filterMap_map, comp_def] using distinct
  ordered committed actions finishing := by
    cases finishing
    constructor
    · simp
    · simp [Txn.commitActions, List.pairwise_append, List.pairwise_map, List.pairwise_of_forall]

end Plain

/-- Relations that hold of one change. -/
theorem Txn.updated (Related : Txn K V → Txn K V → Prop)
    (same : ∀ txn, Related txn txn) (here : Related (txns t) new) (u : Nat) :
    Related (txns u) (Function.update txns t new u) :=
  (forall_update_iff txns fun u txn => Related (txns u) txn).mpr ⟨here, fun u _ => same (txns u)⟩ u

/-- The agreement of all transactions. -/
theorem Txn.Agrees.update (agrees : Txn.Agrees k (txns t) new) (u : Nat) :
    Txn.Agrees k (txns u) (Function.update txns t new u) :=
  updated (Txn.Agrees k) (fun _ => ⟨id, id, .rfl, id⟩) agrees u

/-- A row after a change that agrees. -/
theorem RowSound.agree {txns' : Nat → Txn K V} {row : Row V} (sound : RowSound txns k row)
    (agrees : ∀ u, Txn.Agrees k (txns u) (txns' u)) : RowSound txns' k row where
  owned owner := (agrees _).locks (sound.owned owner)
  held u holds := sound.held u ((agrees u).holds holds)
  inserted u member := sound.inserted u ((agrees u).inserting.mp member)
  placeholder invalid := (agrees _).inserting.mpr (sound.placeholder invalid)
  settled valid := (sound.settled valid).imp_right (agrees _).committing

/-- A key after a change that agrees. -/
theorem KeySound.agree {txns' : Nat → Txn K V} {row : Option (Row V)}
    (sound : KeySound txns k row) (agrees : ∀ u, Txn.Agrees k (txns u) (txns' u)) :
    KeySound txns' k row := by
  cases row with
  | none =>
    intro u
    constructor
    · exact fun holds => (sound u).1 ((agrees u).holds holds)
    · exact fun member => (sound u).2 ((agrees u).inserting.mp member)
  | some row => exact RowSound.agree sound agrees

section Rows

variable {txns : Nat → Txn K V} {t : Nat} {new : Txn K V} {k : K} {row after : Row V}

/-- A lock is granted. -/
theorem RowSound.lock (sound : RowSound txns k row) (granted : row.writeLock t = some after)
    (some : t ≠ 0) (locks : new.Locks k) (inserting : k ∈ new.inserting ↔ k ∈ (txns t).inserting)
    (committing : (txns t).Committing → new.Committing) :
    RowSound (Function.update txns t new) k after := by
  obtain ⟨⟨valid, free⟩, ⟨⟩⟩ := ite_none_right_eq_some.mp granted
  constructor
  case owned =>
    intro _
    rw [update_self]
    exact locks
  case held =>
    intro u holds
    by_cases same : u = t
    · exact ⟨valid, same.symm, same ▸ some⟩
    · rw [update_of_ne same] at holds
      obtain ⟨-, owner, nonzero⟩ := sound.held u holds
      rcases free with free | free <;> omega
  case inserted =>
    intro u member
    apply sound.inserted u
    exact updated (fun old new => k ∈ new.inserting → k ∈ old.inserting) (fun _ => id)
      inserting.mp u member
  case placeholder =>
    exact fun invalid => absurd valid (by simp [show row.isValid = false from invalid])
  case settled =>
    intro _
    exact (sound.settled valid).imp_right
      (updated (fun old new => old.Committing → new.Committing) (fun _ => id) committing _)

/-- A placeholder is inserted. -/
theorem KeySound.insert {value : V} (sound : KeySound txns k none) (holds : ¬new.Holds k)
    (inserting : k ∈ new.inserting) :
    RowSound (Function.update txns t new) k ⟨value, 0, 0, 0, false, t⟩ where
  owned owner := absurd rfl owner
  held u held := by
    by_cases same : u = t
    · rw [same, update_self] at held
      exact absurd held holds
    · rw [update_of_ne same] at held
      exact absurd held (sound u).1
  inserted u member := by
    by_cases same : u = t
    · exact ⟨rfl, same.symm⟩
    · rw [update_of_ne same] at member
      exact absurd member (sound u).2
  placeholder _ := by rwa [update_self]
  settled valid := by contradiction

end Rows

section Finishing

variable {committed : Bool} {action : Action K V} {rest : List (Action K V)} {txn : Txn K V} {k : K}
  (finishing : txn.phase = .finishing committed (action :: rest))
include finishing

/-- The locks after an action. -/
theorem Txn.locks_act (unlock : action ≠ .unlock k) (remove : action ≠ .remove k)
    (locks : txn.Locks k) :
    Txn.Locks { txn with phase := .finishing committed rest } k := by
  simp only [Txn.Locks, finishing, List.mem_cons] at locks
  rcases locks with (rfl | later) | (rfl | later)
  · contradiction
  · exact .inl later
  · contradiction
  · exact .inr later

/-- What is held after an action. -/
theorem Txn.holds_act (holds : Txn.Holds { txn with phase := .finishing committed rest } k) :
    txn.Holds k := by
  simp only [Txn.Holds, Txn.removing, finishing, reduceCtorEq, exists_false, or_false,
    List.mem_filterMap] at holds ⊢
  obtain ⟨later, member, key⟩ := holds
  exact ⟨later, List.mem_cons_of_mem _ member, key⟩

/-- The inserts after an action. -/
theorem Txn.inserting_act
    (member : k ∈ Txn.inserting { txn with phase := .finishing committed rest }) :
    k ∈ txn.inserting := by
  simp only [Txn.inserting, finishing, List.mem_filterMap] at member ⊢
  obtain ⟨later, member, key⟩ := member
  exact ⟨later, List.mem_cons_of_mem _ member, key⟩

/-- A commit goes on. -/
theorem Txn.committing_act (decided : txn.Committing) :
    Txn.Committing { txn with phase := .finishing committed rest } := by
  obtain ⟨actions, same⟩ := decided
  rw [finishing] at same
  cases same
  exact ⟨rest, rfl⟩

/-- The keys beside an action. -/
theorem Txn.Agrees.act (untouched : (∃ value, action = .update k value) ∨ k ≠ action.key) :
    Txn.Agrees k txn { txn with phase := .finishing committed rest } where
  locks := by
    apply locks_act finishing
    · rintro rfl
      simp [Action.key] at untouched
    · rintro rfl
      simp [Action.key] at untouched
  holds := holds_act finishing
  inserting := by
    constructor
    · exact inserting_act finishing
    · simp only [Txn.inserting, finishing, List.mem_filterMap, List.mem_cons]
      rintro ⟨later, rfl | member, key⟩
      · cases later <;> simp_all [Action.key]
      · exact ⟨later, member, key⟩
  committing := committing_act finishing

/-- The rest of the actions. -/
theorem Txn.Sound.act (sound : txn.Sound) :
    Txn.Sound { txn with phase := .finishing committed rest } := by
  have inserting := sound.inserting
  have removing := sound.removing
  have ordered := sound.ordered _ _ finishing
  simp only [Txn.inserting, Txn.removing, finishing] at inserting removing
  constructor
  · exact inserting.sublist ((List.sublist_cons_self action rest).filterMap _)
  · exact removing.sublist ((List.sublist_cons_self action rest).filterMap _)
  · intro committed' actions same
    cases same
    exact ⟨fun later member => ordered.1 later (List.mem_cons_of_mem _ member), ordered.2.of_cons⟩

end Finishing

/-- A row after an action. -/
theorem RowSound.act {committed : Bool} {action : Action K V}
    {rest : List (Action K V)} {found : Row V} {row : Option (Row V)}
    (key : RowSound txns action.key found)
    (own : (txns t).Sound) (finishing : (txns t).phase = .finishing committed (action :: rest))
    (applied : action.apply t (txns t).commitTs found = some row) :
    KeySound (Function.update txns t { txns t with phase := .finishing committed rest })
      action.key row ∧
    contentsOf row = if action.publishes then row.map fun row => (row.value, row.wts)
      else contentsOf (some found) := by
  have ordered := own.ordered _ _ finishing
  have inserts := own.inserting
  have removes := own.removing
  simp only [Txn.inserting, Txn.removing, finishing] at inserts removes
  have holds (u : Nat) := updated (fun old new => new.Holds action.key → old.Holds action.key)
    (fun _ => id) (holds_act finishing) u
  have inserting (u : Nat) := updated
    (fun old new => action.key ∈ new.inserting → action.key ∈ old.inserting)
    (fun _ => id) (inserting_act finishing) u
  cases action with
  | markTupleAsValid k =>
    obtain ⟨after, marked, rfl⟩ := map_eq_some_iff.mp applied
    obtain ⟨invalid, ⟨⟩⟩ := ite_none_right_eq_some.mp marked
    have mine : found.inserter = t :=
      (key.inserted t (by simp [Txn.inserting, finishing, Action.key])).2
    constructor
    · constructor
      · intro owner
        exact updated (fun old new => old.Locks k → new.Locks k) (fun _ => id)
          (locks_act finishing (by simp) (by simp)) _ (key.owned owner)
      · intro u held
        have valid := (key.held u (holds u held)).1
        rw [invalid] at valid
        contradiction
      · intro u member
        have same : u = t := (key.inserted u (inserting u member)).2.symm.trans mine
        rw [same, update_self] at member
        exact absurd member (List.nodup_cons.mp inserts).1
      · intro wrong
        contradiction
      · intro _
        right
        show (Function.update txns t _ found.inserter).Committing
        rw [mine, update_self]
        exact ⟨rest, congrArg (Phase.finishing · rest) (ordered.1 _ List.mem_cons_self rfl)⟩
    · rfl
  | remove k =>
    cases applied
    obtain ⟨valid, mine, -⟩ := key.held t (.inl (by simp [Txn.removing, finishing, Action.key]))
    constructor
    · intro u
      constructor
      · intro held
        have same : u = t := (key.held u (holds u held)).2.1.symm.trans mine
        rw [same, update_self] at held
        rcases held with later | ⟨_, fetching⟩
        · exact absurd later (List.nodup_cons.mp removes).1
        · cases fetching
      · intro member
        have invalid := (key.inserted u (inserting u member)).1
        rw [valid] at invalid
        contradiction
    · rfl
  | update k value =>
    obtain ⟨after, updated, rfl⟩ := map_eq_some_iff.mp applied
    obtain ⟨⟨valid, -⟩, ⟨⟩⟩ := ite_none_right_eq_some.mp updated
    have kept := key.agree (Txn.Agrees.act finishing (.inl ⟨value, rfl⟩)).update
    constructor
    · exact { kept with }
    · simp [contentsOf, Option.filter, valid, Action.publishes]
  | unlock k =>
    obtain ⟨after, unlocked, rfl⟩ := map_eq_some_iff.mp applied
    obtain ⟨⟨valid, mine⟩, ⟨⟩⟩ := ite_none_right_eq_some.mp unlocked
    constructor
    · constructor
      · intro owner
        exact absurd rfl owner
      · intro u held
        have same : u = t := (key.held u (holds u held)).2.1.symm.trans mine
        rw [same, update_self] at held
        rcases held with later | ⟨_, fetching⟩
        · obtain ⟨later, member, removed⟩ := List.mem_filterMap.mp later
          have other := (List.pairwise_cons.mp ordered.2).1 later member k rfl
          cases later <;> simp_all [Action.key]
        · cases fetching
      · exact fun u member => key.inserted u (inserting u member)
      · intro invalid
        have wrong : found.isValid = false := invalid
        rw [valid] at wrong
        contradiction
      · intro _
        exact (key.settled valid).imp_right
          (updated (fun old new => old.Committing → new.Committing) (fun _ => id)
            (committing_act finishing) _)
    · simp [contentsOf, Option.filter, valid, Action.publishes]
  | discard k =>
    cases applied
    obtain ⟨invalid, mine⟩ := key.inserted t (by simp [Txn.inserting, finishing, Action.key])
    constructor
    · intro u
      constructor
      · intro held
        have valid := (key.held u (holds u held)).1
        rw [invalid] at valid
        contradiction
      · intro member
        have same : u = t := (key.inserted u (inserting u member)).2.symm.trans mine
        rw [same, update_self] at member
        exact absurd member (List.nodup_cons.mp inserts).1
    · simp [contentsOf, Option.filter, invalid, Action.publishes]

/-- A lock of the write set. -/
theorem Txn.Taken.lock {txn : Txn K V} {index : Nat} {commitTs : BitVec 64} {w : WriteKey K V}
    {phase : Phase K V} (entry : txn.writeSet[index]? = some w) (taken : txn.Taken k) :
    Txn.Taken { txn with
      writeSet := txn.writeSet.set index { w with writeLock := true }
      commitTs := commitTs
      phase := phase } k := by
  obtain ⟨bound, rfl⟩ := List.getElem?_eq_some_iff.mp entry
  rcases taken with deleted | read | ⟨other, member, written⟩
  · exact .inl deleted
  · exact .inr (.inl read)
  · obtain ⟨i, inside, rfl⟩ := List.mem_iff_getElem.mp member
    by_cases here : i = index
    · subst here
      exact .inr (.inr ⟨_, List.mem_set bound _, written.1, rfl⟩)
    · have kept : txn.writeSet[i] ∈ txn.writeSet.set index
        { txn.writeSet[index] with writeLock := true } :=
        List.mem_iff_getElem.mpr ⟨i, by simpa using inside,
          List.getElem_set_of_ne (Ne.symm here) _ _⟩
      exact .inr (.inr ⟨_, kept, written⟩)

variable {address : Nat}

section Changes

variable [DecidableEq K] {start : K → Option V} {s : State K V} {t : Nat} {new : Txn K V} {k : K}
  {row : Option (Row V)} {effects : List (Effect K V)}

section

variable (sound : s.Sound start) (others : ∀ other ≠ k, Txn.Agrees other (s.txns t) new)
  (key : KeySound (Function.update s.txns t new) k row) (own : new.Sound)
  (committing : (s.txns t).Committing → new.Committing)
  (reads : ∀ r ∈ new.readSet, r.uncommitted = false)
include sound others key own committing reads

/-- One row and one transaction change. -/
theorem State.Sound.change (published : (effects = [] ∧ contentsOf row = contentsOf (s.rows k)) ∨
      (effects = [⟨t, k, contentsOf row⟩] ∧ new.Committing)) :
    State.Sound start { s.withRow t new k row with log := s.log ++ effects } where
  keys other := by
    by_cases same : other = k
    · simpa only [State.withRow, same, update_self] using key
    · simpa only [State.withRow, update_of_ne same] using
        (sound.keys other).agree (others other same).update
  txns := (forall_update_iff s.txns fun _ txn => txn.Sound).mpr ⟨own, fun u _ => sound.txns u⟩
  contents other := by
    rcases published with ⟨rfl, same⟩ | ⟨rfl, -⟩
    · rw [List.append_nil, ← sound.contents other]
      by_cases here : other = k
      · rw [here, ← same]
        simp [State.withRow]
      · simp [State.withRow, here]
    · simp only [replay, List.foldl_append, List.foldl_cons, List.foldl_nil, State.withRow]
      by_cases here : other = k
      · simp [here]
      · simp only [update_of_ne here]
        exact sound.contents other
  authors effect member := by
    show (Function.update s.txns t new effect.tid).Committing
    by_cases same : effect.tid = t
    · rw [same, update_self]
      rcases List.mem_append.mp member with old | fresh
      · exact committing (same ▸ sound.authors effect old)
      · rcases published with ⟨rfl, -⟩ | ⟨-, done⟩
        · contradiction
        · exact done
    · rw [update_of_ne same]
      rcases List.mem_append.mp member with old | fresh
      · exact sound.authors effect old
      · rcases published with ⟨rfl, -⟩ | ⟨rfl, -⟩
        · contradiction
        · exact absurd (congrArg Effect.tid (List.mem_singleton.mp fresh)) same
  reads := (forall_update_iff s.txns fun _ txn => ∀ r ∈ txn.readSet, r.uncommitted = false).mpr
    ⟨reads, fun u _ => sound.reads u⟩

/-- A row shows the same. -/
theorem State.Sound.withRow
    (same : contentsOf row = contentsOf (s.rows k)) : (s.withRow t new k row).Sound start := by
  have changed := sound.change others key own committing reads (.inl ⟨rfl, same⟩)
  rwa [List.append_nil] at changed

end

section

variable (sound : s.Sound start)
include sound

/-- One transaction changes. -/
theorem State.Sound.withTxn (agrees : ∀ k, Txn.Agrees k (s.txns t) new)
    (own : new.Sound) (reads : ∀ r ∈ new.readSet, r.uncommitted = false) :
    (s.withTxn t new).Sound start where
  keys k := (sound.keys k).agree (agrees k).update
  txns := (forall_update_iff s.txns fun _ txn => txn.Sound).mpr ⟨own, fun u _ => sound.txns u⟩
  contents := sound.contents
  authors effect member :=
    ((agrees effect.key).update effect.tid).committing (sound.authors effect member)
  reads := (forall_update_iff s.txns fun _ txn => ∀ r ∈ txn.readSet, r.uncommitted = false).mpr
    ⟨reads, fun u _ => sound.reads u⟩

/-- A row that must be there. -/
theorem State.Sound.onRow {next : Row V → State K V}
    (there : ∀ row, s.rows k = some row → RowSound s.txns k row → (next row).Sound start) :
    (s.onRow k next).Sound start := by
  have key := sound.keys k
  unfold State.onRow
  cases found : s.rows k with
  | none => exact { sound with }
  | some row =>
    rw [found] at key
    exact there row found key

section

variable (before : (s.txns t).phase.plain = true)
include before

/-- The sets stay. -/
theorem State.Sound.stay
    (after : new.phase.plain = true) (inserts : new.insertSet = (s.txns t).insertSet)
    (deletes : new.deleteSet = (s.txns t).deleteSet) (taken : ∀ k, (s.txns t).Taken k → new.Taken k)
    (reads : ∀ r ∈ new.readSet, r.uncommitted = false) : (s.withTxn t new).Sound start := by
  have own := sound.txns t
  apply sound.withTxn _ _ reads
  · intro k
    exact .within before after (by rw [inserts]) (by rw [deletes]; exact id) (taken k)
  · apply sound_plain after
    · rw [inserts, ← inserting_plain before]
      exact own.inserting
    · rw [deletes, ← removing_plain before]
      exact own.removing

/-- Only the phase changes. -/
theorem State.Sound.enter {phase : Phase K V} (after : phase.plain = true) :
    (s.withTxn t { s.txns t with phase := phase }).Sound start :=
  sound.stay before after rfl rfl (fun _ taken => taken) (sound.reads t)

/-- A transaction aborts. -/
theorem State.Sound.abort
    (covered : (s.txns t).covered = true) : (s.withTxn t (s.txns t).abort).Sound start :=
  sound.withTxn (fun _ => .abort before covered) ((sound.txns t).abort before) (sound.reads t)

end

/-- A lock is granted to a transaction. -/
theorem State.Sound.grant {found after : Row V} (some : t ≠ 0)
    (before : (s.txns t).phase.plain = true) (there : s.rows k = .some found)
    (granted : found.writeLock t = .some after)
    (others : ∀ other ≠ k, Txn.Agrees other (s.txns t) new)
    (locks : new.Locks k) (inserting : new.inserting = (s.txns t).insertSet) (own : new.Sound)
    (reads : new.readSet = (s.txns t).readSet) : (s.withRow t new k (.some after)).Sound start := by
  have undecided := not_committing_plain before
  have key : RowSound s.txns k found := by
    have here := sound.keys k
    rwa [there] at here
  apply sound.withRow others _ own (fun committing => absurd committing undecided)
  · rw [reads]
    exact sound.reads t
  · obtain ⟨⟨valid, -⟩, ⟨⟩⟩ := ite_none_right_eq_some.mp granted
    simp [there, contentsOf, Option.filter, valid]
  · apply key.lock granted some locks
    · rw [inserting, inserting_plain before]
    · exact fun committing => absurd committing undecided

/-- A row is read. -/
theorem State.Sound.readRow {writeLock : Bool}
    (agrees : ∀ other r, r.key = k → r.writeLock = writeLock → Txn.Agrees other (s.txns t)
      { s.txns t with readSet := (s.txns t).readSet ++ [r], phase := .executing })
    (inserts : (s.txns t).insertSet.Nodup) (deletes : (s.txns t).deleteSet.Nodup)
    (met : ∀ row, s.rows k = some row → RowSound s.txns k row → row.isValid = true ∨
      row.inserter = t) :
    (s.readRow t (s.txns t) address k writeLock).Sound start := by
  apply sound.onRow
  intro row there key
  apply sound.withTxn (fun other => agrees other _ rfl rfl) (sound_plain rfl inserts deletes)
  intro r member
  rcases List.mem_append.mp member with old | fresh
  · exact sound.reads t r old
  · rw [List.mem_singleton.mp fresh]
    rcases met row there key with valid | own
    · simp [valid]
    · simp [own]

end

section Plain

variable (sound : s.Sound start) (before : (s.txns t).phase.plain = true)
include sound before

/-- No key is inserted twice. -/
theorem State.Sound.insertSet_nodup : (s.txns t).insertSet.Nodup := by
  rw [← inserting_plain before]
  exact (sound.txns t).inserting

/-- No key is deleted twice. -/
theorem State.Sound.deleteSet_nodup : (s.txns t).deleteSet.Nodup := by
  rw [← removing_plain before]
  exact (sound.txns t).removing

/-- A read request. -/
theorem State.Sound.read {forUpdate : Bool} (some : t ≠ 0)
    (careful : s.careful (t, .read address k forUpdate) = true) :
    (s.read t (s.txns t) address k forUpdate).Sound start := by
  cases forUpdate with
  | false =>
    apply sound.readRow _ (sound.insertSet_nodup before) (sound.deleteSet_nodup before)
    · intro row there _
      simpa [State.careful, there] using careful
    · intro other r _ _
      apply Txn.Agrees.within before
      case after => rfl
      case inserts => exact .rfl
      case deletes => exact id
      case taken =>
        rintro (deleted | ⟨r, member, read⟩ | written)
        · exact .inl deleted
        · exact .inr (.inl ⟨r, List.mem_append_left _ member, read⟩)
        · exact .inr (.inr written)
  | true =>
    apply sound.onRow
    intro row there _
    cases granted : row.writeLock t with
    | none => exact sound.enter before rfl
    | some after =>
      apply sound.grant some before there granted
      case locks => exact Or.inl rfl
      case inserting => rfl
      case reads => rfl
      case own =>
        exact ⟨sound.insertSet_nodup before, sound.deleteSet_nodup before,
          fun _ _ finishing => by cases finishing⟩
      case others =>
        intro other different
        constructor
        · rw [locks_plain before]
          exact .inr
        · rw [holds_plain before]
          rintro (member | ⟨_, fetching⟩)
          · exact member
          · cases fetching
            contradiction
        · rw [inserting_plain before]
          rfl
        · exact fun committing => absurd committing (not_committing_plain before)

/-- An insert request. -/
theorem State.Sound.insert {value : V} : (s.insert t (s.txns t) k value).Sound start := by
  have key := sound.keys k
  unfold State.insert
  cases there : s.rows k with
  | some row => exact sound.enter before rfl
  | none =>
    rw [there] at key
    have absent : k ∉ (s.txns t).insertSet := by
      rw [← inserting_plain before]
      exact (key t).2
    have after : ({ s.txns t with insertSet := (s.txns t).insertSet ++ [k] } :
      Txn K V).phase.plain = true :=
      before
    apply sound.withRow
    case others =>
      intro other different
      exact .within before after (by simp [different]) id id
    case key =>
      apply key.insert
      · intro held
        have deleted := (holds_plain after).mp held
        exact (key t).1 ((holds_plain before).mpr deleted)
      · rw [inserting_plain after]
        exact List.mem_append_right _ List.mem_cons_self
    case own =>
      apply sound_plain after _ (sound.deleteSet_nodup before)
      simpa only [List.concat_eq_append] using (sound.insertSet_nodup before).concat absent
    case committing => exact fun committing => absurd committing (not_committing_plain before)
    case reads => exact sound.reads t
    case same =>
      rw [there]
      rfl

/-- A delete request. -/
theorem State.Sound.delete (some : t ≠ 0) (once : k ∉ (s.txns t).deleteSet) :
    (s.delete t (s.txns t) k).Sound start := by
  unfold State.delete
  cases granted : (s.rows k).bind fun row => row.writeLock t with
  | none => exact sound.enter before rfl
  | some after =>
    obtain ⟨row, there, grant⟩ := bind_eq_some_iff.mp granted
    have plain : ({ s.txns t with deleteSet := (s.txns t).deleteSet ++ [k] } :
      Txn K V).phase.plain = true :=
      before
    apply sound.grant some before there grant
    · intro other different
      apply Txn.Agrees.within before plain .rfl
      case deletes => simp [different]
      case taken =>
        rintro (deleted | rest)
        · exact .inl (List.mem_append_left _ deleted)
        · exact .inr rest
    · exact (locks_plain plain).mpr (.inl (List.mem_append_right _ List.mem_cons_self))
    · exact inserting_plain plain
    · apply sound_plain plain (sound.insertSet_nodup before)
      simpa only [List.concat_eq_append] using (sound.deleteSet_nodup before).concat once
    · rfl

/-- An update. -/
theorem State.Sound.update {value : V} {s' : State K V}
    (stepped : s.update t (s.txns t) address value = some s') : s'.Sound start := by
  simp only [State.update, bind_eq_bind, pure_def, bind_eq_some_iff,
    Option.some.injEq] at stepped
  obtain ⟨pos, -, r, -, rfl⟩ := stepped
  apply sound.stay before
  case after => exact before
  case inserts => rfl
  case deletes => rfl
  case taken =>
    rintro k (deleted | read | ⟨w, member, written⟩)
    · exact .inl deleted
    · exact .inr (.inl read)
    · exact .inr (.inr ⟨w, List.mem_append_left _ member, written⟩)
  case reads => exact sound.reads t

/-- `lock_write_set`. -/
theorem State.Sound.lock {index : Nat} (some : t ≠ 0) (locking : (s.txns t).phase = .locking index)
    (careful : s.careful (t, .lock) = true) : (s.lock t (s.txns t) index).Sound start := by
  simp only [State.careful, locking, Bool.and_eq_true] at careful
  obtain ⟨covered, current⟩ := careful
  unfold State.lock
  cases entry : (s.txns t).writeSet[index]? with
  | none => exact sound.enter before rfl
  | some w =>
    dsimp only
    cases already : (s.txns t).readSet[w.readSetPos]?.filter ReadKey.writeLock with
    | some r =>
      apply sound.stay before
      case after => rfl
      case inserts => rfl
      case deletes => rfl
      case taken => exact fun _ taken => taken.lock entry
      case reads => exact sound.reads t
    | none =>
      apply sound.onRow
      intro row there _
      cases granted : row.writeLock t with
      | none => exact sound.abort before covered
      | some after =>
        have fresh : (s.txns t).readLocked w = false := by
          unfold readLocked
          cases read : (s.txns t).readSet[w.readSetPos]? with
          | none => rfl
          | some r => simpa [read] using already
        have same : (s.txns t).outdated w row = false := by
          simpa [entry, fresh, there, granted] using current
        simp only [same, Bool.false_eq_true, ↓reduceIte]
        apply sound.grant some before there granted
        case others =>
          intro other _
          apply Txn.Agrees.within before
          · rfl
          · exact .rfl
          · exact id
          · exact fun taken => taken.lock entry
        case locks =>
          obtain ⟨bound, rfl⟩ := List.getElem?_eq_some_iff.mp entry
          exact Or.inr (.inr ⟨_, List.mem_set bound _, rfl, rfl⟩)
        case inserting => rfl
        case own =>
          exact sound_plain rfl (sound.insertSet_nodup before) (sound.deleteSet_nodup before)
        case reads => rfl

/-- `validate_read_set_and_redo`. -/
theorem State.Sound.validate {index : Nat} (covered : (s.txns t).covered = true) :
    (s.validate t (s.txns t) index).Sound start := by
  unfold State.validate
  cases (s.txns t).readSet[index]? with
  | none =>
    exact sound.withTxn (fun _ => .commit before covered) ((sound.txns t).commit before)
      (sound.reads t)
  | some r =>
    dsimp only
    split
    · exact sound.enter before rfl
    · apply sound.onRow
      intro row there key
      cases renewed : row.renewLease r.wts (s.txns t).commitTs with
      | none => exact sound.abort before covered
      | some after =>
        obtain ⟨⟨valid, -⟩, ⟨⟩⟩ := ite_none_right_eq_some.mp renewed
        have agrees (k : K) : Txn.Agrees k (s.txns t)
            { s.txns t with phase := .validating (index + 1) } := .within before rfl .rfl id id
        apply sound.withRow (fun other _ => agrees other)
        case key =>
          have kept := key.agree (agrees r.key).update
          exact { kept with }
        case own =>
          exact sound_plain rfl (sound.insertSet_nodup before) (sound.deleteSet_nodup before)
        case committing => exact (agrees r.key).committing
        case reads => exact sound.reads t
        case same => simp [there, contentsOf, Option.filter, valid]

end Plain

/-- An action of commit or abort. -/
theorem State.Sound.act {committed : Bool} {action : Action K V} {rest : List (Action K V)}
    (sound : s.Sound start) (finishing : (s.txns t).phase = .finishing committed (action :: rest)) :
    (s.act t (s.txns t) committed action rest).Sound start := by
  apply sound.onRow
  intro found there key
  cases applied : action.apply t (s.txns t).commitTs found with
  | none => exact { sound with }
  | some row =>
    obtain ⟨after, contents⟩ := key.act (sound.txns t) finishing applied
    apply sound.change (fun other different => .act finishing (.inr different)) after
      ((sound.txns t).act finishing) (committing_act finishing) (sound.reads t)
    cases publishes : action.publishes with
    | false =>
      left
      rw [contents, publishes, there]
      exact ⟨rfl, rfl⟩
    | true =>
      right
      rw [contents, publishes]
      have decided := ((sound.txns t).ordered _ _ finishing).1 action List.mem_cons_self publishes
      exact ⟨rfl, rest, congrArg (Phase.finishing · rest) decided⟩

/-- The read of a read for update. -/
theorem State.Sound.fetch (sound : s.Sound start)
    (fetching : (s.txns t).phase = .fetching address k) :
    (s.readRow t (s.txns t) address k true).Sound start := by
  have own := sound.txns t
  apply sound.readRow
  case agrees =>
    intro other r here locked
    constructor
    · simp only [Txn.Locks, fetching]
      rintro (rfl | deleted | ⟨r, member, read⟩ | written)
      · exact .inr (.inl ⟨r, List.mem_append_right _ List.mem_cons_self, here, locked⟩)
      · exact .inl deleted
      · exact .inr (.inl ⟨r, List.mem_append_left _ member, read⟩)
      · exact .inr (.inr written)
    · simp [Txn.Holds, Txn.removing, fetching]
      exact .inl
    · simp [Txn.inserting, fetching]
    · simp [Txn.Committing, fetching]
  case inserts => simpa [Txn.inserting, fetching] using own.inserting
  case deletes => simpa [Txn.removing, fetching] using own.removing
  case met =>
    intro row _ key
    exact .inl (key.held t (.inr ⟨address, fetching⟩)).1

/-- Every careful step. -/
theorem State.Sound.step {label : Nat × Op K V} {s' : State K V} (sound : s.Sound start)
    (careful : s.careful label = true) (stepped : s.step label = some s') : s'.Sound start := by
  obtain ⟨t, op⟩ := label
  simp only [State.step] at stepped
  split at stepped
  case isTrue => contradiction
  case isFalse going =>
    have some : t ≠ 0 := fun zero => going (.inr zero)
    split at stepped
    case h_1 phase =>
      cases stepped
      exact sound.enter (by rw [phase]; rfl) rfl
    case h_2 phase =>
      cases stepped
      exact sound.read (by rw [phase]; rfl) some careful
    case h_3 phase =>
      cases stepped
      exact sound.fetch phase
    case h_4 phase => exact sound.update (by rw [phase]; rfl) stepped
    case h_5 phase =>
      cases stepped
      exact sound.insert (by rw [phase]; rfl)
    case h_6 phase =>
      cases stepped
      exact sound.delete (by rw [phase]; rfl) some (by simpa [State.careful] using careful)
    case h_7 phase =>
      cases stepped
      exact sound.enter (by rw [phase]; rfl) rfl
    case h_8 phase =>
      cases stepped
      exact sound.abort (by rw [phase]; rfl) (by simpa [State.careful] using careful)
    case h_9 phase =>
      cases stepped
      exact sound.abort (by rw [phase]; rfl) (by simpa [State.careful] using careful)
    case h_10 phase =>
      cases stepped
      exact sound.lock (by rw [phase]; rfl) some phase careful
    case h_11 phase =>
      cases stepped
      exact sound.validate (by rw [phase]; rfl) (by simpa [State.careful] using careful)
    case h_12 phase =>
      cases stepped
      exact sound.act phase
    case h_13 => contradiction

/-- The start is sound. -/
theorem State.sound_initial (start : K → Option V) : (State.initial start).Sound start where
  keys k := by
    simp only [State.initial]
    cases start k with
    | none => simp [KeySound, Txn.Holds, Txn.removing, Txn.inserting]
    | some value => constructor <;> simp [Txn.Holds, Txn.removing, Txn.inserting]
  txns t := sound_plain rfl List.nodup_nil List.nodup_nil
  contents k := by
    simp only [State.initial, replay, List.foldl_nil]
    cases start k <;> rfl
  authors effect member := by contradiction
  reads t r member := by contradiction

/-- What soundness says of the tables. -/
theorem State.Sound.clean (sound : s.Sound start) : s.Clean start where
  owners t committed returned k row there owned := by
    have key := sound.keys k
    rw [there] at key
    have locks := key.owned (owned ▸ returned.1)
    rw [owned] at locks
    simp [Txn.Locks, returned.2] at locks
  inserts t returned k row there inserted := by
    have key := sound.keys k
    rw [there] at key
    cases valid : row.isValid with
    | false =>
      have member := key.placeholder valid
      simp [inserted, Txn.inserting, returned.2] at member
    | true =>
      rcases key.settled valid with zero | ⟨actions, finishing⟩
      · exact returned.1 (inserted ▸ zero)
      · rw [inserted, returned.2] at finishing
        cases finishing
  contents t returned k := by
    have none : s.log.filter (fun effect => effect.tid ≠ t) = s.log := by
      apply List.filter_eq_self.mpr
      intro effect member
      obtain ⟨actions, finishing⟩ := sound.authors effect member
      apply decide_eq_true
      rintro rfl
      rw [returned.2] at finishing
      cases finishing
    rw [none]
    exact sound.contents k
  reads := sound.reads

end Changes

/-- In every state of every run whose steps are careful, transactions have left nothing behind. -/
theorem transactions_clean [DecidableEq K] (start : K → Option V) (labels : List (Nat × Op K V))
    (s : State K V)
    (careful : Machine.Admits (fun s label => s.careful label = true) State.step
      (.initial start) labels)
    (taken : Machine.run State.step (.initial start) labels = some s) : s.Clean start := by
  have sound : s.Sound start :=
    Machine.run_admitted (State.Sound start)
      (fun _ _ _ before careful stepped => before.step careful stepped) careful
      (State.sound_initial start) taken
  exact sound.clean

namespace Sample

def start (key : Nat) : Option Nat := if key = 1 then some 10 else none

/-- The first transaction updates the row and commits, the second inserts another one and aborts. -/
def fine : List (Nat × Op Nat Nat) :=
  [(1, .begin), (1, .read 0 1 true), (2, .begin), (1, .fetch), (2, .insert 2 5), (1, .update 0 20),
    (1, .commit), (1, .lock), (2, .abort), (1, .lock), (1, .validate), (1, .validate), (1, .act),
    (2, .act), (1, .act)]

/-- After a run in which one transaction commits and one aborts the tables are clean. -/
theorem transactions_clean_fine : ∃ s, Machine.run State.step (.initial start) fine = some s ∧
    s.Returned 1 true ∧ s.Returned 2 false ∧ s.Clean start := by
  obtain ⟨s, taken, one, two⟩ : ∃ s, Machine.run State.step (.initial start) fine = some s ∧
      (1 ≠ 0 ∧ (s.txns 1).phase = .finishing true []) ∧ 2 ≠ 0 ∧
      (s.txns 2).phase = .finishing false [] := by
    decide +kernel
  exact ⟨s, taken, one, two, transactions_clean start fine s (by decide +kernel) taken⟩

/-- A read for update has its lock when the next request fails. -/
def leaked : List (Nat × Op Nat Nat) :=
  [(1, .begin), (1, .read 0 1 true), (1, .fetch), (1, .delete 2), (1, .abort)]

/-- The row changes between the read of the first transaction and its commit. -/
def stale : List (Nat × Op Nat Nat) :=
  [(1, .begin), (1, .read 0 1 false), (2, .begin), (2, .read 0 1 true), (2, .fetch),
    (2, .update 0 20), (2, .commit), (2, .lock), (2, .lock), (2, .validate), (2, .validate),
    (2, .act), (2, .act), (1, .update 0 30), (1, .commit), (1, .lock)]

/-- The second transaction reads what the first one has inserted. -/
def dirty : List (Nat × Op Nat Nat) :=
  [(1, .begin), (1, .insert 2 5), (2, .begin), (2, .read 0 2 false)]

/-- The first transaction deletes the row twice, and in between the second one inserts it again. The
abort of the second then takes the row of the third. -/
def doubled : List (Nat × Op Nat Nat) :=
  [(1, .begin), (1, .delete 1), (1, .delete 1), (1, .commit), (1, .lock), (1, .validate), (1, .act),
    (2, .begin), (2, .insert 1 5), (1, .act), (3, .begin), (3, .insert 1 7), (3, .commit),
    (3, .lock), (3, .validate), (3, .act), (2, .abort), (2, .act)]

/-- Two aborts that have returned leave the row locked, a read meets a placeholder, and an abort
takes what another transaction has committed. -/
theorem transactions_unclean :
    (∀ labels ∈ [leaked, stale], ∃ s, Machine.run State.step (.initial start) labels = some s ∧
      s.Returned 1 false ∧ ∃ row, s.rows 1 = some row ∧ row.owner = 1) ∧
    (∃ s, Machine.run State.step (.initial start) dirty = some s ∧
      ∃ r ∈ (s.txns 2).readSet, r.uncommitted = true) ∧
    ∃ s, Machine.run State.step (.initial start) doubled = some s ∧ s.Returned 2 false ∧
      contentsOf (s.rows 1) ≠ replay start (s.log.filter fun effect => effect.tid ≠ 2) 1 := by
  unfold State.Returned
  decide +kernel

end Sample

end UbApplication.Tigon.Sundial
