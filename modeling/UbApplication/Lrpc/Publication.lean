import Mathlib.Logic.Function.Basic
import UbApplication.Lib.Machine
import UbApplication.Lib.Outcome

/-!
# Publication and binding of procedures

The owner of a procedure publishes it in a page of metadata that other machines map. `PUBLISH` of
`ub_lrpc.c` stores the record word by word and sets its ready flag at last; `BIND` loads the record
word by word and decides from its copy. Nothing keeps the two apart.
-/

namespace UbApplication.Lrpc

open List
open Outcome (of_ite_error)

/-- The errors of the driver and of the library. -/
inductive Errno where
  | efault
  | einval
  | ebusy
  | eperm
  | eagain
  | estale
  | enoent
  | epipe
  | enotconn
  | exdev
  | eproto
  | ebadmsg
deriving DecidableEq, Repr

/-- `enum ub_lrpc_role`. -/
inductive Role where
  | none
  | publisher
  | caller
  | shadow
deriving DecidableEq, Repr

/-- `UB_LRPC_MAGIC`. -/
def magic : BitVec 64 := 0x4350524c4255

/-- `UB_LRPC_ABI_VERSION`. -/
def abiVersion : BitVec 32 := 3

/-- `UB_LRPC_MAX_PROCS`. -/
def maxProcs : Nat := 16

/-- `UB_LRPC_CODE_SIZE`. -/
def codeSize : Nat := 0x100000

/-- `UB_LRPC_ASTACK_OFFSET`. -/
def astackOffset : Nat := 0x100000000

/-- `UB_LRPC_ASTACK_SLOT_SIZE`. -/
def astackSlotSize : Nat := 0x10000

/-- `struct ub_lrpc_proc_desc`. -/
structure ProcDesc where
  procedureId : BitVec 32
  flags : BitVec 32
  codeOffset : BitVec 64
  codeSize : BitVec 64
  codeHash : BitVec 64
  astackSize : BitVec 64
deriving DecidableEq, Repr

def ProcDesc.blank : ProcDesc := ⟨0, 0, 0, 0, 0, 0⟩

/-- `struct ub_lrpc_metadata`. -/
structure Metadata where
  magic : BitVec 64
  abiVersion : BitVec 32
  isa : BitVec 32
  codeEpoch : BitVec 64
  imageSize : BitVec 64
  numProcs : BitVec 32
  ready : BitVec 32
  proc : Nat → ProcDesc

/-! ## The record as words -/

def low (x : BitVec 64) : BitVec 32 := x.setWidth 32

def high (x : BitVec 64) : BitVec 32 := (x >>> 32).setWidth 32

def join (lower upper : BitVec 32) : BitVec 64 := upper ++ lower

/-- The halves make the word. -/
@[simp] theorem join_low_high (x : BitVec 64) : join (low x) (high x) = x := by
  apply BitVec.eq_of_getLsbD_eq
  intro i bound
  simp only [join, low, high, BitVec.getLsbD_append, BitVec.getLsbD_setWidth,
    BitVec.getLsbD_ushiftRight]
  by_cases lower : i < 32
  · simp [lower]
  · have upper : i - 32 < 32 := by omega
    have back : 32 + (i - 32) = i := by omega
    simp [lower, upper, back]

def ProcDesc.word (p : ProcDesc) : Nat → BitVec 32
  | 0 => p.procedureId
  | 1 => p.flags
  | 2 => low p.codeOffset
  | 3 => high p.codeOffset
  | 4 => low p.codeSize
  | 5 => high p.codeSize
  | 6 => low p.codeHash
  | 7 => high p.codeHash
  | 8 => low p.astackSize
  | _ => high p.astackSize

def Metadata.word (m : Metadata) : Nat → BitVec 32
  | 0 => low m.magic
  | 1 => high m.magic
  | 2 => m.abiVersion
  | 3 => m.isa
  | 4 => low m.codeEpoch
  | 5 => high m.codeEpoch
  | 6 => low m.imageSize
  | 7 => high m.imageSize
  | 8 => m.numProcs
  | 9 => m.ready
  | i + 10 => (m.proc (i / 10)).word (i % 10)

def readyWord : Nat := 9

def metadataWords : Nat := 10 + 10 * maxProcs

def ProcDesc.ofWords (w : Nat → BitVec 32) : ProcDesc where
  procedureId := w 0
  flags := w 1
  codeOffset := join (w 2) (w 3)
  codeSize := join (w 4) (w 5)
  codeHash := join (w 6) (w 7)
  astackSize := join (w 8) (w 9)

def Metadata.ofWords (w : Nat → BitVec 32) : Metadata where
  magic := join (w 0) (w 1)
  abiVersion := w 2
  isa := w 3
  codeEpoch := join (w 4) (w 5)
  imageSize := join (w 6) (w 7)
  numProcs := w 8
  ready := w 9
  proc i := .ofWords fun j => w (10 * i + j + 10)

/-- A descriptor is read back from its words. -/
theorem ProcDesc.ofWords_word {p : ProcDesc} {w : Nat → BitVec 32}
    (same : ∀ j, j < 10 → w j = p.word j) : ProcDesc.ofWords w = p := by
  simp [ofWords, same, ProcDesc.word]

variable {m : Metadata}

/-- The metadata are read back from their words. -/
theorem Metadata.ofWords_word {w : Nat → BitVec 32}
    (same : ∀ i, i < metadataWords → w i = m.word i) :
    { Metadata.ofWords w with proc := m.proc } = m ∧
      ∀ i, i < maxProcs → (Metadata.ofWords w).proc i = m.proc i := by
  constructor
  · have header (i : Nat) (small : i < 10) : w i = m.word i :=
      same i (Nat.lt_of_lt_of_le small (by decide))
    simp [ofWords, header, Metadata.word]
  · intro i bound
    show ProcDesc.ofWords (fun j => w (10 * i + j + 10)) = m.proc i
    refine ProcDesc.ofWords_word fun j small => ?_
    have inside : 10 * i + j + 10 < metadataWords := by
      simp only [metadataWords, maxProcs] at bound ⊢
      omega
    have place : (10 * i + j) / 10 = i := by omega
    have rest : (10 * i + j) % 10 = j := by omega
    rw [same _ inside]
    simp only [Metadata.word, place, rest]

/-! ## The ioctls -/

/-- `struct ub_lrpc_publish`. -/
structure Publish where
  codeEpoch : BitVec 64
  imageSize : BitVec 64
  numProcs : BitVec 32
  proc : Nat → ProcDesc

/-- A procedure cannot be published in an image. -/
def procRefused (imageSize : BitVec 64) (p : ProcDesc) : Bool :=
  p.flags != 1 || p.codeSize == 0 || decide (imageSize < p.codeOffset) ||
    decide (imageSize - p.codeOffset < p.codeSize) || p.astackSize == 0 ||
    decide (astackSlotSize < p.astackSize.toNat)

/-- `UB_LRPC_IOC_PUBLISH` up to its first store: the record that is going to be stored. -/
def publish (role : Role) (input : Option Publish) : Except Errno Metadata :=
  if role ≠ .publisher then .error .eperm
  else match input with
    | none => .error .efault
    | some pub =>
      if pub.codeEpoch = 0 ∨ pub.numProcs = 0 ∨ maxProcs < pub.numProcs.toNat ∨
          codeSize < pub.imageSize.toNat then .error .einval
      else if (List.range pub.numProcs.toNat).any fun i =>
        procRefused pub.imageSize (pub.proc i) then .error .einval
      else .ok
        { magic := magic
          abiVersion := abiVersion
          isa := 0x3e
          codeEpoch := pub.codeEpoch
          imageSize := pub.imageSize
          numProcs := pub.numProcs
          ready := 0
          proc := fun i => if i < pub.numProcs.toNat then pub.proc i else .blank }

/-- The stores of `UB_LRPC_IOC_PUBLISH`: the record with a cleared ready flag, then the flag. -/
def Metadata.stores (m : Metadata) : List (Nat × BitVec 32) :=
  (List.range metadataWords).map (fun i => (i, m.word i)) ++ [(readyWord, 1)]

/-- The caller's part of `struct ub_lrpc_bind`. -/
structure BindRequest where
  procedureId : BitVec 32
  expectedEpoch : BitVec 64
deriving DecidableEq, Repr

/-- `struct ub_lrpc_bind` as it is returned. -/
structure Bind where
  expectedEpoch : BitVec 64
  entryOffset : BitVec 64
  astackSize : BitVec 64
  astackOffset : Nat
  codeSize : BitVec 64
  codeHash : BitVec 64
deriving DecidableEq, Repr

/-- What a file remembers of its binding. -/
structure Binding where
  epoch : BitVec 64
  procIndex : Nat
  proc : ProcDesc
deriving DecidableEq, Repr

/-- `UB_LRPC_IOC_BIND` after its last load: the index of the procedure and the answer. -/
def bindAnswer (request : BindRequest) (m : Metadata) : Except Errno (Nat × Bind) :=
  if m.magic ≠ magic ∨ m.abiVersion ≠ abiVersion ∨ m.ready = 0 then .error .eagain
  else if request.expectedEpoch ≠ 0 ∧ request.expectedEpoch ≠ m.codeEpoch then .error .estale
  else match (List.range m.numProcs.toNat).find? fun i =>
      (m.proc i).procedureId == request.procedureId with
    | none => .error .enoent
    | some i => .ok (i,
      { expectedEpoch := m.codeEpoch
        entryOffset := (m.proc i).codeOffset
        astackSize := (m.proc i).astackSize
        astackOffset := astackOffset + i * astackSlotSize
        codeSize := (m.proc i).codeSize
        codeHash := (m.proc i).codeHash })

/-- A bind on its way: the copy of the record, as far as it is loaded. -/
structure Loading where
  request : BindRequest
  copy : Nat → BitVec 32
  loaded : Nat

/-- `struct ub_lrpc_file`, with the bind that is on its way and the answer of the last one. -/
structure File where
  role : Role
  bound : Option Binding
  loading : Option Loading
  answer : Option (Except Errno Bind)

/-- `ub_lrpc_open`. -/
def File.opened : File := ⟨.none, none, none, none⟩

/-- `UB_LRPC_IOC_SET_ROLE`. -/
def File.setRole (f : File) (role : Option Role) : Except Errno File :=
  match role with
  | none => .error .efault
  | some role =>
    if role = .none then .error .einval
    else if f.role ≠ .none then .error .ebusy
    else .ok { f with role := role }

/-- `UB_LRPC_IOC_BIND` up to its first load. -/
def File.bind (f : File) (request : Option BindRequest) : Except Errno File :=
  if f.role ≠ .caller ∧ f.role ≠ .shadow then .error .eperm
  else if f.bound.isSome then .error .ebusy
  else match request with
    | none => .error .efault
    | some request => .ok { f with loading := some ⟨request, fun _ => 0, 0⟩ }

def Loading.load (l : Loading) (memory : Nat → BitVec 32) : Loading :=
  { l with copy := Function.update l.copy l.loaded (memory l.loaded), loaded := l.loaded + 1 }

/-- The end of a bind; `copied` says that the answer can be written. -/
def File.finish (f : File) (l : Loading) (copied : Bool) : File :=
  match bindAnswer l.request (.ofWords l.copy) with
  | .error e => { f with loading := none, answer := some (.error e) }
  | .ok (i, b) =>
    { f with
      bound := some ⟨b.expectedEpoch, i, (Metadata.ofWords l.copy).proc i⟩
      loading := none
      answer := some (if copied then .ok b else .error .efault) }

/-! ## The machine -/

/-- The page of metadata and the files of the machines that use it. -/
structure Window where
  memory : Nat → BitVec 32
  pending : List (Nat × BitVec 32)
  published : List Metadata
  files : List File

def Window.start : Window := ⟨fun _ => 0, [], [], []⟩

/-- The steps of the machines. -/
inductive WindowLabel where
  | open
  | setRole (k : Nat) (role : Option Role)
  | publish (k : Nat) (input : Option Publish)
  /-- The next store of the publication. -/
  | store
  | bind (k : Nat) (request : Option BindRequest)
  | load (k : Nat)
  /-- A bind has loaded everything. -/
  | finish (k : Nat) (copied : Bool)

def Window.setFile (w : Window) (k : Nat) (f : File) : Window := { w with files := w.files.set k f }

/-- One step. The owner publishes one thing after the other, and a file serves one ioctl at a time;
an ioctl that is refused changes nothing. -/
def Window.step (w : Window) : WindowLabel → Option Window
  | .open => some { w with files := w.files ++ [.opened] }
  | .setRole k role => do
    let f ← w.files[k]?
    some (match f.setRole role with
      | .ok f => w.setFile k f
      | .error _ => w)
  | .publish k input => do
    let f ← w.files[k]?
    match publish f.role input with
    | .error _ => some w
    | .ok m =>
      if w.pending = [] then
        some { w with pending := m.stores, published := w.published ++ [m] }
      else none
  | .store =>
    match w.pending with
    | [] => none
    | (i, word) :: rest =>
      some { w with memory := Function.update w.memory i word, pending := rest }
  | .bind k request => do
    let f ← w.files[k]?
    if f.loading.isSome then none
    else some (match f.bind request with
      | .ok f => w.setFile k f
      | .error _ => w)
  | .load k => do
    let f ← w.files[k]?
    let l ← f.loading
    if l.loaded < metadataWords then some (w.setFile k { f with loading := some (l.load w.memory) })
    else none
  | .finish k copied => do
    let f ← w.files[k]?
    let l ← f.loading
    if l.loaded < metadataWords then none else some (w.setFile k (f.finish l copied))

/-! ## Localized code -/

def lrpcCodeHash (code : List (BitVec 8)) : BitVec 64 :=
  code.foldl (fun hash byte => (hash ^^^ byte.setWidth 64) * 1099511628211) 14695981039346656037

/-- `lrpc_localize_code`, on the bytes that the code window shows while it is copied. -/
def lrpcLocalizeCode (window : Nat → BitVec 8) (b : Bind) : Except Errno (List (BitVec 8)) :=
  if b.codeSize = 0 ∨ codeSize < b.entryOffset.toNat ∨
      codeSize - b.entryOffset.toNat < b.codeSize.toNat then .error .eproto
  else
    let code := (List.range b.codeSize.toNat).map fun i => window (b.entryOffset.toNat + i)
    if lrpcCodeHash code ≠ b.codeHash then .error .ebadmsg else .ok code

/-! ## Snapshots -/

/-- What a bind returned is one procedure of one publication. -/
structure Bind.Of (b : Bind) (m : Metadata) (i : Nat) : Prop where
  listed : i < m.numProcs.toNat
  epoch : b.expectedEpoch = m.codeEpoch
  offset : b.entryOffset = (m.proc i).codeOffset
  size : b.codeSize = (m.proc i).codeSize
  hash : b.codeHash = (m.proc i).codeHash

/-- Every bind that succeeded returned a procedure of a publication, and the code that is localized
with it is checked against the hash and the size of that very procedure. -/
def Window.Snapshots (w : Window) : Prop :=
  ∀ f ∈ w.files, ∀ b, f.answer = some (.ok b) → ∃ m ∈ w.published, ∃ i, b.Of m i ∧
    ∀ window code, lrpcLocalizeCode window b = .ok code →
      lrpcCodeHash code = (m.proc i).codeHash ∧ code.length = (m.proc i).codeSize.toNat

/-- Loads and stores are kept apart: nothing is stored while a bind is on its way, and no bind
begins to load between the first store of a publication and the one that clears the ready flag. -/
def Window.Quiet (w : Window) : WindowLabel → Prop
  | .store => ∀ f ∈ w.files, f.loading.isSome = false
  | .load k => (w.files[k]?.bind File.loading).any (fun l => l.loaded == 0) = true →
      w.pending = [] ∨ w.memory readyWord = 0
  | _ => True

instance (w : Window) : (label : WindowLabel) → Decidable (w.Quiet label)
  | .store => inferInstanceAs (Decidable (∀ f ∈ w.files, f.loading.isSome = false))
  | .load _ => inferInstanceAs (Decidable (_ → _ ∨ _))
  | .open | .setRole .. | .publish .. | .bind .. | .finish .. => .isTrue trivial

/-- The record once its ready flag is set. -/
def Metadata.complete (m : Metadata) : Metadata := { m with ready := 1 }

def stored (memory : Nat → BitVec 32) (stores : List (Nat × BitVec 32)) : Nat → BitVec 32 :=
  stores.foldl (fun memory store => Function.update memory store.1 store.2) memory

/-- What a loop of stores leaves. -/
theorem foldl_update_range {α : Type} (memory value : Nat → α) (count : Nat) :
    (List.range count).foldl (fun memory i => Function.update memory i (value i)) memory =
      fun i => if i < count then value i else memory i := by
  induction count with
  | zero => simp
  | succ count ih =>
    rw [range_succ, foldl_append, ih, foldl_cons, foldl_nil]
    funext i
    rw [Function.update_apply]
    by_cases here : i = count
    · simp [here]
    · have same : i < count ↔ i < count + 1 := by omega
      simp only [here, if_false, same]

/-- The stores of a publication write all its words. -/
theorem Metadata.stored_stores (m : Metadata) (memory : Nat → BitVec 32) {i : Nat}
    (inside : i < metadataWords) : stored memory m.stores i = m.complete.word i := by
  have split : stored memory m.stores =
      Function.update (stored memory ((List.range metadataWords).map fun i => (i, m.word i)))
        readyWord 1 := by
    simp only [stored, Metadata.stores, foldl_append, foldl_cons, foldl_nil]
  rw [split, Function.update_apply, stored, foldl_map, foldl_update_range]
  by_cases here : i = readyWord
  · rw [if_pos here, here]
    rfl
  · rw [if_neg here]
    refine (if_pos inside).trans ?_
    match i, here with
    | 0, _ | 1, _ | 2, _ | 3, _ | 4, _ | 5, _ | 6, _ | 7, _ | 8, _ => rfl
    | 9, here => exact absurd rfl here
    | i + 10, _ => rfl

/-- The copy of a bind that has begun to load. -/
structure Loading.Sound (l : Loading) (w : Window) : Prop where
  copied : ∀ i, i < l.loaded → l.copy i = w.memory i
  whole : 0 < l.loaded → w.memory readyWord = 0 ∨
    ∃ m ∈ w.published, ∀ i, i < metadataWords → w.memory i = m.complete.word i

/-- What holds of the page and its files. -/
structure Window.Sound (w : Window) : Prop where
  page : (w.pending = [] ∧ w.memory readyWord = 0) ∨
    ∃ m ∈ w.published, ∀ i, i < metadataWords → stored w.memory w.pending i = m.complete.word i
  small : ∀ m ∈ w.published, m.numProcs.toNat ≤ maxProcs
  loading : ∀ f ∈ w.files, ∀ l, f.loading = some l → l.Sound w
  answers : w.Snapshots

section Snapshots

variable {w w' : Window}

/-- The files after one of them changes. -/
theorem mem_setFile {k : Nat} {f g : File} (member : g ∈ (w.setFile k f).files) :
    g = f ∨ g ∈ w.files := by
  rcases mem_or_eq_of_mem_set member with old | new
  · exact .inr old
  · exact .inl new

/-- Soundness after one file changes. -/
theorem Window.Sound.setFile (sound : w.Sound) {k : Nat} {f : File}
    (loads : ∀ l, f.loading = some l → l.Sound w)
    (answers : ∀ b, f.answer = some (.ok b) → ∃ m ∈ w.published, ∃ i, b.Of m i ∧ ∀ window code,
      lrpcLocalizeCode window b = .ok code → lrpcCodeHash code = (m.proc i).codeHash ∧ code.length =
      (m.proc i).codeSize.toNat) :
    (w.setFile k f).Sound :=
  { sound with
    loading := fun g member l found => by
      rcases mem_setFile member with rfl | old
      · exact { loads l found with }
      · exact { sound.loading g old l found with }
    answers := fun g member b found => by
      rcases mem_setFile member with rfl | old
      · exact answers b found
      · exact sound.answers g old b found }

/-- A publication has few procedures. -/
theorem publish_small {role : Role} {input : Option Publish}
    (done : publish role input = .ok m) : m.numProcs.toNat ≤ maxProcs := by
  simp only [publish] at done
  obtain ⟨-, done⟩ := of_ite_error done
  cases input with
  | none => contradiction
  | some pub =>
    obtain ⟨fine, done⟩ := of_ite_error done
    obtain ⟨-, ⟨⟩⟩ := of_ite_error done
    show pub.numProcs.toNat ≤ maxProcs
    omega

/-- Code that was localized has its hash and length. -/
theorem lrpcLocalizeCode_ok {window : Nat → BitVec 8} {b : Bind} {code : List (BitVec 8)}
    (done : lrpcLocalizeCode window b = .ok code) :
    lrpcCodeHash code = b.codeHash ∧ code.length = b.codeSize.toNat := by
  simp only [lrpcLocalizeCode] at done
  obtain ⟨-, done⟩ := of_ite_error done
  obtain ⟨same, ⟨⟩⟩ := of_ite_error done
  exact ⟨not_not.mp same, by simp⟩

/-- An answer is about a published procedure. -/
theorem bindAnswer_ok {request : BindRequest} {i : Nat} {b : Bind}
    (done : bindAnswer request m = .ok (i, b)) : m.ready ≠ 0 ∧ b.Of m i := by
  simp only [bindAnswer] at done
  obtain ⟨ready, done⟩ := of_ite_error done
  obtain ⟨-, done⟩ := of_ite_error done
  split at done
  case h_1 => contradiction
  case h_2 found =>
    cases done
    have member := mem_of_find?_eq_some found
    exact ⟨fun zero => ready (.inr (.inr zero)), mem_range.mp member, rfl, rfl, rfl, rfl⟩

/-- A bind that has loaded everything is answered right. -/
theorem Window.Sound.finish (sound : w.Sound) {l : Loading} (copies : l.Sound w)
    (done : metadataWords ≤ l.loaded) {i : Nat} {b : Bind}
    (answer : bindAnswer l.request (.ofWords l.copy) = .ok (i, b)) :
    ∃ m ∈ w.published, b.Of m i := by
  obtain ⟨ready, from_⟩ := bindAnswer_ok answer
  have word (i : Nat) (inside : i < metadataWords) : l.copy i = w.memory i :=
    copies.copied i (Nat.lt_of_lt_of_le inside done)
  have set : w.memory readyWord ≠ 0 := by
    rw [← word readyWord (by decide)]
    exact ready
  obtain ⟨m, member, same⟩ :=
    (copies.whole (Nat.lt_of_lt_of_le (by decide) done)).resolve_left set
  have whole := Metadata.ofWords_word (m := m.complete)
    (w := l.copy) fun i inside => (word i inside).trans (same i inside)
  refine ⟨m, member, ?_⟩
  have count := congrArg Metadata.numProcs whole.1
  have epoch := congrArg Metadata.codeEpoch whole.1
  have listed : i < m.numProcs.toNat := count ▸ from_.listed
  have proc : (Metadata.ofWords l.copy).proc i = m.proc i :=
    whole.2 i (Nat.lt_of_lt_of_le listed (sound.small m member))
  exact ⟨listed, from_.epoch.trans epoch, proc ▸ from_.offset, proc ▸ from_.size, proc ▸ from_.hash⟩

/-- Every quiet step keeps soundness. -/
theorem Window.Sound.step (sound : w.Sound) {label : WindowLabel} (quiet : w.Quiet label)
    (stepped : w.step label = some w') : w'.Sound := by
  cases label with
  | «open» =>
    cases stepped
    refine ⟨sound.page, sound.small, fun f member l found => ?_, fun f member b found => ?_⟩
    · rcases mem_append.mp member with old | new
      · exact { sound.loading f old l found with }
      · rw [mem_singleton.mp new] at found
        contradiction
    · rcases mem_append.mp member with old | new
      · exact sound.answers f old b found
      · rw [mem_singleton.mp new] at found
        contradiction
  | setRole k role =>
    obtain ⟨f, found, stepped⟩ := Option.bind_eq_some_iff.mp stepped
    have member := mem_of_getElem? found
    cases stepped
    split
    case h_2 => exact sound
    case h_1 g done =>
      have same : g.loading = f.loading ∧ g.answer = f.answer := by
        cases role with
        | none => contradiction
        | some role =>
          obtain ⟨-, done⟩ := of_ite_error done
          obtain ⟨-, ⟨⟩⟩ := of_ite_error done
          exact ⟨rfl, rfl⟩
      apply sound.setFile
      · exact fun l loads => sound.loading f member l (same.1 ▸ loads)
      · exact fun b answered => sound.answers f member b (same.2 ▸ answered)
  | publish k input =>
    obtain ⟨f, found, stepped⟩ := Option.bind_eq_some_iff.mp stepped
    split at stepped
    case h_1 =>
      cases stepped
      exact sound
    case h_2 m done =>
      split at stepped
      case isFalse => contradiction
      case isTrue idle =>
        cases stepped
        constructor
        · exact .inr ⟨m, by simp, fun i inside => m.stored_stores w.memory inside⟩
        · intro other member
          rcases mem_append.mp member with old | new
          · exact sound.small other old
          · rw [mem_singleton.mp new]
            exact publish_small done
        · intro g member l loads
          have copies := sound.loading g member l loads
          refine ⟨copies.copied, fun begun => (copies.whole begun).imp_right ?_⟩
          exact fun ⟨other, listed, same⟩ => ⟨other, mem_append_left _ listed, same⟩
        · intro g member b answered
          obtain ⟨other, listed, rest⟩ := sound.answers g member b answered
          exact ⟨other, mem_append_left _ listed, rest⟩
  | store =>
    simp only [Window.step] at stepped
    split at stepped
    case h_1 => contradiction
    case h_2 i word rest pending =>
      cases stepped
      have page := sound.page
      rw [pending] at page
      refine ⟨.inr (page.resolve_left fun empty => by simp at empty), sound.small, ?_,
        sound.answers⟩
      intro f member l loads
      have idle := quiet f member
      rw [loads] at idle
      contradiction
  | bind k request =>
    obtain ⟨f, found, stepped⟩ := Option.bind_eq_some_iff.mp stepped
    have member := mem_of_getElem? found
    split at stepped
    case isTrue => contradiction
    case isFalse =>
      cases stepped
      split
      case h_2 => exact sound
      case h_1 g done =>
        have begun : ∃ request, g = { f with loading := some ⟨request, fun _ => 0, 0⟩ } := by
          simp only [File.bind] at done
          obtain ⟨-, done⟩ := of_ite_error done
          obtain ⟨-, done⟩ := of_ite_error done
          cases request with
          | none => contradiction
          | some request =>
            cases done
            exact ⟨request, rfl⟩
        obtain ⟨request, rfl⟩ := begun
        apply sound.setFile
        · intro l loads
          cases loads
          exact ⟨fun i none => absurd none (Nat.not_lt_zero i),
            fun none => absurd none (Nat.lt_irrefl 0)⟩
        · exact fun b answered => sound.answers f member b answered
  | load k =>
    obtain ⟨f, found, stepped⟩ := Option.bind_eq_some_iff.mp stepped
    obtain ⟨l, loads, stepped⟩ := Option.bind_eq_some_iff.mp stepped
    have member := mem_of_getElem? found
    have copies := sound.loading f member l loads
    split at stepped
    case isFalse => contradiction
    case isTrue inside =>
      cases stepped
      apply sound.setFile
      · intro next loads'
        cases loads'
        refine ⟨fun i bound => ?_, fun _ => ?_⟩
        · by_cases here : i = l.loaded
          · rw [here]
            exact Function.update_self l.loaded _ _
          · have older : i < l.loaded := Nat.lt_of_le_of_ne (Nat.le_of_lt_succ bound) here
            exact (Function.update_of_ne here _ _).trans (copies.copied i older)
        · by_cases begun : 0 < l.loaded
          · exact copies.whole begun
          · -- The first load: the page is whole or not ready.
            have first : l.loaded = 0 := Nat.eq_zero_of_not_pos begun
            have apart : w.pending = [] ∨ w.memory readyWord = 0 := by
              apply quiet
              simp [found, loads, first]
            rcases apart with settled | cleared
            · have page := sound.page
              rw [settled] at page
              exact page.imp_left And.right
            · exact .inl cleared
      · exact fun b answered => sound.answers f member b answered
  | finish k copied =>
    obtain ⟨f, found, stepped⟩ := Option.bind_eq_some_iff.mp stepped
    obtain ⟨l, loads, stepped⟩ := Option.bind_eq_some_iff.mp stepped
    have member := mem_of_getElem? found
    split at stepped
    case isTrue => contradiction
    case isFalse done =>
      cases stepped
      have copies := sound.loading f member l loads
      simp only [File.finish]
      split
      case h_1 =>
        apply sound.setFile
        · exact fun l loads => (nomatch loads)
        · exact fun b answered => (nomatch answered)
      case h_2 i b answer =>
        apply sound.setFile
        · exact fun l loads => (nomatch loads)
        · intro b' answered
          cases copied with
          | false => exact (nomatch answered)
          | true =>
            cases answered
            obtain ⟨m, listed, one⟩ := sound.finish copies (Nat.le_of_not_lt done) answer
            refine ⟨m, listed, i, one, fun window code localized => ?_⟩
            have facts := lrpcLocalizeCode_ok localized
            rwa [one.hash, one.size] at facts

/-- The start is sound. -/
theorem Window.start_sound : Window.start.Sound where
  page := .inl ⟨rfl, rfl⟩
  small _ member := (nomatch member)
  loading _ member := (nomatch member)
  answers _ member := (nomatch member)

/-- In every run whose loads and stores are kept apart, what a bind returns comes from one
publication. -/
theorem bind_snapshot {labels : List WindowLabel}
    (quiet : Machine.Admits Window.Quiet Window.step .start labels)
    (run : Machine.run Window.step .start labels = some w) : w.Snapshots :=
  (Machine.run_admitted Window.Sound (fun _ _ _ sound quiet stepped => sound.step quiet stepped)
    quiet Window.start_sound run).answers

end Snapshots

namespace Sample

/-- A publication of one procedure. -/
def publication : Publish where
  codeEpoch := 1
  imageSize := 64
  numProcs := 1
  proc _ := ⟨1, 1, 0, 64, 0x1234, 256⟩

/-- The owner opens its file and begins to publish; another file is there to bind. -/
def begun : List WindowLabel :=
  [.open, .open, .setRole 0 (some .publisher), .setRole 1 (some .shadow),
    .publish 0 (some publication)]

/-- The other file binds the procedure, whatever its epoch. -/
def binding : WindowLabel := .bind 1 (some ⟨1, 0⟩)

/-- The publication is stored before the bind loads anything. -/
def apart : List WindowLabel :=
  begun ++ List.replicate 171 .store ++ [binding] ++ List.replicate 170 (.load 1) ++
    [.finish 1 true]

/-- The bind loads the epoch before it is stored, and the rest of the record afterwards. -/
def torn : List WindowLabel :=
  begun ++ List.replicate 4 .store ++ [binding] ++ List.replicate 6 (.load 1) ++
    List.replicate 167 .store ++ List.replicate 164 (.load 1) ++ [.finish 1 true]

/-- After a run the bind has returned an answer, and no publication has epoch zero. -/
def Answered (labels : List WindowLabel) (b : Bind) : Prop :=
  (Machine.run Window.step .start labels).any (fun w =>
    w.files[1]?.any (fun f => f.answer == some (.ok b)) &&
      w.published.all fun m => m.codeEpoch != 0) = true

/-- That bind returned a snapshot. -/
theorem bind_snapshot_apart :
    ∃ w, Machine.run Window.step .start apart = some w ∧ w.Snapshots := by
  have answered : Answered apart ⟨1, 0, 256, 0x100000000, 64, 0x1234⟩ := by
    unfold Answered
    decide +kernel
  obtain ⟨w, reached, -⟩ := (Option.any_eq_true _ _).mp answered
  exact ⟨w, reached, bind_snapshot (by decide +kernel) reached⟩

/-- The other bind returns epoch zero, which was never published, with the offset, the size and the
hash of the publication. -/
theorem bind_torn : ∃ w, Machine.run Window.step .start torn = some w ∧ ¬ w.Snapshots := by
  have answered : Answered torn ⟨0, 0, 256, 0x100000000, 64, 0x1234⟩ := by
    unfold Answered
    decide +kernel
  simp only [Answered, Option.any_eq_true, Bool.and_eq_true, all_eq_true] at answered
  obtain ⟨w, reached, ⟨f, found, same⟩, epochs⟩ := answered
  refine ⟨w, reached, fun snapshots => ?_⟩
  obtain ⟨m, member, i, one, -⟩ := snapshots f (mem_of_getElem? found) _ (eq_of_beq same)
  have epoch := epochs m member
  rw [← one.epoch] at epoch
  exact absurd epoch (by decide)

end Sample

end UbApplication.Lrpc
