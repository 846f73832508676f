import UbApplication.Lrpc.Handoff

/-!
# The A-stack of a channel

`lrpc_invoke` of `lrpc.c` fills the A-stack of the channel, asks the kernel for the call and empties
the A-stack afterwards. The kernel refuses a call while another one is pending, but it looks only
when the A-stack is already filled, and it does not look again before the A-stack is emptied.
-/

namespace UbApplication.Lrpc

open Option List
open Function (update update_apply update_of_ne update_self)

/-- `LRPC_PAYLOAD_MAX`. -/
def payloadMax : Nat := 61440

/-- `struct lrpc_astack`: its 64-bit fields, twelve before the payload and four behind it, and the
bytes of the payload. -/
@[ext] structure Astack where
  word : Nat → BitVec 64
  payload : Nat → BitVec 8

namespace Astack

def requestSize (a : Astack) : Nat := (a.word 2).toNat

def responseSize (a : Astack) : Nat := (a.word 3).toNat

/-- A store to an A-stack. -/
inductive Store where
  | word (i : Nat) (value : BitVec 64)
  | byte (i : Nat) (value : BitVec 8)

def store (a : Astack) : Store → Astack
  | .word i value => { a with word := update a.word i value }
  | .byte i value => { a with payload := update a.payload i value }

/-- The stores of `lrpc_invoke` before its call: the fields before the payload, the request, and
then `caller_cpu_before`, `caller_cpu_after` and `caller_pid`. -/
def fill (call : Astack) (pid cpu : BitVec 64) : List Store :=
  (List.range 12).map (fun i => .word i (call.word i)) ++
    (List.range call.requestSize).map (fun i => .byte i (call.payload i)) ++
    [.word 5 cpu, .word 7 0xffffffffffffffff, .word 10 pid]

/-- The stores of `lrpc_invoke` after its call: `caller_cpu_after` and the four times. -/
def stamp (h : Handoff) (cpu : BitVec 64) : List Store :=
  [.word 7 cpu, .word 12 h.callEnterNs, .word 13 h.shadowDispatchNs, .word 14 h.shadowReturnNs,
    .word 15 h.callerResumeNs]

end Astack

/-- How far a thread is in `lrpc_invoke`. -/
inductive Stage where
  | filling (rest : List Astack.Store)
  | inside (call : Nat)
  | leaving (call : Nat) (rest : List Astack.Store)
  /-- It copies the fields before the payload. -/
  | fields (call : Nat) (count : Nat)
  | response (call : Nat) (size count : Nat)

/-- A thread in `lrpc_invoke`, with the buffer of its caller. -/
structure Invocation where
  buffer : Astack
  stage : Stage

/-- The kernel, the A-stack, the threads that use it, and the history of its contents. -/
structure World where
  kernel : System
  shared : Astack
  invocations : Nat → Option Invocation
  /-- The number of threads in `lrpc_invoke`. -/
  busy : Nat
  serving : Nat → Option Nat
  passed : Nat → Option Astack
  seen : Nat → Option Astack
  written : Nat → Option Astack
  back : Nat → Option Astack

namespace World

def start (mm : Nat → Nat) : World where
  kernel := .start mm
  shared := ⟨fun _ => 0, fun _ => 0⟩
  invocations _ := none
  busy := 0
  serving _ := none
  passed _ := none
  seen _ := none
  written _ := none
  back _ := none

variable (w : World)

/-- A thread moves on in `lrpc_invoke`. -/
def move (t : Nat) (buffer : Astack) (stage : Stage) : World :=
  { w with invocations := update w.invocations t (some ⟨buffer, stage⟩) }

/-- A thread leaves `lrpc_invoke`. -/
def leave (t : Nat) : World :=
  { w with invocations := update w.invocations t none, busy := w.busy - 1 }

/-- A thread enters `lrpc_invoke`. -/
def invoke (t : Nat) (call : Astack) (pid cpu : BitVec 64) : World :=
  if payloadMax < call.requestSize then w
  else { w.move t call (.filling (call.fill pid cpu)) with busy := w.busy + 1 }

/-- The call of `lrpc_invoke`. -/
def call (t : Nat) (buffer : Astack) (now : BitVec 64) : World :=
  let kernel := w.kernel.call t true now
  if kernel.accepted.length = w.kernel.accepted.length then { w with kernel := kernel }.leave t
  else
    { w.move t buffer (.inside kernel.last) with
      kernel := kernel
      passed := update w.passed kernel.last (some buffer)
      written := update w.written kernel.last (some w.shared) }

/-- The kernel has let a caller go on. -/
def resume (t : Nat) (buffer : Astack) (call : Nat) (cpu : BitVec 64) (kernel : System) : World :=
  if (kernel.tasks t).phase = .calling call then { w with kernel := kernel }
  else
    { w.move t buffer (.leaving call (Astack.stamp kernel.channel.handoff cpu)) with
      kernel := kernel }

/-- The next load of `lrpc_invoke`. -/
def load (t : Nat) (buffer : Astack) : Stage → Option World
  | .leaving call [] =>
    if payloadMax < w.shared.responseSize then some (w.leave t)
    else some (w.move t buffer (.fields call 0))
  | .fields call count =>
    if count < 12 then
      some (w.move t { buffer with word := update buffer.word count (w.shared.word count) }
        (.fields call (count + 1)))
    else some (w.move t buffer (.response call w.shared.responseSize 0))
  | .response call size count =>
    if count < size then
      some (w.move t
        { buffer with payload := update buffer.payload count (w.shared.payload count) }
        (.response call size (count + 1)))
    else some { w.leave t with back := update w.back call (some buffer) }
  | _ => none

/-- The kernel has looked for a call; the shadow has received one when the kernel says so. -/
def receive (t : Nat) (kernel : System) : World :=
  if kernel.received w.kernel.last =
    w.kernel.received w.kernel.last then { w with kernel := kernel }
  else
    { w with
      kernel := kernel
      serving := update w.serving t (some w.kernel.last)
      seen := update w.seen w.kernel.last (some w.shared) }

/-- The shadow or its service stores something. -/
def serve (call : Nat) (store : Astack.Store) : World :=
  let shared := w.shared.store store
  { w with shared := shared, written := update w.written call (some shared) }

end World

/-- The steps of the threads. -/
inductive WorldLabel where
  /-- A step in the kernel that neither begins nor ends a call. -/
  | setup (label : SystemLabel)
  /-- `lrpc_invoke` begins. -/
  | invoke (t : Nat) (call : Astack) (pid cpu : BitVec 64)
  /-- The next store of `lrpc_invoke`. -/
  | store (t : Nat)
  | call (t : Nat) (now : BitVec 64)
  /-- The call goes on after a sleep. -/
  | resume (t : Nat) (cpu now : BitVec 64)
  /-- The next load of `lrpc_invoke`. -/
  | load (t : Nat)
  | waitCall (t : Nat) (now : BitVec 64)
  /-- The shadow goes on after a sleep. -/
  | waitAgain (t : Nat) (now : BitVec 64)
  /-- The service stores something. -/
  | serve (t : Nat) (store : Astack.Store)
  | ret (t : Nat) (result : BitVec 32) (now : BitVec 64)
  /-- The shadow leaves `RETURN`, which may be executed again. -/
  | retEnd (t : Nat) (restart : Bool) (now : BitVec 64)
  | release (t : Nat)

def World.step (w : World) : WorldLabel → Option World
  | .setup label =>
    if label.setup then (w.kernel.step label).map fun kernel => { w with kernel := kernel }
      else none
  | .invoke t call pid cpu =>
    if (w.invocations t).isSome ∨ (w.kernel.tasks t).phase ≠ .user then none
    else some (w.invoke t call pid cpu)
  | .store t =>
    match w.invocations t with
    | some ⟨buffer, .filling (store :: rest)⟩ =>
      some { w.move t buffer (.filling rest) with shared := w.shared.store store }
    | some ⟨buffer, .leaving call (store :: rest)⟩ =>
      some { w.move t buffer (.leaving call rest) with shared := w.shared.store store }
    | _ => none
  | .call t now =>
    match w.invocations t with
    | some ⟨buffer, .filling []⟩ =>
      if (w.kernel.tasks t).phase = .user then some (w.call t buffer now) else none
    | _ => none
  | .resume t cpu now =>
    match w.invocations t with
    | some ⟨buffer, .inside call⟩ =>
      (w.kernel.step (.resume t true now)).map (w.resume t buffer call cpu)
    | _ => none
  | .load t => do
    let invocation ← w.invocations t
    w.load t invocation.buffer invocation.stage
  | .waitCall t now =>
    if (w.serving t).isSome then none
    else (w.kernel.step (.waitCall t true now)).map (w.receive t)
  | .waitAgain t now =>
    if (w.serving t).isSome then none
    else (w.kernel.step (.waitAgain t true now)).map (w.receive t)
  | .serve t store => do
    let call ← w.serving t
    some (w.serve call store)
  | .ret t result now =>
    if (w.serving t).isSome then
      (w.kernel.step (.ret t result true now)).map fun kernel =>
        { w with kernel := kernel, serving := update w.serving t none }
    else none
  | .retEnd t restart now =>
    (w.kernel.step (.retEnd t restart true now)).map fun kernel => { w with kernel := kernel }
  | .release t =>
    if (w.invocations t).isSome then none
    else (w.kernel.step (.release t)).map fun kernel =>
      { w with kernel := kernel, serving := update w.serving t none }

/-! ## What the kernel does to a call -/

/-- A step in the kernel that leaves the calls alone. -/
structure System.Like (s s' : System) : Prop where
  accepted : s'.accepted = s.accepted
  pending : s'.channel.callPending = s.channel.callPending
  owner : ∀ o, s.channel.shadowOwner = some o → s'.channel.shadowOwner = some o
  answers : s'.answers = s.answers
  returned : s'.returned = s.returned
  calling : ∀ t c, s'.Calling t c ↔ s.Calling t c

variable {phase : Phase}

namespace System

variable {s s' : System} {t : Nat}

/-- Nothing has changed. -/
theorem Like.refl (s : System) : s.Like s :=
  ⟨rfl, rfl, fun _ => id, rfl, rfl, fun _ _ => Iff.rfl⟩

/-- A task that stays in its call. -/
theorem like_setTask {task : Task} (phase : ∀ c, task.phase = .calling c ↔ s.Calling t c) :
    s.Like (s.setTask t task) := by
  refine ⟨rfl, rfl, fun _ => id, rfl, rfl, fun u c => ?_⟩
  simp only [Calling, setTask_tasks]
  by_cases here : u = t
  · rw [if_pos here, here]
    exact phase c
  · rw [if_neg here]

/-- A task outside any call. -/
theorem like_setOther {task : Task} (before : (s.tasks t).phase = phase)
    (outside : ∀ c, phase ≠ .calling c) (after : ∀ c, task.phase ≠ .calling c) :
    s.Like (s.setTask t task) :=
  like_setTask fun c => iff_of_false (after c) (not_calling_of_phase before outside c)

/-- Setting up changes no call. -/
theorem like_setup {label : SystemLabel} (setup : label.setup = true)
    (stepped : s.step label = some s') : s.Like s' := by
  rcases setup_cases setup stepped with rfl | ⟨t, task, rfl, quiet⟩ | ⟨t, -, free, rfl⟩
  · exact .refl _
  · exact like_setTask quiet.calling
  · refine ⟨rfl, rfl, fun o owns => ?_, rfl, rfl, fun _ _ => Iff.rfl⟩
    cases free.symm.trans owns

/-- A wait hands over the pending call or nothing. -/
theorem wait_cases (here : (s.tasks t).phase = phase)
    (outside : ∀ c, phase ≠ .calling c) (now : BitVec 64) :
    s.Like (s.wait t true now) ∧
      ((s.wait t true now).received s.last = s.received s.last ∨
        (s.channel.shadowOwner = some t ∧ s.channel.callPending = true ∧
          (s.wait t true now).received s.last ≠ s.received s.last)) := by
  have like {task : Task} (after : ∀ c, task.phase ≠ .calling c) : s.Like (s.setTask t task) :=
    like_setOther here outside after
  simp only [wait]
  split
  case isTrue => exact ⟨like (fun _ wrong => by cases wrong), .inl rfl⟩
  case isFalse owns =>
    split
    case isFalse => exact ⟨like (fun _ wrong => by cases wrong), .inl rfl⟩
    case isTrue pending =>
      have moved : s.Like (s.setTask t { s.tasks t with phase := .user }) :=
        like fun _ wrong => by cases wrong
      refine ⟨⟨rfl, rfl, fun _ => id, rfl, rfl, moved.calling⟩, .inr ⟨not_not.mp owns, pending, ?_⟩⟩
      simp

/-- A resumed caller still waits or takes its answer. -/
theorem resume_cases (call : Nat) (now : BitVec 64) :
    (s.channel.callPending = true ∧ s.Like (s.resume t call true now)) ∨
      (s.channel.callPending = false ∧
        (s.resume t call true now).accepted = s.accepted ∧
        (s.resume t call true now).channel.callPending = false ∧
        (s.resume t call true now).answers = s.answers ∧
        (s.resume t call true now).returned call ≠ [] ∧
        (∀ c, s.returned c ≠ [] → (s.resume t call true now).returned c ≠ []) ∧
        ∀ u c, (s.resume t call true now).Calling u c ↔ u ≠ t ∧ s.Calling u c) := by
  simp only [resume]
  split
  case isTrue pending => exact .inl ⟨pending, like_setTask fun _ => Iff.rfl⟩
  case isFalse idle =>
    have idle : s.channel.callPending = false := by simpa using idle
    refine .inr ⟨idle, rfl, idle, rfl, by simp, fun c some => ?_, fun u c => ?_⟩
    · simp only [update_apply]
      split
      case isTrue => simp
      case isFalse => exact some
    · simp only [Calling, setTask_tasks]
      by_cases same : u = t
      · simp [same]
      · simp [same]

end System

/-! ## Integrity -/

namespace Astack

/-- An A-stack holds the request of a caller. The library itself stores `caller_cpu_before`,
`caller_cpu_after` and `caller_pid`. -/
structure Request (call a : Astack) : Prop where
  fields : ∀ i, i < 12 → i ≠ 5 → i ≠ 7 → i ≠ 10 → a.word i = call.word i
  bytes : ∀ i, i < call.requestSize → a.payload i = call.payload i

/-- A caller has the response that an A-stack holds, apart from `caller_cpu_after`. -/
structure Response (a buffer : Astack) : Prop where
  fields : ∀ i, i < 12 → i ≠ 7 → buffer.word i = a.word i
  bytes : ∀ i, i < a.responseSize → buffer.payload i = a.payload i

/-- Two A-stacks differ in the times and in `caller_cpu_after` at most. -/
structure Agree (a b : Astack) : Prop where
  fields : ∀ i, i < 12 → i ≠ 7 → b.word i = a.word i
  payload : b.payload = a.payload

def stored (a : Astack) (stores : List Store) : Astack := stores.foldl store a

/-- The words that a list of stores leaves. -/
theorem stored_words (a : Astack) (value : Nat → BitVec 64) (count : Nat) :
    a.stored ((List.range count).map fun i => .word i (value i)) =
      { a with word := fun i => if i < count then value i else a.word i } := by
  rw [stored, foldl_map, ← foldl_update_range]
  exact foldl_hom (fun word => ({ a with word := word } : Astack)) fun _ _ => rfl

/-- The bytes that a list of stores leaves. -/
theorem stored_bytes (a : Astack) (value : Nat → BitVec 8) (count : Nat) :
    a.stored ((List.range count).map fun i => .byte i (value i)) =
      { a with payload := fun i => if i < count then value i else a.payload i } := by
  rw [stored, foldl_map, ← foldl_update_range]
  exact foldl_hom (fun payload => ({ a with payload := payload } : Astack)) fun _ _ => rfl

/-- The stores of `lrpc_invoke` make the request. -/
theorem request_fill (a call : Astack) (pid cpu : BitVec 64) :
    call.Request (a.stored (call.fill pid cpu)) := by
  have split : a.stored (call.fill pid cpu) =
      (((a.stored ((List.range 12).map fun i => .word i (call.word i))).stored
        ((List.range call.requestSize).map fun i => .byte i (call.payload i))).stored
        [.word 5 cpu, .word 7 0xffffffffffffffff, .word 10 pid]) := by
    simp only [stored, fill, foldl_append]
  rw [split, stored_words, stored_bytes]
  constructor
  · intro i inside five seven ten
    simp [stored, store, five, seven, ten, inside]
  · intro i inside
    simp [stored, store, inside]

/-- The stamps of a call do not touch its request. -/
theorem agree_stamp {a b : Astack} (agree : a.Agree b) {h : Handoff} {cpu : BitVec 64}
    {store : Store} (member : store ∈ stamp h cpu) : a.Agree (b.store store) := by
  have other : ∃ i value, store = .word i value ∧ (12 ≤ i ∨ i = 7) := by
    simp only [stamp, mem_cons, not_mem_nil, or_false] at member
    rcases member with rfl | rfl | rfl | rfl | rfl
    · exact ⟨7, _, rfl, .inr rfl⟩
    · exact ⟨12, _, rfl, .inl (by decide)⟩
    · exact ⟨13, _, rfl, .inl (by decide)⟩
    · exact ⟨14, _, rfl, .inl (by decide)⟩
    · exact ⟨15, _, rfl, .inl (by decide)⟩
  obtain ⟨i, value, rfl, apart⟩ := other
  refine ⟨fun j inside seven => ?_, agree.payload⟩
  have different : j ≠ i := by omega
  exact (update_of_ne different _ _).trans (agree.fields j inside seven)

end Astack

namespace World

/-- The service of an accepted call sees the request of its caller, nobody else touches the A-stack
while it runs, and its caller gets the response that it wrote. -/
structure Intact (w : World) : Prop where
  /-- A call that is answered with a result was served. -/
  served : ∀ c r, w.kernel.answers c = some (.returned r) → (w.seen c).isSome = true
  request : ∀ c a, w.seen c = some a → ∃ call, w.passed c = some call ∧ call.Request a
  untouched : ∀ t c, w.serving t = some c → w.written c = some w.shared
  response : ∀ c buffer, w.back c = some buffer → ∃ a, w.written c = some a ∧ a.Response buffer

/-- `lrpc_invoke` is called by one thread at a time, and no interrupted `RETURN` is executed again
while a call is pending. -/
def Alone (w : World) : WorldLabel → Prop
  | .invoke _ _ _ _ => w.busy = 0
  | .retEnd t restart now => w.kernel.Unrepeated (.retEnd t restart true now)
  | _ => True

instance (w : World) : (label : WorldLabel) → Decidable (w.Alone label)
  | .invoke .. => inferInstanceAs (Decidable (w.busy = 0))
  | .retEnd t restart now =>
    inferInstanceAs (Decidable (w.kernel.Unrepeated (.retEnd t restart true now)))
  | .setup .. | .store .. | .call .. | .resume .. | .load .. | .waitCall .. | .waitAgain ..
  | .serve ..
  | .ret .. | .release .. => .isTrue trivial

/-- What holds of a thread in `lrpc_invoke`. -/
def AtStage (w : World) (t : Nat) (buffer : Astack) : Stage → Prop
  | .filling rest => (∀ u c, ¬ w.kernel.Calling u c) ∧ buffer.Request (w.shared.stored rest)
  | .inside c => w.kernel.Calling t c ∧ w.written c = some w.shared
  | .leaving c rest => (∀ u c, ¬ w.kernel.Calling u c) ∧ w.kernel.returned c ≠ [] ∧
      (∃ h cpu, ∀ store ∈ rest, store ∈ Astack.stamp h cpu) ∧
      ∃ a, w.written c = some a ∧ a.Agree w.shared
  | .fields c count => (∀ u c, ¬ w.kernel.Calling u c) ∧ w.kernel.returned c ≠ [] ∧
      ∃ a, w.written c = some a ∧ a.Agree w.shared ∧
        ∀ i, i < count → i < 12 → i ≠ 7 → buffer.word i = a.word i
  | .response c size count => (∀ u c, ¬ w.kernel.Calling u c) ∧ w.kernel.returned c ≠ [] ∧
      ∃ a, w.written c = some a ∧ a.Agree w.shared ∧ size = a.responseSize ∧
        (∀ i, i < 12 → i ≠ 7 → buffer.word i = a.word i) ∧
        ∀ i, i < count → buffer.payload i = a.payload i

/-- What holds as long as one thread at a time is in `lrpc_invoke`. -/
structure Sound (w : World) : Prop where
  kernel : w.kernel.Sound
  single : ∀ t t', (w.invocations t).isSome = true → (w.invocations t').isSome = true → t = t'
  busy : ∀ t, (w.invocations t).isSome = true → w.busy = 1
  calling : ∀ t c, w.kernel.Calling t c → ∃ buffer, w.invocations t = some ⟨buffer, .inside c⟩
  serving : ∀ t c, w.serving t = some c → w.kernel.channel.callPending = true ∧
    c = w.kernel.last ∧ w.kernel.channel.shadowOwner = some t
  unseen : w.kernel.channel.callPending = true → (∀ t, w.serving t = none) →
    ∃ call, w.passed w.kernel.last = some call ∧ call.Request w.shared
  stage : ∀ t buffer stage, w.invocations t = some ⟨buffer, stage⟩ → w.AtStage t buffer stage
  seen : ∀ c a, w.seen c = some a → c < w.kernel.accepted.length ∧
    ∃ call, w.passed c = some call ∧ call.Request a
  received : ∀ t c, w.serving t = some c → (w.seen c).isSome = true
  served : ∀ c r, w.kernel.answers c = some (.returned r) → (w.seen c).isSome = true
  back : ∀ c buffer, w.back c = some buffer → w.kernel.returned c ≠ [] ∧
    ∃ a, w.written c = some a ∧ a.Response buffer

section Steps

variable {w : World} {t : Nat} {kernel : System}

/-- The last call stays the last. -/
theorem last_like (like : w.kernel.Like kernel) : kernel.last = w.kernel.last := by
  simp only [System.last, like.accepted]

variable {buffer : Astack} {serving : Nat → Option Nat} {stage : Stage}

/-- What holds at a stage is about its call only. -/
theorem AtStage.frame (returned : kernel.returned = w.kernel.returned)
    (calling : ∀ u c, kernel.Calling u c ↔ w.kernel.Calling u c) (here : w.AtStage t buffer stage) :
    { w with kernel := kernel, serving := serving }.AtStage t buffer stage := by
  have silent (none : ∀ u c, ¬ w.kernel.Calling u c) (u c : Nat) : ¬ kernel.Calling u c :=
    fun calls => none u c ((calling u c).mp calls)
  cases stage with
  | filling rest => exact ⟨silent here.1, here.2⟩
  | inside c => exact ⟨(calling t c).mpr here.1, here.2⟩
  | leaving | fields | response => exact ⟨silent here.1, by rw [returned]; exact here.2.1, here.2.2⟩

/-- The kernel takes a step that leaves the calls and what they returned alone. -/
theorem Sound.frame (sound : w.Sound) (next : kernel.Sound)
    (accepted : kernel.accepted = w.kernel.accepted)
    (returned : kernel.returned = w.kernel.returned)
    (calling : ∀ u c, kernel.Calling u c ↔ w.kernel.Calling u c)
    (serves : ∀ u c, serving u = some c → kernel.channel.callPending = true ∧ c = kernel.last ∧
      kernel.channel.shadowOwner = some u)
    (received : ∀ u c, serving u = some c → (w.seen c).isSome = true)
    (served : ∀ c r, kernel.answers c = some (.returned r) → (w.seen c).isSome = true)
    (unseen : kernel.channel.callPending = true → (∀ u, serving u = none) →
      ∃ call, w.passed kernel.last = some call ∧ call.Request w.shared) :
    { w with kernel := kernel, serving := serving }.Sound :=
  { sound with
    kernel := next
    calling := fun u c calls => sound.calling u c ((calling u c).mp calls)
    serving := serves
    received := received
    served := served
    unseen := unseen
    stage := fun u buffer stage found => (sound.stage u buffer stage found).frame returned calling
    seen := fun c a found => by
      show c < kernel.accepted.length ∧ _
      rw [accepted]
      exact sound.seen c a found
    back := fun c buffer found => by
      show kernel.returned c ≠ [] ∧ _
      rw [returned]
      exact sound.back c buffer found }

/-- Kernel steps that change no call. -/
theorem Sound.like (sound : w.Sound) (like : w.kernel.Like kernel) (next : kernel.Sound) :
    { w with kernel := kernel }.Sound := by
  refine sound.frame next like.accepted like.returned like.calling (fun u c serves => ?_)
    sound.received (like.answers ▸ sound.served) fun pending none => ?_
  · obtain ⟨pending, number, owns⟩ := sound.serving u c serves
    exact ⟨like.pending.trans pending, number.trans (last_like like).symm, like.owner u owns⟩
  · rw [last_like like]
    exact sound.unseen (like.pending.symm.trans pending) none

section

variable {buffer : Astack} {stage : Stage} (others : ∀ u ≠ t, w.invocations u = none)
include others

/-- A thread that moves while no other is in `lrpc_invoke` is the only one in it. -/
theorem move_only {u : Nat} {invocation : Invocation}
    (found : (w.move t buffer stage).invocations u = some invocation) :
    u = t ∧ invocation = ⟨buffer, stage⟩ := by
  simp only [move, update_apply] at found
  split at found
  case isTrue here => exact ⟨here, (Option.some.inj found).symm⟩
  case isFalse other =>
    rw [others u other] at found
    contradiction

/-- One thread is in `lrpc_invoke`. -/
theorem move_single (u u' : Nat) (one : ((w.move t buffer stage).invocations u).isSome = true)
    (two : ((w.move t buffer stage).invocations u').isSome = true) : u = u' := by
  obtain ⟨_, one⟩ := isSome_iff_exists.mp one
  obtain ⟨_, two⟩ := isSome_iff_exists.mp two
  exact (move_only others one).1.trans (move_only others two).1.symm

end

section

variable (sound : w.Sound)
include sound

/-- A thread in `lrpc_invoke` is the only one. -/
theorem Sound.only (inside : (w.invocations t).isSome = true) (u : Nat) (other : u ≠ t) :
    w.invocations u = none := by
  by_contra some
  exact other (sound.single u t (isSome_iff_ne_none.mpr some) inside)

/-- A thread leaves `lrpc_invoke`. -/
theorem Sound.leave (inside : (w.invocations t).isSome = true)
    (silent : ∀ u c, ¬ w.kernel.Calling u c) : (w.leave t).Sound := by
  have empty (u : Nat) : (w.leave t).invocations u = none := by
    simp only [World.leave, update_apply]
    split
    case isTrue => rfl
    case isFalse other => exact sound.only inside u other
  exact { sound with
    single := fun u u' some => by
      rw [empty] at some
      contradiction
    busy := fun u some => by
      rw [empty] at some
      contradiction
    calling := fun u c calls => absurd calls (silent u c)
    stage := fun u buffer stage found => by
      rw [empty] at found
      contradiction }

/-- Without callers no call is pending. -/
theorem Sound.idle (silent : ∀ u c, ¬ w.kernel.Calling u c) :
    w.kernel.channel.callPending ≠ true := by
  intro pending
  obtain ⟨⟨v, d, calls⟩, -⟩ := sound.kernel.pending pending
  exact silent v d calls

/-- Without a pending call nothing is served. -/
theorem Sound.unserved (idle : w.kernel.channel.callPending ≠ true) (u : Nat) :
    w.serving u = none := by
  by_contra some
  obtain ⟨c, serves⟩ := ne_none_iff_exists'.mp some
  exact idle (sound.serving u c serves).1

/-- Only the shadow of the channel serves a call. -/
theorem Sound.serving_update (owns : w.kernel.channel.shadowOwner = some t) (u : Nat) :
    update w.serving t none u = none := by
  rw [update_apply]
  split
  case isTrue => rfl
  case isFalse other =>
    by_contra some
    obtain ⟨c, serves⟩ := ne_none_iff_exists'.mp some
    exact other (Option.some.inj ((sound.serving u c serves).2.2.symm.trans owns))

/-- The thread in `lrpc_invoke` moves on while nobody is calling. -/
theorem Sound.share (inside : (w.invocations t).isSome = true)
    (silent : ∀ u c, ¬ w.kernel.Calling u c) {shared : Astack}
    (next : { w.move t buffer stage with shared := shared }.AtStage t buffer stage) :
    { w.move t buffer stage with shared := shared }.Sound :=
  { sound with
    single := move_single (sound.only inside)
    busy := fun _ _ => sound.busy t inside
    calling := fun u c calls => absurd calls (silent u c)
    unseen := fun pending => absurd pending (sound.idle silent)
    stage := fun u buffer' stage' found => by
      obtain ⟨rfl, same⟩ := move_only (sound.only inside) found
      cases same
      exact next }

/-- A thread enters `lrpc_invoke`. -/
theorem Sound.invoke (alone : w.busy = 0) (call : Astack) (pid cpu : BitVec 64) :
    (w.invoke t call pid cpu).Sound := by
  have empty (u : Nat) : w.invocations u = none := by
    by_contra some
    have busy := sound.busy u (isSome_iff_ne_none.mpr some)
    omega
  have silent (u c : Nat) : ¬ w.kernel.Calling u c := by
    intro calls
    obtain ⟨buffer, found⟩ := sound.calling u c calls
    rw [empty] at found
    contradiction
  simp only [World.invoke]
  split
  case isTrue => exact sound
  case isFalse =>
    exact { sound with
      single := move_single fun u _ => empty u
      busy := fun u _ => by rw [alone]
      calling := fun u c calls => absurd calls (silent u c)
      stage := fun u buffer stage found => by
        obtain ⟨rfl, same⟩ := move_only (fun u _ => empty u) found
        cases same
        exact ⟨silent, Astack.request_fill w.shared call pid cpu⟩ }

/-- The thread in `lrpc_invoke` has filled the A-stack and calls. -/
theorem Sound.call (found : w.invocations t = some ⟨buffer, .filling []⟩) (now : BitVec 64) :
    (w.call t buffer now).Sound := by
  have inside : (w.invocations t).isSome = true := by rw [found]; rfl
  obtain ⟨silent, request⟩ := sound.stage t buffer _ found
  have request : buffer.Request w.shared := request
  have returned (c : Nat) (bound : c < w.kernel.accepted.length) : w.kernel.returned c ≠ [] := by
    intro none
    obtain ⟨u, calls⟩ := sound.kernel.complete c bound none
    exact silent u c calls
  simp only [World.call]
  rcases w.kernel.call_cases t true now with same | ⟨shadow, procedure, owns, apart, idle, accepted⟩
  · rw [same, if_pos rfl]
    exact sound.leave inside silent
  · have length : (w.kernel.accept t shadow procedure now).accepted.length =
        w.kernel.accepted.length + 1 := by
      simp [System.accept, System.wake, System.setTask]
    have number : (w.kernel.accept t shadow procedure now).last = w.kernel.accepted.length := by
      simp only [System.last, length, Nat.add_sub_cancel]
    have next : (w.kernel.accept t shadow procedure now).Sound :=
      sound.kernel.accept returned owns apart
    have other : t ≠ shadow := by
      rintro rfl
      exact apart (sound.kernel.owner t owns).1.symm
    have calling (u c : Nat) : (w.kernel.accept t shadow procedure now).Calling u c ↔
        u = t ∧ c = w.kernel.accepted.length := System.accept_calling silent other u c
    have fresh := sound.kernel.fresh w.kernel.accepted.length (Nat.le_refl _)
    rw [accepted, if_neg (by rw [length]; omega), number]
    refine
      { kernel := next
        single := move_single (sound.only inside)
        busy := fun u _ => sound.busy t inside
        calling := fun u c calls => ?_
        serving := fun u c serves => ?_
        unseen := fun _ _ => ?_
        stage := fun u buffer' stage' found' => ?_
        seen := fun c a seen => ?_
        received := sound.received
        served := sound.served
        back := fun c buffer' came => ?_ }
    · obtain ⟨rfl, rfl⟩ := (calling u c).mp calls
      exact ⟨buffer, update_self ..⟩
    · cases (sound.unserved (sound.idle silent) u).symm.trans serves
    · refine ⟨buffer, ?_, request⟩
      show update w.passed _ _ (w.kernel.accept t shadow procedure now).last = _
      rw [number, update_self]
    · obtain ⟨rfl, same⟩ := move_only (sound.only inside) found'
      cases same
      exact ⟨(calling u _).mpr ⟨rfl, rfl⟩, update_self ..⟩
    · obtain ⟨bound, call, passed, fits⟩ := sound.seen c a seen
      refine ⟨?_, call, ?_, fits⟩
      · show c < (w.kernel.accept t shadow procedure now).accepted.length
        omega
      · exact (update_of_ne (Nat.ne_of_lt bound) _ _).trans passed
    · obtain ⟨done, a, written, response⟩ := sound.back c buffer' came
      refine ⟨done, a, ?_, response⟩
      refine (update_of_ne ?_ _ _).trans written
      rintro rfl
      exact done fresh.2.2

/-- A caller is resumed. -/
theorem Sound.resume {c : Nat} (found : w.invocations t = some ⟨buffer, .inside c⟩)
    {cpu now : BitVec 64} (stepped : w.kernel.step (.resume t true now) = some kernel) :
    (w.resume t buffer c cpu kernel).Sound := by
  have inside : (w.invocations t).isSome = true := by rw [found]; rfl
  obtain ⟨calls, written⟩ := sound.stage t buffer _ found
  have alone : w.kernel.Alone (.resume t true now) := trivial
  have next := sound.kernel.step alone stepped
  have phase : (w.kernel.tasks t).phase = .calling c := calls
  have done : kernel = w.kernel.resume t c true now := by
    simp only [System.step, phase] at stepped
    split at stepped
    case h_1 call _ same _ =>
      cases stepped
      cases same
      rfl
    case h_2 => contradiction
  subst done
  rcases w.kernel.resume_cases (t := t) c now with ⟨pending, like⟩ | facts
  · have still : ((w.kernel.resume t c true now).tasks t).phase = .calling c :=
      (like.calling t c).mpr calls
    rw [World.resume, if_pos still]
    exact sound.like like next
  · obtain ⟨idle, accepted, idle', answers, done, older, calling⟩ := facts
    have silent (u d : Nat) : ¬ (w.kernel.resume t c true now).Calling u d := by
      intro calls'
      obtain ⟨other, calls'⟩ := (calling u d).mp calls'
      exact other (sound.kernel.single u t d c calls' calls)
    have gone : ¬ ((w.kernel.resume t c true now).tasks t).phase = .calling c := silent t c
    rw [World.resume, if_neg gone]
    refine
      { kernel := next
        single := move_single (sound.only inside)
        busy := fun u _ => sound.busy t inside
        calling := fun u d calls' => absurd calls' (silent u d)
        serving := fun u d serves => by cases (sound.unserved (by simp [idle]) u).symm.trans serves
        unseen := fun pending => absurd (idle'.symm.trans pending) (by decide)
        stage := fun u buffer' stage' found' => ?_
        seen := fun d a seen => ?_
        received := sound.received
        served := answers ▸ sound.served
        back := fun d buffer' came => ?_ }
    · obtain ⟨rfl, same⟩ := move_only (sound.only inside) found'
      cases same
      exact ⟨silent, done, ⟨_, cpu, fun _ => id⟩, w.shared, written, fun _ _ _ => rfl, rfl⟩
    · show d < (w.kernel.resume t c true now).accepted.length ∧ _
      rw [accepted]
      exact sound.seen d a seen
    · obtain ⟨returned, rest⟩ := sound.back d buffer' came
      exact ⟨older d returned, rest⟩

/-- A caller loads a field of the answer. -/
theorem Sound.load {w' : World}
    (found : w.invocations t = some ⟨buffer, stage⟩) (stepped : w.load t buffer stage = some w') :
    w'.Sound := by
  have inside : (w.invocations t).isSome = true := by rw [found]; rfl
  have here := sound.stage t buffer stage found
  cases stage with
  | filling rest => exact (nomatch stepped)
  | inside c => exact (nomatch stepped)
  | leaving c rest =>
    obtain ⟨silent, done, -, a, written, agree⟩ := here
    cases rest with
    | cons store rest => exact (nomatch stepped)
    | nil =>
      simp only [World.load] at stepped
      split at stepped
      case isTrue =>
        cases stepped
        exact sound.leave inside silent
      case isFalse =>
        cases stepped
        refine sound.share inside silent ?_
        exact ⟨silent, done, a, written, agree, fun i none => absurd none (Nat.not_lt_zero i)⟩
  | fields c count =>
    obtain ⟨silent, done, a, written, agree, loaded⟩ := here
    simp only [World.load] at stepped
    split at stepped
    case isTrue bound =>
      cases stepped
      refine sound.share inside silent ?_
      refine ⟨silent, done, a, written, agree, fun i next small seven => ?_⟩
      by_cases same : i = count
      · rw [same]
        exact (update_self _ _ _).trans (agree.fields count (same ▸ small) (same ▸ seven))
      · exact (update_of_ne same _ _).trans (loaded i (by omega) small seven)
    case isFalse bound =>
      cases stepped
      refine sound.share inside silent ?_
      refine ⟨silent, done, a, written, agree, ?_, fun i small => loaded i (by omega) small,
        fun i none => absurd none (Nat.not_lt_zero i)⟩
      exact congrArg BitVec.toNat (agree.fields 3 (by decide) (by decide))
  | response c size count =>
    obtain ⟨silent, done, a, written, agree, rfl, fields, loaded⟩ := here
    simp only [World.load] at stepped
    split at stepped
    case isTrue bound =>
      cases stepped
      refine sound.share inside silent ?_
      refine ⟨silent, done, a, written, agree, rfl, fields, fun i next => ?_⟩
      by_cases same : i = count
      · rw [same]
        exact (update_self _ _ _).trans (congrFun agree.payload count)
      · exact (update_of_ne same _ _).trans (loaded i (by omega))
    case isFalse bound =>
      cases stepped
      have left := sound.leave inside silent
      refine { left with back := fun d buffer' came => ?_ }
      have came : update w.back c (some buffer) d = some buffer' := came
      rw [update_apply] at came
      split at came
      case isTrue same =>
        cases came
        subst same
        exact ⟨done, a, written, fields, fun i small => loaded i (by omega)⟩
      case isFalse => exact sound.back d buffer' came

end

/-- Nothing is received. -/
theorem receive_same (same : kernel.received w.kernel.last = w.kernel.received w.kernel.last) :
    w.receive t kernel = { w with kernel := kernel } :=
  if_pos same

section

variable (sound : w.Sound)
include sound

/-- A shadow waits for a call. -/
theorem Sound.receive (here : (w.kernel.tasks t).phase = phase)
    (outside : ∀ c, phase ≠ .calling c) {now : BitVec 64} (idle : w.serving t = none) :
    (w.receive t (w.kernel.wait t true now)).Sound := by
  have next : (w.kernel.wait t true now).Sound :=
    sound.kernel.wait (System.not_calling_of_phase here outside) true now
  obtain ⟨like, same | ⟨owns, pending, new⟩⟩ := System.wait_cases here outside now
  · rw [receive_same same]
    exact sound.like like next
  · rw [World.receive, if_neg new]
    have none (u : Nat) : w.serving u = none := by
      have cleared := sound.serving_update owns u
      rwa [Function.update_eq_self_iff.mpr idle.symm] at cleared
    obtain ⟨call, passed, request⟩ := sound.unseen pending none
    have liked := sound.like like next
    have kept (c : Nat) (seen : (w.seen c).isSome = true) :
        (update w.seen w.kernel.last (some w.shared) c).isSome = true := by
      rw [update_apply]
      split
      case isTrue => rfl
      case isFalse => exact seen
    refine { liked with
      serving := fun u c serves => ?_
      unseen := fun _ unserved => ?_
      stage := fun u buffer stage found => ?_
      seen := fun c a seen => ?_
      received := fun u c serves => ?_
      served := fun c r answer => kept c (liked.served c r answer) }
    · have serves : update w.serving t (some w.kernel.last) u = some c := serves
      rw [update_apply] at serves
      split at serves
      case isTrue same =>
        cases serves
        subst same
        exact ⟨like.pending.trans pending, (last_like like).symm, like.owner u owns⟩
      case isFalse =>
        rw [none] at serves
        contradiction
    · exact absurd ((update_self t (some w.kernel.last) w.serving).symm.trans (unserved t))
        nofun
    · have held := liked.stage u buffer stage found
      cases stage <;> exact held
    · have seen : update w.seen w.kernel.last (some w.shared) c = some a := seen
      rw [update_apply] at seen
      split at seen
      case isFalse => exact liked.seen c a seen
      case isTrue same =>
        cases seen
        subst same
        refine ⟨?_, call, passed, request⟩
        show w.kernel.last < (w.kernel.wait t true now).accepted.length
        rw [like.accepted]
        obtain ⟨-, -, -, latest, -⟩ := sound.kernel.caller pending
        omega
    · have serves : update w.serving t (some w.kernel.last) u = some c := serves
      rw [update_apply] at serves
      split at serves
      case isTrue =>
        cases serves
        show (update w.seen w.kernel.last (some w.shared) w.kernel.last).isSome = true
        rw [update_self]
        rfl
      case isFalse =>
        rw [none] at serves
        contradiction

/-- A shadow stores to the buffer. -/
theorem Sound.serve {c : Nat} (serves : w.serving t = some c)
    (store : Astack.Store) : (w.serve c store).Sound := by
  obtain ⟨pending, rfl, owns⟩ := sound.serving t c serves
  obtain ⟨v, calls, -, -, opened⟩ := sound.kernel.caller pending
  obtain ⟨buffer, found⟩ := sound.calling v _ calls
  refine { sound with
    unseen := fun _ none => absurd ((none t).symm.trans serves) fun wrong => by cases wrong
    stage := fun u buffer' stage found' => ?_
    back := fun e buffer' came => ?_ }
  · -- The thread in `lrpc_invoke` is the caller of the call that is served.
    have found' : w.invocations u = some ⟨buffer', stage⟩ := found'
    have same : u = v := sound.single u v (by rw [found']; rfl) (by rw [found]; rfl)
    subst same
    rw [found] at found'
    cases found'
    exact ⟨calls, update_self ..⟩
  · obtain ⟨returned, a, written, response⟩ := sound.back e buffer' came
    refine ⟨returned, a, (update_of_ne ?_ _ _).trans written, response⟩
    rintro rfl
    exact returned opened

/-- The pending call is answered. -/
theorem Sound.answered (next : kernel.Sound) (accepted : kernel.accepted = w.kernel.accepted)
    (idle : kernel.channel.callPending = false) (returned : kernel.returned = w.kernel.returned)
    (calling : ∀ u c, kernel.Calling u c ↔ w.kernel.Calling u c)
    (served : ∀ c r, kernel.answers c = some (.returned r) → (w.seen c).isSome = true)
    (unserved : ∀ u, serving u = none) :
    { w with kernel := kernel, serving := serving }.Sound :=
  sound.frame next accepted returned calling
    (fun u c serves => absurd ((unserved u).symm.trans serves) nofun)
    (fun u c serves => absurd ((unserved u).symm.trans serves) nofun) served
    fun pending => absurd (idle.symm.trans pending) (by decide)

/-- A shadow returns. -/
theorem Sound.ret {c : Nat} (serves : w.serving t = some c) {result : BitVec 32}
    {now : BitVec 64} (stepped : w.kernel.step (.ret t result true now) = some kernel) :
    { w with kernel := kernel, serving := update w.serving t none }.Sound := by
  obtain ⟨pending, rfl, owns⟩ := sound.serving t c serves
  have alone : w.kernel.Alone (.ret t result true now) := trivial
  have next := sound.kernel.step alone stepped
  obtain ⟨here, done⟩ := ite_none_right_eq_some.mp stepped
  have apart := System.not_calling_of_phase here.1 fun _ => nofun
  rcases sound.kernel.ret_cases apart done with ⟨-, idle⟩ | ⟨-, -, answered⟩
  · exact absurd ⟨rfl, owns, pending⟩ idle
  · refine sound.answered next answered.accepted answered.pending answered.returned answered.calling
      (fun d r answer => ?_) (sound.serving_update owns)
    rw [answered.answers, update_apply] at answer
    split at answer
    case isTrue same => exact same ▸ sound.received t _ serves
    case isFalse => exact sound.served d r answer

/-- A shadow goes away. -/
theorem Sound.release (stepped : w.kernel.step (.release t) = some kernel) :
    { w with kernel := kernel, serving := update w.serving t none }.Sound := by
  have alone : w.kernel.Alone (.release t) := trivial
  have next := sound.kernel.step alone stepped
  obtain ⟨here, ⟨⟩⟩ := ite_none_right_eq_some.mp stepped
  by_cases owns : w.kernel.channel.shadowOwner = some t
  · have released : w.kernel.release t = w.kernel.unregister.setTask t
        { w.kernel.unregister.tasks t with role := .none, bound := none } := by
      simp only [System.release, if_pos owns]
    have ended : w.kernel.unregister.accepted = w.kernel.accepted ∧
        w.kernel.unregister.channel.callPending = false ∧
        w.kernel.unregister.returned = w.kernel.returned ∧
        ∀ c r, w.kernel.unregister.answers c = some (.returned r) →
          w.kernel.answers c = some (.returned r) := by
      rcases sound.kernel.unregister_cases with ⟨idle, unchanged⟩ | ⟨-, answered⟩
      · rw [unchanged]
        exact ⟨rfl, idle, rfl, fun _ _ => id⟩
      · refine ⟨answered.accepted, answered.pending, answered.returned, fun c r answer => ?_⟩
        rw [answered.answers, update_apply] at answer
        split at answer
        case isTrue => cases answer
        case isFalse => exact answer
    have like : w.kernel.unregister.Like (w.kernel.unregister.setTask t
        { w.kernel.unregister.tasks t with role := .none, bound := none }) :=
      System.like_setTask fun _ => Iff.rfl
    rw [released] at next ⊢
    exact sound.answered next ended.1 ended.2.1 ended.2.2.1
      (fun u c => (like.calling u c).trans (sound.kernel.unregister_calling u c))
      (fun c r answer => sound.served c r (ended.2.2.2 c r answer)) (sound.serving_update owns)
  · have released : w.kernel.release t = w.kernel.setTask t
        { w.kernel.tasks t with role := .none, bound := none } := by
      simp only [System.release, if_neg owns]
    have same : update w.serving t none = w.serving := by
      apply Function.update_eq_self_iff.mpr
      by_contra some
      obtain ⟨d, serves⟩ := ne_none_iff_exists'.mp (Ne.symm some)
      exact owns (sound.serving t d serves).2.2
    rw [same, released]
    rw [released] at next
    exact sound.like (System.like_setTask fun _ => Iff.rfl) next

/-- A step keeps the invariant as long as one thread at a time is in `lrpc_invoke`. -/
theorem Sound.step {label : WorldLabel} (alone : w.Alone label) {w' : World}
    (stepped : w.step label = some w') : w'.Sound := by
  cases label with
  | setup label =>
    obtain ⟨setup, stepped⟩ := ite_none_right_eq_some.mp stepped
    obtain ⟨kernel, done, rfl⟩ := map_eq_some_iff.mp stepped
    refine sound.like (System.like_setup setup done) (sound.kernel.step ?_ done)
    cases label with
    | call => exact (nomatch setup)
    | _ => trivial
  | invoke t call pid cpu =>
    obtain ⟨-, ⟨⟩⟩ := ite_none_left_eq_some.mp stepped
    exact sound.invoke alone call pid cpu
  | store t =>
    simp only [World.step] at stepped
    split at stepped
    case h_1 buffer store rest found =>
      cases stepped
      obtain ⟨silent, request⟩ := sound.stage t buffer _ found
      exact sound.share (by rw [found]; rfl) silent ⟨silent, request⟩
    case h_2 buffer c store rest found =>
      cases stepped
      obtain ⟨silent, done, ⟨h, cpu, stamps⟩, a, written, agree⟩ := sound.stage t buffer _ found
      refine sound.share (by rw [found]; rfl) silent ⟨silent, done, ?_, a, written, ?_⟩
      · exact ⟨h, cpu, fun other member => stamps other (mem_cons_of_mem _ member)⟩
      · exact Astack.agree_stamp agree (stamps store mem_cons_self)
    case h_3 => contradiction
  | call t now =>
    simp only [World.step] at stepped
    split at stepped
    case h_1 buffer found =>
      obtain ⟨-, ⟨⟩⟩ := ite_none_right_eq_some.mp stepped
      exact sound.call found now
    case h_2 => contradiction
  | resume t cpu now =>
    simp only [World.step] at stepped
    split at stepped
    case h_1 buffer c found =>
      obtain ⟨kernel, done, rfl⟩ := map_eq_some_iff.mp stepped
      exact sound.resume found done
    case h_2 => contradiction
  | load t =>
    obtain ⟨invocation, found, stepped⟩ := bind_eq_some_iff.mp stepped
    exact sound.load found stepped
  | waitCall t now =>
    obtain ⟨idle, stepped⟩ := ite_none_left_eq_some.mp stepped
    obtain ⟨kernel, done, rfl⟩ := map_eq_some_iff.mp stepped
    have idle : w.serving t = none := by simpa using idle
    obtain ⟨here, done⟩ := ite_none_right_eq_some.mp done
    split at done
    case isTrue =>
      cases done
      rw [receive_same rfl]
      exact sound
    case isFalse =>
      obtain ⟨-, ⟨⟩⟩ := ite_none_left_eq_some.mp done
      exact sound.receive here (fun _ => nofun) idle
  | waitAgain t now =>
    obtain ⟨idle, stepped⟩ := ite_none_left_eq_some.mp stepped
    obtain ⟨kernel, done, rfl⟩ := map_eq_some_iff.mp stepped
    have idle : w.serving t = none := by simpa using idle
    have waits : w.kernel.Alone (.waitAgain t true now) := trivial
    have next := sound.kernel.step waits done
    obtain ⟨here, done⟩ := ite_none_right_eq_some.mp done
    split at done
    case isTrue =>
      have like : w.kernel.Like kernel ∧ kernel.received = w.kernel.received := by
        cases done
        exact ⟨System.like_setOther here.1 (fun _ => nofun) fun _ => nofun, rfl⟩
      rw [receive_same (congrFun like.2 _)]
      exact sound.like like.1 next
    case isFalse =>
      cases done
      exact sound.receive here.1 (fun _ => nofun) idle
  | serve t store =>
    obtain ⟨c, serves, ⟨⟩⟩ := bind_eq_some_iff.mp stepped
    exact sound.serve serves store
  | ret t result now =>
    obtain ⟨serves, stepped⟩ := ite_none_right_eq_some.mp stepped
    obtain ⟨kernel, done, rfl⟩ := map_eq_some_iff.mp stepped
    obtain ⟨c, serves⟩ := isSome_iff_exists.mp serves
    exact sound.ret serves done
  | retEnd t restart now =>
    obtain ⟨kernel, done, rfl⟩ := map_eq_some_iff.mp stepped
    have waits : w.kernel.Alone (.retEnd t restart true now) := trivial
    have next := sound.kernel.step waits done
    obtain ⟨task, quiet, rfl | ⟨signalled, again, pending, -⟩⟩ := sound.kernel.retEnd_cases done
    · exact sound.like (System.like_setTask quiet.calling) next
    · exact absurd (pending.symm.trans (alone signalled again)) (by decide)
  | release t =>
    obtain ⟨-, stepped⟩ := ite_none_left_eq_some.mp stepped
    obtain ⟨kernel, done, rfl⟩ := map_eq_some_iff.mp stepped
    exact sound.release done

end

end Steps

/-- The start is sound. -/
theorem start_sound (mm : Nat → Nat) : (World.start mm).Sound where
  kernel := System.start_sound mm
  single _ _ some := (nomatch some)
  busy _ some := (nomatch some)
  calling _ _ calls := (nomatch calls)
  serving _ _ serves := (nomatch serves)
  unseen pending := (nomatch pending)
  stage _ _ _ found := (nomatch found)
  seen _ _ found := (nomatch found)
  received _ _ serves := (nomatch serves)
  served _ _ answer := (nomatch answer)
  back _ _ found := (nomatch found)

/-- What soundness says of requests and answers. -/
theorem Sound.intact {w : World} (sound : w.Sound) : w.Intact where
  served := sound.served
  request c a seen := (sound.seen c a seen).2
  untouched t c serves := by
    obtain ⟨pending, rfl, -⟩ := sound.serving t c serves
    obtain ⟨v, calls, -⟩ := sound.kernel.caller pending
    obtain ⟨buffer, found⟩ := sound.calling v _ calls
    exact (sound.stage v buffer _ found).2
  response c buffer came := (sound.back c buffer came).2

/-- In every run in which one thread at a time is in `lrpc_invoke` and no interrupted `RETURN` is
executed again while a call is pending, requests and responses arrive as they were written. -/
theorem astack_intact {mm : Nat → Nat} {labels : List WorldLabel} {w : World}
    (alone : Machine.Admits Alone step (start mm) labels)
    (run : Machine.run step (start mm) labels = some w) : w.Intact :=
  (Machine.run_admitted Sound (fun _ _ _ sound alone stepped => sound.step alone stepped) alone
    (start_sound mm) run).intact

end World

namespace Sample

def request (byte : BitVec 8) : Astack where
  word i := if i = 2 then 1 else 0
  payload _ := byte

/-- A shadow that waits for a call, and two callers. -/
def ready : List WorldLabel := threads.map .setup ++ [.waitCall 0 1]

/-- A caller fills the A-stack. -/
def fills (t : Nat) (byte : BitVec 8) : List WorldLabel :=
  .invoke t (request byte) 0 1 :: List.replicate 16 (.store t)

/-- A caller is served: the service answers with one byte. -/
def serves (t : Nat) : List WorldLabel :=
  [.call t 2, .waitAgain 0 3, .serve 0 (.byte 0 0x55), .serve 0 (.word 3 1), .ret 0 0 4,
    .resume t 1 5] ++ List.replicate 5 (.store t) ++ List.replicate 16 (.load t)

/-- One caller after the other. -/
def oneByOne : List WorldLabel := ready ++ fills 1 0xaa ++ serves 1 ++ fills 2 0xbb

/-- The second caller fills the A-stack before the first one calls. -/
def both : List WorldLabel := ready ++ fills 1 0xaa ++ fills 2 0xbb ++ [.call 1 2, .waitAgain 0 3]

/-- The shadow is interrupted in `RETURN`, which is executed again while the call of the second
caller is pending. -/
def repeated : List WorldLabel :=
  oneByOne ++ [.setup (.signal 0), .call 2 6, .retEnd 0 true 7]

/-- Callers that take turns get what is theirs. -/
theorem astack_intact_oneByOne :
    ∃ w, Machine.run World.step (World.start id) oneByOne = some w ∧
      (w.back 0).any (fun buffer => buffer.payload 0 == 0x55) = true ∧ w.Intact := by
  obtain ⟨w, reached, came⟩ : ∃ w, Machine.run World.step (World.start id) oneByOne = some w ∧
      (w.back 0).any (fun buffer => buffer.payload 0 == 0x55) = true := by decide +kernel
  exact ⟨w, reached, came, World.astack_intact (by decide +kernel) reached⟩

/-- The service of the first call sees the request of the second caller. In the other run one caller
follows the other, and the second call is answered with the result of the first, unserved. -/
theorem request_overwritten :
    (∃ w, Machine.run World.step (World.start id) both = some w ∧ ¬ w.Intact) ∧
    ∃ w, Machine.run World.step (World.start id) repeated = some w ∧
      w.kernel.answers 1 = some (.returned 0) ∧ ¬ w.Intact := by
  constructor
  · obtain ⟨w, reached, a, seen, byte, call, passed, own⟩ : ∃ w,
        Machine.run World.step (World.start id) both = some w ∧
        ∃ a, w.seen 0 = some a ∧ a.payload 0 = 0xbb ∧
          ∃ call, w.passed 0 = some call ∧ call.payload 0 = 0xaa ∧ call.requestSize = 1 := by
      decide +kernel
    refine ⟨w, reached, fun intact => ?_⟩
    obtain ⟨call', passed', fits⟩ := intact.request 0 a seen
    rw [passed] at passed'
    cases passed'
    have same := fits.bytes 0 (by rw [own.2]; decide)
    rw [byte, own.1] at same
    exact absurd same (by decide)
  · obtain ⟨w, reached, answer, unseen⟩ : ∃ w,
        Machine.run World.step (World.start id) repeated = some w ∧
        w.kernel.answers 1 = some (.returned 0) ∧ (w.seen 1).isSome = false := by
      decide +kernel
    refine ⟨w, reached, answer, fun intact => ?_⟩
    exact absurd (unseen.symm.trans (intact.served 1 0 answer)) (by decide)

end Sample

end UbApplication.Lrpc
