import UbApplication.UbDomain.Isolation

/-!
# When domains are entered

A run of ioctls enters a domain only in a session that a commit has admitted and that no call has
taken back since. What the commit admitted is then still in the code pages. A preparation that
fails leaves nothing behind.
-/

namespace UbApplication.UbDomain

open Fallible OpenSession

/-! ## Answers of a run -/

def Label.answer (label : Label) (s : OpenSession) : Option Answer :=
  ioctl label.env label.request (label.device s)

/-- The ioctl enters a domain: it has no answer when domains are given no instructions. -/
def Label.Enters (label : Label) (s : OpenSession) : Prop :=
  ioctl { label.env with fuel := 0 } label.request (label.device s) = none

instance (label : Label) (s : OpenSession) : Decidable (label.Enters s) :=
  decidable_of_iff (ioctl { label.env with fuel := 0 } label.request (label.device s)).isNone
    (by simp [Label.Enters])

/-- A step and its answer. -/
theorem step_eq_some_iff {label : Label} {s t : OpenSession} :
    s.step label = some t ↔ ∃ a, label.answer s = some a ∧ a.dev.s = t :=
  Option.map_eq_some_iff

section Without

variable {session : Session} {checks : Checks} {imported : Imported} {call : Call} {mapped : Bool}
  {env : Environment} {dev : Device}

namespace Session

/-- A call enters committed sessions only. -/
theorem udRun_committed (entered : session.udRun 0 checks imported call mapped = none) :
    session.committed = true := by
  simp only [udRun] at entered
  split at entered
  case isTrue => contradiction
  case isFalse =>
    split at entered
    case isTrue => contradiction
    case isFalse accepted =>
      simp only [callRejected, Bool.or_eq_true, not_or, Bool.not_eq_true,
        Bool.not_eq_false'] at accepted
      exact accepted.1.1.1.1.1

end Session

/-- So does one on the device. -/
theorem runDevice_committed (entered : runDevice { env with fuel := 0 } call mapped dev = none) :
    dev.s.session.committed = true := by
  simp only [runDevice, Option.map_eq_none_iff] at entered
  exact Session.udRun_committed entered

/-- So does every ioctl. -/
theorem ioctl_committed {request : Request}
    (entered : ioctl { env with fuel := 0 } request dev = none) :
    dev.s.session.committed = true := by
  cases request with
  | call value copied =>
    cases value with
    | none => contradiction
    | some value => exact runDevice_committed (Option.map_eq_none_iff.mp entered)
  | traceCall value copied =>
    cases value with
    | none => contradiction
    | some value =>
      simp only [ioctl] at entered
      split at entered
      case isTrue => contradiction
      case isFalse => exact runDevice_committed (Option.map_eq_none_iff.mp entered)
  | mappedCall procedure =>
    simp only [ioctl, mappedCall] at entered
    split at entered
    case isTrue => contradiction
    case isFalse accepted => simpa using fun free => accepted (.inl free)
  | socialCall =>
    simp only [ioctl, socialCall] at entered
    split at entered
    case isTrue => contradiction
    case isFalse accepted => simpa using fun free => accepted (.inl free)
  | tlbProbe value copied =>
    simp only [ioctl, tlbProbe] at entered
    split at entered
    case isTrue => contradiction
    case isFalse accepted => simpa using accepted
  | socialExtraInfo copied =>
    simp only [ioctl] at entered
    split at entered <;> contradiction
  | _ => contradiction

end Without

/-! ## What holds at an entry -/

namespace Session

/-- The first words of a page are an image that the code mode of a session admits. -/
def Admits (session : Session) (d : Domain) (words : Words) (count : Nat) : Prop :=
  match session.codeMode with
  | .legacy => ∀ i, i < count → words i = (profileService session.profile d).getD i 0
  | .remoteVerified => remoteImageValid d words count = true
  | .remoteSocial => remoteSocialImageValid d words count = true ∧
      (d = .direct → (words 0 = remoteSocialLb3Word 0 ↔ session.socialNginxCount = 3)) ∧
      (d = .middle → words 0 = if session.remoteService = 2 then ldrHome else ldrUser)

/-- The length of the image of a domain: that of the built-in service, or the recorded one. -/
def imageLength (session : Session) (d : Domain) : Nat :=
  if session.codeMode = .legacy then (profileService session.profile d).length
  else session.remoteWords d

end Session

/-- What a domain is entered with. -/
structure EntrySound (s : OpenSession) : Prop where
  image : ∀ d, s.session.imageLength d ≠ 0 ∧
    s.session.Admits d (s.session.code (.base d)) (s.session.imageLength d)
  extra : s.hasExtras = true → ∀ e i, i < s.session.imageLength (Entry.extra e).domain →
    s.session.code (.extra e) i = s.session.code (.base (Entry.extra e).domain) i
  context : ∀ d, s.session.initial d = expectedContext s.session.profile d

section Entry

variable {seen : Import} {start s t : OpenSession}

/-- What an entry is about. -/
theorem EntrySound.congr (sound : EntrySound s) (same : t.session.image = s.session.image) :
    EntrySound t := by
  have kept : EntrySound { t with session := s.session.image } := { sound with }
  rw [← same] at kept
  exact { kept with }

/-- A commit makes entries sound. -/
theorem Admitted.entrySound (admitted : Admitted seen start s) (ready : Ready s) :
    EntrySound s := by
  obtain ⟨-, -, -, -, -, mode, service, count⟩ := core_eq admitted.core
  have length (d : Domain) : s.session.imageLength d = imageCount seen s.session d := by
    simp only [Session.imageLength, imageCount]
    by_cases legacy : s.session.codeMode = .legacy
    · simp [legacy]
    · have words := ((admitted.domains d).words legacy).1
      simp only [imageCount, legacy, ne_eq, not_false_eq_true, if_true] at words
      simp [legacy, words]
  constructor
  · intro d
    have domain := admitted.domains d
    rw [length]
    refine ⟨domain.some, ?_⟩
    have image := domain.image
    simp only [imageRefused] at image
    simp only [Session.Admits]
    cases here : s.session.codeMode with
    | legacy =>
      simp only [here, Bool.not_eq_false'] at image
      intro i inside
      exact beq_iff_eq.mp (List.all_eq_true.mp image i (List.mem_range.mpr inside))
    | remoteVerified => simpa [here] using image
    | remoteSocial =>
      have manifest := admitted.manifest (by rw [← mode, here]; decide)
      simp only [manifestMismatch, ← mode, here, if_true, Bool.or_eq_false_iff, bne_eq_false_iff_eq,
        ← count] at manifest
      simp only [here, Bool.or_eq_false_iff, Bool.and_eq_false_iff, Bool.not_eq_false',
        manifest.2.1] at image
      refine ⟨image.1.1, fun direct => ?_, fun middle => ?_⟩
      · have balancer := image.1.2.resolve_left (by simp [direct])
        simp only [bne_eq_false_iff_eq] at balancer
        have both := congrArg (· = true) balancer
        simpa using both
      · have kind := image.2.resolve_left (by simp [middle])
        simpa using kind
  · intro has e i inside
    have extra := admitted.extras has e
    have remote : s.session.codeMode ≠ .legacy := by
      simp only [hasExtras, Bool.and_eq_true, beq_iff_eq] at has
      rw [ready.social.mpr has.1]
      decide
    simp only [Session.imageLength, remote, if_false] at inside
    exact (extra.code i inside).symm
  · exact fun d => (admitted.domains d).context

/-- What a commit of verified code has admitted is what its calls rest on. -/
theorem EntrySound.verified (sound : EntrySound s) (ready : Ready s)
    (mode : s.session.codeMode = .remoteVerified) : s.session.Verified := by
  have micro := (ready.verified mode).1
  refine ⟨micro, mode, fun d => ?_, fun d => ?_⟩
  · rw [sound.context d, micro]
    rfl
  · simpa [Session.Admits, Session.imageLength, mode] using (sound.image d).2

/-- What a commit of social code has admitted is what routing rests on, over every valid
configuration. -/
theorem EntrySound.socialCommitted (sound : EntrySound s) (ready : Ready s) {heap : Words}
    (profile : s.session.profile = .social)
    (valid : usHeapValidCount heap s.session.socialNginxCount = true) :
    s.session.SocialCommitted heap := by
  have mode := ready.social.mpr profile
  have images (d : Domain) := (sound.image d).2
  have extras := sound.extra
  simp only [Session.Admits, Session.imageLength, mode] at images extras
  refine ⟨profile, (ready.topology profile).1, fun d => ?_, fun d => (images d).1,
    (images .direct).2.1 rfl, (images .middle).2.2 rfl, fun three => ?_, valid⟩
  · rw [sound.context d, profile]
    rfl
  · exact extras (by simp [hasExtras, profile, three])

end Entry

/-! ## The history of a session -/

/-- The session was prepared by an ioctl of the run, with the settings that it has. -/
structure PreparedBy (labels before : List Label) (prepare : Label) (after : List Label)
    (start s : OpenSession) : Prop where
  labels : labels = before ++ prepare :: after
  reached : Machine.run OpenSession.step opened before = some start
  free : start.prepared = false
  success : ∃ a, prepare.answer start = some a ∧ a.rc = none ∧ a.dev.s.prepared = true
  settings : s.settings = start.settings

/-- The latest commit of a session that was not committed, and the run since. -/
structure CommittedBy (labels before : List Label) (commit : Label) (after : List Label)
    (start done : OpenSession) : Prop where
  labels : labels = before ++ commit :: after
  reached : Machine.run OpenSession.step opened before = some start
  free : start.session.committed = false
  asked : ∃ memory, commit.request = .commit memory
  success : ∃ a, commit.answer start = some a ∧ a.rc = none ∧ a.dev.s = done
  since : ∀ first rest, after = first ++ rest →
    ∃ t, Machine.run OpenSession.step done first = some t ∧ t.session.committed = true

/-- What the run so far says about a session. -/
structure History (labels : List Label) (s : OpenSession) : Prop where
  lives : Lives s
  prepared : s.prepared = true → ∃ before prepare after start,
    PreparedBy labels before prepare after start s
  committed : s.session.committed = true → EntrySound s ∧ ∃ before commit after start done,
    CommittedBy labels before commit after start done

section History

variable {labels before after : List Label} {label prepare commit : Label}
  {start done s t : OpenSession}

section

variable (by_ : CommittedBy labels before commit after start done)
  (run : Machine.run OpenSession.step opened labels = some s)
include by_ run

/-- The run since the commit. -/
theorem CommittedBy.done_run :
    Machine.run step done after = some s := by
  obtain ⟨a, answered, -, rfl⟩ := by_.success
  have stepped : start.step commit = some a.dev.s := step_eq_some_iff.mpr ⟨a, answered, rfl⟩
  rw [by_.labels, Machine.run_append, by_.reached, Option.bind_some, Machine.run_cons,
    stepped] at run
  exact run

/-- One step further. -/
theorem CommittedBy.later (stepped : s.step label = some t) (still : t.session.committed = true) :
    CommittedBy (labels ++ [label]) before commit (after ++ [label]) start done := by
  refine ⟨by rw [by_.labels]; simp, by_.reached, by_.free, by_.asked, by_.success, ?_⟩
  intro first rest whole
  rcases List.eq_nil_or_concat rest with rfl | ⟨front, last, rfl⟩
  · rw [List.append_nil] at whole
    rw [← whole]
    exact ⟨t, Machine.run_snoc (by_.done_run run) stepped, still⟩
  · rw [List.concat_eq_append, ← List.append_assoc] at whole
    have parts := List.append_inj' whole rfl
    exact by_.since first front parts.1

end

/-- A second commit is refused. -/
theorem commit_again {env : Environment} {dev : Device} {memory : Bool} {a : Answer}
    (committed : dev.s.session.committed = true)
    (answered : ioctl env (.commit memory) dev = some a) : a.rc = some .einval ∧ a.dev = dev := by
  have refused : udCommit env.seen memory dev.s = .error .einval dev.s := by
    rw [udCommit, Fallible.get_bind]
    exact Fallible.refuse_bind (.inr committed) _
  cases answered
  simp only [answer, commitDevice, refused]
  exact ⟨trivial, trivial⟩

/-- Every step keeps the history. -/
theorem History.step (history : History labels s)
    (run : Machine.run step opened labels = some s)
    (stepped : s.step label = some t) : History (labels ++ [label]) t := by
  obtain ⟨a, answered, rfl⟩ := step_eq_some_iff.mp stepped
  have lives : Lives a.dev.s := Lives.ioctl (history.lives.touch label.touched) answered
  rcases history.lives with idle | ready
  · have touched : Idle (label.device s).s := { idle with clean := { idle.clean with } }
    rcases ioctl_idle touched answered with still | ⟨success, begun⟩
    · exact ⟨lives, fun wrong => absurd (still.prepared.symm.trans wrong) (by decide),
        fun wrong => absurd (still.committed.symm.trans wrong) (by decide)⟩
    · refine ⟨lives, fun prepared => ⟨labels, label, [], s, rfl, run, idle.prepared,
        ⟨a, answered, success, prepared⟩, begun.settings⟩, fun wrong => ?_⟩
      exact absurd (begun.committed.symm.trans wrong) (by decide)
  · have touched : Ready (label.device s).s := { ready with }
    have served := ioctl_served (fun _ => touched.prepared) answered
    have settings := congrArg settings served.standing
    have later : a.dev.s.prepared = true → ∃ before prepare after start,
        PreparedBy (labels ++ [label]) before prepare after start a.dev.s := by
      intro _
      obtain ⟨before, prepare, after, start, by_⟩ := history.prepared ready.prepared
      exact ⟨before, prepare, after ++ [label], start, by rw [by_.labels]; simp, by_.reached,
        by_.free, by_.success, settings.trans by_.settings⟩
    have standing (image : a.dev.s.session.image = s.session.image)
        (committed : a.dev.s.session.committed = true → s.session.committed = true) :
        a.dev.s.session.committed = true → EntrySound a.dev.s ∧ ∃ before commit after start done,
          CommittedBy (labels ++ [label]) before commit after start done := by
      intro still
      obtain ⟨sound, before, commit, after, start, done, by_⟩ := history.committed (committed still)
      exact ⟨sound.congr image, before, commit, after ++ [label], start, done,
        by_.later run stepped still⟩
    cases served with
    | same unchanged =>
      exact ⟨lives, later, standing (by rw [unchanged]; rfl) (by rw [unchanged]; exact id)⟩
    | called ran rest => exact ⟨lives, later, standing ran.image ran.committed⟩
    | committed memory asked success admitted =>
      refine ⟨lives, later, fun _ => ⟨admitted.entrySound
        (touched.of_standing (standing_of_core admitted.core)),
        labels, label, [], s, a.dev.s, rfl, run, admitted.before.2, ⟨memory, asked⟩,
        ⟨a, answered, success, rfl⟩, fun first rest whole => ?_⟩⟩
      obtain ⟨rfl, rfl⟩ := List.append_eq_nil_iff.mp whole.symm
      exact ⟨a.dev.s, rfl, admitted.committed⟩
    | refused memory asked failure unfinished =>
      have committed : a.dev.s.session.committed = s.session.committed := unfinished.committed
      refine ⟨lives, later, fun still => ?_⟩
      have before := committed.symm.trans still
      rw [Label.answer, asked] at answered
      have unchanged := (commit_again before answered).2
      exact standing (by rw [unchanged]; rfl) (fun _ => before) still

/-- Every run has its history. -/
theorem run_history (run : Machine.run step opened labels = some s) :
    History labels s := by
  refine Machine.run_history History ⟨.inl opened_idle, fun wrong => absurd wrong (by decide),
    fun wrong => absurd wrong (by decide)⟩ (fun _ _ _ _ reached history stepped => ?_) run
  exact history.step reached stepped

/-- A committed session is ready. -/
theorem History.ready (history : History labels s) (committed : s.session.committed = true) :
    Ready s :=
  history.lives.resolve_left fun idle => absurd (idle.committed.symm.trans committed) (by decide)

/-- In every run of ioctls a committed session has the images that its calls rest on. -/
theorem committed_images (run : Machine.run step opened labels = some s)
    (committed : s.session.committed = true) :
    (s.session.codeMode = .remoteVerified → s.session.Verified) ∧
      (s.session.profile = .social → ∀ heap,
        usHeapValidCount heap s.session.socialNginxCount = true →
          s.session.SocialCommitted heap) := by
  have history := run_history run
  have ready := history.ready committed
  have sound := (history.committed committed).1
  exact ⟨sound.verified ready, fun profile _ valid => sound.socialCommitted ready profile valid⟩

/-- Later commits are refused. -/
theorem CommittedBy.again (by_ : CommittedBy labels before commit after start done)
    {first rest : List Label} {memory : Bool} (whole : after = first ++ label :: rest)
    (asked : label.request = .commit memory) :
    ∃ t a, Machine.run step done first = some t ∧ label.answer t = some a ∧
      a.rc = some .einval := by
  obtain ⟨t, reached, committed⟩ := by_.since first (label :: rest) whole
  have answered : label.answer t =
      some (answer (commitDevice label.env.seen memory) (label.device t)) := by
    rw [Label.answer, asked]
    rfl
  have touched : (label.device t).s.session.committed = true := committed
  exact ⟨t, _, reached, answered, (commit_again touched rfl).1⟩

/-- A call keeps the images. -/
theorem enters_image {a : Answer} (history : History labels s) (enters : label.Enters s)
    (answered : label.answer s = some a) : a.dev.s.session.image = s.session.image := by
  have committed : (label.device s).s.session.committed = true := ioctl_committed enters
  have ready : Ready (label.device s).s := { history.ready committed with }
  cases ioctl_served (fun _ => ready.prepared) answered with
  | same unchanged => rw [unchanged]; rfl
  | called ran rest => exact ran.image
  | committed memory asked success admitted =>
    exact absurd (admitted.before.2.symm.trans committed) (by decide)
  | refused memory asked failure unfinished =>
    rw [Label.answer, asked] at answered
    rw [(commit_again committed answered).2]
    rfl

/-- The request prepares a session. -/
def Request.prepares : Request → Bool
  | .prepare _ _ | .poolPrepare _ _ => true
  | _ => false

/-- A preparation that fails. -/
theorem prepare_failed {a : Answer} (lives : Lives s) (asked : label.request.prepares = true)
    (answered : label.answer s = some a) (failed : a.rc ≠ none) :
    a.dev.ledger = label.ledger ∧ (∀ i, (a.dev.banks i).used = (label.banks i).used) ∧
      (s.prepared = false → Clean a.dev.s) := by
  -- Only the program that prepares the session differs between the two requests.
  have settled {m : Ioctl Unit} (same : a = answer m (label.device s))
      (fresh : Idle (label.device s).s → Ends m (fun _ => Begun label.env.seen (label.device s))
        (fun _ => Undone (label.device s)) (label.device s))
      (again : (label.device s).s.prepared = true → Ends m (fun _ t => t = label.device s)
        (fun _ t => t = label.device s) (label.device s)) :
      a.dev.ledger = label.ledger ∧ (∀ i, (a.dev.banks i).used = (label.banks i).used) ∧
        (s.prepared = false → Clean a.dev.s) := by
    subst same
    rcases lives.touch label.touched with idle | ready
    · rcases answer_of_ends (fresh idle) with ⟨success, -⟩ | ⟨-, undone⟩
      · exact absurd success failed
      · exact ⟨undone.ledger, undone.banks.used, fun _ => undone.idle.clean⟩
    · have prepared : s.prepared = true := ready.prepared
      have kept : (answer m (label.device s)).dev = label.device s :=
        (answer_of_ends (again prepared)).elim (·.2) (·.2)
      rw [kept]
      exact ⟨rfl, fun _ => rfl, fun free => absurd (free.symm.trans prepared) (by decide)⟩
  rw [Label.answer] at answered
  cases request : label.request with
  | prepare value copied =>
    rw [request] at answered
    exact settled (Option.some.inj answered).symm (fun idle => ends_prepareSession idle)
      ends_prepared
  | poolPrepare value copied =>
    rw [request] at answered
    exact settled (Option.some.inj answered).symm (fun idle => ends_preparePool idle) ends_prepared
  | _ =>
    rw [request] at asked
    contradiction

/-- What holds when a domain is entered after a run. -/
structure Entered (labels : List Label) (s : OpenSession) : Prop where
  /-- The latest commit that found the session not committed has succeeded, no call has faulted
  since, and every commit since was refused. -/
  committed : ∃ before commit after start done,
    CommittedBy labels before commit after start done ∧
      ∀ first label rest memory, after = first ++ label :: rest → label.request = .commit memory →
        ∃ t a, Machine.run OpenSession.step done first = some t ∧ label.answer t = some a ∧
          a.rc = some .einval
  sound : EntrySound s
  prepared : ∃ before prepare after start, PreparedBy labels before prepare after start s
  social : s.session.codeMode = .remoteSocial ↔ s.session.profile = .social
  verified : s.session.codeMode = .remoteVerified → s.session.profile = .micro ∧ s.multi = false

/-- In every run of ioctls a domain is entered only in a session that a commit has admitted, with
the images of that commit, which stay while the ioctl runs; and a preparation that fails leaves
nothing behind. -/
theorem domain_session_sound (run : Machine.run OpenSession.step opened labels = some s) :
    (label.Enters s → Entered labels s ∧
      ∀ a, label.answer s = some a → a.dev.s.session.image = s.session.image) ∧
    (label.request.prepares = true → ∀ a, label.answer s = some a → a.rc ≠ none →
      a.dev.ledger = label.ledger ∧ (∀ i, (a.dev.banks i).used = (label.banks i).used) ∧
        (s.prepared = false → Clean a.dev.s)) := by
  have history := run_history run
  refine ⟨fun enters => ⟨?_, fun a => enters_image history enters⟩,
    fun asked a => prepare_failed history.lives asked⟩
  have committed : s.session.committed = true := ioctl_committed enters
  obtain ⟨sound, before, commit, after, start, done, by_⟩ := history.committed committed
  have ready := history.ready committed
  exact ⟨⟨before, commit, after, start, done, by_, fun _ _ _ _ whole asked =>
    by_.again whole asked⟩, sound, history.prepared ready.prepared, ready.social, ready.verified⟩

end History

namespace Sample

def call : Label := label (.call (some ⟨1, 2, 0, 0, 0, 1, 0, 0⟩) true)

/-- The ioctls that prepare and commit a session. -/
def start : List Label := [label (.prepare (some 0x400000) true), label (.commit true)]

def ready : OpenSession := (Machine.run OpenSession.step opened start).getD opened

/-- The run of the sample. -/
theorem ready_run : Machine.run step opened start = some ready :=
  Machine.some_getD (by decide +kernel) _

/-- The call enters a domain of that session. -/
theorem domain_session_sound_sample : Entered start ready := by
  have enters : call.Enters ready := by decide +kernel
  have both : (call.Enters ready → Entered start ready ∧ _) ∧ _ := domain_session_sound ready_run
  exact (both.1 enters).1

/-- The latest commit of a session may have failed when a domain is entered: a session that is
committed refuses another commit and can be called all the same. -/
theorem entered_after_failed_commit :
    Machine.run OpenSession.step opened start = some ready ∧
      ((label (.commit true)).answer ready).any (fun a =>
        a.rc == some .einval && decide (call.Enters a.dev.s)) = true :=
  ⟨ready_run, by decide +kernel⟩

end Sample

end UbApplication.UbDomain
