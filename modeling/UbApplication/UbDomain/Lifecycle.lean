import UbApplication.UbDomain.Accounts
import UbApplication.UbDomain.Committed
import UbApplication.UbDomain.Images

/-!
# The life of a session

Every ioctl keeps what a session is at that time: before it is prepared a session holds nothing;
once it is prepared its settings and its contract stay.
-/

namespace UbApplication.UbDomain

open Fallible Option

def OpenSession.settings (s : OpenSession) : Profile × CodeMode × NestedPath :=
  (s.session.profile, s.session.codeMode, s.session.nestedPath)

/-- A session that is not prepared. -/
structure Idle (s : OpenSession) : Prop where
  clean : Clean s
  prepared : s.prepared = false
  exposed : s.poolExposed = false
  committed : s.session.committed = false
  verified : s.session.codeMode = .remoteVerified → s.session.profile = .micro
  social : s.session.codeMode = .remoteSocial → s.session.profile = .social

/-- A prepared session. -/
structure Ready (s : OpenSession) : Prop where
  prepared : s.prepared = true
  valid : contractValid s.contract = true
  code : Function.Injective s.contract.codePa
  stack : Function.Injective s.contract.stackPa
  slot : s.multi = true → s.poolSlot < udClients
  verified : s.session.codeMode = .remoteVerified → s.session.profile = .micro ∧ s.multi = false
  social : s.session.codeMode = .remoteSocial ↔ s.session.profile = .social
  topology : s.session.profile = .social →
    (s.session.remoteService = 1 ∨ s.session.remoteService = 2) ∧
      (s.session.socialNginxCount = 1 ∨ s.session.socialNginxCount = 3)

section Preparing

variable {start dev : Device} {reserved : Bool} {platform : Platform} {seen : Import}

/-- Pages of domains differ. -/
theorem Acquired.injective (acquired : Acquired seen start reserved dev) :
    Function.Injective dev.s.contract.codePa ∧ Function.Injective dev.s.contract.stackPa := by
  constructor
  · intro d d' same
    have here := acquired.code d'
    rw [← same] at here
    have equal := acquired.acquiring.owned.apart (.code (.base d)) (.code (.base d')) _
      rfl (acquired.code d) here
    injection equal with entry
    injection entry
  · intro d d' same
    have here := acquired.stack d'
    rw [← same] at here
    have equal := acquired.acquiring.owned.apart (.stack (.base d)) (.stack (.base d')) _
      rfl (acquired.stack d) here
    injection equal with entry
    injection entry

/-- What a topology can be. -/
theorem remoteSocialCount_spec {tag : Nat} (some : remoteSocialCount tag ≠ 0) :
    (tag % 256 = 1 ∨ tag % 256 = 2) ∧ (remoteSocialCount tag = 1 ∨ remoteSocialCount tag = 3) := by
  simp only [remoteSocialCount] at some ⊢
  split at some
  case isTrue => contradiction
  case isFalse kind =>
    have one : tag % 256 = 1 ∨ tag % 256 = 2 := by omega
    refine ⟨one, ?_⟩
    split at some
    case isTrue single => simp [kind, single]
    case isFalse several =>
      split at some
      case isTrue three => simp [kind, three]
      case isFalse => contradiction

/-- What a preparation that fails leaves. -/
structure Undone (start dev : Device) : Prop where
  ledger : dev.ledger = start.ledger
  banks : Restored start.banks dev.banks
  idle : Idle dev.s
  settings : dev.s.settings = start.s.settings

/-- What a preparation that succeeds leaves. -/
structure Begun (seen : Import) (start dev : Device) : Prop where
  ready : Ready dev.s
  settings : dev.s.settings = start.s.settings
  committed : dev.s.session.committed = false
  reserved : dev.s.poolReserved = dev.s.multi
  exposed : dev.s.multi = true → dev.s.poolExposed = true ∧ dev.s.poolReusable = false
  single : dev.s.multi = false → dev.banks = start.banks
  slot : dev.s.multi = true → slotsAcquire start.banks (seen.pa udHeap) dev.s.poolGeneration =
    .ok ((dev.s.poolBank, dev.s.poolSlot), dev.banks)
  /-- The pages of the region are on record. -/
  pages : ∀ (page : RegionPage) offset, page.place dev.s = some offset →
    page.recorded dev.s = seen.pa offset

/-- A clean session is idle. -/
theorem Idle.of_fixed (idle : Idle start.s) (clean : Clean dev.s)
    (fixed : dev.s.fixed = start.s.fixed) : Idle dev.s := by
  have kept : Idle dev.s.fixed :=
    fixed ▸ { idle with clean := ⟨fun _ => rfl, fun _ => rfl, rfl⟩ }
  exact { kept with clean }

/-- A failure is undone. -/
theorem Failed.undone {first : Device} (failed : Failed start dev) (idle : Idle start.s)
    (ledger : start.ledger = first.ledger) (banks : start.banks = first.banks)
    (settings : start.s.settings = first.s.settings) : Undone first dev where
  ledger := failed.ledger.trans ledger
  banks := banks ▸ failed.banks
  idle := idle.of_fixed failed.clean failed.fixed
  settings := (congrArg OpenSession.settings failed.fixed).trans settings

/-- Nothing was done. -/
theorem Idle.undone (idle : Idle start.s) : Undone start start := ⟨rfl, .inl rfl, idle, rfl⟩

variable {copied : Bool}

/-- A preparation and its end. -/
theorem ends_prepareAnd {importVa : Nat} {finish : OpenSession → OpenSession} {first : Device}
    {Q : Unit → Device → Prop} (idle : Idle start.s) (ledger : start.ledger = first.ledger)
    (banks : start.banks = first.banks) (settings : start.s.settings = first.s.settings)
    (next : ∀ dev, Acquired seen start start.s.multi dev → contractValid dev.s.contract = true →
      Q () (dev.withSession finish)) :
    Ends (prepareAnd platform seen importVa copied finish) Q (fun _ => Undone first) start := by
  rw [prepareAnd, ends_bind]
  refine (ends_preparePages idle.clean idle.exposed).mono (fun _ dev last => ?_) fun _ dev failed =>
    failed.undone idle ledger banks settings
  simp only [ends_bind, ends_onFailure, ends_refuse, ends_modify]
  refine ⟨fun _ => ?_, fun _ => next dev last.1 last.2⟩
  have exposed := congrArg OpenSession.poolExposed last.1.acquiring.fixed
  exact (last.1.acquiring.failed fun _ => exposed.trans idle.exposed).undone idle ledger banks
    settings

/-- `UD_PREPARE` makes a session ready or leaves nothing behind. -/
theorem ends_prepareSession {value : Option Nat} (idle : Idle start.s) :
    Ends (prepareSession platform seen value copied)
      (fun _ => Begun seen start) (fun _ => Undone start) start := by
  have undone := idle.undone
  simp only [prepareSession, ends_bind, ends_get, ends_refuse, ends_attempt, ends_modify]
  refine ⟨fun _ => undone, fun _ =>
    ⟨fun _ => undone, fun micro => ⟨fun _ _ => undone, fun importVa _ =>
    ⟨fun _ => undone, fun _ => ⟨fun _ => undone, fun _ => ⟨fun _ => undone, fun _ =>
      ⟨fun _ => undone, fun _ => ⟨fun _ => undone, fun _ => ?_⟩⟩⟩⟩⟩⟩⟩⟩
  have begun : Idle (start.withSession OpenSession.single).s :=
    { idle with clean := { idle.clean with } }
  refine ends_prepareAnd begun rfl rfl rfl fun dev acquired valid => ?_
  have each {α : Type} (field : OpenSession → α) := congrArg field acquired.acquiring.fixed
  have profile : dev.s.session.profile = .micro :=
    (each (·.session.profile)).trans (not_not.mp micro)
  have mode : dev.s.session.codeMode = start.s.session.codeMode := each (·.session.codeMode)
  have multi : dev.s.multi = false := each (·.multi)
  refine ⟨⟨rfl, valid, acquired.injective.1, acquired.injective.2, ?_, fun _ => ⟨profile, multi⟩,
    ?_, ?_⟩, each OpenSession.settings, (each (·.session.committed)).trans idle.committed,
    acquired.acquiring.holds.trans multi.symm, fun pool =>
      absurd (multi.symm.trans pool) (by decide),
    fun _ => acquired.acquiring.without rfl, fun pool => absurd (multi.symm.trans pool) (by decide),
    fun page => by
      have known := acquired.acquiring.pages page page.slot_lt
      cases page <;> exact known⟩
  · exact fun pool => absurd (multi.symm.trans pool) (by decide)
  · constructor
    · intro social
      exact absurd (idle.social (mode.symm.trans social)) (by rw [not_not.mp micro]; decide)
    · intro social
      exact absurd (profile.symm.trans social) (by decide)
  · exact fun social => absurd (profile.symm.trans social) (by decide)

/-- The mode of a pool session. -/
theorem ends_preparePoolMode :
    Ends (preparePoolMode platform seen)
      (fun _ t => (t = start ∧ start.s.session.codeMode = .legacy ∧
          start.s.session.profile ≠ .social) ∨
        (start.s.session.codeMode = .remoteSocial ∧ start.s.session.profile = .social ∧
          ∃ tag, remoteSocialCount tag ≠ 0 ∧ t = start.withSession (OpenSession.setTopology tag)))
      (fun _ t => t = start) start := by
  simp only [preparePoolMode, ends_bind, ends_get, ends_refuse, ends_ite, ends_modify]
  refine ⟨fun _ => trivial, fun allowed => ⟨fun social => ⟨fun _ => trivial, fun fits =>
    ⟨fun _ => trivial, fun manifest =>
      .inr ⟨social, ?_, seen.manifest.reserved.toNat, ?_, rfl⟩⟩⟩,
    fun other => ⟨fun _ => trivial, fun legacy => .inl ⟨trivial, not_not.mp legacy, ?_⟩⟩⟩⟩
  · simp only [not_or, not_not] at fits
    exact fits.2.1
  · simp only [socialManifestRefused, Bool.or_eq_true, not_or, beq_iff_eq] at manifest
    exact manifest.2
  · exact fun social => allowed ⟨social, other⟩

/-- `UD_POOL_PREPARE` makes a session ready or leaves nothing behind. -/
theorem ends_preparePool {value : Option PoolPrepare} (idle : Idle start.s) :
    Ends (preparePool platform seen value copied)
      (fun _ => Begun seen start) (fun _ => Undone start) start := by
  have undone := idle.undone
  simp only [preparePool, ends_bind, ends_get, ends_refuse, ends_attempt, ends_modify]
  refine ⟨fun _ => undone, fun _ => ⟨fun _ _ => undone, fun request _ => ⟨fun _ => undone, fun _ =>
    ⟨fun _ => undone, fun _ => ⟨fun _ => undone, fun _ => ⟨fun _ => undone, fun _ =>
      ⟨fun _ => undone, fun _ => ?_⟩⟩⟩⟩⟩⟩⟩
  refine ends_preparePoolMode.mono (fun _ t chosen => ?_) fun _ t same => same ▸ undone
  have kept : t.ledger = start.ledger ∧ t.banks = start.banks ∧ t.s.settings = start.s.settings ∧
      t.s.prepared = start.s.prepared ∧ Clean t.s ∧
      t.s.session.committed = start.s.session.committed := by
    rcases chosen with ⟨rfl, -⟩ | ⟨-, -, tag, -, rfl⟩
    · exact ⟨rfl, rfl, rfl, rfl, idle.clean, rfl⟩
    · exact ⟨rfl, rfl, rfl, rfl, { idle.clean with }, rfl⟩
  obtain ⟨ledger, banks, settings, prepared, clean, committed⟩ := kept
  have profile : t.s.session.profile = start.s.session.profile := congrArg (·.1) settings
  have mode : t.s.session.codeMode = start.s.session.codeMode := congrArg (·.2.1) settings
  have begun : Idle (t.withSession (OpenSession.pooled request.generation)).s :=
    ⟨{ clean with }, prepared.trans idle.prepared, rfl,
      committed.trans idle.committed,
      fun verified => profile.trans (idle.verified (mode.symm.trans verified)),
      fun social => profile.trans (idle.social (mode.symm.trans social))⟩
  refine ends_prepareAnd begun ledger banks settings fun dev acquired valid => ?_
  have each {α : Type} (field : OpenSession → α) := congrArg field acquired.acquiring.fixed
  have sameSettings : dev.s.settings = start.s.settings :=
    (each OpenSession.settings).trans settings
  have sameProfile : dev.s.session.profile = start.s.session.profile := congrArg (·.1) sameSettings
  have sameMode : dev.s.session.codeMode = start.s.session.codeMode := congrArg (·.2.1) sameSettings
  have sameService : dev.s.session.remoteService = t.s.session.remoteService :=
    each (·.session.remoteService)
  have sameCount : dev.s.session.socialNginxCount = t.s.session.socialNginxCount :=
    each (·.session.socialNginxCount)
  have slot : dev.s.poolSlot < udClients :=
    (slotsAcquire_taken (acquired.acquiring.slot rfl)).inside
  have multi : dev.s.multi = true := each (·.multi)
  refine ⟨⟨rfl, valid, acquired.injective.1, acquired.injective.2, fun _ => slot, ?_, ?_, ?_⟩,
    sameSettings, (each (·.session.committed)).trans (committed.trans idle.committed),
    acquired.acquiring.holds.trans multi.symm, fun _ => ⟨rfl, each (·.poolReusable)⟩,
    fun single => absurd (multi.symm.trans single) (by decide),
    fun _ => banks ▸ acquired.acquiring.slot rfl,
    fun page => by
      have known := acquired.acquiring.pages page page.slot_lt
      cases page <;> exact known⟩
  · intro verified
    have wrong := sameMode.symm.trans verified
    rcases chosen with ⟨-, legacy, -⟩ | ⟨social, -⟩
    · exact absurd (legacy.symm.trans wrong) (by decide)
    · exact absurd (social.symm.trans wrong) (by decide)
  · constructor
    · intro social
      exact sameProfile.trans (idle.social (sameMode.symm.trans social))
    · intro social
      have here := sameProfile.symm.trans social
      rcases chosen with ⟨-, -, other⟩ | ⟨mode, -⟩
      · exact absurd here other
      · exact sameMode.trans mode
  · intro social
    have here := sameProfile.symm.trans social
    rcases chosen with ⟨-, -, other⟩ | ⟨-, -, tag, count, rfl⟩
    · exact absurd here other
    · have spec := remoteSocialCount_spec count
      exact ⟨spec.1.imp sameService.trans sameService.trans,
        spec.2.imp sameCount.trans sameCount.trans⟩

end Preparing

/-! ## Ioctls -/

/-- Before it is prepared a session is idle; then it is ready. -/
def Lives (s : OpenSession) : Prop := Idle s ∨ Ready s

variable {request : Request} {number : Option (BitVec 32)} {a : Answer}

section Ioctls

variable {dev : Device} {env : Environment}

/-- What an answer says. -/
theorem answer_of_ends {m : Ioctl Unit} {Q E : Device → Prop}
    (ends : Ends m (fun _ => Q) (fun _ => E) dev) :
    ((answer m dev).rc = none ∧ Q (answer m dev).dev) ∨
      ((answer m dev).rc ≠ none ∧ E (answer m dev).dev) := by
  rw [Ends] at ends
  rw [answer]
  cases here : m dev with
  | ok value t =>
    rw [here] at ends
    exact .inl ⟨rfl, ends⟩
  | error error t =>
    rw [here] at ends
    exact .inr ⟨by simp, ends⟩

/-- A prepared session is refused. -/
theorem ends_prepared {rest : Device → Ioctl Unit} {error : Errno} (ready : dev.s.prepared = true) :
    Ends (do
      let dev ← get
      refuse (dev.s.prepared = true) error
      rest dev) (fun _ t => t = dev) (fun _ t => t = dev) dev := by
  simp only [ends_bind, ends_get, ends_refuse]
  exact ⟨fun _ => trivial, fun free => absurd ready free⟩

/-- Setting the code mode. -/
theorem ends_setCodeMode (idle : Idle dev.s) :
    Ends (setCodeMode env.platform number) (fun _ t => Idle t.s) (fun _ t => Idle t.s) dev := by
  simp only [setCodeMode, input, ends_bind, ends_get, ends_refuse, ends_attempt, ends_modify]
  refine ⟨fun _ => idle, fun _ => ⟨fun _ _ => idle, fun number _ => ⟨fun _ _ => idle, fun mode _ =>
    ⟨fun _ => idle, fun _ => ⟨fun _ => idle, fun fits => ?_⟩⟩⟩⟩⟩
  have profile : mode ≠ .legacy →
      dev.s.session.profile = if mode = .remoteSocial then .social else .micro := by
    intro remote
    exact not_not.mp fun wrong => fits ⟨remote, .inr wrong⟩
  refine { idle with
    clean := { idle.clean with }, verified := fun verified => ?_, social := fun social => ?_ }
  · change mode = .remoteVerified at verified
    subst verified
    exact profile (by decide)
  · change mode = .remoteSocial at social
    subst social
    exact profile (by decide)

/-- Setting the profile. -/
theorem ends_setProfile (idle : Idle dev.s) :
    Ends (setProfile number) (fun _ t => Idle t.s) (fun _ t => Idle t.s) dev := by
  simp only [setProfile, input, ends_bind, ends_get, ends_refuse, ends_attempt, ends_modify]
  refine ⟨fun _ => idle, fun _ =>
    ⟨fun _ _ => idle, fun number _ => ⟨fun _ _ => idle, fun profile _ =>
    ⟨fun _ => idle, fun fits => ?_⟩⟩⟩⟩
  exact { idle with
    clean := { idle.clean with }
    verified := fun verified => not_not.mp fun wrong => fits (.inl ⟨verified, wrong⟩)
    social := fun social => not_not.mp fun wrong => fits (.inr ⟨social, wrong⟩) }

/-- Setting the nested path. -/
theorem ends_setNestedPath (idle : Idle dev.s) :
    Ends (setNestedPath number) (fun _ t => Idle t.s) (fun _ t => Idle t.s) dev := by
  simp only [setNestedPath, input, ends_bind, ends_get, ends_refuse, ends_attempt, ends_modify]
  refine ⟨fun _ => idle, fun _ => ⟨fun _ _ => idle, fun number _ => ⟨fun _ _ => idle, fun path _ =>
    ?_⟩⟩⟩
  exact { idle with clean := { idle.clean with } }

variable {s t : OpenSession}

/-- What an ioctl makes of a prepared session. -/
inductive Served (env : Environment) (request : Request) (s : OpenSession) (rc : Option Errno)
    (t : OpenSession) : Prop where
  | same (unchanged : t = s)
  | called (ran : s.session.Ran t.session)
      (rest : { t with session := s.session, completion := s.completion } = s)
  | committed (memory : Bool) (asked : request = .commit memory) (success : rc = none)
      (admitted : Admitted env.seen s t)
  /-- The session was not committed. -/
  | refused (memory : Bool) (asked : request = .commit memory) (failure : rc ≠ none)
      (unfinished : Unfinished s t)

/-- A call on the device. -/
theorem runDevice_ran {call result : Call} {mapped : Bool}
    (run : runDevice env call mapped dev = some (a, result)) :
    (dev.s.session.Ran a.dev.s.session ∧ { a.dev.s with session := dev.s.session } = dev.s) ∧
      a.dev.banks = dev.banks := by
  simp only [runDevice, map_eq_some_iff, Prod.mk.injEq] at run
  obtain ⟨outcome, ran, rfl, -⟩ := run
  exact ⟨⟨Session.udRun_ran ran, rfl⟩, rfl⟩

/-- Copying out changes nothing. -/
theorem copiedOut_dev (a : Answer) (copied : Bool) : (a.copiedOut copied).dev = a.dev := by
  cases copied <;> rfl

/-- The request prepares a session or changes its settings. -/
def Request.configures : Request → Bool
  | .setCodeMode _ | .setProfile _ | .setNestedPath _ | .prepare _ _ | .poolPrepare _ _ => true
  | _ => false

/-- An ioctl on a prepared session, or one that neither prepares it nor changes its settings, does
not touch the banks either. -/
theorem ioctl_answered (ready : request.configures = true → dev.s.prepared = true)
    (served : ioctl env request dev = some a) :
    Served env request dev.s a.rc a.dev.s ∧ a.dev.banks = dev.banks := by
  have unchanged {a : Answer} (same : a.dev = dev) :
      Served env request dev.s a.rc a.dev.s ∧ a.dev.banks = dev.banks :=
    ⟨.same (congrArg Device.s same), congrArg Device.banks same⟩
  have kept {m : Ioctl Unit} (ends : Ends m (fun _ t => t = dev) (fun _ t => t = dev) dev) :
      Served env request dev.s (answer m dev).rc (answer m dev).dev.s ∧
        (answer m dev).dev.banks = dev.banks := by
    rcases answer_of_ends ends with ⟨-, same⟩ | ⟨-, same⟩
    · exact unchanged same
    · exact unchanged same
  have called {inner a : Answer} (ran : (dev.s.session.Ran inner.dev.s.session ∧
      { inner.dev.s with session := dev.s.session } = dev.s) ∧ inner.dev.banks = dev.banks)
      (same : a.dev = inner.dev) :
      Served env request dev.s a.rc a.dev.s ∧ a.dev.banks = dev.banks := by
    obtain ⟨⟨ran, rest⟩, banks⟩ := ran
    rw [same]
    exact ⟨.called ran (by rw [← rest]), banks⟩
  cases request with
  | setCodeMode | setProfile | setNestedPath | prepare | poolPrepare =>
    cases served
    exact kept (ends_prepared (ready rfl))
  | commit memory =>
    cases served
    have ends : Ends (udCommit env.seen memory) (fun _ => Admitted env.seen dev.s)
      (fun _ => Unfinished dev.s) dev.s := ends_udCommit
    rw [Ends] at ends
    simp only [answer, commitDevice]
    cases here : udCommit env.seen memory dev.s with
    | ok value t =>
      rw [here] at ends
      exact ⟨.committed memory rfl rfl ends, rfl⟩
    | error error t =>
      rw [here] at ends
      exact ⟨.refused memory rfl (by simp) ends, rfl⟩
  | call value copied =>
    cases value with
    | none =>
      cases served
      exact unchanged rfl
    | some call =>
      simp only [ioctl, map_eq_some_iff, Prod.exists] at served
      obtain ⟨a, result, run, rfl⟩ := served
      exact called (runDevice_ran run) (copiedOut_dev a copied)
  | traceCall value copied =>
    cases value with
    | none =>
      cases served
      exact unchanged rfl
    | some call =>
      simp only [ioctl] at served
      split at served
      · cases served
        exact unchanged rfl
      · simp only [map_eq_some_iff, Prod.exists] at served
        obtain ⟨a, result, run, rfl⟩ := served
        exact called (runDevice_ran run) (copiedOut_dev a copied)
  | mappedCall procedure =>
    simp only [ioctl, mappedCall] at served
    split at served
    · cases served
      exact unchanged rfl
    · simp only [map_eq_some_iff, Prod.exists] at served
      obtain ⟨a, result, run, rfl⟩ := served
      obtain ⟨⟨ran, rest⟩, banks⟩ := runDevice_ran run
      exact ⟨.called (ran.trans (Session.ran_withArgs _ _)) (by rw [← rest]; rfl), banks⟩
  | socialCall =>
    simp only [ioctl, socialCall] at served
    split at served
    · cases served
      exact unchanged rfl
    · simp only [map_eq_some_iff] at served
      obtain ⟨outcome, run, rfl⟩ := served
      refine ⟨.called ((Session.udRunSocial_ran run).trans ?_) rfl, rfl⟩
      dsimp only [Device.withSession]
      exact Session.edit_ran _
  | tlbProbe value copied =>
    simp only [ioctl, tlbProbe] at served
    split at served
    · cases served
      exact unchanged rfl
    · split at served
      · cases served
        exact unchanged rfl
      · split at served
        · cases served
          exact unchanged rfl
        · simp only [bind_eq_bind, bind_eq_some_iff, Prod.exists] at served
          obtain ⟨first, result, run, rest⟩ := served
          split at rest
          · cases rest
            exact called (runDevice_ran run) (copiedOut_dev first copied)
          · obtain ⟨⟨second, result'⟩, run', rest⟩ := bind_eq_some_iff.mp rest
            cases rest
            obtain ⟨⟨ran, same⟩, banks⟩ := runDevice_ran run
            obtain ⟨⟨ran', same'⟩, banks'⟩ := runDevice_ran run'
            exact called ⟨⟨ran.trans ran', by rw [← same, ← same']⟩, banks'.trans banks⟩
              (copiedOut_dev _ copied)
  | connectionInfo copied =>
    cases served
    exact unchanged (copiedOut_dev _ copied)
  | socialExtraInfo copied =>
    simp only [ioctl] at served
    split at served
    · cases served
      exact unchanged rfl
    · cases served
      exact unchanged (copiedOut_dev _ copied)
  | other =>
    cases served
    exact unchanged rfl

/-- What an ioctl makes of a session. -/
theorem ioctl_served (ready : request.configures = true → dev.s.prepared = true)
    (served : ioctl env request dev = some a) : Served env request dev.s a.rc a.dev.s :=
  (ioctl_answered ready served).1

/-- What no ioctl changes of a prepared session. -/
def OpenSession.standing (s : OpenSession) : OpenSession :=
  { s with session := s.session.image, completion := 0 }.core

/-- The core is standing. -/
theorem standing_of_core (core : t.core = s.core) : t.standing = s.standing :=
  congrArg (fun s : OpenSession => { s with session := s.session.image, completion := 0 }) core

variable {rc : Option Errno}

/-- What stands stays. -/
theorem Served.standing (served : Served env request s rc t) : t.standing = s.standing := by
  cases served with
  | same unchanged => rw [unchanged]
  | called ran rest =>
    conv_rhs => rw [← rest]
    have same := congrArg (fun image => OpenSession.standing { t with session := image }) ran.image
    exact same
  | committed memory asked success admitted => exact standing_of_core admitted.core
  | refused memory asked failure unfinished => exact standing_of_core unfinished.core

/-- An idle session stays idle. -/
theorem Idle.served (idle : Idle s) (served : Served env request s rc t) : Idle t := by
  have kept : Idle t.standing :=
    served.standing ▸ { idle with clean := { idle.clean with }, committed := rfl }
  refine { kept with clean := { kept.clean with }, committed := ?_ }
  cases served with
  | same unchanged => exact unchanged ▸ idle.committed
  | called ran rest =>
    cases here : t.session.committed with
    | false => rfl
    | true => exact absurd (idle.committed.symm.trans (ran.committed here)) (by decide)
  | committed memory asked success admitted =>
    exact absurd (idle.prepared.symm.trans admitted.before.1) (by decide)
  | refused memory asked failure unfinished => exact unfinished.committed.trans idle.committed

/-- A ready session and what stands. -/
theorem Ready.of_standing (ready : Ready s) (standing : t.standing = s.standing) : Ready t := by
  have kept : Ready t.standing := standing ▸ { ready with }
  exact { kept with }

/-- A ready session stays ready. -/
theorem Ready.served (ready : Ready s) (served : Served env request s rc t) : Ready t :=
  ready.of_standing served.standing

/-- An ioctl on an idle session. -/
theorem ioctl_idle (idle : Idle dev.s) (served : ioctl env request dev = some a) :
    Idle a.dev.s ∨ (a.rc = none ∧ Begun env.seen dev a.dev) := by
  have settled {m : Ioctl Unit} (ends : Ends m (fun _ t => Idle t.s) (fun _ t => Idle t.s) dev) :
      Idle (answer m dev).dev.s := by
    rcases answer_of_ends ends with ⟨-, still⟩ | ⟨-, still⟩
    · exact still
    · exact still
  cases later : request.configures with
  | false => exact .inl (idle.served (ioctl_served (by simp [later]) served))
  | true =>
    cases request with
    | setCodeMode mode =>
      cases served
      exact .inl (settled (ends_setCodeMode idle))
    | setProfile profile =>
      cases served
      exact .inl (settled (ends_setProfile idle))
    | setNestedPath path =>
      cases served
      exact .inl (settled (ends_setNestedPath idle))
    | prepare value copied =>
      cases served
      rcases answer_of_ends (ends_prepareSession idle) with ready | ⟨-, undone⟩
      · exact .inr ready
      · exact .inl undone.idle
    | poolPrepare value copied =>
      cases served
      rcases answer_of_ends (ends_preparePool idle) with ready | ⟨-, undone⟩
      · exact .inr ready
      · exact .inl undone.idle
    | _ => contradiction

/-- Every ioctl keeps it alive. -/
theorem Lives.ioctl (lives : Lives dev.s) (served : ioctl env request dev = some a) :
    Lives a.dev.s := by
  rcases lives with idle | ready
  · rcases ioctl_idle idle served with still | ⟨-, begun⟩
    · exact .inl still
    · exact .inr begun.ready
  · exact .inr (ready.served (ioctl_served (fun _ => ready.prepared) served))

end Ioctls

/-! ## Runs of ioctls -/

def opened : OpenSession where
  session := {
    profile := .micro
    codeMode := .legacy
    nestedPath := .legacy
    remoteService := 0
    socialNginxCount := 0
    remoteWords := fun _ => 0
    initial := fun _ => ⟨0, 0, 0, 0⟩
    committed := false
    code := fun _ _ => 0
    stack := fun _ _ => 0
    args := fun _ _ => 0 }
  prepared := false
  multi := false
  poolReserved := false
  poolExposed := false
  poolReusable := false
  poolGeneration := 0
  poolBank := 0
  poolSlot := 0
  importVa := 0
  contract := blankContract
  extra := ⟨0, 0, 0, fun _ => ⟨fun _ => 0, 0, 0⟩⟩
  held := fun _ => none
  importFile := fun _ => none
  completion := 0

/-- An ioctl of a run, with what other parties have done before it. -/
structure Label where
  env : Environment
  request : Request
  ledger : Ledger
  banks : Banks
  touched : Domain → Words → Words

/-- The owner writes to the argument pages. -/
def OpenSession.touch (s : OpenSession) (touched : Domain → Words → Words) : OpenSession :=
  { s with session := { s.session with args := fun d => touched d (s.session.args d) } }

/-- The device that an ioctl of a run is made on. -/
def Label.device (label : Label) (s : OpenSession) : Device :=
  ⟨s.touch label.touched, label.ledger, label.banks⟩

def OpenSession.step (s : OpenSession) (label : Label) : Option OpenSession :=
  (ioctl label.env label.request (label.device s)).map fun answer => answer.dev.s

/-- So does its owner. -/
theorem Lives.touch {s : OpenSession} (lives : Lives s) (touched : Domain → Words → Words) :
    Lives (s.touch touched) := by
  rcases lives with idle | ready
  · exact .inl { idle with clean := { idle.clean with } }
  · exact .inr { ready with }

/-- A new session is idle. -/
theorem opened_idle : Idle opened :=
  ⟨⟨fun _ => rfl, fun _ => rfl, rfl⟩, rfl, rfl, rfl, fun _ => rfl, fun wrong => nomatch wrong⟩

/-- Every run keeps it alive. -/
theorem run_lives {labels : List Label} {s : OpenSession}
    (run : Machine.run OpenSession.step opened labels = some s) : Lives s := by
  refine Machine.run_invariant (fun _ => True) Lives (fun before label after lives _ stepped => ?_)
    (fun _ _ => trivial) (.inl opened_idle) run
  obtain ⟨answer, served, rfl⟩ := map_eq_some_iff.mp stepped
  have touched : Lives (label.device before).s := lives.touch label.touched
  exact touched.ioctl served

end UbApplication.UbDomain
