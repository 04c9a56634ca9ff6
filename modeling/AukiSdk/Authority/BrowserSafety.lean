import AukiSdk.Authority.BrowserSegments
import AukiSdk.Authority.AtomicReplacement

/-!
# Runs of the browser's authority supervisor

The lock discipline of the calls, and what holds in every state of every run.
-/

namespace AukiSdk.Authority.Browser

open AukiSdk.Authority Function Option
open AukiSdk.Foundation
open AukiSdk.Net

variable {DecodingKey : Type} {library : TokenLibrary DecodingKey}

/-- A call can wait here for its next poll. -/
def Phase.waits : Phase → Bool
  | .locking _ | .renewing _ => true
  | _ => false

/-- What the phases of the calls say about the locks, the state and the node. -/
structure AuthoritySupervisor.Sound (start : Ledger)
    (supervisor : AuthoritySupervisor library) : Prop where
  shared : supervisor.shared.Sound start
  waits : ∀ id phase, supervisor.calls id = some phase →
    phase.waits = true ∨ supervisor.running = some id
  locks : ∀ id phase, supervisor.calls id = some phase → phase.holdsState = true →
    supervisor.stateLock = some id
  held : ∀ id, supervisor.stateLock = some id →
    ∃ phase, supervisor.calls id = some phase ∧ phase.holdsState = true
  updates : ∀ id, supervisor.updatesLock = some id →
    ∃ phase, supervisor.calls id = some phase ∧ phase.holdsUpdates = true
  fits : ∀ id phase, supervisor.calls id = some phase → phase.Fits supervisor.shared.state
  fenced : supervisor.shared.Fenced ∨
    ∃ id phase, supervisor.calls id = some phase ∧ phase.fencesFailure = true

theorem Phase.holdsState_of_fencesFailure {phase : Phase} (hfen : phase.fencesFailure = true) :
    phase.holdsState = true := by
  cases phase with
  | fencing fence => cases fence <;> first | rfl | cases hfen
  | clearing fence => cases fence <;> first | rfl | cases hfen
  | _ => cases hfen

theorem Phase.waits_of_holdsUpdates {phase : Phase} (hupd : phase.holdsUpdates = true) :
    phase.waits = false := by
  cases phase <;> first | rfl | cases hupd

theorem Phase.waits_of_fencesFailure {phase : Phase} (hfen : phase.fencesFailure = true) :
    phase.waits = false := by
  cases phase <;> first | rfl | cases hfen

theorem release_eq_some {holder : Option ℕ} {id other : ℕ} :
    release holder id = some other ↔ holder = some other ∧ other ≠ id := by
  rw [release]
  split_ifs with hmine
  · rw [hmine, some.injEq]
    constructor
    · intro hnone
      cases hnone
    · rintro ⟨rfl, hne⟩
      exact absurd rfl hne
  · constructor
    · rintro rfl
      exact ⟨rfl, fun heq => hmine (by rw [heq])⟩
    · exact And.left

variable {start : Ledger} {supervisor next : AuthoritySupervisor library}
variable {id : ℕ} {phase : Phase} {readings : Readings}

namespace AuthoritySupervisor.Sound

theorem running_of_not_waits (hs : supervisor.Sound start)
    (hc : supervisor.calls id = some phase) (hwts : phase.waits = false) :
    supervisor.running = some id := by
  rcases hs.waits id phase hc with hwait | hrunning
  · rw [hwts] at hwait
    cases hwait
  · exact hrunning

/-- The `updates` lock is free for whoever reaches it: its sections have no await. -/
theorem updatesLock_eq_none (hs : supervisor.Sound start)
    (hrunning : supervisor.running = some id) (hc : supervisor.calls id = some phase)
    (hupd : phase.holdsUpdates = false) : supervisor.updatesLock = none := by
  cases hlock : supervisor.updatesLock with
  | none => rfl
  | some holder =>
    obtain ⟨held, hheld, hhld⟩ := hs.updates holder hlock
    have ho := hs.running_of_not_waits hheld (Phase.waits_of_holdsUpdates hhld)
    rw [hrunning, some.injEq] at ho
    cases ho
    rw [hc, some.injEq] at hheld
    cases hheld
    rw [hupd] at hhld
    cases hhld

theorem fenced_of_running (hs : supervisor.Sound start)
    (hrunning : supervisor.running = some id) (hc : supervisor.calls id = some phase)
    (hfnc : phase.fencesFailure = false) : supervisor.shared.Fenced := by
  rcases hs.fenced with hfen | ⟨other, found, ho, hf⟩
  · exact hfen
  · have hsm := hs.running_of_not_waits ho (Phase.waits_of_fencesFailure hf)
    rw [hrunning, some.injEq] at hsm
    cases hsm
    rw [hc, some.injEq] at ho
    cases ho
    rw [hfnc] at hf
    cases hf

theorem fenced_of_idle (hs : supervisor.Sound start) (hidle : supervisor.running = none) :
    supervisor.shared.Fenced := by
  rcases hs.fenced with hfen | ⟨other, found, ho, hf⟩
  · exact hfen
  · have hrunning := hs.running_of_not_waits ho (Phase.waits_of_fencesFailure hf)
    rw [hidle] at hrunning
    cases hrunning

theorem fenced_of_unlocked (hs : supervisor.Sound start)
    (hlock : supervisor.stateLock = none) : supervisor.shared.Fenced := by
  rcases hs.fenced with hfen | ⟨other, found, ho, hf⟩
  · exact hfen
  · have hheld := hs.locks other found ho (Phase.holdsState_of_fencesFailure hf)
    rw [hlock] at hheld
    cases hheld

end AuthoritySupervisor.Sound

/-- One call moves while all others wait. -/
theorem AuthoritySupervisor.Sound.change (hs : supervisor.Sound start) (id : ℕ)
    {shared : Shared library} {stateLock updatesLock running : Option ℕ} {target : Option Phase}
    (hsha : shared.Sound start)
    (hwait : ∀ other found, other ≠ id → supervisor.calls other = some found → found.waits = true)
    (hrunning : ∀ phase ∈ target, phase.waits = true ∨ running = some id)
    (hlks : ∀ phase ∈ target, phase.holdsState = true → stateLock = some id)
    (hheld : stateLock = some id → ∃ phase ∈ target, phase.holdsState = true)
    (hots : ∀ other, other ≠ id → (stateLock = some other ↔ supervisor.stateLock = some other))
    (hupd : ∀ other, updatesLock = some other →
      other = id ∧ ∃ phase ∈ target, phase.holdsUpdates = true)
    (hfits : ∀ phase ∈ target, phase.Fits shared.state)
    (hfrm : supervisor.stateLock = some id ∨ shared.state = supervisor.shared.state)
    (hfen : shared.Fenced ∨ ∃ phase ∈ target, phase.fencesFailure = true) :
    AuthoritySupervisor.Sound start
      ⟨shared, stateLock, updatesLock, running, Function.update supervisor.calls id target⟩ where
  shared := hsha
  waits := by
    intro other found (hf : Function.update supervisor.calls id target other = some found)
    by_cases ho : other = id
    · subst ho
      rw [update_self] at hf
      exact hrunning found hf
    · rw [update_of_ne ho] at hf
      exact Or.inl (hwait other found ho hf)
  locks := by
    intro other found (hf : Function.update supervisor.calls id target other = some found)
      hhld
    by_cases ho : other = id
    · subst ho
      rw [update_self] at hf
      exact hlks found hf hhld
    · rw [update_of_ne ho] at hf
      exact (hots other ho).mpr (hs.locks other found hf hhld)
  held := by
    intro other ho
    by_cases hid : other = id
    · subst hid
      obtain ⟨found, hf, hhld⟩ := hheld ho
      exact ⟨found, (update_self ..).trans hf, hhld⟩
    · obtain ⟨found, hf, hhld⟩ := hs.held other ((hots other hid).mp ho)
      exact ⟨found, (update_of_ne hid ..).trans hf, hhld⟩
  updates := by
    intro other ho
    obtain ⟨rfl, found, hf, hhld⟩ := hupd other ho
    exact ⟨found, (update_self ..).trans hf, hhld⟩
  fits := by
    intro other found (hf : Function.update supervisor.calls id target other = some found)
    by_cases ho : other = id
    · subst ho
      rw [update_self] at hf
      exact hfits found hf
    · rw [update_of_ne ho] at hf
      rcases hfrm with hmine | hsm
      · -- a waiting call without the state lock knows nothing of the state
        cases found with
        | locking goal => trivial
        | renewing caller =>
          have hlock := hs.locks other _ hf rfl
          rw [hmine, some.injEq] at hlock
          exact absurd hlock.symm ho
        | _ => cases hwait other _ ho hf
      · exact hsm ▸ hs.fits other found hf
  fenced := by
    rcases hfen with hfen | ⟨found, hf, hfnc⟩
    · exact Or.inl hfen
    · exact Or.inr ⟨id, found, (update_self ..).trans hf, hfnc⟩

theorem AuthoritySupervisor.Sound.others_wait (hs : supervisor.Sound start)
    (hrunning : supervisor.running = some id) (other : ℕ) (found : Phase) (ho : other ≠ id)
    (hf : supervisor.calls other = some found) : found.waits = true := by
  rcases hs.waits other found hf with hwait | hsm
  · exact hwait
  · rw [hrunning, some.injEq] at hsm
    exact absurd hsm.symm ho

theorem AuthoritySupervisor.Sound.suspend (hs : supervisor.Sound start)
    (hrunning : supervisor.running = some id) (hc : supervisor.calls id = some phase)
    (hwts : phase.waits = true) :
    AuthoritySupervisor.Sound start { supervisor with running := none } where
  __ := hs
  waits := by
    intro other found hf
    by_cases ho : other = id
    · subst ho
      cases hc.symm.trans hf
      exact Or.inl hwts
    · exact Or.inl (hs.others_wait hrunning other found ho hf)

theorem AuthoritySupervisor.Sound.take (hs : supervisor.Sound start)
    (hrunning : supervisor.running = some id) (hc : supervisor.calls id = some phase)
    {target : Phase} {stateLock updatesLock : Option ℕ}
    (hsta : (stateLock = supervisor.stateLock ∧ phase.holdsState = target.holdsState) ∨
      (supervisor.stateLock = none ∧ stateLock = some id ∧ target.holdsState = true))
    (hupd : updatesLock = none ∨ (updatesLock = some id ∧ target.holdsUpdates = true))
    (hfits : target.Fits supervisor.shared.state)
    (hfen : phase.fencesFailure = target.fencesFailure) :
    AuthoritySupervisor.Sound start { supervisor with
      stateLock := stateLock
      updatesLock := updatesLock
      calls := Function.update supervisor.calls id (some target) } := by
  apply hs.change id hs.shared (hs.others_wait hrunning)
  · exact fun _ _ => Or.inr hrunning
  · rintro _ ⟨⟩ hhld
    rcases hsta with ⟨rfl, hsm⟩ | ⟨_, hmine, _⟩
    · exact hs.locks id phase hc (hsm.trans hhld)
    · exact hmine
  · intro hmine
    rcases hsta with ⟨rfl, hsm⟩ | ⟨_, _, hhld⟩
    · obtain ⟨found, hf, hhld⟩ := hs.held id hmine
      cases hc.symm.trans hf
      exact ⟨target, rfl, hsm.symm.trans hhld⟩
    · exact ⟨target, rfl, hhld⟩
  · intro other ho
    rcases hsta with ⟨rfl, _⟩ | ⟨hfree, hmine, _⟩
    · rfl
    · rw [hmine, hfree]
      simp [ho.symm]
  · intro other hlock
    rcases hupd with hfree | ⟨hmine, hhld⟩
    · rw [hfree] at hlock
      cases hlock
    · rw [hmine, some.injEq] at hlock
      exact ⟨hlock.symm, target, rfl, hhld⟩
  · rintro _ ⟨⟩
    exact hfits
  · exact Or.inr rfl
  · by_cases hp : phase.fencesFailure = true
    · exact Or.inr ⟨target, rfl, hfen.symm.trans hp⟩
    · exact Or.inl (hs.fenced_of_running hrunning hc (by simpa using hp))

theorem Shared.Sound.returned {shared : Shared library} (hs : shared.Sound start)
    {answer : Answer} {now : DateTime} (hallows : shared.state.ledger.Allows now answer)
    (hemp : answer = .stopped → shared.node.tokens.current = none) :
    Shared.Sound start
      { shared with log := shared.log ++ [.returned id answer now] } where
  recorded := hs.recorded.concat (.returned id answer now hallows)
  cleared := by
    intro call moment hm
    rcases List.mem_append.mp hm with hm | hm
    · exact hs.cleared call moment hm
    · cases List.mem_singleton.mp hm
      exact hemp rfl

theorem AuthoritySupervisor.Sound.settle (hs : supervisor.Sound start)
    (hrunning : supervisor.running = some id) (hc : supervisor.calls id = some phase)
    {result : Shared library × Flow} {now : DateTime} (hyld : Yields start now result)
    (hunl : phase.holdsState = false → ∃ answer, result.2 = .done answer)
    (hfrm : phase.holdsState = true ∨ result.1.state = supervisor.shared.state) :
    (supervisor.settle id phase result now).Sound start := by
  have hfree : (if phase.holdsUpdates then release supervisor.updatesLock id
      else supervisor.updatesLock) = none := by
    split_ifs with hhld
    · rw [eq_none_iff_forall_ne_some]
      intro other ho
      obtain ⟨hlock, hne⟩ := release_eq_some.mp ho
      obtain ⟨found, hf, hheld⟩ := hs.updates other hlock
      have hwait := hs.others_wait hrunning other found hne hf
      rw [Phase.waits_of_holdsUpdates hheld] at hwait
      cases hwait
    · exact hs.updatesLock_eq_none hrunning hc (by simpa using hhld)
  have hsta : supervisor.stateLock = some id ∨ result.1.state = supervisor.shared.state := by
    rcases hfrm with hhld | hsm
    · exact Or.inl (hs.locks id phase hc hhld)
    · exact Or.inr hsm
  rw [AuthoritySupervisor.settle, hfree]
  cases hflow : result.2 with
  | go target =>
    have hfits := hyld.fits
    rw [hflow] at hfits
    have hlck : supervisor.stateLock = some id := by
      by_cases hhld : phase.holdsState = true
      · exact hs.locks id phase hc hhld
      · obtain ⟨answer, hdone⟩ := hunl (by simpa using hhld)
        cases hflow.symm.trans hdone
    apply hs.change id hyld.sound (hs.others_wait hrunning)
    · exact fun _ _ => Or.inr hrunning
    · rintro _ ⟨⟩ hhld
      rw [if_pos hhld]
      exact hlck
    · intro hmine
      by_cases hhld : target.holdsState = true
      · exact ⟨target, rfl, hhld⟩
      · rw [if_neg hhld] at hmine
        exact absurd rfl (release_eq_some.mp hmine).2
    · intro other ho
      split_ifs
      · rfl
      · rw [release_eq_some]
        exact and_iff_left ho
    · intro other hnone
      cases hnone
    · rintro _ ⟨⟩
      exact hfits
    · exact hsta
    · rcases hyld.fenced with hfen | ⟨found, hf, hfnc⟩
      · exact Or.inl hfen
      · cases hflow.symm.trans hf
        exact Or.inr ⟨target, rfl, hfnc⟩
  | done answer =>
    have hallows := hyld.fits
    rw [hflow] at hallows
    have hret : Shared.Sound start
        { result.1 with log := result.1.log ++ [.returned id answer now] } :=
      hyld.sound.returned hallows.1 hallows.2
    apply hs.change id hret (hs.others_wait hrunning)
    · rintro _ ⟨⟩
    · rintro _ ⟨⟩
    · intro hmine
      exact absurd rfl (release_eq_some.mp hmine).2
    · intro other ho
      rw [release_eq_some]
      exact and_iff_left ho
    · intro other hnone
      cases hnone
    · rintro _ ⟨⟩
    · exact hsta
    · rcases hyld.fenced with hfen | ⟨found, hf, _⟩
      · exact Or.inl hfen
      · cases hflow.symm.trans hf

theorem AuthoritySupervisor.Sound.advance (hs : supervisor.Sound start)
    (hrunning : supervisor.running = some id) (hc : supervisor.calls id = some phase)
    (hadv : supervisor.advance id phase readings = some next) : next.Sound start := by
  have hfits := hs.fits id phase hc
  rw [AuthoritySupervisor.advance.eq_def] at hadv
  cases phase with
  | locking goal =>
    dsimp only at hadv
    split at hadv
    next holder hlock =>
      cases hadv
      exact hs.suspend hrunning hc rfl
    next hlock =>
      cases hadv
      exact hs.take hrunning hc (Or.inr ⟨hlock, rfl, rfl⟩)
        (Or.inl (hs.updatesLock_eq_none hrunning hc rfl)) trivial rfl
  | installing caller revision =>
    have hrep : (Phase.replacing caller revision).Fits supervisor.shared.state := hfits
    simp only [hs.updatesLock_eq_none hrunning hc rfl, some.injEq] at hadv
    subst hadv
    exact hs.take hrunning hc (Or.inl ⟨rfl, rfl⟩) (Or.inr ⟨rfl, rfl⟩) hrep rfl
  | fencing fence =>
    have hcle : (Phase.clearing fence).Fits supervisor.shared.state := hfits
    simp only [hs.updatesLock_eq_none hrunning hc rfl, some.injEq] at hadv
    subst hadv
    exact hs.take hrunning hc (Or.inl ⟨rfl, by cases fence <;> rfl⟩)
      (Or.inr ⟨rfl, rfl⟩) hcle (by cases fence <;> rfl)
  | renewing caller =>
    cases hout : readings.outcome with
    | none =>
      simp only [Shared.segment, hout, map_none, some.injEq] at hadv
      subst hadv
      exact hs.suspend hrunning hc rfl
    | some outcome =>
      simp only [Shared.segment, hout, map_some, some.injEq] at hadv
      subst hadv
      exact hs.settle hrunning hc (yields_renewed hs.shared hfits outcome) nofun
        (Or.inl rfl)
  | locked goal =>
    cases hadv
    exact hs.settle hrunning hc
      (yields_enter hs.shared (hs.fenced_of_running hrunning hc rfl) goal) nofun
      (Or.inl rfl)
  | replacing caller revision =>
    simp only [Shared.segment, map_map, map_eq_some_iff] at hadv
    obtain ⟨pending, hpend, rfl⟩ := hadv
    exact hs.settle hrunning hc (yields_replace hs.shared hfits hpend) nofun
      (Or.inl rfl)
  | clearing fence =>
    cases hadv
    have hyld : Yields start readings.now (supervisor.shared.clear fence readings) :=
      yields_clear hs.shared (hs.fenced_of_running hrunning hc) hfits
    cases fence with
    | stopped => exact hs.settle hrunning hc hyld (fun _ => ⟨_, rfl⟩) (Or.inr rfl)
    | _ => exact hs.settle hrunning hc hyld nofun (Or.inl rfl)

theorem AuthoritySupervisor.Sound.step (hs : supervisor.Sound start)
    {label : SupervisorLabel} (hstep : supervisor.step label = some next) :
    next.Sound start := by
  have hidle (hrunning : supervisor.running = none) (other : ℕ) (found : Phase)
      (hf : supervisor.calls other = some found) : found.waits = true := by
    rcases hs.waits other found hf with hwts | hpolled
    · exact hwts
    · rw [hrunning] at hpolled
      cases hpolled
  have hupd (hrunning : supervisor.running = none) (other : ℕ) :
      supervisor.updatesLock ≠ some other := by
    intro hlock
    obtain ⟨found, hf, hhld⟩ := hs.updates other hlock
    have hwts := hidle hrunning other found hf
    rw [Phase.waits_of_holdsUpdates hhld] at hwts
    cases hwts
  cases label with
  | call id call =>
    rw [AuthoritySupervisor.step] at hstep
    split_ifs at hstep with hfrs
    cases hstep
    rw [isNone_iff_eq_none] at hfrs
    apply hs.change id hs.shared
    · exact fun other found _ hf => hidle hfrs.1 other found hf
    · rintro _ ⟨⟩
      exact Or.inl rfl
    · rintro _ ⟨⟩ ⟨⟩
    · intro hmine
      obtain ⟨found, hf, _⟩ := hs.held id hmine
      cases hfrs.2.symm.trans hf
    · exact fun _ _ => Iff.rfl
    · exact fun other hlock => absurd hlock (hupd hfrs.1 other)
    · rintro _ ⟨⟩
      trivial
    · exact Or.inr rfl
    · exact Or.inl (hs.fenced_of_idle hfrs.1)
  | poll id =>
    rw [AuthoritySupervisor.step] at hstep
    split_ifs at hstep with hpoll
    cases hstep
    exact { hs with
      waits := fun other found hf => Or.inl (hidle hpoll.1 other found hf) }
  | advance readings =>
    simp only [AuthoritySupervisor.step, bind_eq_bind, bind_eq_some_iff] at hstep
    obtain ⟨id, hrunning, phase, hc, hadv⟩ := hstep
    exact hs.advance hrunning hc hadv
  | drop id =>
    rw [AuthoritySupervisor.step] at hstep
    split_ifs at hstep with hrunning
    cases hstep
    apply hs.change id hs.shared
    · exact fun other found _ hf => hidle hrunning other found hf
    · rintro _ ⟨⟩
    · rintro _ ⟨⟩
    · exact fun hmine => absurd rfl (release_eq_some.mp hmine).2
    · intro other ho
      rw [release_eq_some]
      exact and_iff_left ho
    · exact fun other hlock =>
        absurd (release_eq_some.mp hlock).1 (hupd hrunning other)
    · rintro _ ⟨⟩
    · exact Or.inr rfl
    · exact Or.inl (hs.fenced_of_idle hrunning)

/-- The ledger of a supervisor that has just started. -/
def Ledger.new (current : CurrentAuthority) : Ledger := ⟨current, none, false, none⟩

variable {node : LocalAuthority library} {current : CurrentAuthority}
variable {labels : List SupervisorLabel} {last : AuthoritySupervisor library}

theorem sound_run (hrun : runSteps AuthoritySupervisor.step
      (AuthoritySupervisor.new node current) labels = some last) :
    last.Sound (Ledger.new current) := by
  have hbeg : (AuthoritySupervisor.new node current).Sound (Ledger.new current) :=
    { shared := ⟨.nil, nofun⟩
      waits := nofun
      locks := nofun
      held := nofun
      updates := nofun
      fits := nofun
      fenced := Or.inl fun hfail => absurd rfl hfail }
  exact invariant_of_run hbeg (fun _ _ _ hs hstep => hs.step hstep) hrun

/-- The browser's authority supervisor does what it is for. -/
structure Supervised (current : CurrentAuthority) (supervisor : AuthoritySupervisor library) :
    Prop where
  /-- The authority in force is the one installed last. -/
  inForce : (authorities current supervisor.shared.log).getLast? =
    some supervisor.shared.state.current
  /-- Each installed update has the revision after the one before it. -/
  revisions : (authorities current supervisor.shared.log).map CurrentAuthority.revision =
    List.range' current.revision (authorities current supervisor.shared.log).length
  /-- An authority is installed whole from one delivered update, the one in hand. -/
  installed : ∀ before pending authority after,
    supervisor.shared.log = before ++ .installed pending authority :: after →
      .delivered pending ∈ before ∧ inHand before = some pending ∧
        toSensitiveBearerHeader pending.update.credential = .ok authority.header ∧
        authority.renewAt = pending.renewAt ∧ authority.expiresAt = pending.expiresAt
  /-- What is returned is in force, unexpired, and before any stop. -/
  authorized : ∀ before call header revision now after,
    supervisor.shared.log =
        before ++ .returned call (.authorized (some (header, revision))) now :: after →
      (∃ authority, (authorities current before).getLast? = some authority ∧
        header = authority.header ∧ revision = authority.revision ∧
        now < authority.expiresAt) ∧
      ∀ event ∈ before, event.ends = false
  /-- A refresh succeeds only when a later revision is installed. -/
  refreshed : ∀ before call rejected now after,
    supervisor.shared.log = before ++ .returned call (.refreshed rejected (.ok ())) now :: after →
      ∃ authority ∈ authorities current before, rejected < authority.revision
  /-- While the lock is free, a failure for good is fenced and has its wakeup. -/
  fenced : supervisor.stateLock = none → supervisor.shared.state.terminal ≠ none →
    supervisor.shared.node.tokens.current = none ∧ supervisor.shared.terminalWakeup = true
  /-- The update in hand is the one that is pending. -/
  pending : supervisor.shared.state.pending = inHand supervisor.shared.log
  /-- Nothing is delivered while an update is in hand. -/
  delivered : ∀ before pending after,
    supervisor.shared.log = before ++ .delivered pending :: after → inHand before = none
  /-- A failed installation was one of the update in hand. -/
  rejected : ∀ before pending after,
    supervisor.shared.log = before ++ .rejected pending :: after →
      inHand before = some pending
  /-- Only an expired update is discarded. -/
  expired : ∀ before pending now after,
    supervisor.shared.log = before ++ .expired pending now :: after →
      inHand before = some pending ∧ pending.expiresAt ≤ now
  /-- Once a stop has returned the node holds no credential. -/
  stopped : ∀ call now, .returned call .stopped now ∈ supervisor.shared.log →
    supervisor.shared.node.tokens.current = none

theorem AuthoritySupervisor.Sound.supervised
    (hs : supervisor.Sound (Ledger.new current)) : Supervised current supervisor := by
  have hlogs := hs.shared.recorded
  have hcou := hlogs.counts
  exact
    { __ := hcou
      installed := by
        intro before pending authority after hlog
        obtain ⟨middle, next, hpre, hrecs⟩ := hlogs.split hlog
        cases hrecs with
        | installed _ hpend hrunning =>
          have hhand := (hpre.pending_eq rfl).symm.trans hpend
          have hdel := mem_of_inHand hhand
          obtain ⟨first, second, hsp⟩ := List.append_of_mem hdel
          obtain ⟨_, _, _, hrec⟩ := hpre.split hsp
          cases hrec with
          | delivered _ _ _ hheader => exact ⟨hdel, hhand, hheader, rfl, rfl⟩
      authorized := by
        intro before call header revision now after hlog
        obtain ⟨middle, next, hpre, hrecs⟩ := hlogs.split hlog
        cases hrecs with
        | returned _ _ _ hallows =>
          obtain ⟨hstop, hfail, hheader, hrev, hlive⟩ := hallows
          exact ⟨⟨middle.current, hpre.counts.inForce, hheader, hrev, hlive⟩,
            hpre.running ⟨hstop, hfail⟩⟩
      refreshed := by
        intro before call rejected now after hlog
        obtain ⟨middle, next, hpre, hrecs⟩ := hlogs.split hlog
        cases hrecs with
        | returned _ _ _ hallows => exact ⟨middle.current, hpre.counts.mem, hallows⟩
      fenced := hs.fenced_of_unlocked
      pending := hlogs.pending_eq rfl
      delivered := by
        intro before pending after hlog
        obtain ⟨middle, next, hpre, hrecs⟩ := hlogs.split hlog
        cases hrecs with
        | delivered _ hfree => exact (hpre.pending_eq rfl).symm.trans hfree
      rejected := by
        intro before pending after hlog
        obtain ⟨middle, next, hpre, hrecs⟩ := hlogs.split hlog
        cases hrecs with
        | rejected _ hpend => exact (hpre.pending_eq rfl).symm.trans hpend
      expired := by
        intro before pending now after hlog
        obtain ⟨middle, next, hpre, hrecs⟩ := hlogs.split hlog
        cases hrecs with
        | expired _ _ hpend hexp =>
          exact ⟨(hpre.pending_eq rfl).symm.trans hpend, hexp⟩
      stopped := hs.shared.cleared }

/-- In every state of every run the supervisor does what it is for. -/
theorem browser_authority_supervised (node : LocalAuthority library) (current : CurrentAuthority)
    (labels : List SupervisorLabel) (last : AuthoritySupervisor library)
    (hrun : runSteps AuthoritySupervisor.step
      (AuthoritySupervisor.new node current) labels = some last) :
    Supervised current last :=
  (sound_run hrun).supervised

def sampleRenewals : List (String × P2PAccessClaims) := [("renewed", sampleClaims 1000)]

def sampleNode : LocalAuthority (sampleLibrary sampleRenewals) where
  peerId := samplePeer 1
  domainId := 5
  verifier :=
    ⟨1, ⟨textBytes "first key", textBytes "first key", textBytes "first key",
      by decide +kernel, by decide +kernel⟩, none, none, Duration.fromSecs 1000⟩
  tokens := ⟨none⟩

def sampleCurrent : CurrentAuthority where
  header := "Bearer started"
  revision := 1
  renewAt := (Duration.fromSecs 1200 : ℕ)
  expiresAt := (Duration.fromSecs 1500 : ℕ)

def sampleReadings (outcome : Option RenewalOutcome) : Readings where
  now := (Duration.fromSecs 1000 : ℕ)
  retryCheckedAt := (Duration.fromSecs 1000 : ℕ)
  pendingCheckedAt := (Duration.fromSecs 1000 : ℕ)
  attemptedAt := (Duration.fromSecs 1000 : ℕ)
  finishedAt := (Duration.fromSecs 1000 : ℕ)
  outcome := outcome
  replaceClock := LocalAuthority.sampleClock

def sampleRenewed : RenewedAuthority where
  domainId := 5
  peerId := samplePeer 1
  verificationKeys := ⟨1, textBytes "first key", none⟩
  credential := ⟨"renewed", by decide⟩
  credentialExpiresAt := (Duration.fromSecs 2800 : ℕ)
  renewAt := (Duration.fromSecs 2000 : ℕ)

def sampleAwaits (count : ℕ) : List SupervisorLabel :=
  List.replicate count (.advance (sampleReadings none))

def sampleLabels : List SupervisorLabel :=
  [SupervisorLabel.call 0 AuthorityCall.authorization, SupervisorLabel.poll 0] ++
    sampleAwaits 4 ++
    [SupervisorLabel.call 1 (AuthorityCall.renewAfterUnauthorized 1), SupervisorLabel.poll 1] ++
    sampleAwaits 3 ++
    [SupervisorLabel.call 2 AuthorityCall.stop, SupervisorLabel.poll 2] ++ sampleAwaits 1 ++
    [SupervisorLabel.poll 1,
      SupervisorLabel.advance (sampleReadings (some (.renewed sampleRenewed)))] ++
    sampleAwaits 2 ++ [SupervisorLabel.poll 2] ++ sampleAwaits 4

theorem browser_authority_supervised_sample : ∃ last, runSteps AuthoritySupervisor.step
        (AuthoritySupervisor.new sampleNode sampleCurrent) sampleLabels = some last ∧
      last.shared.log.length = 6 ∧ last.shared.state.current.revision = 2 ∧
      Supervised sampleCurrent last := by
  have hmap : (runSteps AuthoritySupervisor.step
      (AuthoritySupervisor.new sampleNode sampleCurrent) sampleLabels).map
        (fun last => (last.shared.log.length, last.shared.state.current.revision)) =
      some (6, 2) := by
    decide +kernel
  obtain ⟨last, hrun, hlast⟩ := map_eq_some_iff.mp hmap
  rw [Prod.mk.injEq] at hlast
  exact ⟨last, hrun, hlast.1, hlast.2, browser_authority_supervised _ _ _ _ hrun⟩

end AukiSdk.Authority.Browser
