import AukiSdk.Authority.BrowserLedger

/-!
# The segments of the browser's authority supervisor

What the code between two awaits does, from what its phase provides.
-/

namespace AukiSdk.Authority.Browser

open AukiSdk.Authority List
open AukiSdk.Booking
open AukiSdk.Foundation
open AukiSdk.Net

variable {DecodingKey : Type} {library : TokenLibrary DecodingKey}

def AuthorityState.ledger (state : AuthorityState) : Ledger :=
  ⟨state.current, state.pending, state.stopped, state.terminal⟩

/-- `check_running` passes. -/
def AuthorityState.Running (state : AuthorityState) : Prop :=
  state.stopped = false ∧ state.terminal = none

theorem AuthorityState.checkRunning_eq_ok {state : AuthorityState} :
    state.checkRunning = .ok () ↔ state.Running := by
  rw [checkRunning, Running]
  cases state.terminal <;> cases state.stopped <;> simp

/-- A recorded failure for good is fenced, and its wakeup is set. -/
def Shared.Fenced (shared : Shared library) : Prop :=
  shared.state.terminal ≠ none →
    shared.node.tokens.current = none ∧ shared.terminalWakeup = true

theorem AuthorityState.Running.fenced {shared : Shared library}
    (hrun : shared.state.Running) : shared.Fenced :=
  fun hfail => absurd hrun.2 hfail

/-- The log is one the ledger accepts, and the node is empty once a stop has returned. -/
structure Shared.Sound (start : Ledger) (shared : Shared library) : Prop where
  recorded : start.Logs shared.log shared.state.ledger
  cleared : ∀ call now, .returned call .stopped now ∈ shared.log →
    shared.node.tokens.current = none

/-- The revision a refresh was asked to replace is the one in force. -/
def RenewCaller.Suits (caller : RenewCaller) (state : AuthorityState) : Prop :=
  ∀ rejected, caller = .renewAfterUnauthorized rejected → state.current.revision = rejected

/-- The revision a refresh was asked to replace is replaced. -/
def RenewCaller.Served (caller : RenewCaller) (state : AuthorityState) : Prop :=
  ∀ rejected, caller = .renewAfterUnauthorized rejected → rejected < state.current.revision

def Fence.Fits (fence : Fence) (state : AuthorityState) : Prop :=
  match fence with
  | .expired _ _ | .failed _ => state.Running
  | .terminal _ _ => state.stopped = false
  | .stopped => state.stopped = true

/-- What a call at this phase knows of the state. -/
def Phase.Fits (phase : Phase) (state : AuthorityState) : Prop :=
  match phase with
  | .locking _ | .locked _ => True
  | .renewing caller => state.Running ∧ state.pending = none ∧ caller.Suits state
  | .installing caller revision | .replacing caller revision =>
    state.Running ∧ revision = state.current.revision + 1 ∧ caller.Suits state
  | .fencing fence | .clearing fence => fence.Fits state

/-- What a segment may end with; a stop returns only from an empty node. -/
def Flow.Fits (flow : Flow) (shared : Shared library) (now : DateTime) : Prop :=
  match flow with
  | .go phase => phase.Fits shared.state
  | .done answer =>
    shared.state.ledger.Allows now answer ∧
      (answer = .stopped → shared.node.tokens.current = none)

/-- The fence of a failure for good, at its lock or behind it. -/
def Phase.fencesFailure : Phase → Bool
  | .fencing (.terminal _ _) | .clearing (.terminal _ _) => true
  | _ => false

/-- What a segment leaves. -/
structure Yields (start : Ledger) (now : DateTime) (result : Shared library × Flow) : Prop where
  sound : result.1.Sound start
  fits : result.2.Fits result.1 now
  fenced : result.1.Fenced ∨ ∃ phase, result.2 = .go phase ∧ phase.fencesFailure = true

variable {start : Ledger} {shared : Shared library} {readings : Readings}
variable {caller : RenewCaller} {state : AuthorityState} {event : SupervisorEvent}

theorem Shared.Sound.withState (hs : shared.Sound start)
    (hsm : state.ledger = shared.state.ledger) : (shared.withState state []).Sound start where
  recorded := by
    rw [Shared.withState, append_nil, hsm]
    exact hs.recorded
  cleared := by
    rw [Shared.withState, append_nil]
    exact hs.cleared

theorem Shared.Sound.record (hs : shared.Sound start)
    (hrecs : shared.state.ledger.Records event state.ledger)
    (hev : ∀ call answer now, event ≠ .returned call answer now) :
    (shared.withState state [event]).Sound start where
  recorded := Ledger.Logs.concat hs.recorded hrecs
  cleared := by
    intro call now hm
    rcases mem_append.mp hm with hm | hm
    · exact hs.cleared call now hm
    · exact absurd (mem_singleton.mp hm).symm (hev _ _ _)

theorem Shared.Sound.withNode (hs : shared.Sound start) (hrun : shared.state.Running)
    (node : LocalAuthority library) : Shared.Sound start { shared with node := node } where
  recorded := hs.recorded
  cleared := by
    intro call now hm
    cases hs.recorded.running hrun _ hm

theorem Shared.Sound.clear (hs : shared.Sound start) :
    Shared.Sound start { shared with node := shared.node.clear } where
  recorded := hs.recorded
  cleared := fun _ _ _ => rfl

theorem yields_maintained {now : DateTime} (hs : shared.Sound start)
    (hfen : shared.Fenced) (authorizing : Bool)
    (result : Except AuthoritySupervisorError AuthorityMaintenance) :
    Yields start now (shared, maintained authorizing result) where
  sound := hs
  fits := by
    cases authorizing <;> cases result <;> first | trivial | exact ⟨trivial, nofun⟩
  fenced := Or.inl hfen

theorem yields_finish (hs : shared.Sound start) (hfen : shared.Fenced)
    (hstop : shared.state.stopped = false) {result : Except AuthoritySupervisorError Unit}
    (hser : result = .ok () → caller.Served shared.state) :
    Yields start readings.now (shared, shared.finish caller result readings) := by
  rw [Shared.finish.eq_def]
  cases caller with
  | renewAfterUnauthorized rejected =>
    refine ⟨hs, ?_, Or.inl hfen⟩
    cases result with
    | ok _ => exact ⟨hser rfl rejected rfl, nofun⟩
    | error _ => exact ⟨trivial, nofun⟩
  | maintain authorizing =>
    cases result with
    | ok _ => exact yields_maintained hs hfen authorizing _
    | error error =>
      dsimp only
      split_ifs with hterm hexp
      · exact ⟨hs, ⟨hstop, hterm⟩, Or.inl hfen⟩
      · exact yields_maintained hs hfen authorizing _
      · exact yields_maintained hs hfen authorizing _

theorem yields_afterAttempt (hs : shared.Sound start) (hrun : shared.state.Running)
    {result : Except AuthoritySupervisorError Unit}
    (hser : result = .ok () → caller.Served shared.state) :
    Yields start readings.now (shared.afterAttempt caller result readings) := by
  rw [Shared.afterAttempt.eq_def]
  cases result with
  | ok _ =>
    have hres : Shared.Sound start (shared.withState
        { shared.state with retryAt := none, retryDelay := authorityRetry } []) :=
      hs.withState rfl
    exact yields_finish hres (AuthorityState.Running.fenced hrun) hrun.1
      fun _ => hser rfl
  | error error =>
    cases hkind : error.terminalKind with
    | some kind =>
      simp only [hkind]
      exact ⟨hs.record (.failed kind hrun) (by simp), hrun.1, Or.inr ⟨_, rfl, rfl⟩⟩
    | none =>
      simp only [hkind]
      have hdel : Shared.Sound start (shared.withState
          { shared.state with
            retryAt := some
              (readings.attemptedAt + (chronoDuration shared.state.retryDelay : ℤ))
            retryDelay := min (shared.state.retryDelay * 2) authorityRetryMax } []) :=
        hs.withState rfl
      exact yields_finish hdel (AuthorityState.Running.fenced hrun) hrun.1
        (by simp)

theorem nextAuthorityRevision_eq_some {current revision : ℕ}
    (hn : nextAuthorityRevision (some current) = some revision) : revision = current + 1 := by
  rw [nextAuthorityRevision] at hn
  split_ifs at hn
  exact (Option.some.inj hn).symm

theorem yields_install (hs : shared.Sound start) (hrun : shared.state.Running)
    (hsui : caller.Suits shared.state) :
    Yields start readings.now (shared.install caller readings) := by
  rw [Shared.install]
  cases hn : nextAuthorityRevision (some shared.state.current.revision) with
  | none =>
    dsimp only
    exact yields_afterAttempt hs hrun (by simp)
  | some revision =>
    dsimp only
    exact ⟨hs, ⟨hrun, nextAuthorityRevision_eq_some hn, hsui⟩,
      Or.inl (AuthorityState.Running.fenced hrun)⟩

theorem yields_renewAttempt (hs : shared.Sound start) (hrun : shared.state.Running)
    (hsui : caller.Suits shared.state) :
    Yields start readings.now (shared.renewAttempt caller readings) := by
  rw [Shared.renewAttempt]
  cases hpend : shared.state.pending with
  | none =>
    dsimp only
    exact ⟨hs, ⟨hrun, hpend, hsui⟩, Or.inl (AuthorityState.Running.fenced hrun)⟩
  | some pending =>
    dsimp only
    split_ifs with hexp
    · exact ⟨hs.record (.expired pending _ hpend hexp) (by simp),
        ⟨hrun, rfl, hsui⟩, Or.inl (AuthorityState.Running.fenced hrun)⟩
    · exact yields_install hs hrun hsui

theorem yields_renewLocked (hs : shared.Sound start) (hrun : shared.state.Running)
    (hsui : caller.Suits shared.state) :
    Yields start readings.now (shared.renewLocked caller readings) := by
  rw [Shared.renewLocked, AuthorityState.checkRunning_eq_ok.mpr hrun]
  dsimp only
  split_ifs
  · exact yields_finish hs (AuthorityState.Running.fenced hrun) hrun.1 (by simp)
  · exact yields_renewAttempt hs hrun hsui

theorem yields_renewed (hs : shared.Sound start)
    (hfits : (Phase.renewing caller).Fits shared.state) (outcome : RenewalOutcome) :
    Yields start readings.now (shared.renewed caller outcome readings) := by
  obtain ⟨hrun, hfree, hsui⟩ := hfits
  rw [Shared.renewed.eq_def]
  cases outcome with
  | failed kind => exact yields_afterAttempt hs hrun (by simp)
  | timedOut => exact yields_afterAttempt hs hrun (by simp)
  | renewed authority =>
    cases hheader : toSensitiveBearerHeader authority.credential with
    | error error =>
      simp only [hheader]
      exact yields_afterAttempt hs hrun (by simp)
    | ok header =>
      simp only [hheader]
      have hdel : Shared.Sound start (shared.withState
          { shared.state with pending := some (authority.pending header) }
          [.delivered (authority.pending header)]) :=
        hs.record (.delivered (authority.pending header) hfree hrun hheader)
          (by simp)
      exact yields_install hdel hrun hsui

theorem yields_replace (hs : shared.Sound start) {revision : ℕ}
    (hfits : (Phase.replacing caller revision).Fits shared.state) {pending : PendingAuthority}
    (hpend : shared.state.pending = some pending) :
    Yields start readings.now (shared.replace caller revision pending readings) := by
  obtain ⟨hrun, rfl, hsui⟩ := hfits
  rw [Shared.replace]
  split
  next error node _ =>
    have hrej : Shared.Sound start
        (({ shared with node := node }).withState shared.state [.rejected pending]) :=
      (hs.withNode hrun node).record (.rejected pending hpend hrun) (by simp)
    exact yields_afterAttempt hrej hrun (by simp)
  next claims node _ =>
    let authority : CurrentAuthority :=
      ⟨pending.header, shared.state.current.revision + 1, pending.renewAt, pending.expiresAt⟩
    have hinst : Shared.Sound start (({ shared with node := node }).withState
        { shared.state with pending := none, current := authority }
        [.installed pending authority]) :=
      (hs.withNode hrun node).record (.installed pending hpend hrun) (by simp)
    apply yields_afterAttempt hinst hrun
    intro _ rejected hcal
    rw [← hsui rejected hcal]
    exact Nat.lt_succ_self _

theorem yields_maintainFenced (hs : shared.Sound start) (hrun : shared.state.Running)
    (authorizing : Bool) (now : DateTime) :
    Yields start readings.now (shared.maintainFenced authorizing now readings) := by
  rw [Shared.maintainFenced]
  split_ifs
  · exact yields_maintained hs (AuthorityState.Running.fenced hrun) authorizing _
  · exact yields_maintained hs (AuthorityState.Running.fenced hrun) authorizing _
  · exact yields_renewLocked hs hrun (by simp [RenewCaller.Suits])

theorem yields_enter (hs : shared.Sound start) (hfen : shared.Fenced) (goal : Goal) :
    Yields start readings.now (shared.enter goal readings) := by
  rw [Shared.enter.eq_def]
  cases goal with
  | maintain authorizing =>
    cases hchk : shared.state.checkRunning with
    | error error =>
      dsimp only
      exact yields_maintained hs hfen authorizing _
    | ok _ =>
      have hrun := AuthorityState.checkRunning_eq_ok.mp hchk
      dsimp only
      split_ifs
      · exact ⟨hs, hrun, Or.inl hfen⟩
      · exact yields_maintainFenced hs hrun authorizing _
  | maintenanceDelay => exact ⟨hs, ⟨trivial, nofun⟩, Or.inl hfen⟩
  | renewAfterUnauthorized rejected =>
    cases hchk : shared.state.checkRunning with
    | error error =>
      dsimp only
      exact ⟨hs, ⟨trivial, nofun⟩, Or.inl hfen⟩
    | ok _ =>
      have hrun := AuthorityState.checkRunning_eq_ok.mp hchk
      dsimp only
      split_ifs with hrep hcur
      · exact ⟨hs, ⟨hrep, nofun⟩, Or.inl hfen⟩
      · apply yields_renewLocked hs hrun
        intro other hcal
        cases hcal
        exact hcur
      · exact ⟨hs, ⟨trivial, nofun⟩, Or.inl hfen⟩
  | authorization =>
    dsimp only
    split_ifs with href
    · exact ⟨hs, ⟨trivial, nofun⟩, Or.inl hfen⟩
    · rw [not_or, not_or, Bool.not_eq_true, Bool.not_eq_true, Option.isSome_eq_false_iff,
        Option.isNone_iff_eq_none, not_le] at href
      exact ⟨hs, ⟨⟨href.1, href.2.1, rfl, rfl, href.2.2⟩, nofun⟩, Or.inl hfen⟩
  | stop => exact ⟨hs.record .stopped (by simp), rfl, Or.inl hfen⟩

theorem yields_clear (hs : shared.Sound start) {fence : Fence}
    (hfen : (Phase.clearing fence).fencesFailure = false → shared.Fenced)
    (hfits : fence.Fits shared.state) :
    Yields start readings.now (shared.clear fence readings) := by
  rw [Shared.clear.eq_def]
  have hclr := hs.clear
  cases fence with
  | expired authorizing now => exact yields_maintainFenced hclr hfits authorizing now
  | failed authorizing =>
    exact yields_maintained hclr (fun hfail => ⟨rfl, (hfen rfl hfail).2⟩)
      authorizing _
  | terminal caller kind =>
    have hwok : Shared.Sound start
        { shared with node := shared.node.clear, terminalWakeup := true } :=
      ⟨hclr.recorded, hclr.cleared⟩
    exact yields_finish hwok (fun _ => ⟨rfl, rfl⟩) hfits (by simp)
  | stopped =>
    exact ⟨hclr, ⟨hfits, fun _ => rfl⟩, Or.inl fun hfail => ⟨rfl, (hfen rfl hfail).2⟩⟩

end AukiSdk.Authority.Browser
