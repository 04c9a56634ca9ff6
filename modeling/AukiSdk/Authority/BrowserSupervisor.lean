import AukiSdk.Authority.LocalAuthority
import AukiSdk.Authority.SupervisorStatus
import AukiSdk.Booking.BrowserRenewal

/-!
# The authority supervisor of the browser

`AuthoritySupervisor` as a machine over its awaits on one thread.
-/

namespace AukiSdk.Authority.Browser

open AukiSdk.Authority
open AukiSdk.Booking
open AukiSdk.Foundation
open AukiSdk.Net

def isTerminal : AuthFailureKind → Bool
  | .authenticationRequired | .configuration | .authorizationDenied | .closed => true
  | .persistence | .transient | .cancelled => false

def toSensitiveBearerHeader (credential : SignedP2pCredential) : Except P2pError String :=
  if credential.compact = "" ∨
      ¬ credential.compact.toList.all (fun char => 33 ≤ char.toNat && char.toNat ≤ 126) then
    .error (.invalidToken "encoded token cannot be represented as an HTTP Bearer credential")
  else
    .ok ("Bearer " ++ credential.compact)

structure CurrentAuthority where
  header : String
  revision : ℕ
  renewAt : DateTime
  expiresAt : DateTime
  deriving DecidableEq

structure PendingAuthority where
  update : PeerAuthorityUpdate
  header : String
  renewAt : DateTime
  expiresAt : DateTime

structure RenewedAuthority where
  domainId : Uuid
  peerId : PeerId
  verificationKeys : DdsVerificationKeys
  credential : SignedP2pCredential
  credentialExpiresAt : DateTime
  renewAt : DateTime

/-- What `renew_attempt` keeps of a renewal. -/
def RenewedAuthority.pending (renewed : RenewedAuthority) (header : String) :
    PendingAuthority where
  update := ⟨renewed.domainId, renewed.peerId, renewed.verificationKeys, renewed.credential,
    renewed.credentialExpiresAt⟩
  header := header
  renewAt := renewed.renewAt
  expiresAt := renewed.credentialExpiresAt

structure AuthorityState where
  current : CurrentAuthority
  pending : Option PendingAuthority
  stopped : Bool
  terminal : Option AuthFailureKind
  retryAt : Option DateTime
  retryDelay : Duration

inductive AuthorityMaintenance where
  | current
  | renewed
  | retry
  deriving DecidableEq

inductive AuthoritySupervisorError where
  | authenticationFailed (kind : AuthFailureKind)
  | attemptTimedOut
  | retryPending
  | renewal (kind : AuthFailureKind)
  | installation (error : P2pError)
  | stopped
  | staleRevision
  | revisionExhausted
  deriving DecidableEq

def authorityRetry : Duration := Duration.fromSecs 2

def authorityRetryMax : Duration := Duration.fromSecs 30

/-- The calls; `authorization` serves DMS and DDS requests alike. -/
inductive AuthorityCall where
  | maintain
  | maintenanceDelay
  | renewAfterUnauthorized (rejected : ℕ)
  | authorization
  | stop
  deriving DecidableEq

/-- What a call does once it has the state lock. -/
inductive Goal where
  | maintain (authorizing : Bool)
  | maintenanceDelay
  | renewAfterUnauthorized (rejected : ℕ)
  | authorization
  | stop

/-- The callers of `renew_locked`. -/
inductive RenewCaller where
  | maintain (authorizing : Bool)
  | renewAfterUnauthorized (rejected : ℕ)

/-- The callers of `fence_peer`. -/
inductive Fence where
  | expired (authorizing : Bool) (now : DateTime)
  | failed (authorizing : Bool)
  | terminal (caller : RenewCaller) (kind : AuthFailureKind)
  | stopped

/-- Where a call stands: at a lock, or behind it. -/
inductive Phase where
  /-- At `state.lock()`. -/
  | locking (goal : Goal)
  | locked (goal : Goal)
  /-- At the `select` of the renewal and its deadline. -/
  | renewing (caller : RenewCaller)
  /-- At `updates.lock()` in `replace`. -/
  | installing (caller : RenewCaller) (revision : ℕ)
  | replacing (caller : RenewCaller) (revision : ℕ)
  /-- At `updates.lock()` in `clear`. -/
  | fencing (fence : Fence)
  | clearing (fence : Fence)

def AuthorityCall.goal : AuthorityCall → Goal
  | .maintain => .maintain false
  | .maintenanceDelay => .maintenanceDelay
  | .renewAfterUnauthorized rejected => .renewAfterUnauthorized rejected
  | .authorization => .maintain true
  | .stop => .stop

/-- What a call returns; a failed authorization has no reason. -/
inductive Answer where
  | maintained (result : Except AuthoritySupervisorError AuthorityMaintenance)
  | delayed (result : Except AuthoritySupervisorError Duration)
  | refreshed (rejected : ℕ) (result : Except AuthoritySupervisorError Unit)
  | authorized (snapshot : Option (String × ℕ))
  | stopped

/-- What happened, oldest first. -/
inductive SupervisorEvent where
  | delivered (pending : PendingAuthority)
  | expired (pending : PendingAuthority) (now : DateTime)
  | rejected (pending : PendingAuthority)
  | installed (pending : PendingAuthority) (authority : CurrentAuthority)
  | failed (kind : AuthFailureKind)
  | stopped
  | returned (call : ℕ) (answer : Answer) (now : DateTime)

/-- What the code between two awaits ends with. -/
inductive Flow where
  | go (phase : Phase)
  | done (answer : Answer)

inductive RenewalOutcome where
  | renewed (authority : RenewedAuthority)
  | failed (kind : AuthFailureKind)
  | timedOut

/-- The clock readings of `maintain` and what it calls, and the renewal if it ends. -/
structure Readings where
  now : DateTime
  retryCheckedAt : DateTime
  pendingCheckedAt : DateTime
  attemptedAt : DateTime
  finishedAt : DateTime
  outcome : Option RenewalOutcome
  replaceClock : ReplaceClock

variable {DecodingKey : Type}

/-- What the calls share. -/
structure Shared (library : TokenLibrary DecodingKey) where
  node : LocalAuthority library
  state : AuthorityState
  terminalWakeup : Bool
  log : List SupervisorEvent

variable {library : TokenLibrary DecodingKey}

def AuthorityState.checkRunning (state : AuthorityState) :
    Except AuthoritySupervisorError Unit :=
  match state.terminal with
  | some kind => .error (.authenticationFailed kind)
  | none => if state.stopped = true then .error .stopped else .ok ()

/-- The kind of a renewal that failed for good. -/
def AuthoritySupervisorError.terminalKind : AuthoritySupervisorError → Option AuthFailureKind
  | .renewal kind => if isTerminal kind then some kind else none
  | _ => none

variable (shared : Shared library)

def Shared.withState (state : AuthorityState) (events : List SupervisorEvent) : Shared library :=
  { shared with state := state, log := shared.log ++ events }

/-- `maintain` returns; an authorization goes on to read the state. -/
def maintained (authorizing : Bool)
    (result : Except AuthoritySupervisorError AuthorityMaintenance) : Flow :=
  if authorizing = true then
    match result with
    | .ok _ => .go (.locking .authorization)
    | .error _ => .done (.authorized none)
  else
    .done (.maintained result)

/-- What the callers of `renew_locked` do with its result. -/
def Shared.finish (caller : RenewCaller) (result : Except AuthoritySupervisorError Unit)
    (readings : Readings) : Flow :=
  match caller with
  | .renewAfterUnauthorized rejected => .done (.refreshed rejected result)
  | .maintain authorizing =>
    match result with
    | .ok () => maintained authorizing (.ok .renewed)
    | .error error =>
      if shared.state.terminal = none then
        if shared.state.current.expiresAt ≤ readings.finishedAt then
          .go (.fencing (.failed authorizing))
        else
          maintained authorizing (.ok .retry)
      else
        maintained authorizing (.error error)

/-- The end of `renew_locked`. -/
def Shared.afterAttempt (caller : RenewCaller) (result : Except AuthoritySupervisorError Unit)
    (readings : Readings) :
    Shared library × Flow :=
  match result with
  | .ok () =>
    let next := shared.withState
      { shared.state with retryAt := none, retryDelay := authorityRetry } []
    (next, next.finish caller (.ok ()) readings)
  | .error error =>
    match error.terminalKind with
    | some kind =>
      (shared.withState { shared.state with terminal := some kind } [.failed kind],
        .go (.fencing (.terminal caller kind)))
    | none =>
      let next := shared.withState
        { shared.state with
          retryAt := some
            (readings.attemptedAt + (chronoDuration shared.state.retryDelay : ℤ))
          retryDelay := min (shared.state.retryDelay * 2) authorityRetryMax } []
      (next, next.finish caller (.error error) readings)

/-- `renew_attempt` from where an update is pending to the installation. -/
def Shared.install (caller : RenewCaller) (readings : Readings) :
    Shared library × Flow :=
  match nextAuthorityRevision (some shared.state.current.revision) with
  | none => shared.afterAttempt caller (.error .revisionExhausted) readings
  | some revision => (shared, .go (.installing caller revision))

/-- `renew_attempt` up to its first await. -/
def Shared.renewAttempt (caller : RenewCaller) (readings : Readings) : Shared library × Flow :=
  match shared.state.pending with
  | none => (shared, .go (.renewing caller))
  | some pending =>
    if pending.expiresAt ≤ readings.pendingCheckedAt then
      (shared.withState { shared.state with pending := none }
        [.expired pending readings.pendingCheckedAt], .go (.renewing caller))
    else
      shared.install caller readings

/-- `renew_locked` up to its first await. -/
def Shared.renewLocked (caller : RenewCaller) (readings : Readings) : Shared library × Flow :=
  match shared.state.checkRunning with
  | .error error => (shared, shared.finish caller (.error error) readings)
  | .ok () =>
    if shared.state.retryAt.any fun retryAt => readings.retryCheckedAt < retryAt then
      (shared, shared.finish caller (.error .retryPending) readings)
    else
      shared.renewAttempt caller readings

/-- `renew_attempt` behind its `select`. -/
def Shared.renewed (shared : Shared library) (caller : RenewCaller)
    (outcome : RenewalOutcome) (readings : Readings) : Shared library × Flow :=
  match outcome with
  | .failed kind => shared.afterAttempt caller (.error (.renewal kind)) readings
  | .timedOut => shared.afterAttempt caller (.error .attemptTimedOut) readings
  | .renewed authority =>
    match toSensitiveBearerHeader authority.credential with
    | .error error => shared.afterAttempt caller (.error (.installation error)) readings
    | .ok header =>
      let pending := authority.pending header
      (shared.withState { shared.state with pending := some pending }
        [.delivered pending]).install caller readings

/-- `LocalAuthority::replace` behind its lock, and `renew_attempt` after it. -/
def Shared.replace (shared : Shared library) (caller : RenewCaller) (revision : ℕ)
    (pending : PendingAuthority) (readings : Readings) : Shared library × Flow :=
  match shared.node.replace pending.update readings.replaceClock with
  | (.error error, node) =>
    (({ shared with node := node }).withState shared.state [.rejected pending]).afterAttempt
      caller (.error (.installation error)) readings
  | (.ok _, node) =>
    let authority : CurrentAuthority :=
      ⟨pending.header, revision, pending.renewAt, pending.expiresAt⟩
    (({ shared with node := node }).withState
      { shared.state with pending := none, current := authority }
      [.installed pending authority]).afterAttempt caller (.ok ()) readings

/-- `maintain` behind its first fence. -/
def Shared.maintainFenced (authorizing : Bool) (now : DateTime) (readings : Readings) :
    Shared library × Flow :=
  if shared.state.retryAt.any fun retryAt => now < retryAt then
    (shared, maintained authorizing (.ok .retry))
  else if shared.state.pending.isNone ∧ now < shared.state.current.renewAt then
    (shared, maintained authorizing (.ok .current))
  else
    shared.renewLocked (.maintain authorizing) readings

def AuthorityState.maintenanceDelay (state : AuthorityState) (now later : DateTime) :
    Except AuthoritySupervisorError Duration :=
  match state.checkRunning with
  | .error error => .error error
  | .ok () =>
    match state.retryAt with
    | some retryAt =>
      let retryAt :=
        if now < state.current.expiresAt then min retryAt state.current.expiresAt
        else retryAt
      .ok (remainingAt retryAt now)
    | none =>
      if state.pending.isSome then .ok 0
      else .ok (remainingAt state.current.renewAt later)

/-- A call that has just taken the state lock. -/
def Shared.enter (goal : Goal) (readings : Readings) :
    Shared library × Flow :=
  match goal with
  | .maintain authorizing =>
    match shared.state.checkRunning with
    | .error error => (shared, maintained authorizing (.error error))
    | .ok () =>
      if shared.state.current.expiresAt ≤ readings.now then
        (shared, .go (.fencing (.expired authorizing readings.now)))
      else
        shared.maintainFenced authorizing readings.now readings
  | .maintenanceDelay =>
    (shared, .done (.delayed
      (shared.state.maintenanceDelay readings.now readings.finishedAt)))
  | .renewAfterUnauthorized rejected =>
    match shared.state.checkRunning with
    | .error error => (shared, .done (.refreshed rejected (.error error)))
    | .ok () =>
      if rejected < shared.state.current.revision then
        (shared, .done (.refreshed rejected (.ok ())))
      else if shared.state.current.revision = rejected then
        shared.renewLocked (.renewAfterUnauthorized rejected) readings
      else
        (shared, .done (.refreshed rejected (.error .staleRevision)))
  | .authorization =>
    if shared.state.stopped = true ∨ shared.state.terminal.isSome = true ∨
        shared.state.current.expiresAt ≤ readings.now then
      (shared, .done (.authorized none))
    else
      (shared, .done (.authorized
        (some (shared.state.current.header, shared.state.current.revision))))
  | .stop =>
    (shared.withState { shared.state with stopped := true, pending := none } [.stopped],
      .go (.fencing .stopped))

/-- `LocalAuthority::clear` behind its lock, and what follows the fence. -/
def Shared.clear (shared : Shared library) (fence : Fence) (readings : Readings) :
    Shared library × Flow :=
  let cleared := { shared with node := shared.node.clear }
  match fence with
  | .expired authorizing now => cleared.maintainFenced authorizing now readings
  | .failed authorizing => (cleared, maintained authorizing (.ok .retry))
  | .terminal caller kind =>
    let woken := { cleared with terminalWakeup := true }
    (woken, woken.finish caller (.error (.renewal kind)) readings)
  | .stopped => (cleared, .done .stopped)

/-- The two mutexes by their holders, and where the calls stand. -/
structure AuthoritySupervisor (library : TokenLibrary DecodingKey) where
  shared : Shared library
  stateLock : Option ℕ
  updatesLock : Option ℕ
  running : Option ℕ
  calls : ℕ → Option Phase

def AuthoritySupervisor.new (node : LocalAuthority library) (current : CurrentAuthority) :
    AuthoritySupervisor library where
  shared := ⟨node, ⟨current, none, false, none, none, authorityRetry⟩, false, []⟩
  stateLock := none
  updatesLock := none
  running := none
  calls := fun _ => none

inductive SupervisorLabel where
  | call (id : ℕ) (call : AuthorityCall)
  | poll (id : ℕ)
  /-- The call that is polled goes on to its next await, or suspends there. -/
  | advance (readings : Readings)
  | drop (id : ℕ)

/-- The guard of the state lock is alive. -/
def Phase.holdsState : Phase → Bool
  | .locking _ | .fencing .stopped | .clearing .stopped => false
  | _ => true

/-- The guard of the node's `updates` lock is alive. -/
def Phase.holdsUpdates : Phase → Bool
  | .replacing .. | .clearing _ => true
  | _ => false

/-- A guard is dropped, if this call holds it. -/
def release (holder : Option ℕ) (id : ℕ) : Option ℕ :=
  if holder = some id then none else holder

/-- The code of a call from the await it is past to the next one. -/
def Shared.segment (phase : Phase) (readings : Readings) :
    Option (Shared library × Flow) :=
  match phase with
  | .locked goal => some (shared.enter goal readings)
  | .renewing caller =>
    readings.outcome.map fun outcome => shared.renewed caller outcome readings
  | .replacing caller revision =>
    shared.state.pending.map fun pending =>
      shared.replace caller revision pending readings
  | .clearing fence => some (shared.clear fence readings)
  | .locking _ | .installing .. | .fencing _ => none

variable (supervisor : AuthoritySupervisor library)

/-- A call has run to its next await or returned. -/
def AuthoritySupervisor.settle (id : ℕ) (phase : Phase) (result : Shared library × Flow)
    (now : DateTime) :
    AuthoritySupervisor library :=
  let updatesLock :=
    if phase.holdsUpdates then release supervisor.updatesLock id else supervisor.updatesLock
  match result.2 with
  | .go next =>
    { supervisor with
      shared := result.1
      stateLock := if next.holdsState then supervisor.stateLock
        else release supervisor.stateLock id
      updatesLock := updatesLock
      calls := Function.update supervisor.calls id (some next) }
  | .done answer =>
    { shared := { result.1 with log := result.1.log ++ [.returned id answer now] }
      stateLock := release supervisor.stateLock id
      updatesLock := updatesLock
      running := none
      calls := Function.update supervisor.calls id none }

/-- The call that is polled stands at this phase and goes on. -/
def AuthoritySupervisor.advance (id : ℕ) (phase : Phase) (readings : Readings) :
    Option (AuthoritySupervisor library) :=
  let suspended := { supervisor with running := none }
  match phase with
  | .locking goal =>
    match supervisor.stateLock with
    | some _ => some suspended
    | none => some { supervisor with
        stateLock := some id
        calls := Function.update supervisor.calls id (some (.locked goal)) }
  | .installing caller revision =>
    match supervisor.updatesLock with
    | some _ => some suspended
    | none => some { supervisor with
        updatesLock := some id
        calls := Function.update supervisor.calls id (some (.replacing caller revision)) }
  | .fencing fence =>
    match supervisor.updatesLock with
    | some _ => some suspended
    | none => some { supervisor with
        updatesLock := some id
        calls := Function.update supervisor.calls id (some (.clearing fence)) }
  | .renewing _ =>
    match supervisor.shared.segment phase readings with
    | none => some suspended
    | some result => some (supervisor.settle id phase result readings.now)
  | .locked _ | .replacing .. | .clearing _ =>
    (supervisor.shared.segment phase readings).map fun result =>
      supervisor.settle id phase result readings.now

/-- One step; a call is dropped only between polls. -/
def AuthoritySupervisor.step :
    SupervisorLabel → Option (AuthoritySupervisor library)
  | .call id call =>
    if supervisor.running = none ∧ (supervisor.calls id).isNone then
      some { supervisor with
        calls := Function.update supervisor.calls id (some (.locking call.goal)) }
    else
      none
  | .poll id =>
    if supervisor.running = none ∧ (supervisor.calls id).isSome then
      some { supervisor with running := some id }
    else
      none
  | .advance readings => do
      let id ← supervisor.running
      let phase ← supervisor.calls id
      supervisor.advance id phase readings
  | .drop id =>
    if supervisor.running = none then
      some { supervisor with
        stateLock := release supervisor.stateLock id
        updatesLock := release supervisor.updatesLock id
        calls := Function.update supervisor.calls id none }
    else
      none

end AukiSdk.Authority.Browser
