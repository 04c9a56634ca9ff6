import AukiSdk.Authority.SupervisorStatus

/-!
# Calls on the authority supervisor

The calls that read the authority or ask for its refresh.
-/

namespace AukiSdk.Authority

open AukiSdk.Net

inductive AuthorityCall where
  | authorizationParts
  | publicAuthorizationSnapshot
  | refreshAfterUnauthorized (rejectedRevision : ℕ)
  deriving DecidableEq

/-- The errors of the three calls. -/
inductive AuthorityCallError where
  | stopped
  | refreshUnavailable
  | refreshTimedOut
  | rejectedRevisionMismatch
  | revisionExhausted
  | authenticationFailed (kind : AuthFailureKind)
  | unavailable
  | expired
  deriving DecidableEq

/-- `AukiPeerAuthorizationSnapshot`. -/
structure AuthorizationSnapshot where
  credentialRevision : ℕ
  credentialExpiresAt : DateTime
  claims : P2PAccessClaims
  deriving DecidableEq

/-- The three evaluations of `refresh_deadline`, with the deadline so far. -/
inductive RefreshStage where
  | unlocked
  | refreshLocked (deadline : Instant)
  | updateLocked (deadline : Instant)
  deriving DecidableEq

/-- The next access of a call. -/
inductive CallPhase where
  | partsStarted
  | partsReading
  | partsRead (authorization : String) (revision : ℕ)
  | partsChecking (authorization : String) (revision : ℕ)
  | snapshotStarted
  | snapshotReading
  | snapshotRead (snapshot : AuthorizationSnapshot)
  | snapshotChecking (snapshot : AuthorizationSnapshot)
  | deadlineStarted (rejected : ℕ) (stage : RefreshStage)
  | deadlineReading (rejected : ℕ) (stage : RefreshStage)
  | awaitingRefreshLock (rejected : ℕ) (deadline : Instant)
  | awaitingUpdateLock (rejected : ℕ) (deadline : Instant)
  | requesting (rejected : ℕ) (deadline : Instant)
  | waitStarted (rejected : ℕ) (deadline : Instant)
  | waitReading (rejected : ℕ) (deadline : Instant)
  | waiting (rejected : ℕ) (deadline : Instant)
  deriving DecidableEq

def AuthorityCall.first : AuthorityCall → CallPhase
  | .authorizationParts => .partsStarted
  | .publicAuthorizationSnapshot => .snapshotStarted
  | .refreshAfterUnauthorized rejected => .deadlineStarted rejected .unlocked

def RefreshStage.holdsRefresh : RefreshStage → Bool
  | .unlocked => false
  | .refreshLocked _ => true
  | .updateLocked _ => true

def RefreshStage.holdsUpdate : RefreshStage → Bool
  | .updateLocked _ => true
  | _ => false

/-- The deadline that a new one is combined with. -/
def RefreshStage.limit : RefreshStage → Instant → Instant
  | .unlocked, found => found
  | .refreshLocked deadline, found => min deadline found
  | .updateLocked deadline, found => min deadline found

/-- What the call does when `refresh_deadline` has given a deadline. -/
def RefreshStage.next (stage : RefreshStage) (rejected : ℕ) (deadline : Instant) : CallPhase :=
  match stage with
  | .unlocked => .awaitingRefreshLock rejected deadline
  | .refreshLocked _ => .awaitingUpdateLock rejected deadline
  | .updateLocked _ => .requesting rejected deadline

/-- The refresh lock is held to the end of `wait_for_revision`. -/
def CallPhase.holdsRefresh : CallPhase → Bool
  | .deadlineStarted _ stage => stage.holdsRefresh
  | .deadlineReading _ stage => stage.holdsRefresh
  | .awaitingUpdateLock _ _ => true
  | .requesting _ _ => true
  | .waitStarted _ _ => true
  | .waitReading _ _ => true
  | .waiting _ _ => true
  | _ => false

def CallPhase.holdsUpdate : CallPhase → Bool
  | .deadlineStarted _ stage => stage.holdsUpdate
  | .deadlineReading _ stage => stage.holdsUpdate
  | .requesting _ _ => true
  | _ => false

/-- The phases at an await, where the call may be dropped. -/
def CallPhase.atAwait : CallPhase → Bool
  | .awaitingRefreshLock _ _ => true
  | .awaitingUpdateLock _ _ => true
  | .waiting _ _ => true
  | _ => false

inductive AuthorityEvent (Keys Credential : Type) where
  | replaced (validated : ValidatedAuthorityUpdate Keys Credential) (revision : ℕ)
  | stopped
  | authorized (call : ℕ) (authorization : String) (revision : ℕ)
  | disclosed (call : ℕ) (snapshot : AuthorizationSnapshot)
  | refreshed (call : ℕ) (rejected : ℕ)
  | refused (call : ℕ) (error : AuthorityCallError)
  deriving DecidableEq

variable {Keys Credential : Type}

/-- What a call reads from outside. -/
structure CallReading where
  now : DateTime
  instant : Instant
  requestError : Option AuthorityCallError
  changed : Bool
  deriving DecidableEq

def wallRemaining (deadline now : DateTime) : Option Duration :=
  if now < deadline then some (deadline - now).toNat else none

variable (state : AuthorityState Keys)

/-- The first critical section of `authorization_parts`. -/
def AuthorityState.readParts :
    Except AuthorityCallError (String × ℕ) :=
  if state.stopped = true then
    .error .stopped
  else
    match state.current with
    | none => .error .refreshUnavailable
    | some current =>
      if current.available = true then
        .ok (current.authorization, current.credentialRevision)
      else
        .error .refreshUnavailable

def AuthorityState.stillCurrent (revision : ℕ) (now : DateTime) :
    Bool :=
  state.current.any fun current =>
    current.available && current.credentialRevision == revision &&
      decide (now < current.credentialExpiresAt)

/-- The first critical section of `public_authorization_snapshot`. -/
def AuthorityState.readSnapshot (now : DateTime) :
    Except AuthorityCallError AuthorizationSnapshot :=
  if state.stopped = true then
    .error .stopped
  else
    match state.current with
    | none => .error .unavailable
    | some current =>
      if current.available = true then
        .ok ⟨current.credentialRevision, current.credentialExpiresAt, current.claims⟩
      else if current.credentialExpiresAt ≤ now then
        .error .expired
      else
        .error .unavailable

/-- `validate_public_snapshot_fence`. -/
def AuthorityState.validateFence (revision : ℕ) (now : DateTime) :
    Except AuthorityCallError Unit :=
  if state.stopped = true then
    .error .stopped
  else
    match state.current with
    | none => .error .unavailable
    | some current =>
      if current.credentialRevision ≠ revision then
        .error .unavailable
      else if current.credentialExpiresAt ≤ now then
        .error .expired
      else if current.available = false then
        .error .unavailable
      else
        .ok ()

/-- The critical section of `refresh_deadline`. -/
def AuthorityState.refreshDeadline (rejected : ℕ) (earlyRefreshTimeout : Duration)
    (reading : CallReading) :
    Except AuthorityCallError (Option Instant) :=
  if state.stopped = true then
    .error .stopped
  else
    match state.current with
    | none => .error .refreshUnavailable
    | some current =>
      if current.available = false then
        .error .refreshUnavailable
      else if rejected < current.credentialRevision then
        .ok none
      else if current.credentialRevision < rejected then
        .error .rejectedRevisionMismatch
      else
        match wallRemaining current.credentialExpiresAt reading.now with
        | none => .error .refreshTimedOut
        | some remaining => .ok (some (reading.instant + min remaining earlyRefreshTimeout))

/-- The status in `wait_for_revision`: it returns, or waits on. -/
def AuthorityStatus.awaited (status : AuthorityStatus) (rejected : ℕ) :
    Option (Except AuthorityCallError Unit) :=
  match status with
  | .ready revision _ => if rejected < revision then some (.ok ()) else none
  | .expired _ _ => some (.error .refreshTimedOut)
  | .stopped => some (.error .stopped)
  | .authenticationFailed kind => some (.error (.authenticationFailed kind))
  | .starting => none

/-- The supervisor with the calls on it, and what has happened. -/
structure AuthorityCalls (Keys Credential : Type) where
  inner : AuthorityInner Keys Credential
  earlyRefreshTimeout : Duration
  refreshLocked : Bool
  calls : ℕ → Option CallPhase
  trace : List (AuthorityEvent Keys Credential)

inductive CallsAction (Keys Credential : Type) where
  | supervisor (action : AuthorityAction Keys Credential)
  | call (id : ℕ) (call : AuthorityCall)
  | advance (id : ℕ) (reading : CallReading)
  | drop (id : ℕ)
  deriving DecidableEq

/-- What a step of an operation records: a `Replaced` outcome, or a stop. -/
def AuthorityInner.operationEvents (inner : AuthorityInner Keys Credential) :
    Operation Keys Credential → List (AuthorityEvent Keys Credential)
  | .applyCommitting validated =>
    match inner.state.commit inner.shutdown validated with
    | (_, .ok (.ready revision _)) => [.replaced validated revision]
    | _ => []
  | .stopStarted => if inner.state.stopped = true then [] else [.stopped]
  | .failStarted _ => if inner.state.stopped = true then [] else [.stopped]
  | _ => []

def AuthorityInner.events (inner : AuthorityInner Keys Credential) :
    AuthorityAction Keys Credential → List (AuthorityEvent Keys Credential)
  | .advance index _ => inner.operations[index]?.elim [] inner.operationEvents
  | _ => []

namespace AuthorityCalls

def new (Keys Credential : Type) (earlyRefreshTimeout : Duration) :
    AuthorityCalls Keys Credential :=
  ⟨AuthorityInner.new Keys Credential, earlyRefreshTimeout, false, fun _ => none, []⟩

def goto (fence : AuthorityCalls Keys Credential) (id : ℕ) (phase : CallPhase) :
    AuthorityCalls Keys Credential :=
  { fence with calls := Function.update fence.calls id (some phase) }

variable (fence : AuthorityCalls Keys Credential)

/-- `expire_if_due`, and the next access. -/
def expireThen (id : ℕ) (phase : CallPhase) :
    AuthorityCalls Keys Credential :=
  { fence.goto id phase with
    inner := { fence.inner with operations := .expireStarted :: fence.inner.operations } }

/-- The call returns, and its guards are dropped. -/
def finish (id : ℕ) (phase : CallPhase) (events : List (AuthorityEvent Keys Credential)) :
    AuthorityCalls Keys Credential :=
  { fence with
    inner := { fence.inner with updateLocked := fence.inner.updateLocked && !phase.holdsUpdate }
    refreshLocked := fence.refreshLocked && !phase.holdsRefresh
    calls := Function.update fence.calls id none
    trace := fence.trace ++ events }

/-- One access of a call. -/
def advance (id : ℕ) (reading : CallReading) (phase : CallPhase) :
    Option (AuthorityCalls Keys Credential) :=
  match phase with
  | .partsStarted => some (fence.expireThen id .partsReading)
  | .partsReading =>
    if fence.inner.stateLocked = true then
      none
    else
      match fence.inner.state.readParts with
      | .error error => some (fence.finish id phase [.refused id error])
      | .ok (authorization, revision) => some (fence.goto id (.partsRead authorization revision))
  | .partsRead authorization revision =>
    some (fence.expireThen id (.partsChecking authorization revision))
  | .partsChecking authorization revision =>
    if fence.inner.stateLocked = true then
      none
    else if fence.inner.state.stillCurrent revision reading.now = true then
      some (fence.finish id phase [.authorized id authorization revision])
    else
      some (fence.finish id phase [.refused id .refreshUnavailable])
  | .snapshotStarted => some (fence.expireThen id .snapshotReading)
  | .snapshotReading =>
    if fence.inner.stateLocked = true then
      none
    else
      match fence.inner.state.readSnapshot reading.now with
      | .error error => some (fence.finish id phase [.refused id error])
      | .ok snapshot => some (fence.goto id (.snapshotRead snapshot))
  | .snapshotRead snapshot => some (fence.expireThen id (.snapshotChecking snapshot))
  | .snapshotChecking snapshot =>
    if fence.inner.stateLocked = true then
      none
    else
      match fence.inner.state.validateFence snapshot.credentialRevision reading.now with
      | .error error => some (fence.finish id phase [.refused id error])
      | .ok () => some (fence.finish id phase [.disclosed id snapshot])
  | .deadlineStarted rejected stage => some (fence.expireThen id (.deadlineReading rejected stage))
  | .deadlineReading rejected stage =>
    if fence.inner.stateLocked = true then
      none
    else
      match fence.inner.state.refreshDeadline rejected fence.earlyRefreshTimeout reading with
      | .error error => some (fence.finish id phase [.refused id error])
      | .ok none => some (fence.finish id phase [.refreshed id rejected])
      | .ok (some deadline) =>
        some (fence.goto id (stage.next rejected (stage.limit deadline)))
  | .awaitingRefreshLock rejected deadline =>
    if fence.refreshLocked = false then
      some { fence.goto id (.deadlineStarted rejected (.refreshLocked deadline)) with
        refreshLocked := true }
    else if deadline ≤ reading.instant then
      some (fence.finish id phase [.refused id .refreshTimedOut])
    else
      none
  | .awaitingUpdateLock rejected deadline =>
    if fence.inner.updateLocked = false then
      some { fence.goto id (.deadlineStarted rejected (.updateLocked deadline)) with
        inner := { fence.inner with updateLocked := true } }
    else if deadline ≤ reading.instant then
      some (fence.finish id phase [.refused id .refreshTimedOut])
    else
      none
  | .requesting rejected deadline =>
    match reading.requestError with
    | none =>
      -- `drop(update)`
      some { fence.goto id (.waitStarted rejected deadline) with
        inner := { fence.inner with updateLocked := false } }
    | some error => some (fence.finish id phase [.refused id error])
  | .waitStarted rejected deadline => some (fence.expireThen id (.waitReading rejected deadline))
  | .waitReading rejected deadline =>
    match fence.inner.status.awaited rejected with
    | none => some (fence.goto id (.waiting rejected deadline))
    | some (.ok ()) => some (fence.finish id phase [.refreshed id rejected])
    | some (.error error) => some (fence.finish id phase [.refused id error])
  | .waiting rejected deadline =>
    if fence.inner.shutdown = true then
      some (fence.finish id phase [.refused id .stopped])
    else if deadline ≤ reading.instant then
      some (fence.finish id phase [.refused id .refreshTimedOut])
    else if reading.changed = true then
      some (fence.goto id (.waitStarted rejected deadline))
    else
      none

/-- Steps under any interleaving of the operations and the calls. -/
def step (installer : AuthorityInstaller Keys Credential)
    (fence : AuthorityCalls Keys Credential) :
    CallsAction Keys Credential → Option (AuthorityCalls Keys Credential)
  | .supervisor action =>
    (fence.inner.step installer action).map fun inner =>
      { fence with inner := inner, trace := fence.trace ++ fence.inner.events action }
  | .call id call =>
    if fence.calls id = none then some (fence.goto id call.first) else none
  | .advance id reading => (fence.calls id).bind (fence.advance id reading)
  | .drop id =>
    (fence.calls id).bind fun phase =>
      if phase.atAwait = true then some (fence.finish id phase []) else none

end AuthorityCalls

end AukiSdk.Authority
