import AukiSdk.Foundation.Run
import AukiSdk.Net.Clock

/-!
# Machine access tokens

A `TokenManager` hands one access token to any number of concurrent callers.
-/

namespace AukiSdk.Machine

open AukiSdk.Net

def MIN_DURATION : Duration := 1000000

def AUTH_FAILURE_BACKOFF : Duration := Duration.fromSecs 30

def nanosPerMilli : ℕ := 1000000

inductive SiweError (Failure : Type) where
  | missingField (field : String)
  | failure (error : Failure)
deriving DecidableEq

inductive TokenManagerError (Failure : Type) where
  | stopped
  | authentication (attempts : ℕ) (lastError : SiweError Failure)
  | authenticationBackoff
deriving DecidableEq

structure AccessBundle where
  token : String
  expiresAt : DateTime
deriving DecidableEq

/-- `safeDuration` is the product with the safety ratio, `none` if not positive. -/
structure TokenManagerConfig where
  safeDuration : Duration → Option Duration
  maxRetries : ℕ
  jitter : Duration

structure TokenEntry where
  value : String
  refreshAt : Instant
deriving DecidableEq

def TokenEntry.isValid (entry : TokenEntry) (now : Instant) : Bool :=
  decide (now ≤ entry.refreshAt)

def checkedSub (instant : Instant) (duration : Duration) : Option Instant :=
  if duration ≤ instant then some (instant - duration) else none

/-- `signed_duration_since(now_utc).to_std()`: only a time that is not in the
past has a duration. -/
def lifetime (bundle : AccessBundle) (nowUtc : DateTime) : Option Duration :=
  if nowUtc ≤ bundle.expiresAt then some (bundle.expiresAt - nowUtc).toNat else none

variable (config : TokenManagerConfig)

/-- The refresh deadline of a token that lives for `ttl`. -/
def refreshDeadline (now : Instant) (ttl : Duration) (jitterMs : ℤ) : Instant :=
  let safeDuration := match config.safeDuration ttl with
    | none => min MIN_DURATION ttl
    | some duration => min duration ttl
  let baseRefresh := now + safeDuration
  let refreshAt :=
    if 0 ≤ jitterMs then baseRefresh + jitterMs.toNat * nanosPerMilli
    else (checkedSub baseRefresh ((-jitterMs).toNat * nanosPerMilli)).getD now
  min (max refreshAt (now + min MIN_DURATION ttl)) (now + ttl)

def bundleToEntry {Failure : Type} (config : TokenManagerConfig) (bundle : AccessBundle)
    (now : Instant) (nowUtc : DateTime) (jitterMs : ℤ) : Except (SiweError Failure) TokenEntry :=
  match lifetime bundle nowUtc with
  | none => .error (.missingField "expires_at")
  | some ttl =>
    if ttl = 0 then .error (.missingField "expires_at")
    else .ok ⟨bundle.token, refreshDeadline config now ttl jitterMs⟩

/-- The values that `sample_jitter_ms` draws from. -/
def TokenManagerConfig.jitters (jitterMs : ℤ) : Bool :=
  decide (jitterMs.natAbs ≤ config.jitter / nanosPerMilli)

/-- `max_retries.saturating_add(1)` on 32 bits. -/
def TokenManagerConfig.attempts : ℕ :=
  min (config.maxRetries + 1) (2 ^ 32 - 1)

theorem refreshDeadline_bounds (now : Instant) {ttl : Duration} (hpos : 0 < ttl) (jitterMs : ℤ) :
    now < refreshDeadline config now ttl jitterMs ∧
      refreshDeadline config now ttl jitterMs ≤ now + ttl := by
  have hmin : now < now + min MIN_DURATION ttl := Nat.lt_add_of_pos_right (lt_min (by decide) hpos)
  exact ⟨lt_min (lt_max_of_lt_right hmin) (Nat.lt_add_of_pos_right hpos), min_le_right _ _⟩

theorem bundleToEntry_eq_ok {Failure : Type} {config : TokenManagerConfig}
    {bundle : AccessBundle} {now : Instant} {nowUtc : DateTime} {jitterMs : ℤ}
    {entry : TokenEntry}
    (hent : @bundleToEntry Failure config bundle now nowUtc jitterMs = .ok entry) :
    entry.value = bundle.token ∧ ∃ ttl, lifetime bundle nowUtc = some ttl ∧
      now < entry.refreshAt ∧ entry.refreshAt ≤ now + ttl := by
  unfold bundleToEntry at hent
  split at hent
  · cases hent
  · rename_i ttl hlif
    split at hent
    · cases hent
    · rename_i hpos
      cases hent
      exact ⟨rfl, ttl, hlif, refreshDeadline_bounds config now (Nat.pos_of_ne_zero hpos) jitterMs⟩

/-- Where a `get_access` call is; a `Notify` is named by the call that made it. -/
inductive CallPhase (Failure : Type) where
  /-- At the top of the loop, before the state lock. -/
  | locking (now : Instant)
  /-- The lock is released and the cloned `Notify` not yet subscribed to. -/
  | cloned (now : Instant) (notify : ℕ)
  | waiting (now : Instant) (notify : ℕ)
  | entered (now : Instant)
  | checking (now : Instant) (attempt : ℕ)
  /-- The stop flag was read as clear. -/
  | checked (now : Instant) (attempt : ℕ)
  /-- Subscribed to `stop_notify`; `signalled` when it has been notified since. -/
  | armed (now : Instant) (attempt : ℕ) (signalled : Bool)
  | loggingIn (now : Instant) (attempt : ℕ) (signalled : Bool)
  | received (now : Instant) (attempt : ℕ) (bundle : AccessBundle)
  | delaying (now : Instant) (attempt : ℕ)
  | reauthed (now : Instant) (result : Except (TokenManagerError Failure) TokenEntry)
  /-- The outcome is written, the lock is released and `taken` not yet notified. -/
  | signalling (now : Instant) (taken : Option ℕ)
      (result : Except (TokenManagerError Failure) TokenEntry)
  /-- The caller of a successful call receives the entry's value. -/
  | returned (now : Instant) (result : Except (TokenManagerError Failure) TokenEntry)
  | dropped
deriving DecidableEq

/-- What happened, for statements about runs. -/
inductive Event (Failure : Type) where
  /-- A call computed a refresh deadline for a token that lives for `ttl`. -/
  | issued (call : ℕ) (now : Instant) (ttl : Duration) (entry : TokenEntry)
  /-- A login request started. -/
  | login (call : ℕ) (now : Instant)
  /-- A login sequence failed and set the backoff. -/
  | failed (now : Instant)
  | returned (call : ℕ) (now : Instant) (result : Except (TokenManagerError Failure) TokenEntry)
  | cleared
  /-- `on_unauthorized_retry`, with the deadline it gave to a held token. -/
  | denied (deadline : Option Instant)
  | stopReturned
  | bgStarted
deriving DecidableEq

/-- The private steps of the call that logs in. -/
inductive LoginAction (Failure : Type) where
  | checkStopped
  | subscribeStop
  | beginLogin
  | observeStop
  | loginReturns (result : Except (SiweError Failure) AccessBundle)
  | convert (nowUtc : DateTime) (jitterMs : ℤ)
  | endDelay

variable {Failure : Type}

/-- A failed attempt is followed by a delay and another one, while any is left. -/
def attemptFailed (now : Instant) (attempt : ℕ) (error : SiweError Failure) : CallPhase Failure :=
  if attempt < config.attempts then .delaying now attempt
  else .reauthed now (.error (.authentication config.attempts error))

/-- `reauth`, one step at a time. -/
def CallPhase.advance (stopped : Bool) (call : ℕ) :
    CallPhase Failure → LoginAction Failure → Option (CallPhase Failure × List (Event Failure))
  | .entered now, .checkStopped =>
    some (if stopped then .reauthed now (.error .stopped) else .checking now 1, [])
  | .checking now attempt, .checkStopped =>
    some (if stopped then .reauthed now (.error .stopped) else .checked now attempt, [])
  | .checked now attempt, .subscribeStop => some (.armed now attempt false, [])
  | .armed now attempt signalled, .beginLogin =>
    some (.loggingIn now attempt signalled, [.login call now])
  | .armed now _ true, .observeStop => some (.reauthed now (.error .stopped), [])
  | .loggingIn now _ true, .observeStop => some (.reauthed now (.error .stopped), [])
  | .loggingIn now attempt _, .loginReturns (.ok bundle) =>
    some (.received now attempt bundle, [])
  | .loggingIn now attempt _, .loginReturns (.error error) =>
    some (attemptFailed config now attempt error, [])
  | .received now attempt bundle, .convert nowUtc jitterMs =>
    if config.jitters jitterMs then
      match bundleToEntry config bundle now nowUtc jitterMs with
      | .ok entry =>
        some (.reauthed now (.ok entry),
          [.issued call now ((lifetime bundle nowUtc).getD 0) entry])
      | .error error => some (attemptFailed config now attempt error, [])
    else none
  | .delaying now attempt, .endDelay => some (.checking now (attempt + 1), [])
  | _, _ => none

/-- The caller's `now` of the call that logs in. -/
def CallPhase.loginNow : CallPhase Failure → Option Instant
  | .entered now => some now
  | .checking now _ => some now
  | .checked now _ => some now
  | .armed now _ _ => some now
  | .loggingIn now _ _ => some now
  | .received now _ _ => some now
  | .delaying now _ => some now
  | .reauthed now _ => some now
  | _ => none

/-- The token that a login obtained and its call has not returned yet. -/
def CallPhase.obtained : CallPhase Failure → Option (Instant × TokenEntry)
  | .reauthed now (.ok entry) => some (now, entry)
  | .signalling now _ (.ok entry) => some (now, entry)
  | _ => none

/-- The calls suspended at an await, which can be dropped. -/
def CallPhase.Suspended : CallPhase Failure → Bool
  | .locking _ => true
  | .waiting _ _ => true
  | .loggingIn _ _ _ => true
  | .received _ _ _ => true
  | .delaying _ _ => true
  | .reauthed _ _ => true
  | _ => false

/-- The calls that wait on a notified `Notify` go back to the top of the loop. -/
def CallPhase.notified (notify : ℕ) : CallPhase Failure → CallPhase Failure
  | .waiting now found => if found = notify then .locking now else .waiting now found
  | phase => phase

/-- The calls subscribed to `stop_notify` see its notification. -/
def CallPhase.stopNotified : CallPhase Failure → CallPhase Failure
  | .armed now attempt _ => .armed now attempt true
  | .loggingIn now attempt _ => .loggingIn now attempt true
  | phase => phase

/-- Where a `stop` call is, after each of its writes. -/
inductive StopPhase where
  | flagged
  | notified
  | signalling (taken : Option ℕ)
  | joining
  /-- The loop handle is taken and its end awaited. -/
  | awaiting
  | returned
deriving DecidableEq

structure State where
  token : Option TokenEntry
  inflight : Option ℕ
  retryNotBefore : Option Instant
deriving DecidableEq

/-- A manager with its calls.  `bgTask` tells whether a loop handle is held. -/
structure Manager (Failure : Type) where
  state : State
  stopped : Bool
  bgTask : Bool
  calls : ℕ → Option (CallPhase Failure)
  stops : ℕ → Option StopPhase
  trace : List (Event Failure)

/-- `TokenManager::with_rng`. -/
def Manager.new : Manager Failure where
  state := ⟨none, none, none⟩
  stopped := false
  bgTask := false
  calls := fun _ => none
  stops := fun _ => none
  trace := []

inductive Label (Failure : Type) where
  | call (call : ℕ) (now : Instant)
  | enter (call : ℕ)
  | subscribe (call : ℕ)
  | login (call : ℕ) (action : LoginAction Failure)
  | commit (call : ℕ)
  | signal (call : ℕ)
  | drop (call : ℕ)
  | clear
  | onUnauthorizedRetry (clock : Instant)
  | stop (stop : ℕ)
  | stopNotify (stop : ℕ)
  | stopClear (stop : ℕ)
  | stopSignal (stop : ℕ)
  | stopJoin (stop : ℕ)
  | stopReturn (stop : ℕ)
  | startBg

namespace Manager

def setCall (manager : Manager Failure) (call : ℕ) (phase : CallPhase Failure) :
    Manager Failure :=
  { manager with calls := Function.update manager.calls call (some phase) }

def setStop (manager : Manager Failure) (stop : ℕ) (phase : StopPhase) : Manager Failure :=
  { manager with stops := Function.update manager.stops stop (some phase) }

variable (manager : Manager Failure)

def record (events : List (Event Failure)) : Manager Failure :=
  { manager with trace := manager.trace ++ events }

/-- A call returns. -/
def finish (call : ℕ) (now : Instant) (result : Except (TokenManagerError Failure) TokenEntry) :
    Manager Failure :=
  (manager.setCall call (.returned now result)).record [.returned call now result]

/-- `Notify::notify_waiters` on the in-flight `Notify`. -/
def notifyWaiters : Option ℕ → Manager Failure
  | none => manager
  | some notify =>
    { manager with calls := fun call => (manager.calls call).map (·.notified notify) }

/-- The end of the critical section: wait for the running login or own a new one. -/
def join (call : ℕ) (now : Instant) : Manager Failure :=
  match manager.state.inflight with
  | some existing => manager.setCall call (.cloned now existing)
  | none =>
    { manager with state := { manager.state with inflight := some call } }.setCall call
      (.entered now)

/-- The critical section at the top of `get_access`. -/
def enter (call : ℕ) (now : Instant) : Manager Failure :=
  if manager.stopped then manager.finish call now (.error .stopped)
  else
    match manager.state.token.filter (·.isValid now) with
    | some entry => manager.finish call now (.ok entry)
    | none =>
      match manager.state.retryNotBefore with
      | none => manager.join call now
      | some retryNotBefore =>
        if now < retryNotBefore then manager.finish call now (.error .authenticationBackoff)
        else
          { manager with state := { manager.state with retryNotBefore := none } }.join call now

/-- The critical section after `reauth`. -/
def commit (call : ℕ) (now : Instant) (result : Except (TokenManagerError Failure) TokenEntry) :
    Manager Failure :=
  match result with
  | .ok entry =>
    { manager with state := ⟨some entry, none, none⟩ }.setCall call
      (.signalling now manager.state.inflight (.ok entry))
  | .error error =>
    ({ manager with
      state := ⟨manager.state.token, none, some (now + AUTH_FAILURE_BACKOFF)⟩ }.setCall call
        (.signalling now manager.state.inflight (.error error))).record [.failed now]

/-- `clear`; the notification of `state_notify` concerns the background loop only. -/
def clear : Manager Failure :=
  { manager with state := ⟨none, manager.state.inflight, none⟩ }.record [.cleared]

def onUnauthorizedRetry (clock : Instant) : Manager Failure :=
  let deadline := (checkedSub clock MIN_DURATION).getD clock
  let token := manager.state.token.map fun entry => { entry with refreshAt := deadline }
  { manager with state := ⟨token, manager.state.inflight, none⟩ }.record
    [.denied (token.map TokenEntry.refreshAt)]

/-- `start_bg` clears the stop flag unless a loop handle is held. -/
def startBg : Manager Failure :=
  (if manager.bgTask then manager
  else { manager with stopped := false, bgTask := true }).record [.bgStarted]

/-- One step of a call, of a `stop` or of the other operations. -/
def step (config : TokenManagerConfig) (manager : Manager Failure) :
    Label Failure → Option (Manager Failure)
  | .call call now =>
    match manager.calls call with
    | none => some (manager.setCall call (.locking now))
    | some _ => none
  | .enter call =>
    match manager.calls call with
    | some (.locking now) => some (manager.enter call now)
    | _ => none
  | .subscribe call =>
    match manager.calls call with
    | some (.cloned now notify) => some (manager.setCall call (.waiting now notify))
    | _ => none
  | .login call action => do
      let phase ← manager.calls call
      let (phase, events) ← phase.advance config manager.stopped call action
      return (manager.setCall call phase).record events
  | .commit call =>
    match manager.calls call with
    | some (.reauthed now result) => some (manager.commit call now result)
    | _ => none
  | .signal call =>
    match manager.calls call with
    | some (.signalling now taken result) =>
      some ((manager.notifyWaiters taken).finish call now result)
    | _ => none
  | .drop call => do
      let phase ← manager.calls call
      if phase.Suspended then return manager.setCall call .dropped else none
  | .clear => some manager.clear
  | .onUnauthorizedRetry clock => some (manager.onUnauthorizedRetry clock)
  | .stop stop =>
    match manager.stops stop with
    | none => some ({ manager with stopped := true }.setStop stop .flagged)
    | some _ => none
  | .stopNotify stop =>
    match manager.stops stop with
    | some .flagged =>
      some ({ manager with
        calls := fun call => (manager.calls call).map CallPhase.stopNotified }.setStop stop
          .notified)
    | _ => none
  | .stopClear stop =>
    match manager.stops stop with
    | some .notified =>
      some ({ manager with state := ⟨none, none, none⟩ }.setStop stop
        (.signalling manager.state.inflight))
    | _ => none
  | .stopSignal stop =>
    match manager.stops stop with
    | some (.signalling taken) => some ((manager.notifyWaiters taken).setStop stop .joining)
    | _ => none
  | .stopJoin stop =>
    match manager.stops stop with
    | some .joining => some ({ manager with bgTask := false }.setStop stop .awaiting)
    | _ => none
  | .stopReturn stop =>
    match manager.stops stop with
    | some .awaiting => some ((manager.setStop stop .returned).record [.stopReturned])
    | _ => none
  | .startBg => some manager.startBg

end Manager

end AukiSdk.Machine
