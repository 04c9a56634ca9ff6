import AukiSdk.Booking.Policy
import AukiSdk.Foundation.Run

/-!
# The renewal timer of the coordinator

`CoordinatorActor` as far as its snapshot and its renewal timer go.
-/

namespace AukiSdk.Booking

open AukiSdk.Foundation
open AukiSdk.Net

/-- `RelayCoordinatorConfig`: what the control plane reads. -/
structure RelayCoordinatorConfig where
  mode : RelayBookingMode
  requestedDurationSeconds : ℕ
  relayCount : ℕ
  httpTimeout : Duration
  retryMin : Duration
  retryMax : Duration

def requesterPrincipalIsRefreshable (error : RelayBookingClientError) : Bool :=
  error.httpCode.any fun code =>
    code.isStaleRequesterPrincipal || code.isInvalidRequesterPrincipal

def controlErrorEndsAuthority (error : RelayBookingClientError) : Bool :=
  requesterPrincipalIsRefreshable error ||
    error.httpCode.any fun code => code = .authorityEnded || code = .notFound

/-- `control_call_recovering_principal`. -/
structure ControlAnswers (Reply : Type) where
  first : Except RelayBookingClientError Reply
  second : Except RelayBookingClientError Reply

def ControlAnswers.result {Reply : Type} (answers : ControlAnswers Reply) :
    Except RelayBookingClientError Reply :=
  match answers.first with
  | .error error =>
    if requesterPrincipalIsRefreshable error then answers.second else answers.first
  | .ok _ => answers.first

/-- `u64::try_from(duration.as_millis()).unwrap_or(u64::MAX)`. -/
def saturatedMillis (duration : Duration) : ℕ := min (duration / 1000000) (2 ^ 64 - 1)

/-- `retry_jitter`, with the draw of the generator. -/
def retryJitter (minimum maximum : Duration) (draw : ℕ) : Duration :=
  let minimumMs := saturatedMillis minimum
  let maximumMs := saturatedMillis (max maximum minimum)
  (minimumMs + draw % (maximumMs - minimumMs + 1)) * 1000000

/-- The wall clock is read before the monotonic clock. -/
structure ClockReadings where
  utc : DateTime
  instant : DateTime

/-- What `schedule_renewal` reads: the clocks and `mul_f64` with the random factor. -/
structure ScheduleDraw where
  clocks : ClockReadings
  fraction : Duration → Duration

/-- `CoordinatorActor` and the end of the last turn. -/
structure CoordinatorActor where
  snapshot : RelayBookingSnapshot
  nextRenew : DateTime
  refused : Bool
  finish : DateTime

/-- One arm of the select in `CoordinatorActor::run`. -/
inductive CoordinatorEvent where
  /-- The renewal timer has fired. -/
  | renew (answers : ControlAnswers RelayBookingSnapshot) (slotsApplied : Bool)
      (schedule : ScheduleDraw) (clocks : ClockReadings) (draw : ℕ)
  /-- The poll timer has fired, while the slots expire at `nextExpiry`. -/
  | poll (nextExpiry : DateTime) (answers : ControlAnswers (Option RelayBookingSnapshot))
      (slotsApplied : Bool)
  /-- A failure of a slot is reported; `hasFence` is `snapshot_has_fence`. -/
  | reportFailure (hasFence : Bool) (nextExpiry : DateTime)
      (answers : ControlAnswers RelayBookingSnapshot) (slotRetired slotsApplied : Bool)
  /-- Any other relay event, child event, cleanup or expiry of local authority. -/
  | other (succeeded : Bool)

structure CoordinatorTurn where
  start : DateTime
  event : CoordinatorEvent
  finish : DateTime

variable (config : RelayCoordinatorConfig)

def validateBookingMatches (snapshot : RelayBookingSnapshot) : Bool :=
  validateActiveBooking snapshot
    ⟨config.mode, config.requestedDurationSeconds, config.relayCount⟩ = .match

variable (actor : CoordinatorActor)

def CoordinatorActor.scheduleRenewal (schedule : ScheduleDraw) :
    CoordinatorActor :=
  let remaining := remainingAt actor.snapshot.authorityExpiresAt schedule.clocks.utc
  let preferred := schedule.fraction remaining
  let renewAfter :=
    max (capRelayRenewalDelay remaining preferred config.httpTimeout) relayRenewRetryFloor
  { actor with nextRenew := schedule.clocks.instant + renewAfter }

/-- `apply_snapshot`; the loop ends when it fails. -/
def CoordinatorActor.applySnapshot (snapshot : RelayBookingSnapshot) (slotsApplied : Bool) :
    Option CoordinatorActor :=
  if snapshot.bookingId ≠ actor.snapshot.bookingId then
    none
  else if snapshot.state ≠ .active then
    none
  else if validateBookingMatches config snapshot = false then
    none
  else if slotsApplied = false then
    none
  else
    some { actor with snapshot := snapshot }

def CoordinatorActor.renew (answers : ControlAnswers RelayBookingSnapshot) (slotsApplied : Bool)
    (schedule : ScheduleDraw) (clocks : ClockReadings) (draw : ℕ) : Option CoordinatorActor :=
  let remaining := remainingAt actor.snapshot.authorityExpiresAt clocks.utc
  match answers.result with
  | .ok snapshot =>
    (actor.applySnapshot config snapshot slotsApplied).map fun applied =>
      { applied.scheduleRenewal config schedule with refused := false }
  | .error error =>
    if error.httpCode = some .paymentRequired then
      some { actor with nextRenew := clocks.instant + remaining, refused := true }
    else if controlErrorEndsAuthority error then
      none
    else
      let retryWindow := capRelayRenewalDelay remaining remaining config.httpTimeout
      if retryWindow = 0 then
        none
      else
        let retryMax := min config.retryMax retryWindow
        let retryMin := min config.retryMin retryMax
        some { actor with nextRenew := clocks.instant + retryJitter retryMin retryMax draw }

/-- A request with its full timeout would run into the renewal or an expiry. -/
def CoordinatorActor.protects (nextExpiry now : DateTime) : Bool :=
  (min actor.nextRenew nextExpiry - now).toNat ≤ config.httpTimeout

/-- `poll`, behind the guard of its select arm. -/
def CoordinatorActor.poll (now nextExpiry : DateTime)
    (answers : ControlAnswers (Option RelayBookingSnapshot)) (slotsApplied : Bool) :
    Option CoordinatorActor :=
  if actor.protects config nextExpiry now then
    some actor
  else
    match answers.result with
    | .ok (some snapshot) => actor.applySnapshot config snapshot slotsApplied
    | .ok none => none
    | .error error => if controlErrorEndsAuthority error then none else some actor

def CoordinatorActor.reportFailure (now : DateTime) (hasFence : Bool) (nextExpiry : DateTime)
    (answers : ControlAnswers RelayBookingSnapshot) (slotRetired slotsApplied : Bool) :
    Option CoordinatorActor :=
  if hasFence = false then
    some actor
  else if actor.protects config nextExpiry now then
    some actor
  else
    match answers.result with
    | .ok snapshot =>
      if slotRetired then actor.applySnapshot config snapshot slotsApplied else none
    | .error error => if controlErrorEndsAuthority error then none else some actor

def CoordinatorActor.handle (now : DateTime) :
    CoordinatorEvent → Option CoordinatorActor
  | .renew answers slotsApplied schedule clocks draw =>
    if now < actor.nextRenew then none
    else actor.renew config answers slotsApplied schedule clocks draw
  | .poll nextExpiry answers slotsApplied => actor.poll config now nextExpiry answers slotsApplied
  | .reportFailure hasFence nextExpiry answers slotRetired slotsApplied =>
    actor.reportFailure config now hasFence nextExpiry answers slotRetired slotsApplied
  | .other succeeded => if succeeded then some actor else none

/-- A turn that leaves the loop running. -/
def CoordinatorActor.turn (actor : CoordinatorActor) (turn : CoordinatorTurn) :
    Option CoordinatorActor :=
  (actor.handle config turn.start turn.event).map fun next => { next with finish := turn.finish }

/-- The actor that `start_with_backends` builds. -/
def CoordinatorActor.start (snapshot : RelayBookingSnapshot) (schedule : ScheduleDraw)
    (finish : DateTime) : CoordinatorActor :=
  CoordinatorActor.scheduleRenewal config ⟨snapshot, schedule.clocks.instant, false, finish⟩
    schedule

end AukiSdk.Booking
