import AukiSdk.Booking.Policy
import AukiSdk.Foundation.Run
import AukiSdk.Relay.Provider

/-!
# The renewal time of the browser runtime

`supervise_relay` up to the pinned relay, the renewal and the status poll.
-/

namespace AukiSdk.Booking

open AukiSdk.Foundation
open AukiSdk.Net
open AukiSdk.Relay

deriving instance DecidableEq for RelayProvider

def newDualTransport (relayPeerId : PeerId) (rawBases : List String)
    (selectedTransport : RelayBaseTransport) (expectedLimits : ExpectedRelayLimits) :
    Except RelayReservationError RelayProvider :=
  match RelayProvider.newForTransport relayPeerId rawBases selectedTransport expectedLimits with
  | .error error => .error error
  | .ok provider =>
    match [RelayBaseTransport.tcp, .wss].find? fun required =>
        (provider.baseForTransport required).isNone with
    | some required => .error (.missingTransportBase required)
    | none => .ok provider

structure RelayFence where
  slotId : Uuid
  assignmentId : Uuid
  reservationEpoch : Uuid
  deriving DecidableEq

structure ReadyRelay where
  bookingId : Uuid
  requestedUntil : DateTime
  authorityExpiresAt : DateTime
  providerLeaseExpiresAt : DateTime
  fence : RelayFence
  provider : RelayProvider
  deriving DecidableEq

inductive ReadyRelayError where
  | invalid (reason : String)
  | provider (error : RelayReservationError)

structure AukiRelayConfig where
  mode : RelayBookingMode
  relayCount : ℕ
  requestedDuration : Duration
  statusPollInterval : Duration

def validatePolicy (snapshot : RelayBookingSnapshot) (policy : AukiRelayConfig) :
    Except ReadyRelayError Unit :=
  match validateActiveBooking snapshot
      ⟨policy.mode, policy.requestedDuration.asSecs, policy.relayCount⟩ with
  | .match => .ok ()
  | .policyMismatch | .ended =>
    .error (.invalid "active relay booking does not match the browser policy")

/-- `Option::ok_or` with `ReadyRelayError::Invalid`. -/
def orInvalid {Value : Type} (value : Option Value) (reason : String) :
    Except ReadyRelayError Value :=
  match value with
  | some value => .ok value
  | none => .error (.invalid reason)

def readyRelay (snapshot : RelayBookingSnapshot) (policy : AukiRelayConfig) :
    Except ReadyRelayError (Option ReadyRelay) := do
  validatePolicy snapshot policy
  let slot ← orInvalid snapshot.slots.head? "booking omitted its relay slot"
  if slot.state ≠ .ready then
    return none
  let assignmentId ← orInvalid slot.assignmentId "ready relay omitted its assignment ID"
  let reservationEpoch ←
    orInvalid slot.reservationEpoch "ready relay omitted its reservation epoch"
  let providerLeaseExpiresAt ←
    orInvalid slot.providerLeaseExpiresAt "ready relay omitted its provider lease deadline"
  let peerText ← orInvalid slot.providerPeerId "ready relay omitted its provider Peer ID"
  let relayPeerId ←
    orInvalid (PeerId.fromStr peerText) "ready relay has an invalid provider Peer ID"
  let bases ← orInvalid slot.providerBaseAddresses "ready relay omitted its provider bases"
  let limits ← orInvalid slot.limits "ready relay omitted its finite limits"
  let expectedLimits ← (ExpectedRelayLimits.new (Duration.fromSecs limits.durationSeconds)
    limits.dataBytesPerDirection).mapError .provider
  let provider ← (newDualTransport relayPeerId bases .wss expectedLimits).mapError .provider
  return some ⟨snapshot.bookingId, snapshot.requestedUntil, snapshot.authorityExpiresAt,
    providerLeaseExpiresAt, ⟨slot.slotId, assignmentId, reservationEpoch⟩, provider⟩

def matchesReadyRelay (pinned : ReadyRelay) (snapshot : RelayBookingSnapshot)
    (policy : AukiRelayConfig) : Except ReadyRelayError Bool := do
  let ready ← readyRelay snapshot policy
  return ready.any fun current =>
    current.bookingId = pinned.bookingId ∧ current.fence = pinned.fence ∧
      current.provider = pinned.provider

def relayUsableUntil (ready : ReadyRelay) : DateTime :=
  relayAuthorizedUntil ready.requestedUntil ready.authorityExpiresAt ready.providerLeaseExpiresAt

def relayRenewalStartDeadline (ready : ReadyRelay) : DateTime :=
  ready.authorityExpiresAt - ((relayAuthoritySafetyMargin + relayHttpRequestTimeout : ℕ) : ℤ)

def bookingRenewalDelayAt (ready : ReadyRelay) (now : DateTime) : Duration :=
  let remaining := remainingAt ready.authorityExpiresAt now
  let preferred := remaining / 4
  capRelayRenewalDelay remaining preferred relayHttpRequestTimeout

/-- `chrono::Duration::from_std`, up to `i64::MAX` milliseconds. -/
def chronoFromStd (duration : Duration) : Option Duration :=
  if duration ≤ (2 ^ 63 - 1) * 1000000 then some duration else none

def chronoDuration (duration : Duration) : Duration :=
  (chronoFromStd duration).getD (Duration.fromSecs 1)

/-- `pull_booking_renewal_forward`; without a result its `expect` panics. -/
def pullBookingRenewalForward (scheduled : DateTime) (ready : ReadyRelay) (now : DateTime) :
    Option DateTime :=
  (chronoFromStd (bookingRenewalDelayAt ready now)).map fun delay : Duration =>
    min scheduled (now + (delay : ℤ))

/-- `apply_relay_snapshot`; without a result the supervision fails. -/
def applyRelaySnapshot (pinned : ReadyRelay) (snapshot : RelayBookingSnapshot)
    (policy : AukiRelayConfig) : Option ReadyRelay :=
  match matchesReadyRelay pinned snapshot policy, readyRelay snapshot policy with
  | .ok true, .ok ready => ready
  | _, _ => none

def relayStatusPollAt (desired : Duration) (usableUntil now : DateTime) : DateTime :=
  now + (chronoDuration
    (capRelayStatusPollDelay desired usableUntil now relayHttpRequestTimeout) : ℤ)

def relayRetry : Duration := Duration.fromSecs 2

/-- The supervisor failed, its bearer expired, or the booking may be worked on. -/
inductive AuthorityAnswer where
  | failed
  | expired
  | usable
  deriving DecidableEq

/-- The readings and the answers that an iteration meets. -/
structure RelayIteration where
  started : DateTime
  woken : DateTime
  acting : DateTime
  authority : AuthorityAnswer
  renewal : Except RelayBookingClientError RelayBookingSnapshot
  status : Except RelayBookingClientError (Option RelayBookingSnapshot)
  answered : DateTime
  finish : DateTime

/-- The locals of `supervise_relay`. -/
structure RelaySupervision where
  pinned : ReadyRelay
  nextRenew : Option DateTime
  nextPoll : DateTime
  refused : Bool
  finish : DateTime

variable (policy : AukiRelayConfig)

/-- What `supervise_relay` sets up before its loop. -/
def RelaySupervision.start (pinned : ReadyRelay) (now finish : DateTime) : RelaySupervision where
  pinned := pinned
  nextRenew := some (now + (chronoDuration (bookingRenewalDelayAt pinned now) : ℤ))
  nextPoll := relayStatusPollAt policy.statusPollInterval (relayUsableUntil pinned) now
  refused := false
  finish := finish

def ensureRelayUsable (ready : ReadyRelay) (now : DateTime) : Option Unit :=
  if relayUsableUntil ready ≤ now then none else some ()

/-- The renewal of an iteration. -/
def RelaySupervision.renew (supervision : RelaySupervision) (iteration : RelayIteration) :
    Option RelaySupervision :=
  match iteration.renewal with
  | .ok snapshot => do
      let pinned ← applyRelaySnapshot supervision.pinned snapshot policy
      ensureRelayUsable pinned iteration.answered
      some { supervision with
        pinned := pinned
        nextRenew := some (iteration.answered +
          (chronoDuration (bookingRenewalDelayAt pinned iteration.answered) : ℤ))
        nextPoll := relayStatusPollAt policy.statusPollInterval (relayUsableUntil pinned)
          iteration.answered
        refused := false }
  | .error error =>
    if error.httpCode = some .paymentRequired then
      some { supervision with nextRenew := none, refused := true }
    else if error.isRetryable then
      let retry := error.retryAfter.getD relayRetry
      let latestRetry := relayRenewalStartDeadline supervision.pinned
      if latestRetry ≤ iteration.answered then
        none
      else
        some { supervision with
          nextRenew := some (min (iteration.answered + (chronoDuration retry : ℤ)) latestRetry) }
    else
      none

/-- `next_renew.map(|at| pull_booking_renewal_forward(at, pinned, now))`. -/
def pullForward (nextRenew : Option DateTime) (ready : ReadyRelay) (now : DateTime) :
    Option (Option DateTime) :=
  match nextRenew with
  | none => some none
  | some scheduled => (pullBookingRenewalForward scheduled ready now).map some

/-- The status poll of an iteration. -/
def RelaySupervision.poll (supervision : RelaySupervision) (iteration : RelayIteration) :
    Option RelaySupervision :=
  match iteration.status with
  | .ok (some snapshot) => do
      let pinned ← applyRelaySnapshot supervision.pinned snapshot policy
      ensureRelayUsable pinned iteration.answered
      let nextRenew ← pullForward supervision.nextRenew pinned iteration.answered
      some { supervision with
        pinned := pinned
        nextRenew := nextRenew
        nextPoll := relayStatusPollAt policy.statusPollInterval (relayUsableUntil pinned)
          iteration.answered }
  | .ok none => none
  | .error error =>
    if error.isRetryable then
      let retry := error.retryAfter.getD relayRetry
      some { supervision with
        nextPoll := iteration.answered + (chronoDuration retry : ℤ) }
    else
      none

/-- `relay_iteration`, up to its end. -/
def RelaySupervision.act (supervision : RelaySupervision) (iteration : RelayIteration) :
    Option RelaySupervision := do
  ensureRelayUsable supervision.pinned iteration.started
  ensureRelayUsable supervision.pinned iteration.woken
  match iteration.authority with
  | .failed => none
  | .expired => some supervision
  | .usable =>
    ensureRelayUsable supervision.pinned iteration.acting
    if supervision.nextRenew.any fun scheduled => scheduled ≤ iteration.acting then
      supervision.renew policy iteration
    else if supervision.nextPoll ≤ iteration.acting then
      supervision.poll policy iteration
    else
      some supervision

/-- An iteration that leaves the loop running. -/
def RelaySupervision.iterate (supervision : RelaySupervision) (iteration : RelayIteration) :
    Option RelaySupervision :=
  (supervision.act policy iteration).map fun next => { next with finish := iteration.finish }

end AukiSdk.Booking
