import AukiSdk.Net.Clock
import AukiSdk.Net.Identifiers

/-!
# The booking policy the runtimes share

What both relay runtimes read of a DMS booking.
-/

namespace AukiSdk.Booking

open AukiSdk.Net

inductive RelayBookingMode where
  | «public»
  | dedicated
  deriving DecidableEq

inductive RelayBookingState where
  | active
  | canceled
  | expired
  | failed
  deriving DecidableEq

inductive RelaySlotState where
  | queued
  | starting
  | ready
  | recovering
  | reassigning
  | ended
  deriving DecidableEq

structure RelayLimits where
  durationSeconds : ℕ
  dataBytesPerDirection : ℕ
  deriving DecidableEq

/-- `RelaySlotSnapshot`, without the index and the recovery deadline. -/
structure RelaySlotSnapshot where
  slotId : Uuid
  state : RelaySlotState
  assignmentId : Option Uuid
  reservationEpoch : Option Uuid
  providerPeerId : Option String
  providerBaseAddresses : Option (List String)
  limits : Option RelayLimits
  providerLeaseExpiresAt : Option DateTime
  deriving DecidableEq

/-- `RelayBookingSnapshot`, without its counts and past dates. -/
structure RelayBookingSnapshot where
  bookingId : Uuid
  mode : RelayBookingMode
  state : RelayBookingState
  relayCount : ℕ
  requestedDurationSeconds : ℕ
  requestedUntil : DateTime
  authorityExpiresAt : DateTime
  slots : List RelaySlotSnapshot
  deriving DecidableEq

inductive RelayErrorCode where
  | paymentRequired
  | unauthorized
  | invalidRequest
  | missingIdempotencyKey
  | invalidIdempotencyKey
  | invalidRobotPrincipal
  | invalidRequesterPrincipal
  | forbidden
  | notFound
  | activeBookingConflict
  | idempotencyConflict
  | targetPeerConflict
  | staleRobotPrincipal
  | staleRequesterPrincipal
  | staleFence
  | authorityEnded
  | organizationSlotQuotaExceeded
  | dependencyUnavailable
  | internalError
  deriving DecidableEq

def RelayErrorCode.isInvalidRequesterPrincipal (code : RelayErrorCode) : Bool :=
  code = .invalidRobotPrincipal || code = .invalidRequesterPrincipal

def RelayErrorCode.isStaleRequesterPrincipal (code : RelayErrorCode) : Bool :=
  code = .staleRobotPrincipal || code = .staleRequesterPrincipal

/-- `RelayBookingClientError`. -/
inductive RelayBookingClientError where
  | invalidConfiguration
  | invalidRequest
  | invalidIdempotencyKey
  | authentication
  | transport (timeout : Bool)
  | requestSerialization
  | responseTooLarge
  | invalidResponse (reason : String)
  | http (status : ℕ) (code : RelayErrorCode) (retryAfter : Option Duration)
  deriving DecidableEq

def RelayBookingClientError.isRetryable : RelayBookingClientError → Bool
  | .transport _ => true
  | .http status _ _ => status = 429 || 500 ≤ status && status < 600
  | _ => false

def RelayBookingClientError.httpCode : RelayBookingClientError → Option RelayErrorCode
  | .http _ code _ => some code
  | _ => none

def RelayBookingClientError.retryAfter : RelayBookingClientError → Option Duration
  | .http _ _ retryAfter => retryAfter
  | _ => none

def relayHttpRequestTimeout : Duration := Duration.fromSecs 10

def relayAuthoritySafetyMargin : Duration := Duration.fromSecs 20

def relayRenewRetryFloor : Duration := Duration.fromSecs 1

inductive ActiveBookingValidation where
  | «match»
  | policyMismatch
  | ended
  deriving DecidableEq

structure RelayBookingExpectation where
  mode : RelayBookingMode
  requestedDurationSeconds : ℕ
  relayCount : ℕ

def validateActiveBooking (snapshot : RelayBookingSnapshot)
    (expected : RelayBookingExpectation) : ActiveBookingValidation :=
  if snapshot.mode ≠ expected.mode
      ∨ snapshot.requestedDurationSeconds ≠ expected.requestedDurationSeconds
      ∨ snapshot.relayCount ≠ expected.relayCount then
    .policyMismatch
  else if snapshot.state ≠ .active then
    .ended
  else
    .match

/-- `later.signed_duration_since(now).to_std().unwrap_or_default()`. -/
def remainingAt (deadline now : DateTime) : Duration := (deadline - now).toNat

def relayAuthorizedUntil (requestedUntil authorityExpiresAt providerLeaseExpiresAt : DateTime) :
    DateTime :=
  min (min requestedUntil authorityExpiresAt) providerLeaseExpiresAt - relayAuthoritySafetyMargin

def capRelayRenewalDelay (remaining preferred httpTimeout : Duration) : Duration :=
  min preferred (remaining - relayAuthoritySafetyMargin - httpTimeout)

def capRelayStatusPollDelay (desired : Duration) (usableUntil now : DateTime)
    (httpTimeout : Duration) : Duration :=
  max (min desired (remainingAt usableUntil now - httpTimeout)) 1000000

/-- The latest start of a renewal that still ends before the safety deadline. -/
def renewalDeadline (authorityExpiresAt : DateTime) (httpTimeout : Duration) : DateTime :=
  authorityExpiresAt - relayAuthoritySafetyMargin - httpTimeout

/-- A renewal `at` this time, scheduled by a step that ended at `finish`, is in time. -/
def InTime (finish : DateTime) (authorityExpiresAt : DateTime) (httpTimeout : Duration)
    (scheduled : DateTime) : Prop :=
  scheduled ≤ max (finish + relayRenewRetryFloor) (renewalDeadline authorityExpiresAt httpTimeout)

instance (finish authorityExpiresAt : DateTime) (httpTimeout : Duration) (scheduled : DateTime) :
    Decidable (InTime finish authorityExpiresAt httpTimeout scheduled) :=
  inferInstanceAs (Decidable (_ ≤ _))

variable {finish later authority longer scheduled now : DateTime} {httpTimeout : Duration}

theorem InTime.mono (hin : InTime finish authority httpTimeout scheduled)
    (hfin : finish ≤ later) (haut : authority ≤ longer) :
    InTime later longer httpTimeout scheduled := by
  rw [InTime, renewalDeadline] at *
  calc scheduled
      ≤ max (finish + relayRenewRetryFloor)
          (authority - relayAuthoritySafetyMargin - httpTimeout) := hin
    _ ≤ max (later + relayRenewRetryFloor)
          (longer - relayAuthoritySafetyMargin - httpTimeout) :=
        max_le_max (by linarith) (by linarith)

theorem InTime.earlier (hin : InTime finish authority httpTimeout later)
    (hsch : scheduled ≤ later) : InTime finish authority httpTimeout scheduled :=
  le_trans hsch hin

theorem capped_le (deadline now : ℤ) (preferred margin timeout : ℕ) :
    now + ((min preferred ((deadline - now).toNat - margin - timeout) : ℕ) : ℤ) ≤
      max now (deadline - margin - timeout) := by
  omega

/-- What the cap leaves reaches at most the renewal deadline. -/
theorem capRelayRenewalDelay_le (authority now : DateTime) (preferred httpTimeout : Duration) :
    now + capRelayRenewalDelay (remainingAt authority now) preferred httpTimeout ≤
      max now (renewalDeadline authority httpTimeout) := by
  exact capped_le authority now preferred relayAuthoritySafetyMargin httpTimeout

theorem inTime_cap (preferred : Duration) (hnow : now ≤ finish) :
    InTime finish authority httpTimeout
      (now + capRelayRenewalDelay (remainingAt authority now) preferred httpTimeout) := by
  apply le_trans (capRelayRenewalDelay_le authority now preferred httpTimeout)
  exact max_le_max (by linarith [Int.natCast_nonneg relayRenewRetryFloor]) le_rfl

end AukiSdk.Booking
