import AukiSdk.Foundation.Transition
import AukiSdk.Foundation.Word
import AukiSdk.Relay.Provider

/-!
# The source admission cache

Concurrent calls share one entry per key.
-/

namespace AukiSdk.Transport

open AukiSdk.Foundation
open AukiSdk.Net
open AukiSdk.Relay

def reuseSafetyMargin : Duration := Duration.fromSecs 1

structure CacheKey where
  relayPeerId : PeerId
  relayConnection : ConnectionId
  targetPeerId : PeerId
  domainId : Uuid
  credentialIssuedAt : ℕ
  deriving DecidableEq

structure CachedAdmission where
  expiresAt : DateTime
  leaseId : ℕ
  credentialIssuedAt : ℕ
  deriving DecidableEq

def CachedAdmission.uncached (expiresAt : DateTime) : CachedAdmission := ⟨expiresAt, 0, 0⟩

structure AdmissionLease where
  expiresAt : DateTime
  reuseUntil : Instant
  leaseId : ℕ
  deriving DecidableEq

def AdmissionLease.reusable (lease : AdmissionLease) (wallNow : DateTime)
    (monotonicNow : Instant) : Bool :=
  decide (lease.expiresAt > wallNow + (reuseSafetyMargin : ℤ)) &&
    decide (monotonicNow < lease.reuseUntil)

def reuseDeadline (expiresAt wallNow : DateTime) (monotonicNow : Instant) : Option Instant :=
  let remaining := expiresAt - wallNow
  if remaining < 0 then
    none
  else
    (Word.checkedSub remaining.toNat reuseSafetyMargin).map (monotonicNow + ·)

/-- A call of `authorize` or `invalidate`. -/
abbrev CallId := ℕ

/-- The address of an entry. -/
abbrev EntryId := ℕ

/-- `AdmissionEntry`: its clones, its gate, and the cached lease. -/
structure AdmissionEntry where
  holders : Finset CallId
  gate : Option CallId
  cached : Option AdmissionLease

/-- `Arc::strong_count` of an entry that the map holds as well. -/
def AdmissionEntry.strongCount (entry : AdmissionEntry) : ℕ := entry.holders.card + 1

/-- What a call does once it holds the gate. -/
inductive Purpose where
  | authorize
  | invalidate (admission : CachedAdmission)
  deriving DecidableEq

/-- Where a call stands; `missed` and `leaving` are between two accesses. -/
inductive Stage where
  | waiting
  | holding
  | missed
  | authorizing
  | authorized (expiresAt : DateTime)
  | leased (expiresAt : DateTime) (leaseId : ℕ)
  | leaving
  deriving DecidableEq

/-- A call that has looked its entry up. -/
structure AdmissionCall where
  key : CacheKey
  purpose : Purpose
  entry : EntryId
  stage : Stage
  deriving DecidableEq

/-- `AdmissionCache` with the entries it has allocated and the running calls. -/
structure AdmissionCache where
  entries : CacheKey → Option EntryId
  heap : EntryId → AdmissionEntry
  nextEntry : EntryId
  nextLeaseId : ℕ
  calls : CallId → Option AdmissionCall

/-- The critical sections of the calls, with the clock readings they take. -/
inductive AdmissionEvent (Failure : Type) where
  | authorize (call : CallId) (key : CacheKey) (wallNow : DateTime) (monotonicNow : Instant)
  | invalidate (call : CallId) (relayPeerId : PeerId) (relayConnection : ConnectionId)
      (targetPeerId : PeerId) (domainId : Uuid) (admission : CachedAdmission)
  | acquire (call : CallId)
  | check (call : CallId) (wallNow : DateTime) (monotonicNow : Instant)
  | clear (call : CallId)
  | complete (call : CallId) (result : Except Failure DateTime)
  | issue (call : CallId)
  | store (call : CallId) (wallNow : DateTime) (monotonicNow : Instant)
  | remove (call : CallId)
  | drop (call : CallId)
  | leave (call : CallId)

/-- What a step lets out. -/
inductive AdmissionEffect (Failure : Type) where
  | silent
  | hit (key : CacheKey) (admission : CachedAdmission)
  | issued (key : CacheKey) (expiresAt : DateTime) (leaseId : ℕ)
  | granted (key : CacheKey) (admission : CachedAdmission)
  | failed (key : CacheKey) (failure : Failure)

namespace AdmissionCache

variable {Failure : Type}

def default : AdmissionCache :=
  ⟨fun _ => none, fun _ => ⟨∅, none, none⟩, 0, 0, fun _ => none⟩

variable (cache : AdmissionCache)

/-- The entries that a call holds, and those with a reusable lease. -/
def retained (wallNow : DateTime) (monotonicNow : Instant) :
    CacheKey → Option EntryId := fun key =>
  (cache.entries key).filter fun id =>
    decide ((cache.heap id).strongCount > 1) ||
      (cache.heap id).cached.any fun lease => lease.reusable wallNow monotonicNow

/-- The entry of a key is found or made, and cloned for the call. -/
def enter (entries : CacheKey → Option EntryId) (call : CallId) (key : CacheKey)
    (purpose : Purpose) : AdmissionCache :=
  match entries key with
  | some id =>
    let entry := cache.heap id
    { cache with
      entries
      heap := Function.update cache.heap id
        { entry with holders := insert call entry.holders }
      calls := Function.update cache.calls call (some ⟨key, purpose, id, .waiting⟩) }
  | none =>
    { cache with
      entries := Function.update entries key (some cache.nextEntry)
      heap := Function.update cache.heap cache.nextEntry ⟨{call}, none, none⟩
      nextEntry := cache.nextEntry + 1
      calls := Function.update cache.calls call
        (some ⟨key, purpose, cache.nextEntry, .waiting⟩) }

/-- A call moves to a stage, or ends, and leaves its entry as `entry`. -/
def advance (id : CallId) (call : AdmissionCall) (stage : Option Stage) (entry : AdmissionEntry) :
    AdmissionCache :=
  { cache with
    heap := Function.update cache.heap call.entry entry
    calls := Function.update cache.calls id (stage.map fun stage => { call with stage }) }

/-- `wrapping_add(1).max(1)` of the last lease id. -/
def followingLeaseId (leaseId : ℕ) : ℕ := max (Word.wrappingAdd leaseId 1) 1

/-- One step of a running call. -/
def resume (id : CallId) (call : AdmissionCall) (event : AdmissionEvent Failure) :
    Option (AdmissionEffect Failure × AdmissionCache) :=
  let entry := cache.heap call.entry
  let released := { entry with gate := none }
  match event, call.purpose, call.stage with
  | .acquire _, _, .waiting =>
    if entry.gate = none then
      some (.silent, cache.advance id call (some .holding) { entry with gate := some id })
    else
      none
  | .check _ wallNow monotonicNow, .authorize, .holding =>
    match entry.cached.filter fun lease => lease.reusable wallNow monotonicNow with
    | some lease =>
      some (.hit call.key ⟨lease.expiresAt, lease.leaseId, call.key.credentialIssuedAt⟩,
        cache.advance id call (some .leaving) released)
    | none => some (.silent, cache.advance id call (some .missed) entry)
  | .clear _, .authorize, .missed =>
    some (.silent, cache.advance id call (some .authorizing) { entry with cached := none })
  | .complete _ (.ok expiresAt), .authorize, .authorizing =>
    some (.silent, cache.advance id call (some (.authorized expiresAt)) entry)
  | .complete _ (.error failure), .authorize, .authorizing =>
    some (.failed call.key failure, cache.advance id call (some .leaving) released)
  | .issue _, .authorize, .authorized expiresAt =>
    let leaseId := followingLeaseId cache.nextLeaseId
    some (.issued call.key expiresAt leaseId,
      { cache with nextLeaseId := leaseId }.advance id call
        (some (.leased expiresAt leaseId)) entry)
  | .store _ wallNow monotonicNow, .authorize, .leased expiresAt leaseId =>
    let cached :=
      match reuseDeadline expiresAt wallNow monotonicNow with
      | some reuseUntil => some ⟨expiresAt, reuseUntil, leaseId⟩
      | none => entry.cached
    some (.granted call.key ⟨expiresAt, leaseId, call.key.credentialIssuedAt⟩,
      cache.advance id call (some .leaving) { released with cached })
  | .remove _, .invalidate admission, .holding =>
    let cached := entry.cached.filter fun lease => lease.leaseId ≠ admission.leaseId
    some (.silent, cache.advance id call (some .leaving) { released with cached })
  -- The future can be dropped where it awaits the gate or the authorizer.
  | .drop _, _, .waiting => some (.silent, cache.advance id call (some .leaving) entry)
  | .drop _, _, .authorizing => some (.silent, cache.advance id call (some .leaving) released)
  | .leave _, _, .leaving =>
    some (.silent, cache.advance id call none
      { entry with holders := entry.holders.erase id })
  | _, _, _ => none

/-- One critical section of `authorize` or `invalidate`. -/
def handle :
    AdmissionEvent Failure → Option (AdmissionEffect Failure × AdmissionCache)
  | .authorize call key wallNow monotonicNow =>
    if cache.calls call = none then
      some (.silent,
        cache.enter (cache.retained wallNow monotonicNow) call key .authorize)
    else
      none
  | .invalidate call relayPeerId relayConnection targetPeerId domainId admission =>
    let key : CacheKey :=
      ⟨relayPeerId, relayConnection, targetPeerId, domainId, admission.credentialIssuedAt⟩
    if cache.calls call = none then
      match cache.entries key with
      | some _ => some (.silent, cache.enter cache.entries call key (.invalidate admission))
      | none => some (.silent, cache)
    else
      none
  | event@(.acquire call) | event@(.check call _ _) | event@(.clear call)
  | event@(.complete call _) | event@(.issue call) | event@(.store call _ _)
  | event@(.remove call) | event@(.drop call) | event@(.leave call) =>
    (cache.calls call).bind fun running => cache.resume call running event

end AdmissionCache

end AukiSdk.Transport
