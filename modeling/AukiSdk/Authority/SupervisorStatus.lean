import AukiSdk.Authority.Token
import AukiSdk.Foundation.Run

/-!
# The status of the authority supervisor

`AuthorityInner` computes a status under its lock and publishes it later.
-/

namespace AukiSdk.Authority

open AukiSdk.Foundation List Option
open AukiSdk.Net

inductive AuthFailureKind where
  | authenticationRequired
  | configuration
  | authorizationDenied
  | persistence
  | transient
  | cancelled
  | closed
  deriving DecidableEq

inductive AuthorityStatus where
  | starting
  | ready (credentialRevision : ℕ) (expiresAt : DateTime)
  | expired (credentialRevision : ℕ) (expiredAt : DateTime)
  | authenticationFailed (kind : AuthFailureKind)
  | stopped
  deriving DecidableEq

inductive SupervisorError where
  | stopped
  | domainMismatch (expected actual : String)
  | peerMismatch (expected actual : String)
  | signedPeerMismatch
  | signedDomainMismatch
  | invalidExpiration
  | signedExpirationMismatch
  | invalidRenewalSchedule
  | nonAdvancingCredential (current proposed : ℕ)
  | revisionExhausted
  | verificationKeys (detail : String)
  | credential (detail : String)
  deriving DecidableEq

/-- What authority is installed into, and the verification. -/
structure AuthorityInstaller (Keys Credential : Type) where
  domainId : String
  peerId : String
  validateSuccessor : Keys → Keys → Except String Unit
  verifier : Keys → Except String (Credential → Except String P2PAccessClaims)
  sensitiveBearerHeader : Credential → Except String String

structure AuthorityUpdate (Keys Credential : Type) where
  domainId : String
  peerId : String
  verificationKeys : Keys
  credential : Credential
  credentialExpiresAt : DateTime
  renewAt : Option DateTime
  deriving DecidableEq

structure ValidatedAuthorityUpdate (Keys Credential : Type) where
  verificationKeys : Keys
  credential : Credential
  claims : P2PAccessClaims
  authorization : String
  credentialExpiresAt : DateTime
  renewAt : Option DateTime
  equivalentCredential : Bool
  deriving DecidableEq

structure CurrentAuthority where
  credentialRevision : ℕ
  claims : P2PAccessClaims
  authorization : String
  credentialExpiresAt : DateTime
  renewAt : Option DateTime
  available : Bool
  deriving DecidableEq

structure AuthorityState (Keys : Type) where
  stopped : Bool
  installedKeys : Option Keys
  current : Option CurrentAuthority
  deriving DecidableEq

/-- The next step of an operation that has not computed its status. -/
inductive Operation (Keys Credential : Type) where
  | applyWaiting (update : AuthorityUpdate Keys Credential)
  | applyStarted (update : AuthorityUpdate Keys Credential)
  | applyValidating (update : AuthorityUpdate Keys Credential)
  | applyInstallingKeys (validated : ValidatedAuthorityUpdate Keys Credential)
  | applyStoringKeys (validated : ValidatedAuthorityUpdate Keys Credential)
  | applyKeysInstalled (validated : ValidatedAuthorityUpdate Keys Credential)
  | applyInstallingCredential (validated : ValidatedAuthorityUpdate Keys Credential)
  | applyCommitting (validated : ValidatedAuthorityUpdate Keys Credential)
  | expireStarted
  | expireAt (now : DateTime)
  | stopStarted
  | cancelling
  | failStarted (kind : AuthFailureKind)
  deriving DecidableEq

/-- What an operation does when it has published its status. -/
inductive Publisher where
  | apply
  | expire
  | stop
  | fail
  deriving DecidableEq

/-- The supervisor, its operations, and the statuses not published yet, oldest first. -/
structure AuthorityInner (Keys Credential : Type) where
  state : AuthorityState Keys
  stateLocked : Bool
  updateLocked : Bool
  shutdown : Bool
  status : AuthorityStatus
  operations : List (Operation Keys Credential)
  pending : List (AuthorityStatus × Publisher)
  deriving DecidableEq

def AuthorityInner.new (Keys Credential : Type) : AuthorityInner Keys Credential :=
  ⟨⟨false, none, none⟩, false, false, false, .starting, [], []⟩

variable {Keys Credential : Type}

def exactExpiration (now expiresAt : DateTime) : Except SupervisorError ℕ :=
  if expiresAt ≤ now ∨ expiresAt % nanosPerSecond ≠ 0 ∨ expiresAt < 0 then
    .error .invalidExpiration
  else
    .ok (expiresAt / nanosPerSecond).toNat

variable (installer : AuthorityInstaller Keys Credential)

/-- `validate_update`; the reads of the state are one critical section. -/
def AuthorityInstaller.validateUpdate (now : DateTime) (state : AuthorityState Keys)
    (update : AuthorityUpdate Keys Credential) :
    Except SupervisorError (ValidatedAuthorityUpdate Keys Credential) := do
  Checks.require (update.domainId = installer.domainId)
    (.domainMismatch installer.domainId update.domainId)
  Checks.require (update.peerId = installer.peerId)
    (.peerMismatch installer.peerId update.peerId)
  let expectedExpiration ← exactExpiration now update.credentialExpiresAt
  Checks.optional update.renewAt fun renewAt =>
    Checks.require (renewAt < update.credentialExpiresAt) .invalidRenewalSchedule
  Checks.require (state.stopped = false) .stopped
  Checks.optional state.installedKeys fun keys =>
    (installer.validateSuccessor keys update.verificationKeys).mapError .verificationKeys
  let verify ← (installer.verifier update.verificationKeys).mapError .verificationKeys
  let claims ← (verify update.credential).mapError .credential
  Checks.require (claims.peerId = installer.peerId) .signedPeerMismatch
  Checks.require (installer.domainId ∈ claims.domainIds) .signedDomainMismatch
  Checks.require (claims.exp = expectedExpiration) .signedExpirationMismatch
  let authorization ← (installer.sensitiveBearerHeader update.credential).mapError .credential
  let equivalent := state.current.any fun current => current.claims = claims
  Checks.optional state.current fun current =>
    Checks.require (equivalent = true ∨ current.claims.iat < claims.iat)
      (.nonAdvancingCredential current.claims.iat claims.iat)
  return ⟨update.verificationKeys, update.credential, claims, authorization,
    update.credentialExpiresAt, update.renewAt, equivalent⟩

def nextAuthorityRevision : Option ℕ → Option ℕ
  | none => some 1
  | some current => if current + 1 < 2 ^ 64 then some (current + 1) else none

variable (state : AuthorityState Keys)

/-- The last critical section of `apply_update`. -/
def AuthorityState.commit (shutdown : Bool) (validated : ValidatedAuthorityUpdate Keys Credential) :
    AuthorityState Keys × Except SupervisorError AuthorityStatus :=
  if state.stopped = true ∨ shutdown = true then
    (state, .error .stopped)
  else
    match nextAuthorityRevision (state.current.map CurrentAuthority.credentialRevision) with
    | none => (state, .error .revisionExhausted)
    | some revision =>
      ({ state with
          current := some ⟨revision, validated.claims, validated.authorization,
            validated.credentialExpiresAt, validated.renewAt, true⟩ },
        .ok (.ready revision validated.credentialExpiresAt))

/-- The critical section of `expire_if_due`. -/
def AuthorityState.expire (now : DateTime) :
    AuthorityState Keys × Option AuthorityStatus :=
  if state.stopped = true then
    (state, none)
  else
    match state.current with
    | none => (state, none)
    | some current =>
      if current.available = true ∧ current.credentialExpiresAt ≤ now then
        ({ state with current := some { current with available := false } },
          some (.expired current.credentialRevision current.credentialExpiresAt))
      else
        (state, none)

/-- The state that `stop` and `fail_authentication` install. -/
def AuthorityState.stop : AuthorityState Keys :=
  { state with
    stopped := true
    current := state.current.map fun current => { current with available := false } }

/-- What an atomic step reads from outside. -/
structure Reading where
  now : DateTime
  installed : Bool
  deriving DecidableEq

/-- One atomic step. -/
inductive AuthorityAction (Keys Credential : Type) where
  | start (operation : Operation Keys Credential)
  | advance (index : ℕ) (reading : Reading)
  | drop (index : ℕ)
  | publish (index : ℕ)
  | cancelShutdown
  deriving DecidableEq

/-- The operations as they are called. -/
def Operation.isCall : Operation Keys Credential → Bool
  | .applyWaiting _ => true
  | .expireStarted => true
  | .stopStarted => true
  | .failStarted _ => true
  | _ => false

/-- An `apply_update` that waits may be dropped; it holds the update lock unless
it waits for that. -/
def Operation.droppedLock : Operation Keys Credential → Option Bool
  | .applyWaiting _ => some false
  | .applyInstallingKeys _ => some true
  | .applyInstallingCredential _ => some true
  | _ => none

/-- `apply_update` returns without a status. -/
def AuthorityInner.applyReturns (inner : AuthorityInner Keys Credential) :
    AuthorityInner Keys Credential :=
  { inner with updateLocked := false }

/-- One step of a running operation, which was taken out of the list. -/
def AuthorityInner.advance (inner : AuthorityInner Keys Credential) (reading : Reading) :
    Operation Keys Credential → Option (AuthorityInner Keys Credential)
  | .applyWaiting update =>
    if inner.updateLocked = true then
      none
    else
      some { inner with
        updateLocked := true, operations := .applyStarted update :: inner.operations }
  | .applyStarted update =>
    if inner.stateLocked = true then
      none
    else if inner.shutdown = true ∨ inner.state.stopped = true then
      some inner.applyReturns
    else
      some { inner with operations := .applyValidating update :: inner.operations }
  | .applyValidating update =>
    if inner.stateLocked = true then
      none
    else
      match installer.validateUpdate reading.now inner.state update with
      | .error _ => some inner.applyReturns
      | .ok validated =>
        some { inner with operations := .applyInstallingKeys validated :: inner.operations }
  | .applyInstallingKeys validated =>
    if reading.installed = true then
      some { inner with operations := .applyStoringKeys validated :: inner.operations }
    else
      some inner.applyReturns
  | .applyStoringKeys validated =>
    if inner.stateLocked = true then
      none
    else
      some { inner with
        state := { inner.state with installedKeys := some validated.verificationKeys }
        operations := .applyKeysInstalled validated :: inner.operations }
  | .applyKeysInstalled validated =>
    if inner.stateLocked = true then
      none
    else if inner.shutdown = true ∨ inner.state.stopped = true ∨
        validated.equivalentCredential = true then
      -- stopped, or the outcome is `Unchanged` and nothing is published
      some inner.applyReturns
    else
      some { inner with
        operations := .applyInstallingCredential validated :: inner.operations }
  | .applyInstallingCredential validated =>
    if reading.installed = true then
      some { inner with operations := .applyCommitting validated :: inner.operations }
    else
      some inner.applyReturns
  | .applyCommitting validated =>
    if inner.stateLocked = true then
      none
    else
      match inner.state.commit inner.shutdown validated with
      | (_, .error _) => some inner.applyReturns
      | (state, .ok status) =>
        some { inner with state := state, pending := inner.pending ++ [(status, .apply)] }
  | .expireStarted =>
    if inner.shutdown = true then
      some { inner with operations := .stopStarted :: inner.operations }
    else
      some { inner with operations := .expireAt reading.now :: inner.operations }
  | .expireAt now =>
    if inner.stateLocked = true then
      none
    else
      match inner.state.expire now with
      | (_, none) => some inner
      | (state, some status) =>
        some { inner with state := state, pending := inner.pending ++ [(status, .expire)] }
  | .stopStarted =>
    if inner.stateLocked = true then
      none
    else if inner.state.stopped = true then
      some { inner with operations := .cancelling :: inner.operations }
    else
      some { inner with
        state := inner.state.stop, pending := inner.pending ++ [(.stopped, .stop)] }
  | .cancelling => some { inner with shutdown := true }
  | .failStarted kind =>
    if inner.stateLocked = true then
      none
    else if inner.state.stopped = true then
      some inner
    else
      -- the lock is released after the status is published
      some { inner with
        state := inner.state.stop
        stateLocked := true
        pending := inner.pending ++ [(.authenticationFailed kind, .fail)] }

/-- `send_replace`, and what its operation does next. -/
def AuthorityInner.published (inner : AuthorityInner Keys Credential) (status : AuthorityStatus) :
    Publisher → AuthorityInner Keys Credential
  | .apply => { inner with status := status, updateLocked := false }
  | .expire => { inner with status := status }
  | .stop => { inner with status := status, operations := .cancelling :: inner.operations }
  | .fail =>
    { inner with
      status := status, stateLocked := false, operations := .cancelling :: inner.operations }

/-- Steps under any interleaving of the operations. -/
def AuthorityInner.step (inner : AuthorityInner Keys Credential) :
    AuthorityAction Keys Credential → Option (AuthorityInner Keys Credential)
  | .start operation =>
    if operation.isCall = true then
      some { inner with operations := operation :: inner.operations }
    else
      none
  | .advance index reading =>
    inner.operations[index]?.bind fun operation =>
      { inner with operations := inner.operations.eraseIdx index }.advance installer reading
        operation
  | .drop index =>
    inner.operations[index]?.bind fun operation =>
      operation.droppedLock.map fun held =>
        { inner with
          operations := inner.operations.eraseIdx index
          updateLocked := inner.updateLocked && !held }
  | .publish index =>
    inner.pending[index]?.map fun publication =>
      { inner with pending := inner.pending.eraseIdx index }.published publication.1
        publication.2
  | .cancelShutdown => some { inner with shutdown := true }

/-- The status that a state should be published with. -/
def AuthorityState.Agrees (status : AuthorityStatus) : Prop :=
  if state.stopped = true then
    status = .stopped ∨ ∃ kind, status = .authenticationFailed kind
  else
    match state.current with
    | none => status = .starting
    | some current =>
      status = if current.available = true then
        .ready current.credentialRevision current.credentialExpiresAt
      else
        .expired current.credentialRevision current.credentialExpiresAt

def AuthorityStatus.isTerminal : AuthorityStatus → Bool
  | .stopped => true
  | .authenticationFailed _ => true
  | _ => false

/-- The revision that a status reports. -/
def AuthorityStatus.revision : AuthorityStatus → Option ℕ
  | .ready revision _ => some revision
  | .expired revision _ => some revision
  | _ => none

/-- The order in which a supervisor goes through its statuses. -/
def AuthorityStatus.rank : AuthorityStatus → ℕ∞
  | .starting => 0
  | .ready revision _ => ((2 * revision + 1 : ℕ) : ℕ∞)
  | .expired revision _ => ((2 * revision + 2 : ℕ) : ℕ∞)
  | .authenticationFailed _ => ⊤
  | .stopped => ⊤

variable {status : AuthorityStatus}

theorem AuthorityStatus.isTerminal_of_rank (hrank : status.rank = ⊤) :
    status.isTerminal = true := by
  cases status with
  | starting => cases hrank
  | ready revision expiresAt => cases hrank
  | expired revision expiredAt => cases hrank
  | authenticationFailed kind => rfl
  | stopped => rfl

theorem AuthorityStatus.rank_of_isTerminal (hterm : status.isTerminal = true) :
    status.rank = ⊤ := by
  cases status with
  | starting => cases hterm
  | ready revision expiresAt => cases hterm
  | expired revision expiredAt => cases hterm
  | authenticationFailed kind => rfl
  | stopped => rfl

theorem AuthorityStatus.rank_bounds {revision : ℕ} (hrev : status.revision = some revision) :
    ((2 * revision + 1 : ℕ) : ℕ∞) ≤ status.rank ∧ status.rank ≤ ((2 * revision + 2 : ℕ) : ℕ∞) := by
  cases status with
  | starting => cases hrev
  | ready found expiresAt =>
    cases hrev
    exact ⟨le_refl _, Nat.cast_le.mpr (by omega)⟩
  | expired found expiredAt =>
    cases hrev
    exact ⟨Nat.cast_le.mpr (by omega), le_refl _⟩
  | authenticationFailed kind => cases hrev
  | stopped => cases hrev

theorem AuthorityStatus.revision_le {status' : AuthorityStatus} (hrank : status.rank ≤ status'.rank)
    {revision revision' : ℕ} (hrev : status.revision = some revision)
    (hrevision' : status'.revision = some revision') : revision ≤ revision' := by
  have hcha := (AuthorityStatus.rank_bounds hrev).1.trans
    (hrank.trans (AuthorityStatus.rank_bounds hrevision').2)
  rw [Nat.cast_le] at hcha
  omega

/-- A locked section that computes `status` and leaves `next`. -/
def AuthorityState.Computes (status : AuthorityStatus) (next : AuthorityState Keys) : Prop :=
  next.Agrees status ∧ ∀ earlier, state.Agrees earlier → earlier.rank ≤ status.rank

theorem AuthorityState.computes_commit {state next : AuthorityState Keys} {shutdown : Bool}
    {validated : ValidatedAuthorityUpdate Keys Credential}
    (hcom : state.commit shutdown validated = (next, .ok status)) :
    state.Computes status next := by
  rw [commit] at hcom
  split at hcom
  · cases hcom
  · rename_i hrun
    have hstop : state.stopped = false := by
      rw [← Bool.not_eq_true]
      exact fun h => hrun (Or.inl h)
    split at hcom
    · cases hcom
    · rename_i revision hrev
      cases hcom
      refine ⟨by simp [Agrees, hstop], ?_⟩
      intro earlier hagr
      simp only [Agrees, hstop, Bool.false_eq_true, if_false] at hagr
      cases hcur : state.current with
      | none =>
        rw [hcur] at hagr
        rw [hagr]
        exact zero_le
      | some current =>
        rw [hcur] at hagr hrev
        simp only [map_some, nextAuthorityRevision] at hrev
        split at hrev
        · cases hrev
          rw [hagr]
          split
          · exact Nat.cast_le.mpr (by omega)
          · exact Nat.cast_le.mpr (by omega)
        · cases hrev

theorem AuthorityState.computes_expire {state next : AuthorityState Keys} {now : DateTime}
    (hexp : state.expire now = (next, some status)) :
    state.Computes status next := by
  rw [expire] at hexp
  split at hexp
  · cases hexp
  · rename_i hstop
    rw [Bool.not_eq_true] at hstop
    split at hexp
    · cases hexp
    · rename_i current hcur
      split at hexp
      · rename_i hdue
        cases hexp
        refine ⟨by simp [Agrees, hstop], ?_⟩
        intro earlier hagr
        simp only [Agrees, hstop, hcur, hdue.1, Bool.false_eq_true, if_false, if_true]
          at hagr
        rw [hagr]
        exact Nat.cast_le.mpr (by omega)
      · cases hexp

theorem AuthorityState.computes_stop
    (hterm : status = .stopped ∨ ∃ kind, status = .authenticationFailed kind) :
    state.Computes status state.stop := by
  refine ⟨by simpa [Agrees, stop] using hterm, ?_⟩
  intro earlier _
  rcases hterm with rfl | ⟨kind, rfl⟩
  · exact le_top
  · exact le_top

/-- A step that neither computes nor publishes. -/
structure AuthorityInner.Quiet (inner next : AuthorityInner Keys Credential) : Prop where
  status : next.status = inner.status
  pending : next.pending = inner.pending
  stopped : next.state.stopped = inner.state.stopped
  current : next.state.current = inner.state.current

/-- A step that computes a status and leaves it pending. -/
structure AuthorityInner.Computed (inner next : AuthorityInner Keys Credential)
    (status : AuthorityStatus) : Prop where
  pending : ∃ publisher, next.pending = inner.pending ++ [(status, publisher)]
  state : inner.state.Computes status next.state
  unpublished : next.status = inner.status

variable {next inner : AuthorityInner Keys Credential}

theorem AuthorityInner.advance_cases {installer : AuthorityInstaller Keys Credential}
    {reading : Reading} {operation : Operation Keys Credential}
    (hadv : inner.advance installer reading operation = some next) :
    inner.Quiet next ∨ ∃ status, inner.Computed next status := by
  cases operation with
  | applyCommitting validated =>
    simp only [advance] at hadv
    split at hadv
    · cases hadv
    · split at hadv
      · cases hadv
        exact Or.inl ⟨rfl, rfl, rfl, rfl⟩
      · rename_i state status hcom
        cases hadv
        exact Or.inr ⟨status, ⟨.apply, rfl⟩, AuthorityState.computes_commit hcom, rfl⟩
  | expireAt now =>
    simp only [advance] at hadv
    split at hadv
    · cases hadv
    · split at hadv
      · cases hadv
        exact Or.inl ⟨rfl, rfl, rfl, rfl⟩
      · rename_i state status hexp
        cases hadv
        exact Or.inr ⟨status, ⟨.expire, rfl⟩, AuthorityState.computes_expire hexp, rfl⟩
  | stopStarted =>
    simp only [advance] at hadv
    split at hadv
    · cases hadv
    · split at hadv
      · cases hadv
        exact Or.inl ⟨rfl, rfl, rfl, rfl⟩
      · cases hadv
        exact Or.inr ⟨.stopped, ⟨.stop, rfl⟩,
          AuthorityState.computes_stop inner.state (Or.inl rfl), rfl⟩
  | failStarted kind =>
    simp only [advance] at hadv
    split at hadv
    · cases hadv
    · split at hadv
      · cases hadv
        exact Or.inl ⟨rfl, rfl, rfl, rfl⟩
      · cases hadv
        exact Or.inr ⟨.authenticationFailed kind, ⟨.fail, rfl⟩,
          AuthorityState.computes_stop inner.state (Or.inr ⟨kind, rfl⟩), rfl⟩
  | applyWaiting update | applyStarted update | applyValidating update
  | applyInstallingKeys validated | applyStoringKeys validated | applyKeysInstalled validated
  | applyInstallingCredential validated | expireStarted | cancelling =>
    -- these change locks, keys and the list of operations only
    left
    simp only [advance] at hadv
    repeat' split at hadv
    all_goals
      cases hadv
      try exact ⟨rfl, rfl, rfl, rfl⟩

/-- The published status is the oldest pending one. -/
def PublishesInOrder (_inner : AuthorityInner Keys Credential) :
    AuthorityAction Keys Credential → Prop
  | .publish index => index = 0
  | _ => True

/-- The status that was computed last. -/
def AuthorityInner.latest (inner : AuthorityInner Keys Credential) : AuthorityStatus :=
  (inner.pending.map Prod.fst).getLast?.getD inner.status

/-- Statuses were computed in order, the last one from the state. -/
structure AuthorityInner.Follows (inner : AuthorityInner Keys Credential) : Prop where
  agrees : inner.state.Agrees inner.latest
  sorted : (inner.status :: inner.pending.map Prod.fst).Pairwise fun first second =>
    first.rank ≤ second.rank
  bounded : ∀ status ∈ inner.status :: inner.pending.map Prod.fst,
    status.rank ≤ inner.latest.rank

theorem AuthorityInner.follows_new : (AuthorityInner.new Keys Credential).Follows := by
  refine ⟨rfl, pairwise_singleton _ _, ?_⟩
  intro status hm
  rw [mem_singleton.mp hm]
  exact le_refl _

theorem AuthorityInner.Follows.quiet (hfol : inner.Follows) (hqui : inner.Quiet next) :
    next.Follows := by
  have hlat : next.latest = inner.latest := by
    rw [latest, latest, hqui.status, hqui.pending]
  refine ⟨?_, ?_, ?_⟩
  · rw [hlat, AuthorityState.Agrees, hqui.stopped, hqui.current]
    exact hfol.agrees
  · rw [hqui.status, hqui.pending]
    exact hfol.sorted
  · rw [hqui.status, hqui.pending, hlat]
    exact hfol.bounded

theorem AuthorityInner.Follows.computed (hfol : inner.Follows)
    (hcom : inner.Computed next status) :
    next.Follows := by
  obtain ⟨publisher, hpend⟩ := hcom.pending
  have hsta : next.status :: next.pending.map Prod.fst =
      (inner.status :: inner.pending.map Prod.fst) ++ [status] := by
    rw [hcom.unpublished, hpend, map_append]
    rfl
  have hlat : next.latest = status := by
    rw [latest, hpend, map_append]
    simp
  have hle : ∀ earlier ∈ inner.status :: inner.pending.map Prod.fst,
      earlier.rank ≤ status.rank := by
    intro earlier hpri
    exact (hfol.bounded earlier hpri).trans
      (hcom.state.2 inner.latest hfol.agrees)
  refine ⟨?_, ?_, ?_⟩
  · rw [hlat]
    exact hcom.state.1
  · rw [hsta, pairwise_append]
    refine ⟨hfol.sorted, pairwise_singleton _ _, ?_⟩
    intro earlier hpri last hlast
    rw [mem_singleton.mp hlast]
    exact hle earlier hpri
  · rw [hsta, hlat]
    intro found hf
    rcases mem_append.mp hf with hpri | hlast
    · exact hle found hpri
    · rw [mem_singleton.mp hlast]

theorem AuthorityInner.published_fields (inner : AuthorityInner Keys Credential)
    (status : AuthorityStatus) (publisher : Publisher) :
    (inner.published status publisher).status = status ∧
      (inner.published status publisher).pending = inner.pending ∧
      (inner.published status publisher).state = inner.state := by
  cases publisher with
  | apply => exact ⟨rfl, rfl, rfl⟩
  | expire => exact ⟨rfl, rfl, rfl⟩
  | stop => exact ⟨rfl, rfl, rfl⟩
  | fail => exact ⟨rfl, rfl, rfl⟩

theorem AuthorityInner.Follows.step {installer : AuthorityInstaller Keys Credential}
    {action : AuthorityAction Keys Credential} (hfol : inner.Follows)
    (horder : PublishesInOrder inner action) (hs : inner.step installer action = some next) :
    next.Follows ∧ inner.status.rank ≤ next.status.rank := by
  cases action with
  | start operation =>
    simp only [AuthorityInner.step] at hs
    split at hs
    · cases hs
      exact ⟨hfol.quiet ⟨rfl, rfl, rfl, rfl⟩, le_refl _⟩
    · cases hs
  | advance index reading =>
    obtain ⟨operation, -, hadv⟩ := bind_eq_some_iff.mp hs
    have htak : ({ inner with operations := inner.operations.eraseIdx index } :
        AuthorityInner Keys Credential).Follows := hfol.quiet ⟨rfl, rfl, rfl, rfl⟩
    rcases AuthorityInner.advance_cases hadv with hqui | ⟨status, hcom⟩
    · exact ⟨htak.quiet hqui, le_of_eq (congrArg AuthorityStatus.rank hqui.status.symm)⟩
    · exact ⟨htak.computed hcom, le_of_eq (congrArg AuthorityStatus.rank hcom.unpublished.symm)⟩
  | drop index =>
    obtain ⟨operation, -, hdrop⟩ := bind_eq_some_iff.mp hs
    obtain ⟨held, -, rfl⟩ := map_eq_some_iff.mp hdrop
    exact ⟨hfol.quiet ⟨rfl, rfl, rfl, rfl⟩, le_refl _⟩
  | cancelShutdown =>
    cases hs
    exact ⟨hfol.quiet ⟨rfl, rfl, rfl, rfl⟩, le_refl _⟩
  | publish index =>
    obtain ⟨publication, hf, rfl⟩ := map_eq_some_iff.mp hs
    cases horder
    obtain ⟨rest, hpend⟩ : ∃ rest, inner.pending = publication :: rest := by
      cases hpend : inner.pending with
      | nil =>
        rw [hpend] at hf
        cases hf
      | cons first rest =>
        rw [hpend] at hf
        cases hf
        exact ⟨rest, rfl⟩
    obtain ⟨hstat, hn, hsta⟩ := AuthorityInner.published_fields
      { inner with pending := inner.pending.eraseIdx 0 } publication.1 publication.2
    have hera : inner.pending.eraseIdx 0 = rest := by
      rw [hpend]
      rfl
    have hsort := hfol.sorted
    have hbdd := hfol.bounded
    rw [hpend, map_cons] at hsort hbdd
    rw [pairwise_cons] at hsort
    have hlat : (AuthorityInner.published { inner with pending := inner.pending.eraseIdx 0 }
        publication.1 publication.2).latest = inner.latest := by
      rw [latest, latest, hstat, hn, hera, hpend, map_cons, getLast?_cons]
      rfl
    refine ⟨⟨?_, ?_, ?_⟩, ?_⟩
    · rw [hlat, hsta]
      exact hfol.agrees
    · rw [hstat, hn, hera]
      exact hsort.2
    · rw [hlat, hstat, hn, hera]
      intro status hm
      exact hbdd status (mem_cons_of_mem _ hm)
    · rw [hstat]
      exact hsort.1 publication.1 mem_cons_self

/-- In every run that publishes in lock order the status agrees with the state. -/
theorem authority_status_faithful (installer : AuthorityInstaller Keys Credential)
    (before after : List (AuthorityAction Keys Credential))
    (horder : GuardedRun (AuthorityInner.step installer) (AuthorityInner.new Keys Credential)
      PublishesInOrder (before ++ after))
    (earlier later : AuthorityInner Keys Credential)
    (hearlier : runSteps (AuthorityInner.step installer) (AuthorityInner.new Keys Credential)
      before = some earlier)
    (hlater : runSteps (AuthorityInner.step installer) earlier after = some later) :
    (earlier.status.isTerminal = true → later.status.isTerminal = true) ∧
    (∀ revision revision', earlier.status.revision = some revision →
      later.status.revision = some revision' → revision ≤ revision') ∧
    (later.operations = [] → later.pending = [] → later.state.Agrees later.status) := by
  have hfirst : earlier.Follows := by
    apply invariant_of_guardedRun AuthorityInner.follows_new _ horder.initial hearlier
    intro inner action next hfollows hguard hstep
    exact (hfollows.step hguard hstep).1
  have hlast : later.Follows ∧ earlier.status.rank ≤ later.status.rank := by
    apply @invariant_of_guardedRun _ _ _ _ _ (fun inner =>
      inner.Follows ∧ earlier.status.rank ≤ inner.status.rank) ⟨hfirst, le_refl _⟩ _ _
      (horder.suffix hearlier) _ hlater
    intro inner action next hinner hguard hstep
    obtain ⟨hfollows, hrank⟩ := hinner.1.step hguard hstep
    exact ⟨hfollows, hinner.2.trans hrank⟩
  refine ⟨?_, ?_, ?_⟩
  · intro hterminal
    apply AuthorityStatus.isTerminal_of_rank
    rw [← top_le_iff, ← AuthorityStatus.rank_of_isTerminal hterminal]
    exact hlast.2
  · intro revision revision' hrevision hrevision'
    exact AuthorityStatus.revision_le hlast.2 hrevision hrevision'
  · intro _ hpending
    have hagrees := hlast.1.agrees
    rw [AuthorityInner.latest, hpending] at hagrees
    exact hagrees

def sampleInstaller : AuthorityInstaller Unit Unit where
  domainId := "domain"
  peerId := "peer"
  validateSuccessor _ _ := .ok ()
  verifier _ := .ok fun _ => .ok
    { tokenType := "p2p", iss := "dds", aud := [], sub := "peer", organizationId := none
      peerType := none, peerId := "peer", domainIds := ["domain"], scopes := []
      application := none, iat := 1, nbf := none, exp := 10 }
  sensitiveBearerHeader _ := .ok "Bearer"

def sampleAuthorityUpdate : AuthorityUpdate Unit Unit :=
  ⟨"domain", "peer", (), (), 10000000000, none⟩

/-- An update up to its last locked section, and then a stop. -/
def applyThenStop : List (AuthorityAction Unit Unit) :=
  .start (.applyWaiting sampleAuthorityUpdate) ::
    List.replicate 8 (.advance 0 ⟨1000000000, true⟩) ++
      [.start .stopStarted, .advance 0 ⟨1000000000, true⟩]

def sampleReturns : List (AuthorityAction Unit Unit) :=
  [.publish 0, .advance 0 ⟨1000000000, true⟩]

theorem runSteps_tested {before after : List (AuthorityAction Unit Unit)}
    {first second : AuthorityInner Unit Unit → Bool}
    (htes : ((runSteps (AuthorityInner.step sampleInstaller) (AuthorityInner.new Unit Unit)
      before).any fun earlier => first earlier &&
        (runSteps (AuthorityInner.step sampleInstaller) earlier after).any second) = true) :
    ∃ earlier later,
      runSteps (AuthorityInner.step sampleInstaller) (AuthorityInner.new Unit Unit) before =
        some earlier ∧
      runSteps (AuthorityInner.step sampleInstaller) earlier after = some later ∧
      first earlier = true ∧ second later = true := by
  cases hpri : runSteps (AuthorityInner.step sampleInstaller) (AuthorityInner.new Unit Unit)
      before with
  | none =>
    rw [hpri] at htes
    cases htes
  | some earlier =>
    rw [hpri, any_some, Bool.and_eq_true] at htes
    cases hlat : runSteps (AuthorityInner.step sampleInstaller) earlier after with
    | none =>
      rw [hlat] at htes
      cases htes.2
    | some later =>
      rw [hlat] at htes
      exact ⟨earlier, later, rfl, hlat, htes.1, htes.2⟩

theorem authority_status_faithful_sample : ∃ earlier later,
      runSteps (AuthorityInner.step sampleInstaller) (AuthorityInner.new Unit Unit)
        (applyThenStop ++ [.publish 0]) = some earlier ∧
      runSteps (AuthorityInner.step sampleInstaller) earlier sampleReturns = some later ∧
      earlier.status = .ready 1 10000000000 ∧ later.operations = [] ∧ later.pending = [] ∧
      later.state.Agrees later.status := by
  obtain ⟨earlier, later, hearlier, hlater, hfirst, hsecond⟩ :=
    @runSteps_tested (applyThenStop ++ [.publish 0]) sampleReturns
      (fun earlier => earlier.status = .ready 1 10000000000)
      (fun later => later.operations = [] ∧ later.pending = []) (by decide +kernel)
  have hguard : GuardedRun (AuthorityInner.step sampleInstaller) (AuthorityInner.new Unit Unit)
      PublishesInOrder (applyThenStop ++ [.publish 0] ++ sampleReturns) := by
    intro before action after state hsplit _
    have hmem : action ∈ applyThenStop ++ [.publish 0] ++ sampleReturns := by
      rw [hsplit]
      exact mem_append_right _ mem_cons_self
    cases action with
    | publish index =>
      have hfirst : index = 0 := by
        simpa [applyThenStop, sampleReturns, mem_replicate] using hmem
      exact hfirst
    | start operation => trivial
    | advance index reading => trivial
    | drop index => trivial
    | cancelShutdown => trivial
  have hreturned := of_decide_eq_true hsecond
  exact ⟨earlier, later, hearlier, hlater, of_decide_eq_true hfirst, hreturned.1, hreturned.2,
    (authority_status_faithful sampleInstaller (applyThenStop ++ [.publish 0]) sampleReturns
      hguard earlier later hearlier hlater).2.2 hreturned.1 hreturned.2⟩

/-- A stop that publishes between the last locked section of an update and its
status. -/
theorem authority_status_stale : ∃ earlier later,
      runSteps (AuthorityInner.step sampleInstaller) (AuthorityInner.new Unit Unit)
        (applyThenStop ++ [.publish 1]) = some earlier ∧
      runSteps (AuthorityInner.step sampleInstaller) earlier sampleReturns = some later ∧
      earlier.status = .stopped ∧ later.status = .ready 1 10000000000 ∧
      later.operations = [] ∧ later.pending = [] ∧ ¬ later.state.Agrees later.status := by
  obtain ⟨earlier, later, hearlier, hlater, hfirst, hsecond⟩ :=
    @runSteps_tested (applyThenStop ++ [.publish 1]) sampleReturns
      (fun earlier => earlier.status = .stopped)
      (fun later => later.status = .ready 1 10000000000 ∧ later.operations = [] ∧
        later.pending = [] ∧ later.state.stopped = true) (by decide +kernel)
  obtain ⟨hstatus, hoperations, hpending, hstopped⟩ := of_decide_eq_true hsecond
  refine ⟨earlier, later, hearlier, hlater, of_decide_eq_true hfirst, hstatus, hoperations,
    hpending, ?_⟩
  rw [AuthorityState.Agrees, hstatus, if_pos hstopped]
  rintro (hcase | ⟨kind, hcase⟩)
  · cases hcase
  · cases hcase

end AukiSdk.Authority
