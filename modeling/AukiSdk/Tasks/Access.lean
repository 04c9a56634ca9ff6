import AukiSdk.Foundation.Run
import AukiSdk.Net.Clock
import AukiSdk.Net.Identifiers

/-!
# Task credentials

A grant lives in a watch channel, its revocation in a token.
-/

namespace AukiSdk.Tasks

open AukiSdk.Net

/-- The claims of a data token that are checked here. -/
structure DataClaims where
  iss : String
  domainId : Uuid
  exp : DateTime
  aud : List String

/-- Parsing of base URLs, and of tokens down to their claims. -/
structure GrantLibrary where
  parseBaseUrl : String → Option String
  readClaims : String → Option DataClaims

structure DomainAccess where
  domainId : Uuid
  serverUrl : String
  token : String
  expiresAt : DateTime
deriving DecidableEq

variable (library : GrantLibrary)

def intoAccess (domainId : Uuid) (serverUrl token : String) (now : DateTime) :
    Option DomainAccess := do
  let serverUrl ← library.parseBaseUrl serverUrl
  let claims ← library.readClaims token
  if claims.iss ≠ "dds" ∨ claims.domainId ≠ domainId ∨ claims.exp ≤ now ∨
      ¬ claims.aud.any fun aud => library.parseBaseUrl aud == some serverUrl then none
  else some ⟨domainId, serverUrl, token, claims.exp⟩

/-- `DomainAccess::from_issued_grant`, with its two clock readings. -/
def fromIssuedGrant (domainId : Uuid) (serverUrl token : String) (expiresAt now now' : DateTime) :
    Option DomainAccess := do
  let access ← intoAccess library domainId serverUrl token now
  if expiresAt ≤ now' then none
  else some { access with expiresAt := min access.expiresAt expiresAt }

theorem fromIssuedGrant_domainId {library : GrantLibrary} {domainId : Uuid}
    {serverUrl token : String} {expiresAt now now' : DateTime} {access : DomainAccess}
    (hgra : fromIssuedGrant library domainId serverUrl token expiresAt now now' = some access) :
    access.domainId = domainId := by
  simp only [fromIssuedGrant, intoAccess, Option.bind_eq_bind, Option.bind_eq_some_iff] at hgra
  obtain ⟨parsed, ⟨server, -, claims, -, hclm⟩, hexp⟩ := hgra
  split at hclm
  · cases hclm
  · cases hclm
    split at hexp
    · cases hexp
    · cases hexp
      rfl

/-- `details` stands for the fields that no credential operation looks at. -/
structure TaskSpec (Details : Type) where
  id : Uuid
  jobId : Option Uuid
  capability : String
  attempts : Option ℕ
  maxAttempts : Option ℕ
  depsRemaining : Option ℕ
  leaseExpiresAt : Option DateTime
  details : Details
deriving DecidableEq

structure LeaseEnvelope (Details : Type) where
  accessToken : Option String
  accessTokenExpiresAt : Option DateTime
  p2pAccessToken : Option String
  p2pAccessTokenExpiresAt : Option DateTime
  leaseExpiresAt : Option DateTime
  cancel : Bool
  status : Option String
  domainId : Option Uuid
  domainServerUrl : Option String
  task : TaskSpec Details
deriving DecidableEq

structure HeartbeatResponse (Details : Type) where
  accessToken : Option String
  accessTokenExpiresAt : Option DateTime
  leaseExpiresAt : Option DateTime
  cancel : Option Bool
  status : Option String
  domainId : Option Uuid
  domainServerUrl : Option String
  task : Option (TaskSpec Details)
  taskId : Option Uuid
  jobId : Option Uuid
  attempts : Option ℕ
  maxAttempts : Option ℕ
  depsRemaining : Option ℕ
deriving DecidableEq

inductive TaskError where
  | cancelled
  | leaseLost
  | authority (reason : String)
deriving DecidableEq

inductive AuthError where
  | domainNotAccessible
  | sessionClosed
  | cancelled (endpoint : String)
  | staleAuthority
  | authenticationRequired
deriving DecidableEq

/-- The error of a read, and that of `domain_access`. -/
inductive Refusal where
  | task (error : TaskError)
  | auth (error : AuthError)
deriving DecidableEq

structure Grant (Details : Type) where
  access : DomainAccess
  leaseExpires : DateTime
  lease : LeaseEnvelope Details
deriving DecidableEq

variable {Details : Type}

/-- `grant.lease_expires.min(grant.access.expires_at())`. -/
def Grant.deadline (grant : Grant Details) : DateTime :=
  min grant.leaseExpires grant.access.expiresAt

/-- `metadata_only`: without the data bearer and the peer credentials. -/
def LeaseEnvelope.metadataOnly (lease : LeaseEnvelope Details) : LeaseEnvelope Details :=
  { lease with
    p2pAccessToken := none
    p2pAccessTokenExpiresAt := none
    accessToken := none
    accessTokenExpiresAt := none }

/-- The lease that `lease_snapshot` hands out. -/
def Grant.snapshot (grant : Grant Details) : LeaseEnvelope Details :=
  { grant.lease with
    accessToken := some grant.access.token
    accessTokenExpiresAt := some grant.access.expiresAt
    leaseExpiresAt := some grant.leaseExpires
    domainServerUrl := some grant.access.serverUrl }

/-- The first grant, from `TaskCredential::new`. -/
def initialGrant (lease : LeaseEnvelope Details) (now now' now'' : DateTime) :
    Except TaskError (Grant Details) := do
  let domain ← lease.domainId.elim (.error (.authority "missing Domain")) .ok
  let server ← lease.domainServerUrl.elim (.error (.authority "missing server URL")) .ok
  let token ← lease.accessToken.elim (.error (.authority "missing data token")) .ok
  let expires ← lease.accessTokenExpiresAt.elim (.error (.authority "missing token expiry")) .ok
  let leaseExpires ← (lease.leaseExpiresAt.or lease.task.leaseExpiresAt).elim
    (.error (.authority "missing lease expiry")) .ok
  if lease.cancel ∨ leaseExpires ≤ now then .error .leaseLost
  else
    match fromIssuedGrant library domain server token expires now' now'' with
    | none => .error (.authority "invalid data grant")
    | some access => .ok ⟨access, leaseExpires, lease.metadataOnly⟩

/-- The checks of `update` that look at the response only. -/
def HeartbeatResponse.admitted (response : HeartbeatResponse Details) (domain taskId : Uuid) :
    Except TaskError Unit :=
  if response.cancel = some true ∨
      response.status.any (fun status => status ∈ ["canceled", "failed", "completed"]) then
    .error .cancelled
  else if response.domainId.any (· ≠ domain) ∨ response.taskId.any (· ≠ taskId) ∨
      response.task.any (fun task => task.id ≠ taskId) then
    .error (.authority "heartbeat changed task or Domain")
  else .ok ()

def HeartbeatResponse.leaseExpires (response : HeartbeatResponse Details)
    (previous : Grant Details) : DateTime :=
  (response.leaseExpiresAt.or (response.task.bind TaskSpec.leaseExpiresAt)).getD
    previous.leaseExpires

/-- The rotated access of `update`. -/
def HeartbeatResponse.access (library : GrantLibrary) (response : HeartbeatResponse Details)
    (domain : Uuid) (previous : Grant Details) (now now' : DateTime) : Option DomainAccess :=
  fromIssuedGrant library domain (response.domainServerUrl.getD previous.access.serverUrl)
    (response.accessToken.getD previous.access.token)
    (response.accessTokenExpiresAt.getD previous.access.expiresAt) now now'

/-- The lease metadata that `update` keeps. -/
def HeartbeatResponse.lease (response : HeartbeatResponse Details) (previous : Grant Details) :
    LeaseEnvelope Details :=
  let task := response.task.getD previous.lease.task
  { previous.lease with
    task := { task with
      jobId := response.jobId.or task.jobId
      attempts := response.attempts.or task.attempts
      maxAttempts := response.maxAttempts.or task.maxAttempts
      depsRemaining := response.depsRemaining.or task.depsRemaining }
    status := response.status.or previous.lease.status }

/-- What `domain_access` is asked for, and the wait it may have made. -/
structure AccessRequest where
  domainId : Uuid
  rejected : Option DomainAccess
  waited : Bool
deriving DecidableEq

inductive CallPhase (Details : Type) where
  /-- `TaskAccessToken::get` and `lease_snapshot`. -/
  | reading
  | read (grant : Option (Grant Details))
  | readOpen (grant : Option (Grant Details))
  /-- `domain_access`, at the top of its loop. -/
  | access (request : AccessRequest)
  | accessOpen (request : AccessRequest)
  | accessLive (request : AccessRequest)
  | accessRead (request : AccessRequest) (seen : ℕ) (grant : Grant Details)
  | accessRevoking (request : AccessRequest)
  | accessWithdrawing (request : AccessRequest)
  | accessWaiting (request : AccessRequest) (seen : ℕ)
  | accessRefused (error : AuthError)
  | revoking
  | withdrawing
  | updating (response : HeartbeatResponse Details) (taskId : Uuid)
  | updateRead (response : HeartbeatResponse Details) (previous : Grant Details)
  | updateOpen (response : HeartbeatResponse Details) (previous : Grant Details)
  | updateSending (grant : Grant Details)
  | done
deriving DecidableEq

/-- What happened, for statements about runs. -/
inductive Event (Details : Type) where
  /-- A call started. -/
  | started (call : ℕ) (rejected : Option DomainAccess)
  | read (call : ℕ) (grant : Option (Grant Details))
  /-- A call returned the bearer of `grant` after it read the clock as `now`. -/
  | bearer (call : ℕ) (grant : Grant Details) (now : DateTime)
  | refused (call : ℕ) (error : Refusal)
  | revoked
  | withdrawn
  | granted (call : ℕ) (grant : Grant Details)
  | updateFailed (call : ℕ) (error : TaskError)
deriving DecidableEq

/-- A credential shared by its clones, with the task of the lease owner's context. -/
structure TaskCredential (Details : Type) where
  domain : Uuid
  grant : Option (Grant Details)
  version : ℕ
  closed : Bool
  contextTask : TaskSpec Details
  calls : ℕ → Option (CallPhase Details)
  trace : List (Event Details)

/-- What a step meets: clock readings and the caller's own cancellation. -/
structure Input where
  now : DateTime
  now' : DateTime
  cancelled : Bool

/-- What ends the wait of `domain_access`. -/
inductive Wake where
  | cancelled
  | closed
  | changed

inductive Label (Details : Type) where
  | get (call : ℕ)
  | domainAccess (call : ℕ) (domainId : Uuid) (rejected : Option DomainAccess)
  /-- `revoke`, also by `wait_closed` at the deadline. -/
  | revoke (call : ℕ)
  /-- `update` by the lease owner. -/
  | update (call : ℕ) (response : HeartbeatResponse Details)
  | advance (call : ℕ) (input : Input)
  | wake (call : ℕ) (reason : Wake)
  /-- The token is cancelled by its parent or another holder. -/
  | cancel
  /-- The lease owner takes `task_snapshot` into its context. -/
  | snapshotTask

namespace TaskCredential

def setCall (credential : TaskCredential Details) (call : ℕ) (phase : CallPhase Details)
    (events : List (Event Details)) : TaskCredential Details :=
  { credential with
    calls := Function.update credential.calls call (some phase)
    trace := credential.trace ++ events }

variable (credential : TaskCredential Details)

/-- A call returns an error. -/
def refuse (call : ℕ) (error : Refusal) :
    TaskCredential Details :=
  credential.setCall call .done [.refused call error]

/-- `send_replace` on the watch channel. -/
def sendReplace (grant : Option (Grant Details)) :
    TaskCredential Details :=
  { credential with grant := grant, version := credential.version + 1 }

/-- The next step of a call that is not waiting. -/
def advance (library : GrantLibrary) (credential : TaskCredential Details) (call : ℕ)
    (input : Input) : CallPhase Details → Option (TaskCredential Details)
  | .reading =>
    some (credential.setCall call (.read credential.grant) [.read call credential.grant])
  | .read grant =>
    if credential.closed then some (credential.refuse call (.task .cancelled))
    else some (credential.setCall call (.readOpen grant) [])
  | .readOpen none => some (credential.refuse call (.task .leaseLost))
  | .readOpen (some grant) =>
    if grant.deadline ≤ input.now then some (credential.refuse call (.task .leaseLost))
    else some (credential.setCall call .done [.bearer call grant input.now])
  | .access request =>
    if credential.closed then some (credential.refuse call (.auth .sessionClosed))
    else some (credential.setCall call (.accessOpen request) [])
  | .accessOpen request =>
    if input.cancelled then
      some (credential.refuse call (.auth (.cancelled "task data grant")))
    else some (credential.setCall call (.accessLive request) [])
  | .accessLive request =>
    match credential.grant with
    | none => some (credential.refuse call (.auth .sessionClosed))
    | some grant =>
      some (credential.setCall call (.accessRead request credential.version grant)
        [.read call (some grant)])
  | .accessRead request seen grant =>
    if grant.deadline ≤ input.now then
      some (credential.setCall call (.accessRevoking request) [])
    else if request.rejected.all (·.token ≠ grant.access.token) then
      some (credential.setCall call .done [.bearer call grant input.now])
    else if request.waited then
      some (credential.refuse call (.auth .authenticationRequired))
    else some (credential.setCall call (.accessWaiting request seen) [])
  | .accessRevoking request =>
    some ({ credential with closed := true }.setCall call (.accessWithdrawing request)
      [.revoked])
  | .accessWithdrawing _ =>
    some ((credential.sendReplace none).setCall call (.accessRefused .staleAuthority)
      [.withdrawn])
  | .accessRefused error => some (credential.refuse call (.auth error))
  | .revoking => some ({ credential with closed := true }.setCall call .withdrawing [.revoked])
  | .withdrawing => some ((credential.sendReplace none).setCall call .done [.withdrawn])
  | .updating response taskId =>
    match response.admitted credential.domain taskId with
    | .error error => some (credential.setCall call .done [.updateFailed call error])
    | .ok () =>
      match credential.grant with
      | none => some (credential.setCall call .done [.updateFailed call .leaseLost])
      | some previous =>
        if response.task.any fun task => task.capability ≠ previous.lease.task.capability then
          some (credential.setCall call .done
            [.updateFailed call (.authority "heartbeat changed task capability")])
        else some (credential.setCall call (.updateRead response previous) [])
  | .updateRead response previous =>
    if response.leaseExpires previous ≤ input.now ∨ credential.closed then
      some (credential.setCall call .done [.updateFailed call .leaseLost])
    else some (credential.setCall call (.updateOpen response previous) [])
  | .updateOpen response previous =>
    match response.access library credential.domain previous input.now input.now' with
    | none =>
      some (credential.setCall call .done
        [.updateFailed call (.authority "invalid rotated data grant")])
    | some access =>
      some (credential.setCall call
        (.updateSending ⟨access, response.leaseExpires previous, response.lease previous⟩) [])
  | .updateSending grant =>
    some ((credential.sendReplace (some grant)).setCall call .done [.granted call grant])
  | _ => none

def start (call : ℕ) (phase : CallPhase Details) (rejected : Option DomainAccess) :
    Option (TaskCredential Details) :=
  match credential.calls call with
  | none => some (credential.setCall call phase [.started call rejected])
  | some _ => none

def step (library : GrantLibrary) (credential : TaskCredential Details) :
    Label Details → Option (TaskCredential Details)
  | .get call => credential.start call .reading none
  | .domainAccess call domainId rejected =>
    if domainId ≠ credential.domain then
      credential.start call (.accessRefused .domainNotAccessible) rejected
    else credential.start call (.access ⟨domainId, rejected, false⟩) rejected
  | .revoke call => credential.start call .revoking none
  | .update call response =>
    credential.start call (.updating response credential.contextTask.id) none
  | .advance call input => do
      let phase ← credential.calls call
      credential.advance library call input phase
  | .wake call reason =>
    match credential.calls call with
    | some (.accessWaiting request seen) =>
      match reason with
      | .changed =>
        if credential.version = seen then none
        else some (credential.setCall call (.access { request with waited := true }) [])
      | .cancelled => some (credential.refuse call (.auth (.cancelled "task data grant")))
      | .closed => some (credential.refuse call (.auth .sessionClosed))
    | _ => none
  | .cancel => some { credential with closed := true, trace := credential.trace ++ [.revoked] }
  | .snapshotTask =>
    match credential.grant with
    | none => none
    | some grant => some { credential with contextTask := grant.lease.task }

/-- The credential of a fresh lease. -/
def new (grant : Grant Details) : TaskCredential Details where
  domain := grant.access.domainId
  grant := some grant
  version := 0
  closed := false
  contextTask := grant.lease.task
  calls := fun _ => none
  trace := []

end TaskCredential

end AukiSdk.Tasks
