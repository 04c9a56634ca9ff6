import AukiSdk.Foundation.Run
import AukiSdk.Net.Clock
import AukiSdk.Net.Identifiers

/-!
# The pinned principal of a robot credential

Token logins and registrations over a shared `Authenticator`.
-/

namespace AukiSdk.Tasks

open AukiSdk.Foundation AukiSdk.Net List

structure RobotClaims where
  assignedDomainId : Option Uuid
  nodeId : Uuid
  organizationId : Uuid
  sub : Uuid
  nodeType : String
  nodeMode : String
  iss : String
  aud : List String
  iat : ℤ
  exp : ℤ
  peerId : Option String
  deriving DecidableEq

structure AccessBundle where
  token : String
  expiresAt : DateTime
  deriving DecidableEq

def timestamp (time : DateTime) : ℤ := time / nanosPerSecond

namespace Robot

inductive TaskError where
  | authority (reason : String)
  | authentication (source : String) (status : Option ℕ)
  deriving DecidableEq

/-- `request` carries the status of the `reqwest` error, if it has one. -/
inductive SiweError where
  | invalidHex
  | invalidPrivateKeyLength (length : ℕ)
  | invalidSigningKey
  | signing
  | request (status : Option ℕ)
  | upstreamStatus (status : ℕ)
  | invalidExpiration
  | missingField (field : String)
  | peerBinding (detail : String)
  deriving DecidableEq

def SiweError.statusCode : SiweError → Option ℕ
  | .request status => status
  | .upstreamStatus status => some status
  | _ => none

def transientStatus (status : ℕ) : Bool :=
  decide (500 ≤ status ∧ status < 600) || status == 408 || status == 429

def transientAuthError : SiweError → Bool
  | .request status => status.all transientStatus
  | .upstreamStatus status => transientStatus status
  | .invalidExpiration => true
  | .missingField field =>
    !(field == "valid robot authority" || field == "valid bound robot authority")
  | .peerBinding _ => true
  | .invalidHex => false
  | .invalidPrivateKeyLength _ => false
  | .invalidSigningKey => false
  | .signing => false

structure RobotConfig where
  audience : String
  /-- The Peer ID of `peer_identity`. -/
  peerId : Option String

/-- Base64 and JSON down to the claims of a token. -/
abbrev ReadClaims := List Char → Except TaskError RobotClaims

def decodeClaims (read : ReadClaims) (token : String) : Except TaskError RobotClaims :=
  if token.utf8ByteSize > 64 * 1024 then .error (.authority "oversized machine token")
  else
    match token.toList.splitOn '.' with
    | [header, payload, signature] =>
      if header = [] ∨ payload = [] ∨ signature = [] then
        .error (.authority "malformed machine token")
      else read payload
    | _ => .error (.authority "malformed machine token")

/-- The claims that `validate` accepts at two clock readings. -/
structure Profile (config : RobotConfig) (claims : RobotClaims) (bundle : AccessBundle)
    (bound : Bool) (now now' : DateTime) : Prop where
  iss : claims.iss = "dds"
  aud : claims.aud = [config.audience]
  nodeType : claims.nodeType = "robot"
  nodeMode : claims.nodeMode = "dedicated"
  sub : claims.sub = claims.nodeId
  node : claims.nodeId ≠ 0
  organization : claims.organizationId ≠ 0
  domain : claims.assignedDomainId ≠ some 0
  unexpired : timestamp now < claims.exp
  issued : claims.iat ≤ timestamp now'
  lifetime : claims.iat < claims.exp
  expiry : timestamp bundle.expiresAt = claims.exp
  binding : bound = true → claims.peerId = config.peerId

instance (config : RobotConfig) (claims : RobotClaims) (bundle : AccessBundle) (bound : Bool)
    (now now' : DateTime) : Decidable (Profile config claims bundle bound now now') :=
  decidable_of_iff (claims.iss = "dds" ∧ claims.aud = [config.audience] ∧
      claims.nodeType = "robot" ∧ claims.nodeMode = "dedicated" ∧ claims.sub = claims.nodeId ∧
      claims.nodeId ≠ 0 ∧ claims.organizationId ≠ 0 ∧ claims.assignedDomainId ≠ some 0 ∧
      timestamp now < claims.exp ∧ claims.iat ≤ timestamp now' ∧ claims.iat < claims.exp ∧
      timestamp bundle.expiresAt = claims.exp ∧ (bound = true → claims.peerId = config.peerId))
    ⟨fun ⟨h1, h2, h3, h4, h5, h6, h7, h8, h9, h10, h11, h12, h13⟩ =>
        ⟨h1, h2, h3, h4, h5, h6, h7, h8, h9, h10, h11, h12, h13⟩,
      fun ⟨h1, h2, h3, h4, h5, h6, h7, h8, h9, h10, h11, h12, h13⟩ =>
        ⟨h1, h2, h3, h4, h5, h6, h7, h8, h9, h10, h11, h12, h13⟩⟩

theorem Profile.unbound {config : RobotConfig} {claims : RobotClaims} {bundle : AccessBundle}
    {bound : Bool} {now now' : DateTime} (profile : Profile config claims bundle bound now now') :
    Profile config claims bundle false now now' :=
  { profile with binding := fun hbnd => by cases hbnd }

/-- One node in one organization with one assigned Domain. -/
def SamePrincipal (first second : RobotClaims) : Prop :=
  first.nodeId = second.nodeId ∧ first.organizationId = second.organizationId ∧
    first.assignedDomainId = second.assignedDomainId

instance (first second : RobotClaims) : Decidable (SamePrincipal first second) :=
  inferInstanceAs (Decidable (_ ∧ _ ∧ _))

/-- The cells of `Authenticator`. -/
structure Authenticator where
  principal : Option RobotClaims
  last : Option AccessBundle
  stop : Option TaskError
  failed : Bool
  closed : Bool

/-- `Authenticator::validate`: the claims that become the principal. -/
def validate (read : ReadClaims) (config : RobotConfig) (principal : Option RobotClaims)
    (bundle : AccessBundle) (bound : Bool) (now now' : DateTime) :
    Except TaskError RobotClaims :=
  match decodeClaims read bundle.token with
  | .error error => .error error
  | .ok claims =>
    if ¬Profile config claims bundle bound now now' then
      .error (.authority "invalid robot token profile")
    else if principal.any fun previous => !decide (SamePrincipal previous claims) then
      .error (.authority
        "robot identity or assignment changed; restart after operator reconciliation")
    else .ok claims

theorem validate_eq_ok {read : ReadClaims} {config : RobotConfig}
    {principal : Option RobotClaims} {bundle : AccessBundle} {bound : Bool}
    {now now' : DateTime} {claims : RobotClaims}
    (hval : validate read config principal bundle bound now now' = .ok claims) :
    decodeClaims read bundle.token = .ok claims ∧ Profile config claims bundle bound now now' ∧
      ∀ previous ∈ principal, SamePrincipal previous claims := by
  unfold validate at hval
  split at hval
  · cases hval
  · rename_i found hdec
    split_ifs at hval with hprof hchd
    cases hval
    refine ⟨hdec, hprof, ?_⟩
    intro previous hprev
    rw [Option.mem_def] at hprev
    simpa [hprev] using hchd

/-- What is recorded of a run. -/
inductive RobotEvent where
  | accepted (bundle : AccessBundle) (claims : RobotClaims) (bound : Bool)
      (now now' : DateTime)
  | loginFailed (error : SiweError)
  | presenceFailed (error : SiweError)
  | presenceRejected (error : TaskError)
  | closed
  deriving DecidableEq

/-- Whether an event may cancel the credential. -/
def RobotEvent.permanent : RobotEvent → Bool
  | .accepted .. => false
  | .loginFailed error => !transientAuthError error
  | .presenceFailed error => !transientAuthError error
  | .presenceRejected _ => true
  | .closed => true

/-- Where one `login` is. -/
inductive LoginPhase where
  | started
  | registered (bundle : AccessBundle)
  /-- The unbound check has passed; `bind_peer` is in flight. -/
  | binding (bundle : AccessBundle)
  | bound (bundle : AccessBundle)
  | settling (attempt : Except SiweError AccessBundle)
  | returned (attempt result : Except SiweError AccessBundle) (now : DateTime)
  | dropped

/-- How one round of the presence loop ended. -/
inductive PresenceOutcome where
  | accepted
  | retried (error : SiweError)
  | refused (error : TaskError)

/-- Where one round of the presence loop is. -/
inductive PresencePhase where
  | started
  | registered (bundle : AccessBundle)
  | refusing (error : TaskError)
  | finished (outcome : PresenceOutcome)
  | dropped

structure RobotCredential (Call : Type) where
  auth : Authenticator
  logins : Call → LoginPhase
  presences : Call → PresencePhase
  history : List RobotEvent

inductive RobotLabel (Call : Type) where
  | baseLogin (call : Call) (answer : Except SiweError AccessBundle)
  | validateUnbound (call : Call) (now now' : DateTime)
  /-- `none` stands for a failed binding. -/
  | bindPeer (call : Call) (answer : Option AccessBundle)
  | validateBound (call : Call) (now now' : DateTime)
  | settle (call : Call) (now : DateTime)
  | dropLogin (call : Call)
  | registerPresence (call : Call) (answer : Except SiweError AccessBundle)
  | validatePresence (call : Call) (now now' : DateTime)
  | rejectPresence (call : Call)
  | dropPresence (call : Call)
  | close

def Authenticator.reject (auth : Authenticator) (error : TaskError) : Authenticator :=
  { auth with stop := some error, failed := true, closed := true }

variable {Call : Type} [DecidableEq Call]

namespace RobotCredential

def setLogin (robot : RobotCredential Call) (call : Call) (phase : LoginPhase) :
    RobotCredential Call :=
  { robot with logins := Function.update robot.logins call phase }

def setPresence (robot : RobotCredential Call) (call : Call) (phase : PresencePhase) :
    RobotCredential Call :=
  { robot with presences := Function.update robot.presences call phase }

def record (robot : RobotCredential Call) (event : RobotEvent) : RobotCredential Call :=
  { robot with history := robot.history ++ [event] }

/-- A successful `validate` sets the principal. -/
def accept (robot : RobotCredential Call) (bundle : AccessBundle) (claims : RobotClaims)
    (bound : Bool) (now now' : DateTime) : RobotCredential Call :=
  { robot with auth := { robot.auth with principal := some claims } }.record
    (.accepted bundle claims bound now now')

/-- The match on the result of an attempt, at the end of `login`. -/
def settle (robot : RobotCredential Call) (call : Call)
    (attempt : Except SiweError AccessBundle) (now : DateTime) : RobotCredential Call :=
  match attempt with
  | .ok bundle =>
    { robot with auth := { robot.auth with last := some bundle } }.setLogin call
      (.returned attempt attempt now)
  | .error error =>
    if transientAuthError error then
      match robot.auth.last.filter fun bundle => decide (now < bundle.expiresAt) with
      | some bundle =>
        (robot.record (.loginFailed error)).setLogin call
          (.returned attempt (.ok bundle) now)
      | none =>
        (robot.record (.loginFailed error)).setLogin call (.returned attempt attempt now)
    else
      { robot with auth :=
          robot.auth.reject (.authentication "token" error.statusCode) }.record
        (.loginFailed error) |>.setLogin call (.returned attempt attempt now)

def step (read : ReadClaims) (config : RobotConfig) (robot : RobotCredential Call) :
    RobotLabel Call → Option (RobotCredential Call)
  | .baseLogin call answer =>
    match robot.logins call with
    | .started =>
      match answer with
      | .ok bundle => some (robot.setLogin call (.registered bundle))
      | .error error => some (robot.setLogin call (.settling (.error error)))
    | _ => none
  | .validateUnbound call now now' =>
    match robot.logins call with
    | .registered bundle =>
      match validate read config robot.auth.principal bundle false now now' with
      | .ok claims =>
        some ((robot.accept bundle claims false now now').setLogin call (.binding bundle))
      | .error _ =>
        some (robot.setLogin call
          (.settling (.error (.missingField "valid robot authority"))))
    | _ => none
  | .bindPeer call answer =>
    match robot.logins call, config.peerId with
    | .binding bundle, none => some (robot.setLogin call (.bound bundle))
    | .binding _, some _ =>
      match answer with
      | some bundle => some (robot.setLogin call (.bound bundle))
      | none =>
        some (robot.setLogin call
          (.settling (.error (.missingField "valid DDS peer binding"))))
    | _, _ => none
  | .validateBound call now now' =>
    match robot.logins call with
    | .bound bundle =>
      match validate read config robot.auth.principal bundle true now now' with
      | .ok claims =>
        some ((robot.accept bundle claims true now now').setLogin call
          (.settling (.ok bundle)))
      | .error _ =>
        some (robot.setLogin call
          (.settling (.error (.missingField "valid bound robot authority"))))
    | _ => none
  | .settle call now =>
    match robot.logins call with
    | .settling attempt => some (robot.settle call attempt now)
    | _ => none
  | .dropLogin call =>
    match robot.logins call with
    | .returned .. => none
    | _ => some (robot.setLogin call .dropped)
  | .registerPresence call answer =>
    match robot.presences call with
    | .started =>
      match answer with
      | .ok bundle => some (robot.setPresence call (.registered bundle))
      | .error error =>
        if transientAuthError error then
          some ((robot.record (.presenceFailed error)).setPresence call
            (.finished (.retried error)))
        else
          some ((robot.record (.presenceFailed error)).setPresence call
            (.refusing (.authentication "presence" error.statusCode)))
    | _ => none
  | .validatePresence call now now' =>
    match robot.presences call with
    | .registered bundle =>
      match validate read config robot.auth.principal bundle false now now' with
      | .ok claims =>
        some ((robot.accept bundle claims false now now').setPresence call
          (.finished .accepted))
      | .error error =>
        some ((robot.record (.presenceRejected error)).setPresence call (.refusing error))
    | _ => none
  | .rejectPresence call =>
    match robot.presences call with
    | .refusing error =>
      some ({ robot with auth := robot.auth.reject error }.setPresence call
        (.finished (.refused error)))
    | _ => none
  | .dropPresence call =>
    match robot.presences call with
    | .finished _ => none
    | _ => some (robot.setPresence call .dropped)
  | .close =>
    some ({ robot with auth := { robot.auth with closed := true } }.record .closed)

def new : RobotCredential Call where
  auth := { principal := none, last := none, stop := none, failed := false, closed := false }
  logins := fun _ => .started
  presences := fun _ => .started
  history := []

/-- Some bound check has accepted the bundle. -/
def AcceptedBound (history : List RobotEvent) (bundle : AccessBundle) : Prop :=
  ∃ claims now now', .accepted bundle claims true now now' ∈ history

/-- The credential is cancelled with a recorded error. -/
def Cancelled (auth : Authenticator) : Prop :=
  auth.closed = true ∧ auth.failed = true ∧ auth.stop.isSome = true

def LoginSound (history : List RobotEvent) (auth : Authenticator) : LoginPhase → Prop
  | .settling (.ok bundle) => AcceptedBound history bundle
  | .returned attempt result now =>
    (∀ bundle, result = .ok bundle → AcceptedBound history bundle ∧
      (attempt = .ok bundle ∨ ∃ error, attempt = .error error ∧
        transientAuthError error = true ∧ now < bundle.expiresAt)) ∧
    ∀ error, attempt = .error error → transientAuthError error = false →
      result = .error error ∧ Cancelled auth
  | _ => True

def PresenceSound (history : List RobotEvent) (auth : Authenticator) : PresencePhase → Prop
  | .refusing _ => ∃ event ∈ history, event.permanent = true
  | .finished (.retried error) => transientAuthError error = true
  | .finished (.refused _) => Cancelled auth
  | _ => True

variable {history history' : List RobotEvent}

theorem AcceptedBound.mono {bundle : AccessBundle} (hbnd : AcceptedBound history bundle)
    (hsub : history ⊆ history') :
    AcceptedBound history' bundle := by
  obtain ⟨claims, now, now', hm⟩ := hbnd
  exact ⟨claims, now, now', hsub hm⟩

theorem LoginSound.mono {auth auth' : Authenticator} {phase : LoginPhase}
    (hs : LoginSound history auth phase) (hsub : history ⊆ history')
    (hcanc : Cancelled auth → Cancelled auth') : LoginSound history' auth' phase := by
  cases phase with
  | settling attempt =>
    cases attempt with
    | ok bundle => exact AcceptedBound.mono hs hsub
    | error error => trivial
  | returned attempt result now =>
    refine ⟨fun bundle hres => ?_, fun error hatt hperm => ?_⟩
    · obtain ⟨hbnd, hori⟩ := hs.1 bundle hres
      exact ⟨hbnd.mono hsub, hori⟩
    · obtain ⟨hres, hstp⟩ := hs.2 error hatt hperm
      exact ⟨hres, hcanc hstp⟩
  | started | registered | binding | bound | dropped => trivial

theorem PresenceSound.mono {auth auth' : Authenticator} {phase : PresencePhase}
    (hs : PresenceSound history auth phase) (hsub : history ⊆ history')
    (hcanc : Cancelled auth → Cancelled auth') :
    PresenceSound history' auth' phase := by
  cases phase with
  | refusing error =>
    obtain ⟨event, hm, hperm⟩ := hs
    exact ⟨event, hsub hm, hperm⟩
  | finished outcome =>
    cases outcome with
    | accepted => trivial
    | retried error => exact hs
    | refused error => exact hcanc hs
  | started | registered | dropped => trivial

/-- The credential agrees with what was accepted and what has failed. -/
structure Sound (read : ReadClaims) (config : RobotConfig) (robot : RobotCredential Call) :
    Prop where
  accepted : ∀ bundle claims bound now now',
    .accepted bundle claims bound now now' ∈ robot.history →
    decodeClaims read bundle.token = .ok claims ∧ Profile config claims bundle bound now now' ∧
      ∃ principal ∈ robot.auth.principal, SamePrincipal principal claims
  last : ∀ bundle ∈ robot.auth.last, AcceptedBound robot.history bundle
  cancelled : robot.auth.closed = true → ∃ event ∈ robot.history, event.permanent = true
  logins : ∀ call, LoginSound robot.history robot.auth (robot.logins call)
  presences : ∀ call, PresenceSound robot.history robot.auth (robot.presences call)

variable {read : ReadClaims} {config : RobotConfig} {robot next : RobotCredential Call}

namespace Sound

theorem setLogin (hs : robot.Sound read config) {call : Call} {phase : LoginPhase}
    (hp : LoginSound robot.history robot.auth phase) :
    (robot.setLogin call phase).Sound read config := by
  refine ⟨hs.accepted, hs.last, hs.cancelled, fun other => ?_, hs.presences⟩
  by_cases hsm : other = call
  · simpa [RobotCredential.setLogin, hsm] using hp
  · simpa [RobotCredential.setLogin, hsm] using hs.logins other

theorem setPresence (hs : robot.Sound read config) {call : Call} {phase : PresencePhase}
    (hp : PresenceSound robot.history robot.auth phase) :
    (robot.setPresence call phase).Sound read config := by
  refine ⟨hs.accepted, hs.last, hs.cancelled, hs.logins, fun other => ?_⟩
  by_cases hsm : other = call
  · simpa [RobotCredential.setPresence, hsm] using hp
  · simpa [RobotCredential.setPresence, hsm] using hs.presences other

omit [DecidableEq Call] in
theorem record (hs : robot.Sound read config) {event : RobotEvent}
    (hfail : ∀ bundle claims bound now now', event ≠ .accepted bundle claims bound now now') :
    (robot.record event).Sound read config := by
  have hsub : robot.history ⊆ (robot.record event).history := subset_append_left _ _
  refine ⟨?_, ?_, ?_, ?_, ?_⟩
  · intro bundle claims bound now now' hm
    obtain hm | hm := mem_append.mp hm
    · exact hs.accepted bundle claims bound now now' hm
    · exact absurd (mem_singleton.mp hm).symm (hfail bundle claims bound now now')
  · exact fun bundle hlast => (hs.last bundle hlast).mono hsub
  · intro hcl
    obtain ⟨event, hm, hperm⟩ := hs.cancelled hcl
    exact ⟨event, hsub hm, hperm⟩
  · exact fun call => (hs.logins call).mono hsub id
  · exact fun call => (hs.presences call).mono hsub id

omit [DecidableEq Call] in
theorem accept (hs : robot.Sound read config) {bundle : AccessBundle}
    {claims : RobotClaims} {bound : Bool} {now now' : DateTime}
    (hval : validate read config robot.auth.principal bundle bound now now' = .ok claims) :
    (robot.accept bundle claims bound now now').Sound read config := by
  obtain ⟨hdec, hprof, hsm⟩ := validate_eq_ok hval
  have hsub : robot.history ⊆ (robot.accept bundle claims bound now now').history :=
    subset_append_left _ _
  refine ⟨?_, ?_, ?_, ?_, ?_⟩
  · intro other found bound' earlier earlier' hm
    obtain hm | hm := mem_append.mp hm
    · obtain ⟨ho, hf, principal, hpri, hagr⟩ := hs.accepted other found bound' earlier earlier' hm
      obtain ⟨hnode, horg, hdom⟩ := hsm principal hpri
      refine ⟨ho, hf, claims, rfl, ?_⟩
      exact ⟨hnode.symm.trans hagr.1, horg.symm.trans hagr.2.1, hdom.symm.trans hagr.2.2⟩
    · cases mem_singleton.mp hm
      exact ⟨hdec, hprof, claims, rfl, rfl, rfl, rfl⟩
  · exact fun bundle hlast => (hs.last bundle hlast).mono hsub
  · intro hcl
    obtain ⟨event, hm, hperm⟩ := hs.cancelled hcl
    exact ⟨event, hsub hm, hperm⟩
  · exact fun call => (hs.logins call).mono hsub id
  · exact fun call => (hs.presences call).mono hsub id

omit [DecidableEq Call] in
theorem reject (hs : robot.Sound read config) {error : TaskError}
    (hcau : ∃ event ∈ robot.history, event.permanent = true) :
    ({ robot with auth := robot.auth.reject error } : RobotCredential Call).Sound read
      config := by
  have hcanc : Cancelled (robot.auth.reject error) := ⟨rfl, rfl, rfl⟩
  refine ⟨hs.accepted, hs.last, fun _ => hcau, ?_, ?_⟩
  · exact fun call => (hs.logins call).mono (List.Subset.refl _) fun _ => hcanc
  · exact fun call => (hs.presences call).mono (List.Subset.refl _) fun _ => hcanc

omit [DecidableEq Call] in
theorem keep (hs : robot.Sound read config) {bundle : AccessBundle}
    (hbnd : AcceptedBound robot.history bundle) :
    ({ robot with auth := { robot.auth with last := some bundle } } :
      RobotCredential Call).Sound read config := by
  refine ⟨hs.accepted, ?_, hs.cancelled, ?_, ?_⟩
  · intro other ho
    cases ho
    exact hbnd
  · exact fun call => (hs.logins call).mono (List.Subset.refl _) id
  · exact fun call => (hs.presences call).mono (List.Subset.refl _) id

omit [DecidableEq Call] in
theorem close (hs : robot.Sound read config) :
    ({ robot with auth := { robot.auth with closed := true } }.record .closed :
      RobotCredential Call).Sound read config := by
  have hrec : (robot.record .closed).Sound read config :=
    hs.record fun _ _ _ _ _ heq => by cases heq
  have hcanc : Cancelled robot.auth → Cancelled { robot.auth with closed := true } :=
    fun ⟨_, hfail, hstop⟩ => ⟨rfl, hfail, hstop⟩
  refine ⟨hrec.accepted, hrec.last, fun _ => ?_, ?_, ?_⟩
  · exact ⟨.closed, mem_append_right _ (mem_singleton_self _), rfl⟩
  · exact fun call => (hrec.logins call).mono (List.Subset.refl _) hcanc
  · exact fun call => (hrec.presences call).mono (List.Subset.refl _) hcanc

theorem settle (hs : robot.Sound read config) {call : Call}
    {attempt : Except SiweError AccessBundle} (hp : robot.logins call = .settling attempt)
    (now : DateTime) : (robot.settle call attempt now).Sound read config := by
  have hlog := hs.logins call
  rw [hp] at hlog
  cases attempt with
  | ok bundle =>
    apply (hs.keep hlog).setLogin
    refine ⟨?_, by rintro _ ⟨⟩⟩
    rintro _ ⟨⟩
    exact ⟨hlog, .inl rfl⟩
  | error error =>
    have hfail : (robot.record (.loginFailed error)).Sound read config :=
      hs.record fun _ _ _ _ _ heq => by cases heq
    unfold RobotCredential.settle
    dsimp only
    split_ifs with htra
    · split
      · rename_i bundle hlast
        obtain ⟨hbun, hfrs⟩ := Option.filter_eq_some_iff.mp hlast
        apply hfail.setLogin
        refine ⟨?_, ?_⟩
        · rintro _ ⟨⟩
          refine ⟨hfail.last bundle hbun, .inr ⟨error, rfl, htra, ?_⟩⟩
          exact of_decide_eq_true hfrs
        · rintro _ ⟨⟩ hperm
          rw [htra] at hperm
          cases hperm
      · apply hfail.setLogin
        refine ⟨by rintro _ ⟨⟩, ?_⟩
        rintro _ ⟨⟩ hperm
        rw [htra] at hperm
        cases hperm
    · have hcau : ∃ event ∈ (robot.record (.loginFailed error)).history,
          event.permanent = true := by
        refine ⟨_, mem_append_right _ (mem_singleton_self _), ?_⟩
        simpa [RobotEvent.permanent] using htra
      apply (hfail.reject hcau).setLogin
      refine ⟨by rintro _ ⟨⟩, ?_⟩
      rintro _ ⟨⟩ -
      exact ⟨rfl, rfl, rfl, rfl⟩

theorem step (hs : robot.Sound read config) {label : RobotLabel Call}
    (hstep : robot.step read config label = some next) : next.Sound read config := by
  unfold RobotCredential.step at hstep
  cases label with
  | baseLogin call answer =>
    dsimp only at hstep
    split at hstep
    · split at hstep <;> cases hstep <;> exact hs.setLogin trivial
    · cases hstep
  | validateUnbound call now now' =>
    dsimp only at hstep
    split at hstep
    · split at hstep
      · rename_i claims hval
        cases hstep
        exact (hs.accept hval).setLogin trivial
      · cases hstep
        exact hs.setLogin trivial
    · cases hstep
  | bindPeer call answer =>
    dsimp only at hstep
    split at hstep
    · cases hstep
      exact hs.setLogin trivial
    · split at hstep <;> cases hstep <;> exact hs.setLogin trivial
    · cases hstep
  | validateBound call now now' =>
    dsimp only at hstep
    split at hstep
    · split at hstep
      · rename_i claims hval
        cases hstep
        apply (hs.accept hval).setLogin
        exact ⟨claims, now, now', mem_append_right _ (mem_singleton_self _)⟩
      · cases hstep
        exact hs.setLogin trivial
    · cases hstep
  | settle call now =>
    dsimp only at hstep
    split at hstep
    · rename_i attempt hp
      cases hstep
      exact hs.settle hp now
    · cases hstep
  | dropLogin call =>
    dsimp only at hstep
    split at hstep <;> cases hstep
    exact hs.setLogin trivial
  | registerPresence call answer =>
    dsimp only at hstep
    split at hstep
    · split at hstep
      · cases hstep
        exact hs.setPresence trivial
      · rename_i error
        have hfail : (robot.record (.presenceFailed error)).Sound read config :=
          hs.record fun _ _ _ _ _ heq => by cases heq
        split_ifs at hstep with htransient
        · cases hstep
          exact hfail.setPresence htransient
        · cases hstep
          apply hfail.setPresence
          refine ⟨_, mem_append_right _ (mem_singleton_self _), ?_⟩
          simpa [RobotEvent.permanent] using htransient
    · cases hstep
  | validatePresence call now now' =>
    dsimp only at hstep
    split at hstep
    · split at hstep
      · rename_i claims hval
        cases hstep
        exact (hs.accept hval).setPresence trivial
      · rename_i error _
        cases hstep
        have hfail : (robot.record (.presenceRejected error)).Sound read config :=
          hs.record fun _ _ _ _ _ heq => by cases heq
        apply hfail.setPresence
        exact ⟨_, mem_append_right _ (mem_singleton_self _), rfl⟩
    · cases hstep
  | rejectPresence call =>
    dsimp only at hstep
    split at hstep
    · rename_i error hp
      cases hstep
      have hcau := hs.presences call
      rw [hp] at hcau
      exact (hs.reject hcau).setPresence ⟨rfl, rfl, rfl⟩
    · cases hstep
  | dropPresence call =>
    dsimp only at hstep
    split at hstep <;> cases hstep
    exact hs.setPresence trivial
  | close =>
    cases hstep
    exact hs.close

omit [DecidableEq Call] in
theorem new (read : ReadClaims) (config : RobotConfig) :
    (RobotCredential.new : RobotCredential Call).Sound read config where
  accepted := fun _ _ _ _ _ hm => by cases hm
  last := fun _ hlast => by cases hlast
  cancelled := fun hcl => by cases hcl
  logins := fun _ => trivial
  presences := fun _ => trivial

end Sound

/-- The contract of the pinned principal. -/
structure Pinned (read : ReadClaims) (config : RobotConfig) (robot : RobotCredential Call) :
    Prop where
  profile : ∀ bundle claims bound now now',
    .accepted bundle claims bound now now' ∈ robot.history →
    decodeClaims read bundle.token = .ok claims ∧ claims.iss = "dds" ∧
      claims.aud = [config.audience] ∧ claims.nodeType = "robot" ∧
      claims.nodeMode = "dedicated" ∧ claims.sub = claims.nodeId
  one_principal : ∀ bundle claims bound now now' other found bound' earlier earlier',
    .accepted bundle claims bound now now' ∈ robot.history →
    .accepted other found bound' earlier earlier' ∈ robot.history →
    SamePrincipal claims found
  /-- An `Ok` login passed both checks unexpired, now or in an earlier login. -/
  login : ∀ call attempt bundle now, robot.logins call = .returned attempt (.ok bundle) now →
    (∃ claims checked checked', .accepted bundle claims true checked checked' ∈ robot.history ∧
      Profile config claims bundle false checked checked' ∧
      Profile config claims bundle true checked checked' ∧ timestamp checked < claims.exp) ∧
    (attempt = .ok bundle ∨ ∃ error, attempt = .error error ∧
      transientAuthError error = true ∧ now < bundle.expiresAt)
  rejected_login : ∀ call error result now,
    robot.logins call = .returned (.error error) result now →
    transientAuthError error = false → Cancelled robot.auth
  rejected_presence : ∀ call error,
    robot.presences call = .finished (.refused error) → Cancelled robot.auth
  retried_presence : ∀ call error,
    robot.presences call = .finished (.retried error) → transientAuthError error = true
  /-- Without a permanent failure, a refused token or `close` nothing is cancelled. -/
  transient : (∀ event ∈ robot.history, event.permanent = false) → robot.auth.closed = false

omit [DecidableEq Call] in
theorem Sound.pinned (hs : robot.Sound read config) : robot.Pinned read config where
  profile := by
    intro bundle claims bound now now' hm
    obtain ⟨hdec, hprof, -⟩ := hs.accepted bundle claims bound now now' hm
    exact ⟨hdec, hprof.iss, hprof.aud, hprof.nodeType, hprof.nodeMode, hprof.sub⟩
  one_principal := by
    intro bundle claims bound now now' other found bound' earlier earlier' hm ho
    obtain ⟨-, -, principal, hpri, hnode, horg, hdom⟩ := hs.accepted bundle claims bound now now' hm
    obtain ⟨-, -, principal', hprincipal', hagr⟩ :=
      hs.accepted other found bound' earlier earlier' ho
    cases Option.mem_unique hpri hprincipal'
    exact ⟨hnode.symm.trans hagr.1, horg.symm.trans hagr.2.1, hdom.symm.trans hagr.2.2⟩
  login := by
    intro call attempt bundle now hp
    have hlog := hs.logins call
    rw [hp] at hlog
    obtain ⟨⟨claims, checked, checked', hm⟩, hori⟩ := hlog.1 bundle rfl
    obtain ⟨-, hprof, -⟩ := hs.accepted bundle claims true checked checked' hm
    exact ⟨⟨claims, checked, checked', hm, hprof.unbound, hprof, hprof.unexpired⟩, hori⟩
  rejected_login := by
    intro call error result now hp hperm
    have hlog := hs.logins call
    rw [hp] at hlog
    exact (hlog.2 error rfl hperm).2
  rejected_presence := by
    intro call error hp
    have hpre := hs.presences call
    rwa [hp] at hpre
  retried_presence := by
    intro call error hp
    have hpre := hs.presences call
    rwa [hp] at hpre
  transient := by
    intro htra
    by_contra hcl
    obtain ⟨event, hm, hperm⟩ := hs.cancelled (Bool.not_eq_false _ ▸ hcl)
    rw [htra event hm] at hperm
    cases hperm

/-- Over every interleaving of logins and presence rounds, with any answers of DDS. -/
theorem robot_principal_pinned {labels : List (RobotLabel Call)}
    (hrun : runSteps (RobotCredential.step read config) new labels = some robot) :
    robot.Pinned read config :=
  (invariant_of_run (Sound.new read config)
    (fun _ _ _ hsound hstep => hsound.step hstep) hrun).pinned

/-! A login, a failed refresh that keeps its token, and a presence token of another robot. -/

def sampleClaims (node : Uuid) (peerId : Option String) : RobotClaims where
  assignedDomainId := some 7
  nodeId := node
  organizationId := 3
  sub := node
  nodeType := "robot"
  nodeMode := "dedicated"
  iss := "dds"
  aud := ["https://dds.auki.network/robots"]
  iat := 0
  exp := 120
  peerId

def sampleRead : ReadClaims
  | ['a'] => .ok (sampleClaims 1 none)
  | ['b'] => .ok (sampleClaims 1 (some "12D3KooW"))
  | ['c'] => .ok (sampleClaims 2 none)
  | _ => .error (.authority "invalid machine claims")

def sampleConfig : RobotConfig where
  audience := "https://dds.auki.network/robots"
  peerId := some "12D3KooW"

def sampleBundle (token : String) : AccessBundle := ⟨token, 120 * nanosPerSecond⟩

def sampleLabels : List (RobotLabel Bool) :=
  [.baseLogin false (.ok (sampleBundle "h.a.s")), .validateUnbound false 0 0,
    .bindPeer false (some (sampleBundle "h.b.s")), .validateBound false 0 0, .settle false 0,
    .baseLogin true (.error (.upstreamStatus 503)), .settle true 0,
    .registerPresence false (.ok (sampleBundle "h.c.s")), .validatePresence false 0 0,
    .rejectPresence false]

theorem robot_principal_pinned_sample : ∃ robot : RobotCredential Bool,
    runSteps (RobotCredential.step sampleRead sampleConfig) new sampleLabels = some robot ∧
      robot.auth.last = some (sampleBundle "h.b.s") ∧
      robot.auth.stop = some (.authority
        "robot identity or assignment changed; restart after operator reconciliation") ∧
      robot.Pinned sampleRead sampleConfig := by
  have hmap : (runSteps (RobotCredential.step sampleRead sampleConfig) new sampleLabels).map
      (fun robot => (robot.auth.last, robot.auth.stop)) =
      some (some (sampleBundle "h.b.s"), some (.authority
        "robot identity or assignment changed; restart after operator reconciliation")) := by
    decide +kernel
  obtain ⟨robot, hrun, heq⟩ := Option.map_eq_some_iff.mp hmap
  rw [Prod.mk.injEq] at heq
  exact ⟨robot, hrun, heq.1, heq.2, robot_principal_pinned hrun⟩

end RobotCredential

end Robot

end AukiSdk.Tasks
