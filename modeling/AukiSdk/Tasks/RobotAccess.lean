import AukiSdk.Tasks.GrantCache
import AukiSdk.Tasks.RobotPinning

/-!
# Domain data grants of a robot

`AukiRobotCredential::domain_access` over the pinned principal.
-/

namespace AukiSdk.Tasks

open AukiSdk.Foundation AukiSdk.Net List Function

namespace Robot

section Credential

variable {Call : Type} [DecidableEq Call] {read : ReadClaims} {config : RobotConfig}
  {robot next : RobotCredential Call}

/-- The principal is the last accepted one, and the history grows. -/
structure RobotCredential.Continues (robot next : RobotCredential Call) : Prop where
  history : robot.history ⊆ next.history
  principal : ∀ principal ∈ next.auth.principal, principal ∈ robot.auth.principal ∨
    ∃ bundle bound now now', .accepted bundle principal bound now now' ∈ next.history

omit [DecidableEq Call] in
theorem RobotCredential.continues_of_same (hhist : robot.history ⊆ next.history)
    (hpri : next.auth.principal = robot.auth.principal) : robot.Continues next :=
  ⟨hhist, fun _ hm => .inl (hpri ▸ hm)⟩

omit [DecidableEq Call] in
theorem RobotCredential.continues_accept {bundle : AccessBundle} {claims : RobotClaims}
    {bound : Bool} {now now' : DateTime}
    (hhist : next.history = robot.history ++ [.accepted bundle claims bound now now'])
    (hpri : next.auth.principal = some claims) : robot.Continues next := by
  refine ⟨hhist ▸ subset_append_left _ _, fun principal hm => .inr ?_⟩
  rw [hpri] at hm
  cases hm
  exact ⟨bundle, bound, now, now', hhist ▸ mem_append_right _ (mem_singleton_self _)⟩

theorem RobotCredential.continues_settle (call : Call)
    (attempt : Except SiweError AccessBundle) (now : DateTime) :
    robot.Continues (robot.settle call attempt now) := by
  have hsub : ∀ event, robot.history ⊆ robot.history ++ [event] := fun _ => subset_append_left _ _
  cases attempt with
  | ok bundle => exact continues_of_same (List.Subset.refl _) rfl
  | error error =>
    unfold RobotCredential.settle
    dsimp only
    split_ifs
    · split
      · exact continues_of_same (hsub _) rfl
      · exact continues_of_same (hsub _) rfl
    · exact continues_of_same (hsub _) rfl

theorem RobotCredential.continues_step {label : RobotLabel Call}
    (hs : robot.step read config label = some next) : robot.Continues next := by
  have hsub : ∀ event, robot.history ⊆ robot.history ++ [event] := fun _ => subset_append_left _ _
  have hsm : robot.history ⊆ robot.history := List.Subset.refl _
  unfold RobotCredential.step at hs
  cases label with
  | baseLogin | bindPeer =>
    dsimp only at hs
    split at hs
    all_goals first
      | cases hs; done
      | (split at hs <;> cases hs <;> exact continues_of_same hsm rfl)
      | (cases hs; exact continues_of_same hsm rfl)
  | validateUnbound | validateBound =>
    dsimp only at hs
    split at hs
    · split at hs <;> cases hs
      · exact continues_accept rfl rfl
      · exact continues_of_same hsm rfl
    · cases hs
  | settle call now =>
    dsimp only at hs
    split at hs <;> cases hs
    exact continues_settle ..
  | dropLogin | dropPresence =>
    dsimp only at hs
    split at hs <;> cases hs
    all_goals exact continues_of_same hsm rfl
  | registerPresence call answer =>
    dsimp only at hs
    split at hs
    · split at hs
      · cases hs
        exact continues_of_same hsm rfl
      · split_ifs at hs <;> cases hs
        · exact continues_of_same (hsub _) rfl
        · exact continues_of_same (hsub _) rfl
    · cases hs
  | validatePresence call now now' =>
    dsimp only at hs
    split at hs
    · split at hs <;> cases hs
      · exact continues_accept rfl rfl
      · exact continues_of_same (hsub _) rfl
    · cases hs
  | rejectPresence call =>
    dsimp only at hs
    split at hs <;> cases hs
    exact continues_of_same hsm rfl
  | close =>
    cases hs
    exact continues_of_same (hsub _) rfl

end Credential

/-- The members `scopes` and `type` of a data token, where they have these types. -/
structure GrantKind where
  scopes : Option (List String)
  type : Option String
  deriving DecidableEq

structure RobotGrantLibrary extends GrantLibrary where
  readKind : String → Option GrantKind

structure DomainGrant where
  domainId : Uuid
  domainServerUrl : String
  accessToken : String
  accessExpiresAt : DateTime

def readGrant : GrantKind := { scopes := some ["domain:r"], type := some "robot" }

/-- The checks on a successful answer of DDS, with the two clock readings of
`from_issued_grant`. -/
def DomainGrant.access (library : RobotGrantLibrary) (response : DomainGrant)
    (domainId : Uuid) (now now' : DateTime) : Option DomainAccess :=
  if response.domainId ≠ domainId then none
  else if library.readKind response.accessToken ≠ some readGrant then none
  else fromIssuedGrant library.toGrantLibrary domainId response.domainServerUrl
    response.accessToken response.accessExpiresAt now now'

theorem fromIssuedGrant_eq_some {library : GrantLibrary} {domainId : Uuid}
    {serverUrl token : String} {expiresAt now now' : DateTime} {access : DomainAccess}
    (hacc : fromIssuedGrant library domainId serverUrl token expiresAt now now' = some access) :
    Names library domainId access ∧ access.token = token ∧ min now now' < access.expiresAt := by
  simp only [fromIssuedGrant, Option.bind_eq_bind, Option.bind_eq_some_iff] at hacc
  obtain ⟨first, hfst, hacc⟩ := hacc
  obtain ⟨hnms, hfrs⟩ := intoAccess_eq_some hfst
  have htok : first.token = token := by
    simp only [intoAccess, Option.bind_eq_bind, Option.bind_eq_some_iff] at hfst
    obtain ⟨_, _, _, _, hfst⟩ := hfst
    split at hfst <;> cases hfst
    rfl
  split_ifs at hacc with hexp
  cases hacc
  refine ⟨⟨hnms.domain, hnms.claims⟩, htok, ?_⟩
  exact lt_min ((min_le_left ..).trans_lt hfrs) ((min_le_right ..).trans_lt (not_le.mp hexp))

/-- Where one `domain_access` of a robot is. -/
inductive RobotCall where
  | started
  /-- The cache is locked; the bearer is awaited. -/
  | bearing
  | fetching (retried : Bool)
  /-- After a 401 the bearer is renewed once. -/
  | rebearing
  | returned (access : DomainAccess) (origin : GrantOrigin)
  | failed
  deriving DecidableEq

inductive RobotAnswer where
  | unauthorized
  | refused
  | grant (response : DomainGrant)

structure RobotAccess (Call Login : Type) where
  credential : RobotCredential Login
  requests : Call → GrantRequest
  holder : Option Call
  cache : Option DomainAccess
  calls : Call → RobotCall
  fetches : List (Fetch Call)

inductive RobotAccessLabel (Call Login : Type) where
  | credential (label : RobotLabel Login)
  | lock (call : Call)
  | bearer (call : Call) (obtained : Bool) (now : DateTime)
  | respond (call : Call) (answer : RobotAnswer) (now now' : DateTime)
  | rebearer (call : Call) (obtained : Bool)
  | abandon (call : Call)
  | clear

variable {Call Login : Type} [DecidableEq Call] [DecidableEq Login]

namespace RobotAccess

def goto (robot : RobotAccess Call Login) (call : Call) (phase : RobotCall) :
    RobotAccess Call Login :=
  { robot with calls := Function.update robot.calls call phase }

/-- The end of the locked section. -/
def release (robot : RobotAccess Call Login) (call : Call) (phase : RobotCall) :
    RobotAccess Call Login :=
  { robot with holder := none }.goto call phase

/-- The assigned Domain of the pinned principal. -/
def assigned (robot : RobotAccess Call Login) : Option Uuid :=
  robot.credential.auth.principal.bind RobotClaims.assignedDomainId

/-- The section after the bearer: the assignment and the cached grant. -/
def lookUp (robot : RobotAccess Call Login) (call : Call) (now : DateTime) :
    RobotAccess Call Login :=
  let request := robot.requests call
  if robot.assigned ≠ some request.domainId then robot.release call .failed
  else
    match robot.cache.filter fun grant =>
      decide (grant.domainId = request.domainId) && request.uses grant now with
    | some grant => robot.release call (.returned grant (.cached now))
    | none => robot.goto call (.fetching false)

def step (library : RobotGrantLibrary) (read : ReadClaims) (config : RobotConfig)
    (robot : RobotAccess Call Login) :
    RobotAccessLabel Call Login → Option (RobotAccess Call Login)
  | .credential label =>
    (robot.credential.step read config label).map fun credential => { robot with credential }
  | .lock call =>
    match robot.calls call, robot.holder with
    | .started, none => some ({ robot with holder := some call }.goto call .bearing)
    | _, _ => none
  | .bearer call obtained now =>
    match robot.calls call with
    | .bearing =>
      if obtained then some (robot.lookUp call now)
      else some (robot.release call .failed)
    | _ => none
  | .respond call answer now now' =>
    match robot.calls call with
    | .fetching retried =>
      match answer with
      | .unauthorized =>
        if retried then some (robot.release call .failed)
        else some (robot.goto call .rebearing)
      | .refused => some (robot.release call .failed)
      | .grant response =>
        let request := robot.requests call
        match response.access library request.domainId now now' with
        | some access =>
          let fetch : Fetch Call := ⟨call, request, access⟩
          some ({ robot with
            cache := some access
            fetches := robot.fetches ++ [fetch] }.release call
            (.returned access (.issued (min now now'))))
        | none => some (robot.release call .failed)
    | _ => none
  | .rebearer call obtained =>
    match robot.calls call with
    | .rebearing =>
      if obtained then some (robot.goto call (.fetching true))
      else some (robot.release call .failed)
    | _ => none
  | .abandon call =>
    match robot.calls call with
    | .started => some (robot.goto call .failed)
    | .bearing => some (robot.release call .failed)
    | .fetching _ => some (robot.release call .failed)
    | .rebearing => some (robot.release call .failed)
    | _ => none
  | .clear =>
    match robot.holder, robot.credential.auth.closed with
    | none, true => some { robot with cache := none }
    | _, _ => none

def new (requests : Call → GrantRequest) : RobotAccess Call Login where
  credential := .new
  requests
  holder := none
  cache := none
  calls := fun _ => .started
  fetches := []

/-- Some accepted token assigns the Domain. -/
def Assigns (history : List RobotEvent) (domainId : Uuid) : Prop :=
  ∃ bundle claims bound now now', .accepted bundle claims bound now now' ∈ history ∧
    claims.assignedDomainId = some domainId

theorem Assigns.mono {history history' : List RobotEvent} {domainId : Uuid}
    (hass : Assigns history domainId) (hsub : history ⊆ history') :
    Assigns history' domainId := by
  obtain ⟨bundle, claims, bound, now, now', hm, hdom⟩ := hass
  exact ⟨bundle, claims, bound, now, now', hsub hm, hdom⟩

/-- A grant that was fetched for its Domain, with read access for a robot. -/
structure Kept (library : RobotGrantLibrary) (robot : RobotAccess Call Login)
    (domainId : Uuid) (access : DomainAccess) : Prop where
  names : Names library.toGrantLibrary domainId access
  kind : library.readKind access.token = some readGrant
  assigned : Assigns robot.credential.history domainId
  fetched : ∃ fetch ∈ robot.fetches, fetch.request.domainId = domainId ∧ fetch.access = access

def CallSound (library : RobotGrantLibrary) (robot : RobotAccess Call Login) (call : Call) :
    RobotCall → Prop
  | .bearing => robot.holder = some call
  | .fetching _ =>
    robot.holder = some call ∧
      Assigns robot.credential.history (robot.requests call).domainId
  | .rebearing =>
    robot.holder = some call ∧
      Assigns robot.credential.history (robot.requests call).domainId
  | .returned access origin =>
    Granted library.toGrantLibrary (robot.requests call) access origin ∧
      robot.Kept library (robot.requests call).domainId access ∧
      ∀ now, origin = .issued now → ∃ fetch ∈ robot.fetches, fetch.call = call ∧
        fetch.access = access
  | _ => True

structure Sound (library : RobotGrantLibrary) (read : ReadClaims) (config : RobotConfig)
    (robot : RobotAccess Call Login) : Prop where
  credential : robot.credential.Sound read config
  recorded : ∀ principal ∈ robot.credential.auth.principal, ∃ bundle bound now now',
    .accepted bundle principal bound now now' ∈ robot.credential.history
  cached : ∀ access ∈ robot.cache, robot.Kept library access.domainId access
  calls : ∀ call, robot.CallSound library call (robot.calls call)

variable {library : RobotGrantLibrary} {read : ReadClaims} {config : RobotConfig}
  {robot next : RobotAccess Call Login}

omit [DecidableEq Call] [DecidableEq Login] in
theorem Kept.mono {domainId : Uuid} {access : DomainAccess}
    (hkept : robot.Kept library domainId access)
    (hhist : robot.credential.history ⊆ next.credential.history)
    (hftc : robot.fetches ⊆ next.fetches) : next.Kept library domainId access := by
  obtain ⟨fetch, hm, hfet⟩ := hkept.fetched
  exact ⟨hkept.names, hkept.kind, hkept.assigned.mono hhist, fetch, hftc hm, hfet⟩

omit [DecidableEq Call] [DecidableEq Login] in
theorem CallSound.mono {call : Call} {phase : RobotCall}
    (hs : robot.CallSound library call phase) (hreqs : next.requests = robot.requests)
    (hhold : robot.holder = some call → next.holder = some call)
    (hhist : robot.credential.history ⊆ next.credential.history)
    (hftc : robot.fetches ⊆ next.fetches) : next.CallSound library call phase := by
  cases phase with
  | bearing => exact hhold hs
  | fetching | rebearing =>
    obtain ⟨hheld, hass⟩ := hs
    exact ⟨hhold hheld, hreqs ▸ hass.mono hhist⟩
  | returned access origin =>
    obtain ⟨hgrd, hkept, hiss⟩ := hs
    refine ⟨hreqs ▸ hgrd, hreqs ▸ hkept.mono hhist hftc, ?_⟩
    intro now hori
    obtain ⟨fetch, hm, hfet⟩ := hiss now hori
    exact ⟨fetch, hftc hm, hfet⟩
  | started | failed => trivial

namespace Sound

omit [DecidableEq Call] [DecidableEq Login] in
theorem assigns_unique (hs : robot.Sound library read config) {first second : Uuid}
    (hfst : Assigns robot.credential.history first)
    (hsnd : Assigns robot.credential.history second) : first = second := by
  obtain ⟨bundle, claims, bound, now, now', hm, hdom⟩ := hfst
  obtain ⟨other, found, bound', earlier, earlier', ho, hdomain'⟩ := hsnd
  have hsm := hs.credential.pinned.one_principal _ _ _ _ _ _ _ _ _ _ hm ho
  exact Option.some.inj (hdom.symm.trans (hsm.2.2.trans hdomain'))

variable {call : Call} {phase : RobotCall}

omit [DecidableEq Login] in
theorem move (hs : robot.Sound library read config) (hcred : next.credential = robot.credential)
    (hreqs : next.requests = robot.requests)
    (hcls : next.calls = Function.update robot.calls call phase)
    (hhold : ∀ other, other ≠ call → robot.holder = some other → next.holder = some other)
    (hfet : robot.fetches ⊆ next.fetches)
    (hcac : ∀ access ∈ next.cache, next.Kept library access.domainId access)
    (hp : next.CallSound library call phase) : next.Sound library read config := by
  refine ⟨hcred ▸ hs.credential, hcred ▸ hs.recorded, hcac, fun other => ?_⟩
  rw [hcls]
  by_cases hsm : other = call
  · rw [hsm, update_self]
    exact hp
  · rw [update_of_ne hsm]
    exact (hs.calls other).mono hreqs (hhold other hsm)
      (hcred ▸ List.Subset.refl _) hfet

omit [DecidableEq Login] in
theorem goto (hs : robot.Sound library read config)
    (hp : robot.CallSound library call phase) :
    (robot.goto call phase).Sound library read config := by
  refine hs.move rfl rfl rfl (fun _ _ => id) (List.Subset.refl _) ?_ ?_
  · intro access hm
    exact (hs.cached access hm).mono (List.Subset.refl _) (List.Subset.refl _)
  · exact hp.mono rfl id (List.Subset.refl _) (List.Subset.refl _)

omit [DecidableEq Login] in
theorem release (hs : robot.Sound library read config) (hheld : robot.holder = some call)
    (hp : (robot.release call phase).CallSound library call phase) :
    (robot.release call phase).Sound library read config := by
  refine hs.move rfl rfl rfl ?_ (List.Subset.refl _) ?_ hp
  · intro other hne ho
    rw [hheld] at ho
    exact absurd (Option.some.inj ho).symm hne
  · intro access hm
    exact (hs.cached access hm).mono (List.Subset.refl _) (List.Subset.refl _)

omit [DecidableEq Login] in
theorem lookUp (hs : robot.Sound library read config) (hheld : robot.holder = some call)
    (now : DateTime) :
    (robot.lookUp call now).Sound library read config := by
  unfold RobotAccess.lookUp
  dsimp only
  split_ifs with hasg
  · exact hs.release hheld trivial
  · rw [not_not] at hasg
    obtain ⟨principal, hpri, hdom⟩ := Option.bind_eq_some_iff.mp hasg
    obtain ⟨bundle, bound, checked, checked', hm⟩ := hs.recorded principal hpri
    have hass : Assigns robot.credential.history (robot.requests call).domainId :=
      ⟨bundle, principal, bound, checked, checked', hm, hdom⟩
    split
    · rename_i grant hgra
      obtain ⟨hcac, htest⟩ := Option.filter_eq_some_iff.mp hgra
      rw [Bool.and_eq_true, decide_eq_true_iff] at htest
      have hkept := hs.cached grant hcac
      rw [htest.1] at hkept
      refine hs.release hheld ⟨⟨hkept.names, ?_, ?_⟩,
        hkept.mono (List.Subset.refl _) (List.Subset.refl _), ?_⟩
      · rintro _ ⟨⟩
      · rintro _ ⟨⟩
        exact GrantRequest.uses_eq_true.mp htest.2
      · rintro _ ⟨⟩
    · exact hs.goto ⟨hheld, hass⟩

omit [DecidableEq Login] in
theorem respond (hs : robot.Sound library read config) (hheld : robot.holder = some call)
    (hass : Assigns robot.credential.history (robot.requests call).domainId)
    {response : DomainGrant} {access : DomainAccess} {now now' : DateTime}
    (hacc : response.access library (robot.requests call).domainId now now' = some access) :
    let fetch : Fetch Call := ⟨call, robot.requests call, access⟩
    ({ robot with
      cache := some access
      fetches := robot.fetches ++ [fetch] }.release call
        (.returned access (.issued (min now now'))) : RobotAccess Call Login).Sound library read
      config := by
  unfold DomainGrant.access at hacc
  split_ifs at hacc with hdom hkind
  rw [not_not] at hkind
  obtain ⟨hnms, htok, hfrs⟩ := fromIssuedGrant_eq_some hacc
  have hm : (⟨call, robot.requests call, access⟩ : Fetch Call) ∈
      robot.fetches ++ [⟨call, robot.requests call, access⟩] :=
    mem_append_right _ (mem_singleton_self _)
  have hrds : library.readKind access.token = some readGrant := htok ▸ hkind
  refine hs.move rfl rfl rfl ?_ (subset_append_left _ _) ?_
    ⟨⟨hnms, ?_, ?_⟩, ⟨hnms, hrds, hass, _, hm, rfl, rfl⟩, ?_⟩
  · intro other hne ho
    rw [hheld] at ho
    exact absurd (Option.some.inj ho).symm hne
  · intro other ho
    cases ho
    exact ⟨⟨rfl, hnms.domain.symm ▸ hnms.claims⟩, hrds, hnms.domain.symm ▸ hass, _,
      hm, hnms.domain.symm, rfl⟩
  · rintro _ ⟨⟩
    exact hfrs
  · rintro _ ⟨⟩
  · rintro _ ⟨⟩
    exact ⟨_, hm, rfl, rfl⟩

theorem step (hs : robot.Sound library read config) {label : RobotAccessLabel Call Login}
    (hstep : robot.step library read config label = some next) :
    next.Sound library read config := by
  unfold RobotAccess.step at hstep
  cases label with dsimp only at hstep
  | credential label =>
    obtain ⟨credential, hcred, rfl⟩ := Option.map_eq_some_iff.mp hstep
    have hcont := RobotCredential.continues_step hcred
    refine ⟨hs.credential.step hcred, ?_, ?_, fun call => ?_⟩
    · intro principal hm
      obtain hpre | hnow := hcont.principal principal hm
      · obtain ⟨bundle, bound, now, now', hacc⟩ := hs.recorded principal hpre
        exact ⟨bundle, bound, now, now', hcont.history hacc⟩
      · exact hnow
    · intro access hm
      exact (hs.cached access hm).mono hcont.history (List.Subset.refl _)
    · exact (hs.calls call).mono rfl id hcont.history (List.Subset.refl _)
  | lock call =>
    split at hstep <;> cases hstep
    rename_i hfree
    refine hs.move rfl rfl rfl ?_ (List.Subset.refl _) ?_ rfl
    · intro other _ ho
      rw [hfree] at ho
      cases ho
    · intro access hm
      exact (hs.cached access hm).mono (List.Subset.refl _) (List.Subset.refl _)
  | bearer call obtained now =>
    split at hstep
    · rename_i hp
      have hheld := hs.calls call
      rw [hp] at hheld
      split_ifs at hstep <;> cases hstep
      · exact hs.lookUp hheld now
      · exact hs.release hheld trivial
    · cases hstep
  | respond call answer now now' =>
    split at hstep
    · rename_i retried hp
      have hc := hs.calls call
      rw [hp] at hc
      split at hstep
      · split_ifs at hstep <;> cases hstep
        · exact hs.release hc.1 trivial
        · exact hs.goto hc
      · cases hstep
        exact hs.release hc.1 trivial
      · split at hstep
        · rename_i access haccess
          cases hstep
          exact hs.respond hc.1 hc.2 haccess
        · cases hstep
          exact hs.release hc.1 trivial
    · cases hstep
  | rebearer call obtained =>
    split at hstep
    · rename_i hp
      have hc := hs.calls call
      rw [hp] at hc
      split_ifs at hstep <;> cases hstep
      · exact hs.goto hc
      · exact hs.release hc.1 trivial
    · cases hstep
  | abandon call =>
    have hc := hs.calls call
    split at hstep <;> cases hstep
    · exact hs.goto trivial
    all_goals
      rename_i hp
      rw [hp] at hc
      first
      | exact hs.release hc trivial
      | exact hs.release hc.1 trivial
  | clear =>
    split at hstep <;> cases hstep
    refine ⟨hs.credential, hs.recorded, fun _ hm => ?_, fun call => ?_⟩
    · cases hm
    · exact (hs.calls call).mono rfl id (List.Subset.refl _) (List.Subset.refl _)

omit [DecidableEq Call] [DecidableEq Login] in
theorem new (library : RobotGrantLibrary) (read : ReadClaims) (config : RobotConfig)
    (requests : Call → GrantRequest) :
    (RobotAccess.new requests : RobotAccess Call Login).Sound library read config where
  credential := .new read config
  recorded := fun _ hm => by cases hm
  cached := fun _ hm => by cases hm
  calls := fun _ => trivial

end Sound

/-- Callers reject only other bearers within the margin, and nothing closes. -/
def Spares (access : DomainAccess) (robot : RobotAccess Call Login) :
    RobotAccessLabel Call Login → Prop
  | .bearer call _ now =>
    (robot.requests call).domainId = access.domainId →
      now + grantMargin < access.expiresAt ∧
        ∀ old ∈ (robot.requests call).rejected, old.token ≠ access.token
  | .clear => False
  | _ => True

/-- The grant is cached and nobody fetches another one. -/
structure Serves (access : DomainAccess) (fetches : List (Fetch Call))
    (robot : RobotAccess Call Login) : Prop where
  cached : robot.cache = some access
  idle : ∀ call, (∀ retried, robot.calls call ≠ .fetching retried) ∧
    robot.calls call ≠ .rebearing
  fetched : robot.fetches = fetches

namespace Serves

variable {access : DomainAccess} {fetches : List (Fetch Call)}

omit [DecidableEq Login] in
theorem move (hsrv : Serves access fetches robot) {call : Call} {phase : RobotCall}
    (hcac : next.cache = robot.cache)
    (hcls : next.calls = Function.update robot.calls call phase)
    (hp : (∀ retried, phase ≠ .fetching retried) ∧ phase ≠ .rebearing)
    (hfet : next.fetches = robot.fetches) : Serves access fetches next := by
  refine ⟨hcac.trans hsrv.cached, fun other => ?_, hfet.trans hsrv.fetched⟩
  rw [hcls]
  by_cases hsm : other = call
  · rw [hsm, update_self]
    exact hp
  · rw [update_of_ne hsm]
    exact hsrv.idle other

theorem step (hsrv : Serves access fetches robot)
    (hs : robot.Sound library read config) {label : RobotAccessLabel Call Login}
    (hspa : Spares access robot label)
    (hstep : robot.step library read config label = some next) :
    Serves access fetches next := by
  unfold RobotAccess.step at hstep
  cases label with
  | credential label =>
    dsimp only at hstep
    obtain ⟨credential, -, rfl⟩ := Option.map_eq_some_iff.mp hstep
    exact ⟨hsrv.cached, hsrv.idle, hsrv.fetched⟩
  | lock call =>
    dsimp only at hstep
    split at hstep <;> cases hstep
    exact hsrv.move rfl rfl (by simp) rfl
  | bearer call obtained now =>
    dsimp only at hstep
    split at hstep
    · split_ifs at hstep <;> cases hstep
      · unfold RobotAccess.lookUp
        dsimp only
        split_ifs with hasg
        · exact hsrv.move rfl rfl (by simp) rfl
        · rw [not_not] at hasg
          obtain ⟨principal, hpri, hdom⟩ := Option.bind_eq_some_iff.mp hasg
          obtain ⟨bundle, bound, checked, checked', hm⟩ := hs.recorded principal hpri
          have hass : Assigns robot.credential.history (robot.requests call).domainId :=
            ⟨bundle, principal, bound, checked, checked', hm, hdom⟩
          have hkept := hs.cached access hsrv.cached
          have hsm := hs.assigns_unique hass hkept.assigned
          have huses := GrantRequest.uses_eq_true.mpr (hspa hsm)
          have hhit : robot.cache.filter (fun grant =>
              decide (grant.domainId = (robot.requests call).domainId) &&
                (robot.requests call).uses grant now) = some access := by
            rw [hsrv.cached, Option.filter_some, huses, hsm]
            simp
          rw [hhit]
          exact hsrv.move rfl rfl (by simp) rfl
      · exact hsrv.move rfl rfl (by simp) rfl
    · cases hstep
  | respond call answer now now' =>
    dsimp only at hstep
    split at hstep
    · rename_i retried hp
      exact absurd hp ((hsrv.idle call).1 retried)
    · cases hstep
  | rebearer call obtained =>
    dsimp only at hstep
    split at hstep
    · rename_i hp
      exact absurd hp (hsrv.idle call).2
    · cases hstep
  | abandon call =>
    dsimp only at hstep
    split at hstep <;> cases hstep
    all_goals exact hsrv.move rfl rfl (by simp) rfl
  | clear => exact hspa.elim

end Serves

omit [DecidableEq Call] [DecidableEq Login] in
theorem Sound.holder_of_fetching (hs : robot.Sound library read config) {call : Call}
    (hbusy : (∃ retried, robot.calls call = .fetching retried) ∨ robot.calls call = .rebearing) :
    robot.holder = some call := by
  have hc := hs.calls call
  obtain ⟨retried, hp⟩ | hp := hbusy
  · rw [hp] at hc
    exact hc.1
  · rw [hp] at hc
    exact hc.1

theorem Sound.serves (hs : robot.Sound library read config) {call : Call}
    {answer : RobotAnswer} {now now' checked : DateTime}
    (hstep : robot.step library read config (.respond call answer now now') = some next)
    {access : DomainAccess} (hret : next.calls call = .returned access (.issued checked)) :
    Serves access next.fetches next := by
  have ho : ∀ other, other ≠ call →
      (∀ retried, robot.calls other ≠ .fetching retried) ∧ robot.calls other ≠ .rebearing := by
    intro other hne
    unfold RobotAccess.step at hstep
    dsimp only at hstep
    split at hstep
    · rename_i retried hp
      have hheld := hs.holder_of_fetching (.inl ⟨retried, hp⟩)
      constructor
      · intro retried hbusy
        have hhold := hs.holder_of_fetching (.inl ⟨retried, hbusy⟩)
        rw [hheld] at hhold
        exact hne (Option.some.inj hhold).symm
      · intro hbusy
        have hhold := hs.holder_of_fetching (.inr hbusy)
        rw [hheld] at hhold
        exact hne (Option.some.inj hhold).symm
    · cases hstep
  unfold RobotAccess.step at hstep
  dsimp only at hstep
  split at hstep
  · split at hstep
    · split_ifs at hstep <;> cases hstep
      · simp [RobotAccess.release, RobotAccess.goto] at hret
      · simp [RobotAccess.goto] at hret
    · cases hstep
      simp [RobotAccess.release, RobotAccess.goto] at hret
    · split at hstep <;> cases hstep
      · rename_i found _
        have hf : found = access := by
          have heq := (update_self ..).symm.trans hret
          cases heq
          rfl
        refine ⟨congrArg some hf, fun other => ?_, rfl⟩
        by_cases hsm : other = call
        · rw [hsm, hret]
          exact ⟨fun _ heq => (by cases heq), fun heq => (by cases heq)⟩
        · change (∀ retried, Function.update robot.calls call _ other ≠ _) ∧
            Function.update robot.calls call _ other ≠ _
          rw [update_of_ne hsm]
          exact ho other hsm
      · simp [RobotAccess.release, RobotAccess.goto] at hret
  · cases hstep

/-- The contract of a robot over whole runs. -/
structure Contract (library : RobotGrantLibrary) (read : ReadClaims) (config : RobotConfig)
    (robot : RobotAccess Call Login) : Prop where
  granted : ∀ call access origin, robot.calls call = .returned access origin →
    Granted library.toGrantLibrary (robot.requests call) access origin
  issued : ∀ call access now, robot.calls call = .returned access (.issued now) →
    ∃ fetch ∈ robot.fetches, fetch.call = call ∧ fetch.access = access
  /-- A fetched grant has the type and scopes of a robot and its assigned Domain. -/
  assigned : ∀ call access origin, robot.calls call = .returned access origin →
    robot.Kept library (robot.requests call).domainId access ∧
      ∀ bundle claims bound now now',
        .accepted bundle claims bound now now' ∈ robot.credential.history →
        claims.assignedDomainId = some (robot.requests call).domainId
  looked_up : ∀ call obtained now next access,
    robot.step library read config (.bearer call obtained now) = some next →
    next.calls call = .returned access (.cached now) →
    robot.cache = some access ∧ access.domainId = (robot.requests call).domainId
  /-- Callers that reject another bearer than the fetched one cause no second fetch. -/
  one_fetch : ∀ call answer now now' checked access next,
    robot.step library read config (.respond call answer now now') = some next →
    next.calls call = .returned access (.issued checked) →
    ∀ labels last, GuardedRun (RobotAccess.step library read config) next (Spares access)
      labels →
    runSteps (RobotAccess.step library read config) next labels = some last →
    last.fetches = next.fetches

theorem Sound.contract (hs : robot.Sound library read config) :
    robot.Contract library read config where
  granted := by
    intro call access origin hp
    have hc := hs.calls call
    rw [hp] at hc
    exact hc.1
  issued := by
    intro call access now hp
    have hc := hs.calls call
    rw [hp] at hc
    exact hc.2.2 now rfl
  assigned := by
    intro call access origin hp
    have hc := hs.calls call
    rw [hp] at hc
    refine ⟨hc.2.1, fun bundle claims bound now now' hm => ?_⟩
    obtain ⟨other, found, bound', earlier, earlier', ho, hdom⟩ := hc.2.1.assigned
    have hsm := hs.credential.pinned.one_principal _ _ _ _ _ _ _ _ _ _ hm ho
    exact hsm.2.2.trans hdom
  looked_up := by
    intro call obtained now next access hstep hret
    unfold RobotAccess.step at hstep
    dsimp only at hstep
    split at hstep
    · split_ifs at hstep <;> cases hstep
      · unfold RobotAccess.lookUp at hret
        dsimp only at hret
        split_ifs at hret
        · simp [RobotAccess.release, RobotAccess.goto] at hret
        · split at hret
          · rename_i grant hgra
            obtain ⟨hcac, htest⟩ := Option.filter_eq_some_iff.mp hgra
            rw [Bool.and_eq_true, decide_eq_true_iff] at htest
            have heq : grant = access := by
              have heq := (update_self ..).symm.trans hret
              cases heq
              rfl
            exact ⟨heq ▸ hcac, heq ▸ htest.1⟩
          · simp [RobotAccess.goto] at hret
      · simp [RobotAccess.release, RobotAccess.goto] at hret
    · cases hstep
  one_fetch := by
    intro call answer now now' checked access next hstep hret labels last hspa hrun
    have hsrv := hs.serves hstep hret
    have hboth : last.Sound library read config ∧ Serves access next.fetches last := by
      apply invariant_of_guardedRun ⟨hs.step hstep, hsrv⟩ _ hspa hrun
      rintro state label after ⟨hs, hsrv⟩ hspa hstep
      exact ⟨hs.step hstep, hsrv.step hs hspa hstep⟩
    exact hboth.2.fetched

/-- The contract of both providers, over every interleaving of their calls. -/
theorem domain_access_contract {Session : Type} [DecidableEq Session]
    {sessionLibrary : GrantLibrary} {imported : Bool} {sessionRequests : Session → GrantRequest}
    {sessionLabels : List (SessionLabel Session)} {session : SessionAccess Session}
    (hsession : runSteps (SessionAccess.step sessionLibrary)
      (SessionAccess.new imported sessionRequests) sessionLabels = some session)
    {requests : Call → GrantRequest} {labels : List (RobotAccessLabel Call Login)}
    (hrobot : runSteps (RobotAccess.step library read config) (RobotAccess.new requests)
      labels = some robot) :
    session.Contract sessionLibrary ∧ robot.Contract library read config := by
  constructor
  · exact (invariant_of_run (SessionAccess.Sound.new sessionLibrary imported sessionRequests)
      (fun _ _ _ hsound hstep => hsound.step hstep) hsession).contract
  · exact (invariant_of_run (Sound.new library read config requests)
      (fun _ _ _ hsound hstep => hsound.step hstep) hrobot).contract

/-! A rejected bearer is replaced once for two callers of each provider. -/

def sampleData (token : String) : Option DataClaims :=
  if token = "old" then none
  else some { iss := "dds", domainId := 7, exp := 120 * nanosPerSecond, aud := ["https://data"] }

def sampleLibrary : RobotGrantLibrary where
  parseBaseUrl := fun text => if text = "https://data" then some "https://data/" else none
  readClaims := sampleData
  readKind := fun _ => some readGrant

def rejectedGrant : DomainAccess := ⟨7, "https://data/", "old", 0⟩

def sampleRequests : Bool → GrantRequest := fun _ => ⟨7, some rejectedGrant⟩

def sampleSessionLabels : List (SessionLabel Bool) :=
  [.lock false 0, .respond false (some ⟨7, "https://data", "new"⟩) 0 (fun _ => 0), .lock true 0]

def sampleRobotLabels : List (RobotAccessLabel Bool Bool) :=
  (RobotCredential.sampleLabels.take 5).map RobotAccessLabel.credential ++
    [RobotAccessLabel.lock false, RobotAccessLabel.bearer false true 0,
      RobotAccessLabel.respond false (.grant ⟨7, "https://data", "h.n.s", 90 * nanosPerSecond⟩) 0 0,
      RobotAccessLabel.lock true, RobotAccessLabel.bearer true true 0]

theorem domain_access_contract_sample : ∃ (session : SessionAccess Bool)
    (robot : RobotAccess Bool Bool),
    session.calls true = .returned ⟨7, "https://data/", "new", 120 * nanosPerSecond⟩ (.cached 0) ∧
      robot.calls true = .returned ⟨7, "https://data/", "h.n.s", 90 * nanosPerSecond⟩ (.cached 0) ∧
      session.Contract sampleLibrary.toGrantLibrary ∧
      robot.Contract sampleLibrary RobotCredential.sampleRead RobotCredential.sampleConfig := by
  have hsession : (runSteps (SessionAccess.step sampleLibrary.toGrantLibrary)
      (SessionAccess.new false sampleRequests) sampleSessionLabels).map
      (fun session => session.calls true) =
      some (.returned ⟨7, "https://data/", "new", 120 * nanosPerSecond⟩ (.cached 0)) := by
    decide +kernel
  have hrobot : (runSteps (RobotAccess.step sampleLibrary RobotCredential.sampleRead
      RobotCredential.sampleConfig) (RobotAccess.new sampleRequests) sampleRobotLabels).map
      (fun robot => robot.calls true) =
      some (.returned ⟨7, "https://data/", "h.n.s", 90 * nanosPerSecond⟩ (.cached 0)) := by
    decide +kernel
  obtain ⟨session, hsessionRun, hsessionCall⟩ := Option.map_eq_some_iff.mp hsession
  obtain ⟨robot, hrobotRun, hrobotCall⟩ := Option.map_eq_some_iff.mp hrobot
  obtain ⟨hsessionContract, hrobotContract⟩ := domain_access_contract hsessionRun hrobotRun
  exact ⟨session, robot, hsessionCall, hrobotCall, hsessionContract, hrobotContract⟩

end RobotAccess

end Robot

end AukiSdk.Tasks
