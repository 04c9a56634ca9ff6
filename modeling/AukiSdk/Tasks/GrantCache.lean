import AukiSdk.Foundation.FiniteMap
import AukiSdk.Tasks.Access

/-!
# Domain data grants of a session

`AuthSession::domain_access`: the cache of grants under the session lock.
-/

namespace AukiSdk.Tasks

open AukiSdk.Foundation AukiSdk.Foundation.FiniteMap AukiSdk.Net List Function Option
open Std (ExtTreeMap)

/-- The arguments of one `domain_access`. -/
structure GrantRequest where
  domainId : Uuid
  rejected : Option DomainAccess
  deriving DecidableEq

/-- Where a returned grant comes from, with the clock reading of the check. -/
inductive GrantOrigin where
  | issued (now : DateTime)
  | cached (now : DateTime)
  deriving DecidableEq

def grantMargin : DateTime := 30 * nanosPerSecond

/-- A cached grant is used when it lives long enough and was not rejected. -/
def GrantRequest.uses (request : GrantRequest) (access : DomainAccess) (now : DateTime) : Bool :=
  decide (now + grantMargin < access.expiresAt) &&
    !request.rejected.any fun old => old.token == access.token

/-- The token names the Domain and has the server in its audience. -/
structure Names (library : GrantLibrary) (domainId : Uuid) (access : DomainAccess) : Prop where
  domain : access.domainId = domainId
  claims : ∃ claims, library.readClaims access.token = some claims ∧
    claims.domainId = domainId ∧
    (claims.aud.any fun aud => library.parseBaseUrl aud == some access.serverUrl) = true

/-- What a call may rely on when `domain_access` returns `Ok`. -/
structure Granted (library : GrantLibrary) (request : GrantRequest) (access : DomainAccess)
    (origin : GrantOrigin) : Prop where
  names : Names library request.domainId access
  unexpired : ∀ now, origin = .issued now → now < access.expiresAt
  reusable : ∀ now, origin = .cached now → now + grantMargin < access.expiresAt ∧
    ∀ old ∈ request.rejected, old.token ≠ access.token

theorem GrantRequest.uses_eq_true {request : GrantRequest} {access : DomainAccess}
    {now : DateTime} : request.uses access now = true ↔
      now + grantMargin < access.expiresAt ∧
        ∀ old ∈ request.rejected, old.token ≠ access.token := by
  rw [uses, Bool.and_eq_true, decide_eq_true_iff]
  cases request.rejected <;> simp

theorem intoAccess_eq_some {library : GrantLibrary} {domainId : Uuid} {serverUrl token : String}
    {now : DateTime} {access : DomainAccess}
    (hacc : intoAccess library domainId serverUrl token now = some access) :
    Names library domainId access ∧ now < access.expiresAt := by
  simp only [intoAccess, bind_eq_bind, bind_eq_some_iff] at hacc
  obtain ⟨server, hsvr, claims, hclm, hacc⟩ := hacc
  split at hacc
  · cases hacc
  · rename_i hval
    cases hacc
    simp only [not_or, not_not, ne_eq, not_le] at hval
    exact ⟨⟨rfl, claims, hclm, hval.2.1, hval.2.2.2⟩, hval.2.2.1⟩

/-- Where one `domain_access` of a session is. -/
inductive SessionCall where
  | started
  /-- An imported session settles its credentials before the cached grant is returned. -/
  | renewing (access : DomainAccess) (now : DateTime)
  | fetching
  | returned (access : DomainAccess) (origin : GrantOrigin)
  | failed
  deriving DecidableEq

/-- The document that DDS answers with. -/
structure AccessResponse where
  id : Uuid
  serverUrl : String
  accessToken : String

def AccessResponse.intoAccess (library : GrantLibrary) (response : AccessResponse)
    (domainId : Uuid) (now : DateTime) : Option DomainAccess :=
  if response.id ≠ domainId then none
  else Tasks.intoAccess library domainId response.serverUrl response.accessToken now

/-- A grant fetched by a call. -/
structure Fetch (Call : Type) where
  call : Call
  request : GrantRequest
  access : DomainAccess

structure SessionAccess (Call : Type) where
  /-- The principal is an imported ZITADEL session. -/
  imported : Bool
  requests : Call → GrantRequest
  closed : Bool
  holder : Option Call
  grants : ExtTreeMap Uuid DomainAccess
  calls : Call → SessionCall
  fetches : List (Fetch Call)

inductive SessionLabel (Call : Type) where
  /-- The lock is taken and the cache looked up, without an await between them. -/
  | lock (call : Call) (now : DateTime)
  | ready (call : Call) (settled : Bool)
  /-- The answer of DDS and the clock readings. -/
  | respond (call : Call) (response : Option AccessResponse) (now : DateTime)
      (clock : Uuid → DateTime)
  /-- The call is cancelled, dropped or finds the session closed. -/
  | abandon (call : Call)
  | close
  | clear

variable {Call : Type} [DecidableEq Call]

namespace SessionAccess

def maxCachedDomains : ℕ := 64

def goto (session : SessionAccess Call) (call : Call) (phase : SessionCall) :
    SessionAccess Call :=
  { session with calls := Function.update session.calls call phase }

/-- The end of the locked section. -/
def release (session : SessionAccess Call) (call : Call) (phase : SessionCall) :
    SessionAccess Call :=
  { session with holder := none }.goto call phase

/-- `retain`, the bound on the cache, and the insertion. -/
def store (session : SessionAccess Call) (domainId : Uuid) (access : DomainAccess)
    (clock : Uuid → DateTime) : SessionAccess Call :=
  let kept := session.grants.filter fun key grant => decide (clock key < grant.expiresAt)
  let bounded := if maxCachedDomains ≤ kept.size then ∅ else kept
  { session with grants := bounded.insert domainId access }

/-- The cached grant is dropped and DDS asked for another one. -/
def fetch (session : SessionAccess Call) (call : Call) (domainId : Uuid) : SessionAccess Call :=
  { session with holder := some call, grants := session.grants.erase domainId }.goto call
    .fetching

def step (library : GrantLibrary) (session : SessionAccess Call) :
    SessionLabel Call → Option (SessionAccess Call)
  | .lock call now =>
    match session.calls call, session.holder, session.closed with
    | .started, none, false =>
      let request := session.requests call
      match session.grants[request.domainId]? with
      | some access =>
        if request.uses access now then
          if session.imported then
            some ({ session with holder := some call }.goto call (.renewing access now))
          else some (session.goto call (.returned access (.cached now)))
        else some (session.fetch call request.domainId)
      | none => some (session.fetch call request.domainId)
    | _, _, _ => none
  | .ready call settled =>
    match session.calls call with
    | .renewing access now =>
      if settled then some (session.release call (.returned access (.cached now)))
      else some (session.release call .failed)
    | _ => none
  | .respond call response now clock =>
    match session.calls call with
    | .fetching =>
      let request := session.requests call
      match response.bind fun response =>
        response.intoAccess library request.domainId now with
      | some access =>
        let fetch : Fetch Call := ⟨call, request, access⟩
        some ({ session.store request.domainId access clock with
          fetches := session.fetches ++ [fetch] }.release call
          (.returned access (.issued now)))
      | none => some (session.release call .failed)
    | _ => none
  | .abandon call =>
    match session.calls call with
    | .started => some (session.goto call .failed)
    | .renewing _ _ => some (session.release call .failed)
    | .fetching => some (session.release call .failed)
    | _ => none
  | .close => some { session with closed := true }
  | .clear =>
    match session.holder, session.closed with
    | none, true => some { session with grants := ∅ }
    | _, _ => none

def new (imported : Bool) (requests : Call → GrantRequest) : SessionAccess Call where
  imported
  requests
  closed := false
  holder := none
  grants := ∅
  calls := fun _ => .started
  fetches := []

/-- Some call has fetched the grant for the Domain. -/
def Fetched (fetches : List (Fetch Call)) (domainId : Uuid) (access : DomainAccess) : Prop :=
  ∃ fetch ∈ fetches, fetch.request.domainId = domainId ∧ fetch.access = access

def CallSound (library : GrantLibrary) (session : SessionAccess Call) (call : Call) :
    SessionCall → Prop
  | .renewing access now =>
    session.holder = some call ∧
      Granted library (session.requests call) access (.cached now) ∧
      Fetched session.fetches (session.requests call).domainId access
  | .fetching => session.holder = some call
  | .returned access origin =>
    Granted library (session.requests call) access origin ∧
      match origin with
      | .issued _ => ∃ fetch ∈ session.fetches, fetch.call = call ∧ fetch.access = access
      | .cached _ => Fetched session.fetches (session.requests call).domainId access
  | _ => True

structure Sound (library : GrantLibrary) (session : SessionAccess Call) : Prop where
  stored : ∀ domainId access, session.grants[domainId]? = some access →
    Names library domainId access ∧ Fetched session.fetches domainId access
  bounded : session.grants.size ≤ maxCachedDomains
  calls : ∀ call, session.CallSound library call (session.calls call)

variable {library : GrantLibrary} {session next : SessionAccess Call}

omit [DecidableEq Call] in
theorem Fetched.append {fetches : List (Fetch Call)} {domainId : Uuid} {access : DomainAccess}
    (hftc : Fetched fetches domainId access) (more : List (Fetch Call)) :
    Fetched (fetches ++ more) domainId access := by
  obtain ⟨fetch, hm, hfet⟩ := hftc
  exact ⟨fetch, mem_append_left _ hm, hfet⟩

omit [DecidableEq Call] in
theorem CallSound.other {call : Call} {phase : SessionCall}
    (hs : session.CallSound library call phase)
    (hreqs : next.requests = session.requests)
    (hhold : session.holder = some call → next.holder = some call)
    (hfes : ∃ more, next.fetches = session.fetches ++ more) :
    next.CallSound library call phase := by
  obtain ⟨more, hmore⟩ := hfes
  cases phase with
  | renewing access now =>
    obtain ⟨hheld, hgrd, hftc⟩ := hs
    refine ⟨hhold hheld, ?_, ?_⟩
    · rw [hreqs]
      exact hgrd
    · rw [hreqs, hmore]
      exact hftc.append more
  | fetching => exact hhold hs
  | returned access origin =>
    obtain ⟨hgrd, hori⟩ := hs
    refine ⟨hreqs ▸ hgrd, ?_⟩
    cases origin with
    | issued now =>
      obtain ⟨fetch, hm, hfet⟩ := hori
      exact ⟨fetch, hmore ▸ mem_append_left _ hm, hfet⟩
    | cached now =>
      dsimp only at hori ⊢
      rw [hreqs, hmore]
      exact hori.append more
  | started | failed => trivial

namespace Sound

variable {call : Call} {phase : SessionCall}

theorem move (hs : session.Sound library) (hreqs : next.requests = session.requests)
    (hcls : next.calls = Function.update session.calls call phase)
    (hhold : ∀ other, other ≠ call → session.holder = some other → next.holder = some other)
    (hfet : ∃ more, next.fetches = session.fetches ++ more)
    (hst : ∀ domainId access, next.grants[domainId]? = some access →
      Names library domainId access ∧ Fetched next.fetches domainId access)
    (hbdd : next.grants.size ≤ maxCachedDomains) (hp : next.CallSound library call phase) :
    next.Sound library := by
  refine ⟨hst, hbdd, fun other => ?_⟩
  rw [hcls]
  by_cases hsm : other = call
  · rw [hsm, update_self]
    exact hp
  · rw [update_of_ne hsm]
    exact (hs.calls other).other hreqs (hhold other hsm) hfet

theorem moveKept (hs : session.Sound library) (hreqs : next.requests = session.requests)
    (hcls : next.calls = Function.update session.calls call phase)
    (hhold : ∀ other, other ≠ call → session.holder = some other → next.holder = some other)
    (hfet : next.fetches = session.fetches) (hgra : next.grants = session.grants)
    (hp : next.CallSound library call phase) : next.Sound library := by
  apply hs.move hreqs hcls hhold ⟨[], by simp [hfet]⟩ _ _ hp
  · rw [hgra, hfet]
    exact hs.stored
  · rw [hgra]
    exact hs.bounded

omit [DecidableEq Call] in
theorem holder_of_busy (hs : session.Sound library) (hbusy : session.calls call = .fetching ∨
      ∃ access now, session.calls call = .renewing access now) : session.holder = some call := by
  have hc := hs.calls call
  obtain hp | ⟨access, now, hp⟩ := hbusy
  · rw [hp] at hc
    exact hc
  · rw [hp] at hc
    exact hc.1

theorem fetch (hs : session.Sound library) (hfree : session.holder = none) (domainId : Uuid) :
    (session.fetch call domainId).Sound library := by
  refine hs.move rfl rfl ?_ ⟨[], (append_nil _).symm⟩ ?_ ?_ rfl
  · intro other _ ho
    rw [hfree] at ho
    cases ho
  · intro key access hst
    rw [SessionAccess.fetch, SessionAccess.goto] at hst
    dsimp only at hst
    rw [getElem?_erase] at hst
    split_ifs at hst
    exact hs.stored key access hst
  · exact ExtTreeMap.size_erase_le.trans hs.bounded

theorem release (hs : session.Sound library) (hheld : session.holder = some call)
    (hp : (session.release call phase).CallSound library call phase) :
    (session.release call phase).Sound library := by
  refine hs.moveKept rfl rfl ?_ rfl rfl hp
  intro other hne ho
  rw [hheld] at ho
  exact absurd (some.inj ho).symm hne

omit [DecidableEq Call] in
theorem size_store (domainId : Uuid) (access : DomainAccess) (clock : Uuid → DateTime) :
    (session.store domainId access clock).grants.size ≤ maxCachedDomains := by
  unfold store
  dsimp only
  refine ExtTreeMap.size_insert_le.trans ?_
  split_ifs with hfull
  · decide
  · omega

omit [DecidableEq Call] in
theorem stored_store {domainId key : Uuid} {access found : DomainAccess}
    {clock : Uuid → DateTime}
    (hf : (session.store domainId access clock).grants[key]? = some found) :
    (key = domainId ∧ found = access) ∨ session.grants[key]? = some found := by
  unfold store at hf
  dsimp only at hf
  rw [FiniteMap.getElem?_insert] at hf
  split_ifs at hf with hkey hfull
  · cases hf
    exact .inl ⟨hkey, rfl⟩
  · simp at hf
  · rw [ExtTreeMap.getElem?_filter'] at hf
    exact .inr (filter_eq_some_iff.mp hf).1

theorem respond (hs : session.Sound library) (hheld : session.holder = some call)
    {access : DomainAccess} {now : DateTime} {clock : Uuid → DateTime} {response : AccessResponse}
    (hacc : response.intoAccess library (session.requests call).domainId now = some access) :
    let fetch : Fetch Call := ⟨call, session.requests call, access⟩
    ({ session.store (session.requests call).domainId access clock with
      fetches := session.fetches ++ [fetch] }.release call
        (.returned access (.issued now)) : SessionAccess Call).Sound library := by
  unfold AccessResponse.intoAccess at hacc
  split_ifs at hacc
  obtain ⟨hnms, hfrs⟩ := intoAccess_eq_some hacc
  have hm : (⟨call, session.requests call, access⟩ : Fetch Call) ∈
      session.fetches ++ [⟨call, session.requests call, access⟩] :=
    mem_append_right _ (mem_singleton_self _)
  have hsize : (session.store (session.requests call).domainId access clock).grants.size ≤
      maxCachedDomains := size_store ..
  have hgra : ∀ key found,
      (session.store (session.requests call).domainId access clock).grants[key]? = some found →
        (key = (session.requests call).domainId ∧ found = access) ∨
          session.grants[key]? = some found := fun key found => stored_store
  have hreqs : (session.store (session.requests call).domainId access clock).requests =
      session.requests := rfl
  have hcls : (session.store (session.requests call).domainId access clock).calls =
      session.calls := rfl
  -- From here on the cache is any cache with these entries.
  generalize session.store (session.requests call).domainId access clock = stored at *
  refine hs.move hreqs (congrArg (Function.update · call _) hcls) ?_ ⟨_, rfl⟩ ?_ hsize ?_
  · intro other hne ho
    rw [hheld] at ho
    exact absurd (some.inj ho).symm hne
  · intro key found hf
    obtain ⟨rfl, rfl⟩ | hf := hgra key found hf
    · exact ⟨hnms, _, hm, rfl, rfl⟩
    · obtain ⟨hnames', hfet⟩ := hs.stored key found hf
      exact ⟨hnames', hfet.append _⟩
  · have hgrd : Granted library (session.requests call) access (.issued now) := by
      refine ⟨hnms, ?_, ?_⟩
      · rintro _ ⟨⟩
        exact hfrs
      · rintro _ ⟨⟩
    refine ⟨?_, _, hm, rfl, rfl⟩
    rw [← hreqs] at hgrd
    exact hgrd

theorem step (hs : session.Sound library) {label : SessionLabel Call}
    (hstep : session.step library label = some next) : next.Sound library := by
  unfold SessionAccess.step at hstep
  cases label with
  | lock call now =>
    dsimp only at hstep
    split at hstep
    · rename_i hbgn hfree _
      have ho : ∀ holder : Option Call, ∀ other, other ≠ call →
          session.holder = some other → holder = some other := by
        intro _ other _ ho
        rw [hfree] at ho
        cases ho
      split at hstep
      · rename_i access hcac
        obtain ⟨hnms, hfet⟩ := hs.stored _ access hcac
        split_ifs at hstep with huses himported
        · cases hstep
          refine hs.moveKept rfl rfl (ho _) rfl rfl ⟨rfl, ⟨hnms, ?_, ?_⟩, hfet⟩
          · rintro _ ⟨⟩
          · rintro _ ⟨⟩
            exact GrantRequest.uses_eq_true.mp huses
        · cases hstep
          refine hs.moveKept rfl rfl (ho _) rfl rfl ⟨⟨hnms, ?_, ?_⟩, hfet⟩
          · rintro _ ⟨⟩
          · rintro _ ⟨⟩
            exact GrantRequest.uses_eq_true.mp huses
        · cases hstep
          exact hs.fetch hfree _
      · cases hstep
        exact hs.fetch hfree _
    · cases hstep
  | ready call settled =>
    dsimp only at hstep
    split at hstep
    · rename_i access now hp
      have hc := hs.calls call
      rw [hp] at hc
      split_ifs at hstep <;> cases hstep
      · exact hs.release hc.1 hc.2
      · exact hs.release hc.1 trivial
    · cases hstep
  | respond call response now clock =>
    dsimp only at hstep
    split at hstep
    · rename_i hp
      have hheld := hs.holder_of_busy (.inl hp)
      split at hstep
      · rename_i access hacc
        obtain ⟨response, -, hacc⟩ := bind_eq_some_iff.mp hacc
        cases hstep
        exact hs.respond hheld hacc
      · cases hstep
        exact hs.release hheld trivial
    · cases hstep
  | abandon call =>
    dsimp only at hstep
    split at hstep
    · cases hstep
      exact hs.moveKept rfl rfl (fun _ _ => id) rfl rfl trivial
    · rename_i access now hp
      cases hstep
      exact hs.release (hs.holder_of_busy (.inr ⟨access, now, hp⟩)) trivial
    · rename_i hp
      cases hstep
      exact hs.release (hs.holder_of_busy (.inl hp)) trivial
    · cases hstep
  | close =>
    cases hstep
    refine ⟨hs.stored, hs.bounded, fun call => ?_⟩
    exact (hs.calls call).other rfl id ⟨[], (append_nil _).symm⟩
  | clear =>
    dsimp only at hstep
    split at hstep <;> cases hstep
    refine ⟨?_, ?_, fun call => ?_⟩
    · intro domainId access hst
      simp at hst
    · exact Nat.zero_le _
    · exact (hs.calls call).other rfl id ⟨[], (append_nil _).symm⟩

omit [DecidableEq Call] in
theorem new (library : GrantLibrary) (imported : Bool) (requests : Call → GrantRequest) :
    (SessionAccess.new imported requests).Sound library where
  stored := by
    intro domainId access hst
    simp [SessionAccess.new] at hst
  bounded := Nat.zero_le _
  calls := fun _ => trivial

end Sound

/-- Callers reject only other bearers within the margin, and nothing evicts. -/
def Spares (domainId : Uuid) (access : DomainAccess) (session : SessionAccess Call) :
    SessionLabel Call → Prop
  | .lock call now =>
    (session.requests call).domainId = domainId →
      now + grantMargin < access.expiresAt ∧
        ∀ old ∈ (session.requests call).rejected, old.token ≠ access.token
  | .respond _ _ _ clock =>
    clock domainId < access.expiresAt ∧
      (session.grants.filter fun key grant => decide (clock key < grant.expiresAt)).size <
        maxCachedDomains
  | .clear => False
  | _ => True

/-- The grants fetched for one Domain, in order. -/
def fetchesFor (session : SessionAccess Call) (domainId : Uuid) : List (Fetch Call) :=
  session.fetches.filter fun fetch => fetch.request.domainId == domainId

/-- The grant is cached and nobody fetches another one for its Domain. -/
structure Serves (domainId : Uuid) (access : DomainAccess) (fetches : List (Fetch Call))
    (session : SessionAccess Call) : Prop where
  cached : session.grants[domainId]? = some access
  idle : ∀ call, session.calls call = .fetching → (session.requests call).domainId ≠ domainId
  fetched : session.fetchesFor domainId = fetches

namespace Serves

variable {domainId : Uuid} {access : DomainAccess} {fetches : List (Fetch Call)}

theorem move (hsrv : Serves domainId access fetches session) {call : Call}
    {phase : SessionCall} (hcac : next.grants[domainId]? = some access)
    (hreqs : next.requests = session.requests)
    (hcls : next.calls = Function.update session.calls call phase)
    (hp : phase = .fetching → (session.requests call).domainId ≠ domainId)
    (hfet : next.fetchesFor domainId = session.fetchesFor domainId) :
    Serves domainId access fetches next := by
  refine ⟨hcac, fun other ho => ?_, hfet.trans hsrv.fetched⟩
  rw [hcls] at ho
  rw [hreqs]
  by_cases hsm : other = call
  · rw [hsm, update_self] at ho
    rw [hsm]
    exact hp ho
  · rw [update_of_ne hsm] at ho
    exact hsrv.idle other ho

theorem fetch (hsrv : Serves domainId access fetches session) {call : Call}
    (ho : (session.requests call).domainId ≠ domainId) :
    Serves domainId access fetches
      (session.fetch call (session.requests call).domainId) := by
  refine hsrv.move ?_ rfl rfl (fun _ => ho) rfl
  rw [SessionAccess.fetch, SessionAccess.goto]
  dsimp only
  rw [getElem?_erase, if_neg ho.symm]
  exact hsrv.cached

theorem step (hsrv : Serves domainId access fetches session) {label : SessionLabel Call}
    (hspa : Spares domainId access session label)
    (hs : session.step library label = some next) : Serves domainId access fetches next := by
  unfold SessionAccess.step at hs
  cases label with
  | lock call now =>
    dsimp only at hs
    split at hs
    · by_cases hdom : (session.requests call).domainId = domainId
      · have huses : (session.requests call).uses access now = true :=
          GrantRequest.uses_eq_true.mpr (hspa hdom)
        rw [hdom, hsrv.cached] at hs
        dsimp only at hs
        rw [if_pos huses] at hs
        split_ifs at hs <;> cases hs
        · exact hsrv.move hsrv.cached rfl rfl (fun heq => by cases heq) rfl
        · exact hsrv.move hsrv.cached rfl rfl (fun heq => by cases heq) rfl
      · split at hs
        · split_ifs at hs <;> cases hs
          · exact hsrv.move hsrv.cached rfl rfl (fun heq => by cases heq) rfl
          · exact hsrv.move hsrv.cached rfl rfl (fun heq => by cases heq) rfl
          · exact hsrv.fetch hdom
        · cases hs
          exact hsrv.fetch hdom
    · cases hs
  | ready call settled =>
    dsimp only at hs
    split at hs
    · split_ifs at hs <;> cases hs
      · exact hsrv.move hsrv.cached rfl rfl (fun heq => by cases heq) rfl
      · exact hsrv.move hsrv.cached rfl rfl (fun heq => by cases heq) rfl
    · cases hs
  | respond call response now clock =>
    dsimp only at hs
    split at hs
    · rename_i hp
      have ho := hsrv.idle call hp
      split at hs <;> cases hs
      · rename_i found _
        refine hsrv.move ?_ rfl rfl (fun heq => by cases heq) ?_
        · have hkept : ((session.grants.filter fun key grant =>
              decide (clock key < grant.expiresAt))[domainId]?) = some access := by
            rw [ExtTreeMap.getElem?_filter', hsrv.cached]
            simp [hspa.1]
          change ((session.store (session.requests call).domainId found clock).grants[
            domainId]?) = some access
          unfold store
          dsimp only
          rw [FiniteMap.getElem?_insert, if_neg ho.symm, if_neg (by have := hspa.2; omega)]
          exact hkept
        · change (session.fetches ++ [_]).filter _ = session.fetches.filter _
          rw [filter_append]
          simp [ho]
      · exact hsrv.move hsrv.cached rfl rfl (fun heq => by cases heq) rfl
    · cases hs
  | abandon call =>
    dsimp only at hs
    split at hs <;> cases hs
    all_goals exact hsrv.move hsrv.cached rfl rfl (fun heq => by cases heq) rfl
  | close =>
    cases hs
    exact ⟨hsrv.cached, hsrv.idle, hsrv.fetched⟩
  | clear => exact hspa.elim

end Serves

theorem Sound.serves (hs : session.Sound library) {call : Call}
    {response : Option AccessResponse} {now : DateTime} {clock : Uuid → DateTime}
    (hstep : session.step library (.respond call response now clock) = some next)
    {access : DomainAccess} (hret : next.calls call = .returned access (.issued now)) :
    Serves (session.requests call).domainId access
      (next.fetchesFor (session.requests call).domainId) next := by
  unfold SessionAccess.step at hstep
  dsimp only at hstep
  split at hstep
  · rename_i hp
    have hheld := hs.holder_of_busy (.inl hp)
    split at hstep <;> cases hstep
    · rename_i found _
      have hf : found = access := by
        simpa [SessionAccess.release, SessionAccess.goto] using hret
      refine ⟨?_, fun other ho => ?_, rfl⟩
      · change ((session.store (session.requests call).domainId found clock).grants[
          (session.requests call).domainId]?) = some access
        unfold store
        dsimp only
        rw [FiniteMap.getElem?_insert, if_pos rfl, hf]
      · have hne : other ≠ call := by
          rintro rfl
          rw [hret] at ho
          cases ho
        have hpre : session.calls other = .fetching := (update_of_ne hne ..).symm.trans ho
        have hhold := hs.holder_of_busy (.inl hpre)
        rw [hheld] at hhold
        exact absurd (some.inj hhold).symm hne
    · simp [SessionAccess.release, SessionAccess.goto] at hret
  · cases hstep

/-- The contract of a session over whole runs. -/
structure Contract (library : GrantLibrary) (session : SessionAccess Call) : Prop where
  granted : ∀ call access origin, session.calls call = .returned access origin →
    Granted library (session.requests call) access origin
  issued : ∀ call access now, session.calls call = .returned access (.issued now) →
    ∃ fetch ∈ session.fetches, fetch.call = call ∧ fetch.access = access
  cached : ∀ call access now, session.calls call = .returned access (.cached now) →
    Fetched session.fetches (session.requests call).domainId access
  looked_up : ∀ call now next access, session.step library (.lock call now) = some next →
    next.calls call = .renewing access now ∨ next.calls call = .returned access (.cached now) →
    session.grants[(session.requests call).domainId]? = some access
  bounded : session.grants.size ≤ maxCachedDomains
  /-- Callers that reject another bearer than the fetched one cause no second fetch. -/
  one_fetch : ∀ call response now clock access next,
    session.step library (.respond call response now clock) = some next →
    next.calls call = .returned access (.issued now) →
    ∀ labels last, GuardedRun (SessionAccess.step library) next
      (Spares (session.requests call).domainId access) labels →
    runSteps (SessionAccess.step library) next labels = some last →
    last.fetchesFor (session.requests call).domainId =
      next.fetchesFor (session.requests call).domainId

theorem Sound.contract (hs : session.Sound library) : session.Contract library where
  granted := by
    intro call access origin hp
    have hc := hs.calls call
    rw [hp] at hc
    exact hc.1
  issued := by
    intro call access now hp
    have hc := hs.calls call
    rw [hp] at hc
    exact hc.2
  cached := by
    intro call access now hp
    have hc := hs.calls call
    rw [hp] at hc
    exact hc.2
  looked_up := by
    intro call now next access hstep hp
    unfold SessionAccess.step at hstep
    dsimp only at hstep
    split at hstep
    · split at hstep
      · rename_i found hf
        rw [hf]
        split_ifs at hstep <;> cases hstep <;>
          simp_all [SessionAccess.goto, SessionAccess.fetch]
      · cases hstep
        simp [SessionAccess.goto, SessionAccess.fetch] at hp
    · cases hstep
  bounded := hs.bounded
  one_fetch := by
    intro call response now clock access next hstep hret labels last hspa hrun
    have hsrv := hs.serves hstep hret
    exact (invariant_of_guardedRun hsrv
      (fun _ _ _ hsrv hspa hstep => hsrv.step hspa hstep) hspa hrun).fetched

end SessionAccess

end AukiSdk.Tasks
