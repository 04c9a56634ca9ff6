import AukiSdk.Authority.LocalAuthority

/-!
# Concurrent credential installation

An `install` call verifies its credential before it takes the store.
-/

namespace AukiSdk.Authority

open AukiSdk.Foundation Function
open AukiSdk.Net

variable {DecodingKey : Type} {library : TokenLibrary DecodingKey}

/-- The arguments of an `install` call, and what its verification meets. -/
structure InstallRequest (library : TokenLibrary DecodingKey) where
  signed : SignedP2pCredential
  verifier : VerificationKeyRing library
  expectedExpiration : Option ℕ
  requiredDomainId : Option Uuid
  clock : VerifyClock

/-- The verification that `install` makes before it takes the store. -/
def InstallRequest.verify (request : InstallRequest library) (localPeerId : PeerId) :
    Except P2pError P2PAccessClaims :=
  verifiedClaims request.verifier request.signed localPeerId request.expectedExpiration
    request.requiredDomainId request.clock

/-- A call that has verified its credential. -/
structure VerifiedInstall (library : TokenLibrary DecodingKey) where
  request : InstallRequest library
  claims : P2PAccessClaims

/-- A credential store with the calls that wait for it. -/
structure SharedStore (library : TokenLibrary DecodingKey) where
  store : TokenStore
  verified : ℕ → Option (VerifiedInstall library)

/-- The steps of the calls, with the result of a call that returns. -/
inductive StoreLabel (library : TokenLibrary DecodingKey) where
  | verify (call : ℕ) (request : InstallRequest library) (failure : Option P2pError)
  | commit (call : ℕ) (result : Except P2pError P2PAccessClaims)
  | clear

/-- One step: a verification, a critical section of `install`, or `clear`. -/
def StoreStep (localPeerId : PeerId) (_history : List (StoreLabel library))
    (source : SharedStore library) (label : StoreLabel library)
    (target : SharedStore library) : Prop :=
  match label with
  | .verify call request failure =>
    source.verified call = none ∧
    match request.verify localPeerId with
    | .error error => failure = some error ∧ target = source
    | .ok claims =>
      failure = none ∧
      target = { source with
        verified := Function.update source.verified call (some ⟨request, claims⟩) }
  | .commit call result =>
    ∃ install, source.verified call = some install ∧
      source.store.accept install.request.signed install.claims = (result, target.store) ∧
      target.verified = Function.update source.verified call none
  | .clear => target = { source with store := ⟨none⟩ }

/-- Interleavings of calls on one store, from the empty store. -/
abbrev StoreRun (localPeerId : PeerId) :
    List (StoreLabel library) → SharedStore library → Prop :=
  Transition.Run (StoreStep localPeerId) ⟨⟨none⟩, fun _ => none⟩

/-- `later` was issued after `earlier`, or is the same credential. -/
def TokenStore.Precedes (earlier later : TokenStore) : Prop :=
  ∀ installed, earlier.current = some installed →
    ∃ next, later.current = some next ∧ installed.claims.iat ≤ next.claims.iat ∧
      (installed.claims.iat = next.claims.iat → installed = next)

namespace TokenStore

variable (store : TokenStore)

theorem precedes_refl : store.Precedes store :=
  fun installed hinst => ⟨installed, hinst, le_refl _, fun _ => rfl⟩

theorem Precedes.trans {first second third : TokenStore} (hfst : first.Precedes second)
    (hsnd : second.Precedes third) : first.Precedes third := by
  intro installed hinst
  obtain ⟨middle, hmdd, hle, hsm⟩ := hfst installed hinst
  obtain ⟨next, hn, hle', hsame'⟩ := hsnd middle hmdd
  refine ⟨next, hn, hle.trans hle', ?_⟩
  intro heq
  have hmid : installed.claims.iat = middle.claims.iat := by omega
  rw [hsm hmid]
  exact hsame' (by omega)

/-- What the critical section of `install` does to the store. -/
theorem accept_cases (signed : SignedP2pCredential) (claims : P2PAccessClaims) :
    (store.accept signed claims).2 = store ∨
    ((store.accept signed claims) = (.ok claims, ⟨some ⟨signed, claims⟩⟩) ∧
      ∀ installed, store.current = some installed → installed.claims.iat < claims.iat) := by
  rw [accept]
  split
  · rename_i hemp
    exact .inr ⟨rfl, by simp [hemp]⟩
  · rename_i installed hinst
    split
    · exact .inl rfl
    · split
      · split <;> exact .inl rfl
      · right
        refine ⟨rfl, ?_⟩
        intro found hf
        cases hinst.symm.trans hf
        omega

theorem precedes_accept (signed : SignedP2pCredential) (claims : P2PAccessClaims) :
    store.Precedes (store.accept signed claims).2 := by
  rcases accept_cases store signed claims with hsm | ⟨hacc, hnew⟩
  · rw [hsm]
    exact precedes_refl store
  · rw [hacc]
    intro installed hinst
    have hlt := hnew installed hinst
    exact ⟨_, rfl, hlt.le, fun heq => absurd heq hlt.ne⟩

theorem accept_error {store next : TokenStore} {signed : SignedP2pCredential}
    {claims : P2PAccessClaims} {error : P2pError}
    (hacc : store.accept signed claims = (.error error, next)) : next = store := by
  rcases accept_cases store signed claims with hsm | ⟨hok, -⟩
  · rw [hacc] at hsm
    exact hsm
  · rw [hacc] at hok
    cases hok

theorem accept_ok {store next : TokenStore} {signed : SignedP2pCredential}
    {claims returned : P2PAccessClaims}
    (hacc : store.accept signed claims = (.ok returned, next)) :
    returned = claims ∧ next.current.map StoredCredential.claims = some claims := by
  by_cases hadm : store.Admits claims
  · obtain ⟨hok, hclm⟩ := accept_of_admits signed hadm
    rw [hacc] at hok hclm
    exact ⟨Except.ok.inj hok, hclm⟩
  · obtain ⟨error, href⟩ := accept_of_not_admits signed hadm
    rw [hacc] at href
    cases href

end TokenStore

/-- What a verified credential satisfies. -/
structure InstallRequest.Satisfied (request : InstallRequest library) (localPeerId : PeerId)
    (claims : P2PAccessClaims) : Prop where
  verified : request.verifier.verify request.signed.compact request.clock = .ok claims
  peer : PeerId.fromStr claims.peerId = some localPeerId
  domain : ∀ domainId, request.requiredDomainId = some domainId →
    claims.namesDomain domainId = true
  expiration : ∀ expected, request.expectedExpiration = some expected → claims.exp = expected

variable {localPeerId : PeerId} {claims : P2PAccessClaims}

theorem InstallRequest.satisfied_of_verify {request : InstallRequest library}
    (hvrf : request.verify localPeerId = .ok claims) :
    request.Satisfied localPeerId claims := by
  obtain ⟨hver, hcks⟩ := verifiedClaims_eq_ok_iff.mp hvrf
  rw [Checks.all_eq_ok] at hcks
  simp only [credentialChecks, List.forall_mem_cons, List.not_mem_nil, false_imp_iff,
    implies_true, and_true, Checks.optional_eq_ok, Checks.require_eq_ok, ensureTokenDomain]
    at hcks
  obtain ⟨hpeer, hdom, hexp⟩ := hcks
  refine ⟨hver, ?_, hdom, hexp⟩
  rw [ensureTokenPeer] at hpeer
  split at hpeer
  · cases hpeer
  · rename_i tokenPeerId hprs
    split at hpeer
    · cases hpeer
    · rename_i hsm
      rw [hprs, not_not.mp hsm]

/-- Some call of the run verified the credential. -/
def VerifiedIn (localPeerId : PeerId) (history : List (StoreLabel library))
    (signed : SignedP2pCredential) (claims : P2PAccessClaims) : Prop :=
  ∃ call request, StoreLabel.verify call request none ∈ history ∧
    request.signed = signed ∧ request.verify localPeerId = .ok claims

variable {history : List (StoreLabel library)}

theorem VerifiedIn.append {signed : SignedP2pCredential}
    (hver : VerifiedIn localPeerId history signed claims) (label : StoreLabel library) :
    VerifiedIn localPeerId (history ++ [label]) signed claims := by
  obtain ⟨call, request, hm, hsig, hclm⟩ := hver
  exact ⟨call, request, List.mem_append_left _ hm, hsig, hclm⟩

/-- Everything that waits or is installed was verified. -/
structure Provenance (localPeerId : PeerId) (history : List (StoreLabel library))
    (shared : SharedStore library) : Prop where
  waiting : ∀ call install, shared.verified call = some install →
    install.request.verify localPeerId = .ok install.claims ∧
      VerifiedIn localPeerId history install.request.signed install.claims
  installed : ∀ stored, shared.store.current = some stored →
    VerifiedIn localPeerId history stored.signed stored.claims

theorem Provenance.step {source target : SharedStore library} {label : StoreLabel library}
    (hpro : Provenance localPeerId history source)
    (hs : StoreStep localPeerId history source label target) :
    Provenance localPeerId (history ++ [label]) target := by
  have hwait : ∀ call install, source.verified call = some install →
      install.request.verify localPeerId = .ok install.claims ∧
        VerifiedIn localPeerId (history ++ [label]) install.request.signed install.claims := by
    intro call install hins
    obtain ⟨hvrf, hver⟩ := hpro.waiting call install hins
    exact ⟨hvrf, hver.append label⟩
  have hinst : ∀ stored, source.store.current = some stored →
      VerifiedIn localPeerId (history ++ [label]) stored.signed stored.claims :=
    fun stored hst => (hpro.installed stored hst).append label
  cases label with
  | verify call request failure =>
    obtain ⟨-, hres⟩ := hs
    split at hres
    · obtain ⟨-, rfl⟩ := hres
      exact ⟨hwait, hinst⟩
    · rename_i claims hclm
      obtain ⟨rfl, rfl⟩ := hres
      refine ⟨?_, hinst⟩
      intro other install hins
      dsimp only at hins
      by_cases ho : other = call
      · subst ho
        rw [update_self, Option.some.injEq] at hins
        subst hins
        exact ⟨hclm, other, request, by simp, rfl, hclm⟩
      · rw [update_of_ne ho] at hins
        exact hwait other install hins
  | commit call result =>
    obtain ⟨install, hins, hacc, hver⟩ := hs
    constructor
    · intro other found hf
      rw [hver] at hf
      by_cases ho : other = call
      · subst ho
        rw [update_self] at hf
        cases hf
      · rw [update_of_ne ho] at hf
        exact hwait other found hf
    · intro stored hst
      rcases TokenStore.accept_cases source.store install.request.signed install.claims with
        hsm | ⟨hok, -⟩
      · rw [hacc] at hsm
        dsimp only at hsm
        rw [hsm] at hst
        exact hinst stored hst
      · rw [hacc, Prod.mk.injEq] at hok
        rw [hok.2, Option.some.injEq] at hst
        subst hst
        exact (hwait call install hins).2
  | clear =>
    cases hs
    exact ⟨hwait, by simp⟩

variable {shared : SharedStore library}

theorem StoreRun.provenance (hrun : StoreRun localPeerId history shared) :
    Provenance localPeerId history shared := by
  apply Transition.Run.invariant (Provenance localPeerId) _ _ hrun
  · exact ⟨by simp, by simp⟩
  · intro history source label target hpro hs
    exact hpro.step hs

theorem precedes_of_step {source target : SharedStore library} {label : StoreLabel library}
    (hs : StoreStep localPeerId history source label target) (hlbl : label ≠ .clear) :
    source.store.Precedes target.store := by
  cases label with
  | verify call request failure =>
    obtain ⟨-, hres⟩ := hs
    split at hres
    · rw [hres.2]
      exact TokenStore.precedes_refl _
    · rw [hres.2]
      exact TokenStore.precedes_refl _
  | commit call result =>
    obtain ⟨install, -, hacc, -⟩ := hs
    have hpre := TokenStore.precedes_accept source.store install.request.signed
      install.claims
    rw [hacc] at hpre
    exact hpre
  | clear => exact absurd rfl hlbl

/-- Between two clears the installed credential never becomes older. -/
theorem token_store_monotonic {localPeerId : PeerId} {history : List (StoreLabel library)}
    {shared : SharedStore library} (hrun : StoreRun localPeerId history shared) :
    (∀ (before middle : List (StoreLabel library)), history = before ++ middle →
      (∀ label ∈ middle, label ≠ .clear) →
      ∃ source, StoreRun localPeerId before source ∧ source.store.Precedes shared.store) ∧
    (∀ (before : List (StoreLabel library)) call request error (after : List (StoreLabel library)),
      history = before ++ .verify call request (some error) :: after →
      ∃ source target, StoreRun localPeerId before source ∧
        StoreRun localPeerId (before ++ [.verify call request (some error)]) target ∧
        request.verify localPeerId = .error error ∧ target.store = source.store) ∧
    (∀ (before : List (StoreLabel library)) call result (after : List (StoreLabel library)),
      history = before ++ .commit call result :: after →
      ∃ source target install, StoreRun localPeerId before source ∧
        StoreRun localPeerId (before ++ [.commit call result]) target ∧
        source.verified call = some install ∧
        install.request.Satisfied localPeerId install.claims ∧
        (∀ error, result = .error error → target.store = source.store) ∧
        ∀ claims, result = .ok claims → claims = install.claims ∧
          target.store.current.map StoredCredential.claims = some claims) ∧
    (∀ stored, shared.store.current = some stored →
      ∃ call request, .verify call request none ∈ history ∧ request.signed = stored.signed ∧
        request.Satisfied localPeerId stored.claims) := by
  refine ⟨?_, ?_, ?_, ?_⟩
  · rintro before middle rfl hmiddle
    apply hrun.segment (fun source target => source.store.Precedes target.store) (· ≠ .clear)
      (fun source => TokenStore.precedes_refl source.store)
      (fun _ _ _ hfirst hsecond => hfirst.trans hsecond) _ hmiddle
    intro earlier source label target _ hstep hlabel
    exact precedes_of_step hstep hlabel
  · rintro before call request error after rfl
    obtain ⟨source, target, hbefore, hstep, htarget⟩ := hrun.step_at
    obtain ⟨-, hresult⟩ := hstep
    split at hresult
    · rename_i failure hfailure
      obtain ⟨hsome, rfl⟩ := hresult
      rw [Option.some.injEq] at hsome
      subst hsome
      exact ⟨_, _, hbefore, htarget, hfailure, rfl⟩
    · cases hresult.1
  · rintro before call result after rfl
    obtain ⟨source, target, hbefore, hstep, htarget⟩ := hrun.step_at
    obtain ⟨install, hinstall, haccept, -⟩ := hstep
    have hverify := ((StoreRun.provenance hbefore).waiting call install hinstall).1
    refine ⟨source, target, install, hbefore, htarget, hinstall,
      InstallRequest.satisfied_of_verify hverify, ?_, ?_⟩
    · rintro error rfl
      exact TokenStore.accept_error haccept
    · rintro claims rfl
      obtain ⟨rfl, hclaims⟩ := TokenStore.accept_ok haccept
      exact ⟨rfl, hclaims⟩
  · intro stored hstored
    obtain ⟨call, request, hmem, hsigned, hverify⟩ :=
      (StoreRun.provenance hrun).installed stored hstored
    exact ⟨call, request, hmem, hsigned, InstallRequest.satisfied_of_verify hverify⟩

/-- A request for the sample token issued at `iat`, in Domain 5. -/
def sampleRequest (credential : SignedP2pCredential) (iat : ℕ) :
    InstallRequest (sampleLibrary sampleTokens) :=
  ⟨credential, sampleRing, some (iat + 1800), some 5, ⟨1000, Duration.fromSecs 1000⟩⟩

theorem olderText_sized : IsTokenSized "issued at 990" := by decide

theorem newerText_sized : IsTokenSized "issued at 1000" := by decide

def olderCredential : SignedP2pCredential := ⟨"issued at 990", olderText_sized⟩
def newerCredential : SignedP2pCredential := ⟨"issued at 1000", newerText_sized⟩

theorem sampleRequest_newer_verify :
    (sampleRequest newerCredential 1000).verify (samplePeer 1) = .ok (sampleClaims 1000) := by
  decide +kernel

theorem sampleRequest_older_verify :
    (sampleRequest olderCredential 990).verify (samplePeer 1) = .ok (sampleClaims 990) := by
  decide +kernel

theorem StoreRun.verify (hrun : StoreRun localPeerId history shared) (call : ℕ)
    (hfrs : shared.verified call = none) {request : InstallRequest library}
    (hver : request.verify localPeerId = .ok claims) :
    StoreRun localPeerId (history ++ [.verify call request none]) { shared with
      verified := Function.update shared.verified call (some ⟨request, claims⟩) } := by
  apply hrun.extend
  refine ⟨hfrs, ?_⟩
  rw [hver]
  exact ⟨rfl, rfl⟩

theorem StoreRun.commit (hrun : StoreRun localPeerId history shared) (call : ℕ)
    {install : VerifiedInstall library} (hins : shared.verified call = some install) :
    StoreRun localPeerId
      (history ++ [.commit call (shared.store.accept install.request.signed install.claims).1])
      ⟨(shared.store.accept install.request.signed install.claims).2,
        Function.update shared.verified call none⟩ := by
  apply hrun.extend
  exact ⟨install, hins, rfl, rfl⟩

/-- The older credential is committed last and refused. -/
theorem token_store_monotonic_sample : ∃ (before : List (StoreLabel (sampleLibrary sampleTokens)))
      (shared : SharedStore (sampleLibrary sampleTokens)),
      StoreRun (samplePeer 1)
        (before ++ [.commit 0 (.error (.staleCredential 1000 990))]) shared ∧
      shared.store.current = some ⟨newerCredential, sampleClaims 1000⟩ ∧
      PeerId.fromStr (sampleClaims 1000).peerId = some (samplePeer 1) := by
  have hverified := (StoreRun.verify .start 0 rfl sampleRequest_older_verify).verify 1 rfl
    sampleRequest_newer_verify
  have hnewer := hverified.commit 1 rfl
  have hrun := hnewer.commit 0 rfl
  refine ⟨_, _, hrun, rfl, ?_⟩
  obtain ⟨-, -, -, hinstalled⟩ := token_store_monotonic hrun
  obtain ⟨_, _, -, -, hsatisfied⟩ := hinstalled ⟨newerCredential, sampleClaims 1000⟩ rfl
  exact hsatisfied.peer

end AukiSdk.Authority
