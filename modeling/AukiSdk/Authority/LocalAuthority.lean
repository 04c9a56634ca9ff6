import AukiSdk.Authority.KeyRotation

/-!
# Complete authority updates

`LocalAuthority` replaces its key ring and credential with one update.
-/

namespace AukiSdk.Authority

open AukiSdk.Foundation
open AukiSdk.Net

variable {DecodingKey : Type} {library : TokenLibrary DecodingKey}

/-- The clock readings of one `verify` call. -/
structure VerifyClock where
  wallTimeSeconds : ℕ
  monotonicNow : Instant

def VerificationKeyRing.verify (ring : VerificationKeyRing library) (token : String)
    (clock : VerifyClock) : Except P2pError P2PAccessClaims :=
  ring.verifyAt token clock.wallTimeSeconds clock.monotonicNow

structure StoredCredential where
  signed : SignedP2pCredential
  claims : P2PAccessClaims
  deriving DecidableEq

structure TokenStore where
  current : Option StoredCredential
  deriving DecidableEq

/-- The checks of a verified credential. -/
def credentialChecks (claims : P2PAccessClaims) (peerId : PeerId)
    (expectedExpiration : Option ℕ) (requiredDomainId : Option Uuid) :
    List (Except P2pError Unit) :=
  [ensureTokenPeer claims peerId,
    Checks.optional requiredDomainId (ensureTokenDomain claims),
    Checks.optional expectedExpiration fun expected =>
      Checks.require (claims.exp = expected)
        (.credentialExpirationMismatch claims.exp expected)]

/-- The checks that `validate_signed_authority` and `TokenStore::install` share. -/
def verifiedClaims (verifier : VerificationKeyRing library) (signed : SignedP2pCredential)
    (peerId : PeerId) (expectedExpiration : Option ℕ) (requiredDomainId : Option Uuid)
    (clock : VerifyClock) : Except P2pError P2PAccessClaims :=
  Checks.checked (verifier.verify signed.compact clock) fun claims =>
    Checks.all (credentialChecks claims peerId expectedExpiration requiredDomainId)

namespace TokenStore

/-- The critical section of `TokenStore::install`. -/
def accept (store : TokenStore) (signed : SignedP2pCredential) (claims : P2PAccessClaims) :
    Except P2pError P2PAccessClaims × TokenStore :=
  match store.current with
  | none => (.ok claims, ⟨some ⟨signed, claims⟩⟩)
  | some installed =>
    if claims.iat < installed.claims.iat then
      (.error (.staleCredential installed.claims.iat claims.iat), store)
    else if claims.iat = installed.claims.iat then
      if claims ≠ installed.claims then
        (.error (.credentialIssuedAtConflict claims.iat), store)
      else
        -- Identical claims keep the compact token that is already installed.
        (.ok installed.claims, store)
    else
      (.ok claims, ⟨some ⟨signed, claims⟩⟩)

/-- `TokenStore::install`, with the store as it stands at the return. -/
def install (store : TokenStore) (signed : SignedP2pCredential)
    (verifier : VerificationKeyRing library) (localPeerId : PeerId)
    (expectedExpiration : Option ℕ) (requiredDomainId : Option Uuid) (clock : VerifyClock) :
    Except P2pError P2PAccessClaims × TokenStore :=
  match verifiedClaims verifier signed localPeerId expectedExpiration requiredDomainId
      clock with
  | .error error => (.error error, store)
  | .ok claims => store.accept signed claims

/-- `claims` were issued after the installed ones, or are those. -/
def Admits (store : TokenStore) (claims : P2PAccessClaims) : Prop :=
  ∀ installed ∈ store.current, installed.claims.iat < claims.iat ∨ installed.claims = claims

variable {store : TokenStore} {claims : P2PAccessClaims}

theorem accept_of_admits (signed : SignedP2pCredential) (hadm : store.Admits claims) :
    (store.accept signed claims).1 = .ok claims ∧
      (store.accept signed claims).2.current.map StoredCredential.claims = some claims := by
  unfold accept
  cases hcur : store.current with
  | none => exact ⟨rfl, rfl⟩
  | some installed =>
    rcases hadm installed hcur with hnew | rfl
    · simp [Nat.lt_asymm hnew, Nat.ne_of_gt hnew]
    · simp [hcur]

theorem accept_of_not_admits (signed : SignedP2pCredential)
    (href : ¬store.Admits claims) :
    ∃ error, store.accept signed claims = (.error error, store) := by
  unfold Admits at href
  push Not at href
  obtain ⟨installed, hcur, hnot, hdif⟩ := href
  unfold accept
  rw [Option.mem_def.mp hcur]
  by_cases hsta : claims.iat < installed.claims.iat
  · exact ⟨_, if_pos hsta⟩
  · have hsm : claims.iat = installed.claims.iat := by omega
    simp only [if_neg hsta, if_pos hsm, ne_eq, Ne.symm hdif, not_false_eq_true, if_true]
    exact ⟨_, rfl⟩

end TokenStore

structure PeerAuthorityUpdate where
  domainId : Uuid
  peerId : PeerId
  verificationKeys : DdsVerificationKeys
  credential : SignedP2pCredential
  credentialExpiresAt : DateTime

/-- `LocalAuthorityInner`; the `updates` mutex makes its calls atomic. -/
structure LocalAuthority (library : TokenLibrary DecodingKey) where
  peerId : PeerId
  domainId : Uuid
  verifier : VerificationKeyRing library
  tokens : TokenStore
  deriving DecidableEq

def validateEnvelope (expectedPeerId : PeerId) (expectedDomainId : Uuid)
    (update : PeerAuthorityUpdate) : Except P2pError Unit :=
  Checks.all
    [Checks.require (update.peerId = expectedPeerId)
      (.authorityPeerMismatch expectedPeerId.toText update.peerId.toText),
    Checks.require (update.domainId = expectedDomainId)
      (.authorityDomainMismatch expectedDomainId.toText update.domainId.toText)]

def exactFutureExpiration (expiration now : DateTime) : Except P2pError ℕ :=
  if expiration ≤ now ∨ expiration % nanosPerSecond ≠ 0 then
    .error .invalidAuthorityExpiration
  else
    match expiration / nanosPerSecond with
    | .ofNat seconds => .ok seconds
    | .negSucc _ => .error .invalidAuthorityExpiration

def validateSignedAuthority (verifier : VerificationKeyRing library)
    (credential : SignedP2pCredential) (peerId : PeerId) (domainId : Uuid)
    (expectedExpiration : ℕ) (clock : VerifyClock) : Except P2pError Unit :=
  (verifiedClaims verifier credential peerId (some expectedExpiration) (some domainId)
    clock).map fun _ => ()

/-- The clock readings of the checks that `start` and `replace` share. -/
structure UpdateClock where
  expirationNow : DateTime
  candidateAt : Instant
  checkedAt : VerifyClock

/-- The clock readings of one `replace` call. -/
structure ReplaceClock extends UpdateClock where
  replacedAt : Instant
  installedAt : VerifyClock

/-- The checks that `start` and `replace` make first. -/
def validateUpdate (library : TokenLibrary DecodingKey) (peerId : PeerId) (domainId : Uuid)
    (update : PeerAuthorityUpdate) (clock : UpdateClock) :
    Except P2pError (ℕ × VerificationKeyRing library) := do
  validateEnvelope peerId domainId update
  let expectedExpiration ← exactFutureExpiration update.credentialExpiresAt clock.expirationNow
  let candidate ← VerificationKeyRing.fromKeys library update.verificationKeys
    clock.candidateAt
  validateSignedAuthority candidate update.credential peerId domainId expectedExpiration
    clock.checkedAt
  return (expectedExpiration, candidate)

namespace LocalAuthority

def start (library : TokenLibrary DecodingKey) (peerId : PeerId)
    (update : PeerAuthorityUpdate) (clock : UpdateClock) (installedAt : VerifyClock) :
    Except P2pError (LocalAuthority library) :=
  match validateUpdate library peerId update.domainId update clock with
  | .error error => .error error
  | .ok (expectedExpiration, verifier) =>
    match TokenStore.install ⟨none⟩ update.credential verifier peerId
        (some expectedExpiration) (some update.domainId) installedAt with
    | (.error error, _) => .error error
    | (.ok _, tokens) => .ok ⟨peerId, update.domainId, verifier, tokens⟩

/-- `LocalAuthority::replace`. -/
def replace (authority : LocalAuthority library) (update : PeerAuthorityUpdate)
    (clock : ReplaceClock) : Except P2pError P2PAccessClaims × LocalAuthority library :=
  match validateUpdate library authority.peerId authority.domainId update
      clock.toUpdateClock with
  | .error error => (.error error, authority)
  | .ok (expectedExpiration, _) =>
    match authority.verifier.replaceKeysAt update.verificationKeys
        clock.replacedAt with
    | (.error error, verifier) => (.error error, { authority with verifier })
    | (.ok (), verifier) =>
      match authority.tokens.install update.credential verifier authority.peerId
          (some expectedExpiration) (some authority.domainId) clock.installedAt with
      | (result, tokens) => (result, { authority with verifier, tokens })

def clear (authority : LocalAuthority library) : LocalAuthority library :=
  { authority with tokens := ⟨none⟩ }

end LocalAuthority

variable {store : TokenStore} {verifier : VerificationKeyRing library}
  {signed : SignedP2pCredential} {peerId : PeerId} {expectedExpiration : Option ℕ}
  {requiredDomainId : Option Uuid} {clock : VerifyClock} {claims : P2PAccessClaims}

theorem verifiedClaims_eq_ok_iff :
    verifiedClaims verifier signed peerId expectedExpiration requiredDomainId clock = .ok claims ↔
      verifier.verify signed.compact clock = .ok claims ∧
      Checks.all (credentialChecks claims peerId expectedExpiration requiredDomainId) = .ok () :=
  Checks.checked_eq_ok

theorem validateUpdate_eq_ok {domainId : Uuid} {update : PeerAuthorityUpdate}
    {clock : UpdateClock} {expiration : ℕ} {candidate : VerificationKeyRing library}
    (hval : validateUpdate library peerId domainId update clock = .ok (expiration, candidate)) :
    VerificationKeyRing.fromKeys library update.verificationKeys clock.candidateAt = .ok candidate ∧
      ∃ claims, verifiedClaims candidate update.credential peerId (some expiration)
        (some domainId) clock.checkedAt = .ok claims := by
  unfold validateUpdate at hval
  obtain ⟨-, -, hval⟩ := Checks.bind_eq_ok.mp hval
  obtain ⟨expected, -, hval⟩ := Checks.bind_eq_ok.mp hval
  obtain ⟨ring, hring, hval⟩ := Checks.bind_eq_ok.mp hval
  obtain ⟨_, hsig, hval⟩ := Checks.bind_eq_ok.mp hval
  cases hval
  obtain ⟨claims, hclm, -⟩ := Checks.map_eq_ok.mp hsig
  exact ⟨hring, claims, hclm⟩

namespace TokenStore

theorem install_error {error : P2pError} {next : TokenStore}
    (hins : store.install signed verifier peerId expectedExpiration requiredDomainId
      clock = (.error error, next)) : next = store := by
  unfold install at hins
  split at hins
  · cases hins
    rfl
  · rename_i claims _
    by_cases hadm : store.Admits claims
    · have hacc := (accept_of_admits signed hadm).1
      rw [hins] at hacc
      cases hacc
    · obtain ⟨error', href⟩ := accept_of_not_admits signed hadm
      rw [href] at hins
      cases hins
      rfl

theorem install_ok {next : TokenStore}
    (hins : store.install signed verifier peerId expectedExpiration requiredDomainId
      clock = (.ok claims, next)) :
    next.current.map StoredCredential.claims = some claims := by
  unfold install at hins
  split at hins
  · cases hins
  · rename_i verified _
    by_cases hadm : store.Admits verified
    · obtain ⟨hacc, hinst⟩ := accept_of_admits signed hadm
      rw [hins] at hacc hinst
      cases hacc
      exact hinst
    · obtain ⟨error, href⟩ := accept_of_not_admits signed hadm
      rw [href] at hins
      cases hins

/-- Installation fails exactly when the checks or the store refuse the claims. -/
theorem install_isOk_iff :
    (store.install signed verifier peerId expectedExpiration requiredDomainId clock).1.isOk ↔
      ∃ claims, verifiedClaims verifier signed peerId expectedExpiration requiredDomainId
        clock = .ok claims ∧ store.Admits claims := by
  unfold install
  cases hver : verifiedClaims verifier signed peerId expectedExpiration
      requiredDomainId clock with
  | error error => simp [Except.isOk, Except.toBool]
  | ok verified =>
    simp only [Except.ok.injEq, exists_eq_left']
    by_cases hadm : store.Admits verified
    · rw [(accept_of_admits signed hadm).1]
      simp [hadm, Except.isOk, Except.toBool]
    · obtain ⟨error, href⟩ := accept_of_not_admits signed hadm
      rw [href]
      simp [hadm, Except.isOk, Except.toBool]

end TokenStore

end AukiSdk.Authority
