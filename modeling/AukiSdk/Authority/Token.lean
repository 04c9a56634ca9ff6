import AukiSdk.Foundation.Checks
import AukiSdk.Foundation.Word
import AukiSdk.Net.Clock
import AukiSdk.Net.Identifiers

/-!
# Access claims and their profile

The claim schema of a DDS credential and the checks every verified token passes.
-/

namespace AukiSdk.Authority

open AukiSdk.Foundation
open AukiSdk.Net

/-- `Error`: the variants of token, authority and authentication code. -/
inductive P2pError where
  | invalidVerificationKey (reason : String)
  | invalidVerificationKeySet (reason : String)
  | staleVerificationKeyGeneration (current proposed : ℕ)
  | verificationKeyGenerationConflict (generation : ℕ)
  | verificationKeyRotationMissingPrevious
  | verificationKeyOverlapActive
  | verificationKeysStale
  | invalidToken (reason : String)
  | tokenVerification (reason : String)
  | missingToken
  | staleCredential (currentIssuedAt proposedIssuedAt : ℕ)
  | credentialIssuedAtConflict (issuedAt : ℕ)
  | credentialExpirationMismatch (credentialExpiration expectedExpiration : ℕ)
  | authorityDomainMismatch (expected actual : String)
  | authorityPeerMismatch (expected actual : String)
  | invalidAuthorityExpiration
  | peerIdMismatch (tokenPeerId noisePeerId : String)
  | remoteDomainMismatch (domainId : String)
  | localDomainMismatch (domainId : String)
  | unexpectedRemotePeer (expected actual : String)
  | remoteRejected
  | authenticationTimeout
  | tokenFrameTooLarge (maximum : ℕ)
  | invalidTokenEncoding
  | io (reason : String)
  deriving DecidableEq

def p2pTokenType : String := "p2p-access"
def p2pTokenIssuer : String := "dds"
def p2pTokenAudience : String := "auki-p2p"
def p2pTokenTtl : Duration := Duration.fromSecs (30 * 60)
def p2pTokenClockSkew : Duration := Duration.fromSecs 60
def p2pTokenMaxBytes : ℕ := 64 * 1024
def p2pTokenMaxSubjectBytes : ℕ := 255
def domainServerMaxDomains : ℕ := 25
def p2pTokenMaxScopes : ℕ := 32
def p2pTokenMaxScopeBytes : ℕ := 128
def p2pTokenMaxPeerTypeBytes : ℕ := 64
def p2pTokenMaxApplicationNameBytes : ℕ := 64
def p2pTokenMaxApplicationVersionBytes : ℕ := 64

structure SignedApplicationMetadata where
  name : String
  version : String
  deriving DecidableEq

structure P2PAccessClaims where
  tokenType : String
  iss : String
  aud : List String
  sub : String
  organizationId : Option String
  peerType : Option String
  peerId : String
  domainIds : List String
  scopes : List String
  application : Option SignedApplicationMetadata
  iat : ℕ
  nbf : Option ℕ
  exp : ℕ
  deriving DecidableEq

/-- The message of the encoded-size check. -/
def encodedSizeError : P2pError :=
  .invalidToken ("encoded token must contain between 1 and " ++ toString p2pTokenMaxBytes ++
    " bytes")

/-- The encoded-size check that construction and verification share. -/
def IsTokenSized (token : String) : Prop :=
  token ≠ "" ∧ token.utf8ByteSize ≤ p2pTokenMaxBytes

instance (token : String) : Decidable (IsTokenSized token) :=
  inferInstanceAs (Decidable (_ ∧ _))

/-- `SignedP2pCredential`: a compact token within the encoded-size bound. -/
structure SignedP2pCredential where
  compact : String
  sized : IsTokenSized compact
  deriving DecidableEq

def SignedP2pCredential.new (compact : String) : Except P2pError SignedP2pCredential :=
  if hsized : IsTokenSized compact then .ok ⟨compact, hsized⟩ else .error encodedSizeError

def validateCanonicalUuid (value message : String) : Except P2pError Uuid :=
  match Uuid.parseStr value with
  | none => .error (.invalidToken message)
  | some parsed =>
    if parsed.toText ≠ value then .error (.invalidToken message) else .ok parsed

/-- `str::bytes`. -/
def textBytes (text : String) : List UInt8 :=
  text.toUTF8.data.toList

/-- `validate_visible_ascii`; the bounds are `b'!'` and `b'~'`. -/
def validateVisibleAscii (value : String) (maximum : ℕ) (field : String) :
    Except P2pError Unit :=
  Checks.require (value ≠ "" ∧ value.utf8ByteSize ≤ maximum ∧
      ∀ byte ∈ textBytes value, 0x21 ≤ byte ∧ byte ≤ 0x7e)
    (.invalidToken (field ++ " must contain 1..=" ++ toString maximum ++
      " visible ASCII bytes"))

/-- The Domain loop of `validate_profile`. -/
def validateDomainIds : List String → List Uuid → Except P2pError Unit
  | [], _ => .ok ()
  | domainId :: rest, seen =>
    match validateCanonicalUuid domainId "domain_ids must contain canonical UUIDs" with
    | .error error => .error error
    | .ok parsed =>
      if parsed ∈ seen then .error (.invalidToken "domain_ids must be unique")
      else validateDomainIds rest (parsed :: seen)

/-- The scope loop of `validate_profile`. -/
def validateScopes : List String → List String → Except P2pError Unit
  | [], _ => .ok ()
  | scope :: rest, seen =>
    match validateVisibleAscii scope p2pTokenMaxScopeBytes "scope" with
    | .error error => .error error
    | .ok () =>
      if scope ∈ seen then .error (.invalidToken "scopes must be unique")
      else validateScopes rest (scope :: seen)

def ensureLiteralExpiry (claims : P2PAccessClaims) (now : ℕ) : Except P2pError Unit :=
  Checks.require (now < claims.exp) (.invalidToken "token has literally expired")

/-- A claimed time is at most the clock skew ahead of `now`. -/
def ensureWithinSkew (time now : ℕ) (message : String) : Except P2pError Unit :=
  Checks.require (time ≤ Word.saturatingAdd now p2pTokenClockSkew.asSecs)
    (.invalidToken message)

/-- The Peer ID checks of `validate_profile`. -/
def validateTokenPeerId (peerId : String) : Except P2pError Unit :=
  match PeerId.fromStr peerId with
  | none => .error (.invalidToken "peer_id must be a libp2p Peer ID")
  | some parsed =>
    Checks.require (parsed.toText = peerId)
      (.invalidToken "peer_id must use its canonical representation")

/-- The lifetime check of `validate_profile`. -/
def ensureTokenTtl (claims : P2PAccessClaims) : Except P2pError Unit :=
  Checks.require (Word.checkedSub claims.exp claims.iat = some p2pTokenTtl.asSecs)
    (.invalidToken "expiration must be exactly 30 minutes after issued-at")

/-- The checks of `validate_profile`, in the order of the source. -/
def profileChecks (claims : P2PAccessClaims) (now : ℕ) : List (Except P2pError Unit) :=
  [Checks.require (claims.tokenType = p2pTokenType) (.invalidToken "unexpected token type"),
    Checks.require (claims.iss = p2pTokenIssuer) (.invalidToken "unexpected issuer"),
    Checks.require (claims.aud = [p2pTokenAudience])
      (.invalidToken "audience must be exactly [auki-p2p]"),
    Checks.require (claims.sub ≠ "" ∧ claims.sub.utf8ByteSize ≤ p2pTokenMaxSubjectBytes)
      (.invalidToken ("subject must contain 1..=" ++ toString p2pTokenMaxSubjectBytes ++
        " UTF-8 bytes")),
    Checks.optional claims.organizationId fun organizationId =>
      (validateCanonicalUuid organizationId
        "organization_id must be a canonical UUID").map fun _ => (),
    validateTokenPeerId claims.peerId,
    ensureTokenTtl claims,
    ensureLiteralExpiry claims now,
    ensureWithinSkew claims.iat now "issued-at is beyond the allowed clock skew",
    Checks.optional claims.nbf fun notBefore =>
      ensureWithinSkew notBefore now "not-before is beyond the allowed clock skew",
    Checks.require (1 ≤ claims.domainIds.length ∧
        claims.domainIds.length ≤ domainServerMaxDomains)
      (.invalidToken "domain_ids must contain between 1 and 25 Domains"),
    validateDomainIds claims.domainIds [],
    Checks.optional claims.peerType fun peerType =>
      validateVisibleAscii peerType p2pTokenMaxPeerTypeBytes "peer_type",
    Checks.require (claims.scopes.length ≤ p2pTokenMaxScopes)
      (.invalidToken ("scopes must contain at most " ++ toString p2pTokenMaxScopes ++
        " entries")),
    validateScopes claims.scopes [],
    Checks.optional claims.application fun application =>
      validateVisibleAscii application.name p2pTokenMaxApplicationNameBytes
        "application.name",
    Checks.optional claims.application fun application =>
      validateVisibleAscii application.version p2pTokenMaxApplicationVersionBytes
        "application.version"]

def validateProfile (claims : P2PAccessClaims) (now : ℕ) : Except P2pError Unit :=
  Checks.all (profileChecks claims now)

variable {now : ℕ} {claims : P2PAccessClaims}

theorem validateProfile_times (hval : validateProfile claims now = .ok ()) :
    claims.exp = claims.iat + 1800 ∧ now < claims.exp ∧ claims.iat ≤ now + 60 := by
  rw [validateProfile, Checks.all_eq_ok] at hval
  have httl : Word.checkedSub claims.exp claims.iat = some p2pTokenTtl.asSecs :=
    Checks.require_eq_ok.mp (hval (ensureTokenTtl claims) (by simp [profileChecks]))
  have hexp : now < claims.exp :=
    Checks.require_eq_ok.mp (hval (ensureLiteralExpiry claims now) (by simp [profileChecks]))
  have hskew : claims.iat ≤ Word.saturatingAdd now p2pTokenClockSkew.asSecs :=
    Checks.require_eq_ok.mp (hval (ensureWithinSkew claims.iat now
      "issued-at is beyond the allowed clock skew") (by simp [profileChecks]))
  have hseconds : p2pTokenTtl.asSecs = 1800 ∧ p2pTokenClockSkew.asSecs = 60 := by decide
  rw [hseconds.1] at httl
  rw [hseconds.2] at hskew
  unfold Word.checkedSub at httl
  unfold Word.saturatingAdd at hskew
  split at httl
  · refine ⟨?_, hexp, hskew.trans (min_le_left _ _)⟩
    have := Option.some.inj httl
    omega
  · cases httl

theorem ensureWithinSkew_mono {time later : ℕ} {message : String} (hlat : now ≤ later)
    (hskew : ensureWithinSkew time now message = .ok ()) :
    ensureWithinSkew time later message = .ok () := by
  rw [ensureWithinSkew, Checks.require_eq_ok] at hskew ⊢
  unfold Word.saturatingAdd at hskew ⊢
  omega

theorem validateProfile_mono {later : ℕ} (hlat : now ≤ later) (hexp : later < claims.exp)
    (hval : validateProfile claims now = .ok ()) :
    validateProfile claims later = .ok () := by
  refine Checks.all_eq_ok_of_imp ?_ hval
  unfold profileChecks
  -- Only the literal expiry and the two skew checks read the clock.
  refine .cons id <| .cons id <| .cons id <| .cons id <| .cons id <| .cons id <| .cons id <|
    .cons (fun _ => Checks.require_eq_ok.mpr hexp) <|
    .cons (ensureWithinSkew_mono hlat) <|
    .cons (Checks.optional_imp fun _ => ensureWithinSkew_mono hlat) <|
    .cons id <| .cons id <| .cons id <| .cons id <| .cons id <| .cons id <| .cons id .nil

def ensureTokenPeer (claims : P2PAccessClaims) (noisePeerId : PeerId) :
    Except P2pError Unit :=
  match PeerId.fromStr claims.peerId with
  | none => .error (.invalidToken "peer_id must be a libp2p Peer ID")
  | some tokenPeerId =>
    if tokenPeerId ≠ noisePeerId then
      .error (.peerIdMismatch tokenPeerId.toText noisePeerId.toText)
    else
      .ok ()

/-- Some Domain ID of the token parses to `domainId`. -/
def P2PAccessClaims.namesDomain (claims : P2PAccessClaims) (domainId : Uuid) : Bool :=
  (claims.domainIds.filterMap Uuid.parseStr).any (· = domainId)

theorem validateDomainIds_eq_ok {domainIds : List String} {seen : List Uuid}
    (hval : validateDomainIds domainIds seen = .ok ()) :
    ∀ domainId ∈ domainIds, ∃ parsed, Uuid.parseStr domainId = some parsed ∧
      parsed.toText = domainId := by
  induction domainIds generalizing seen with
  | nil => simp
  | cons domainId rest ih =>
    simp only [validateDomainIds, validateCanonicalUuid] at hval
    cases hprs : Uuid.parseStr domainId with
    | none => simp [hprs] at hval
    | some parsed =>
      simp only [hprs, ne_eq, ite_not] at hval
      by_cases hcan : parsed.toText = domainId
      · rw [if_pos hcan] at hval
        dsimp only at hval
        split at hval
        · cases hval
        · rw [List.forall_mem_cons]
          exact ⟨⟨parsed, hprs, hcan⟩, ih hval⟩
      · simp [hcan] at hval

theorem validateProfile_domainIds (hval : validateProfile claims now = .ok ()) :
    ∀ domainId ∈ claims.domainIds, ∃ parsed, Uuid.parseStr domainId = some parsed ∧
      parsed.toText = domainId := by
  rw [validateProfile, Checks.all_eq_ok] at hval
  exact validateDomainIds_eq_ok
    (hval (validateDomainIds claims.domainIds []) (by simp [profileChecks]))

theorem mem_domainIds_of_namesDomain {domainId : Uuid}
    (hval : validateProfile claims now = .ok ()) (hnms : claims.namesDomain domainId = true) :
    domainId.toText ∈ claims.domainIds := by
  simp only [P2PAccessClaims.namesDomain, List.any_eq_true, List.mem_filterMap,
    decide_eq_true_eq] at hnms
  obtain ⟨parsed, ⟨text, htext, hprs⟩, rfl⟩ := hnms
  obtain ⟨parsed', hparsed', hcan⟩ := validateProfile_domainIds hval text htext
  cases hprs.symm.trans hparsed'
  rwa [hcan]

theorem peerId_eq_of_ensureTokenPeer {peerId : PeerId}
    (hval : validateProfile claims now = .ok ())
    (hpeer : ensureTokenPeer claims peerId = .ok ()) : claims.peerId = peerId.toText := by
  rw [validateProfile, Checks.all_eq_ok] at hval
  have hcan := hval (validateTokenPeerId claims.peerId) (by simp [profileChecks])
  unfold validateTokenPeerId at hcan
  unfold ensureTokenPeer at hpeer
  cases hprs : PeerId.fromStr claims.peerId with
  | none => simp [hprs] at hpeer
  | some parsed =>
    simp only [hprs, Checks.require_eq_ok] at hcan
    simp only [hprs, ne_eq, ite_not] at hpeer
    split at hpeer
    · rename_i hsm
      rw [← hsm, hcan]
    · cases hpeer

def ensureTokenDomain (claims : P2PAccessClaims) (requiredDomainId : Uuid) :
    Except P2pError Unit :=
  Checks.require (claims.namesDomain requiredDomainId)
    (.localDomainMismatch requiredDomainId.toText)

end AukiSdk.Authority
