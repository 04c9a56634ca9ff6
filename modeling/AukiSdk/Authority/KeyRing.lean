import AukiSdk.Authority.Token

/-!
# The verification key ring

Two generations of DDS keys, and how one set succeeds another.
-/

namespace AukiSdk.Authority

open AukiSdk.Foundation
open AukiSdk.Net

def ddsVerificationKeyMaxBytes : ℕ := 64 * 1024
def ddsPreviousKeyMinOverlap : Duration := Duration.fromSecs (31 * 60)
def ddsVerificationKeysMaxStaleness : Duration := Duration.fromSecs (60 * 60)

/-- The functions of `p256` and `jsonwebtoken` that the verifier calls. -/
structure TokenLibrary (DecodingKey : Type) where
  /-- `p256::PublicKey::from_public_key_pem`, then `to_sec1_bytes`. -/
  publicKeyFromPem : String → Option (List UInt8)
  /-- `DecodingKey::from_ec_pem`. -/
  decodingKeyFromPem : List UInt8 → Except String DecodingKey
  /-- `jsonwebtoken::decode` for ES256 without expiry validation. -/
  decode : String → DecodingKey → Except String P2PAccessClaims

variable {DecodingKey : Type}

/-- `std::str::from_utf8`. -/
def utf8Text (bytes : List UInt8) : Option String :=
  String.fromUTF8? ⟨bytes.toArray⟩

/-- `VerificationKey`: key material that parsed. -/
structure VerificationKey (library : TokenLibrary DecodingKey) where
  pem : List UInt8
  canonicalPublicKey : List UInt8
  decoding : DecodingKey
  canonical_eq : (utf8Text pem).bind library.publicKeyFromPem = some canonicalPublicKey
  decoding_eq : library.decodingKeyFromPem pem = .ok decoding
  deriving DecidableEq

/-- The public key alone decides, and the claims are part of the token. -/
structure TokenLibrary.Lawful (library : TokenLibrary DecodingKey) : Prop where
  decode_of_public_key : ∀ (key key' : VerificationKey library) (token : String)
      (claims : P2PAccessClaims), key.canonicalPublicKey = key'.canonicalPublicKey →
    library.decode token key.decoding = .ok claims →
      library.decode token key'.decoding = .ok claims
  claims_of_token : ∀ (token : String) (key key' : DecodingKey)
      (claims claims' : P2PAccessClaims), library.decode token key = .ok claims →
    library.decode token key' = .ok claims' → claims = claims'

structure DdsVerificationKeys where
  generation : ℕ
  currentEs256Pem : List UInt8
  previousEs256Pem : Option (List UInt8)

structure VerificationKeyRing (library : TokenLibrary DecodingKey) where
  generation : ℕ
  current : VerificationKey library
  previous : Option (VerificationKey library)
  previousProtectedUntil : Option Instant
  lastRefreshedAt : Instant
  deriving DecidableEq

inductive VerificationKeyTransition where
  | exactRefresh
  | generationAdvance
  | rotateCurrent
  | retirePrevious
  deriving DecidableEq

variable {library : TokenLibrary DecodingKey}

def parseKey (library : TokenLibrary DecodingKey) (pem : List UInt8) :
    Except P2pError (VerificationKey library) :=
  if pem.isEmpty ∨ pem.length > ddsVerificationKeyMaxBytes then
    .error (.invalidVerificationKeySet ("each verification key must contain between 1 and " ++
      toString ddsVerificationKeyMaxBytes ++ " bytes"))
  else
    match htext : utf8Text pem with
    | none => .error (.invalidVerificationKeySet "verification key PEM must be UTF-8")
    | some text =>
      match hpublic : library.publicKeyFromPem text with
      | none =>
        .error (.invalidVerificationKeySet
          "verification key must contain a P-256 public key")
      | some canonicalPublicKey =>
        match hdecoding : library.decodingKeyFromPem pem with
        | .error error => .error (.invalidVerificationKey error)
        | .ok decoding =>
          .ok ⟨pem, canonicalPublicKey, decoding, by simp [htext, hpublic], hdecoding⟩

/-- The optional previous key of `parse_key_set`. -/
def parsePreviousKey (library : TokenLibrary DecodingKey) :
    Option (List UInt8) → Except P2pError (Option (VerificationKey library))
  | none => .ok none
  | some pem => (parseKey library pem).map some

def parseKeySet (library : TokenLibrary DecodingKey) (keys : DdsVerificationKeys) :
    Except P2pError (VerificationKey library × Option (VerificationKey library)) :=
  match parseKey library keys.currentEs256Pem with
  | .error error => .error error
  | .ok current =>
    match parsePreviousKey library keys.previousEs256Pem with
    | .error error => .error error
    | .ok previous =>
      if previous.any fun previous =>
          previous.canonicalPublicKey = current.canonicalPublicKey then
        .error (.invalidVerificationKeySet "current and previous keys must be different")
      else
        .ok (current, previous)

def validateKeySuccessor (currentGeneration : ℕ) (current : VerificationKey library)
    (previous : Option (VerificationKey library)) (proposedGeneration : ℕ)
    (proposedCurrent : VerificationKey library)
    (proposedPrevious : Option (VerificationKey library)) :
    Except P2pError VerificationKeyTransition :=
  if proposedGeneration < currentGeneration then
    .error (.staleVerificationKeyGeneration currentGeneration proposedGeneration)
  else if proposedGeneration = currentGeneration then
    if proposedCurrent.pem ≠ current.pem ∨
        proposedPrevious.map VerificationKey.pem ≠ previous.map VerificationKey.pem then
      .error (.verificationKeyGenerationConflict proposedGeneration)
    else
      .ok .exactRefresh
  else if proposedCurrent.canonicalPublicKey ≠ current.canonicalPublicKey then
    if proposedPrevious.map VerificationKey.canonicalPublicKey ≠
        some current.canonicalPublicKey then
      .error .verificationKeyRotationMissingPrevious
    else
      .ok .rotateCurrent
  else if proposedPrevious.map VerificationKey.canonicalPublicKey ≠
      previous.map VerificationKey.canonicalPublicKey then
    if proposedPrevious.isSome then
      .error .verificationKeyRotationMissingPrevious
    else
      .ok .retirePrevious
  else
    .ok .generationAdvance

namespace VerificationKeyRing

/-- `DdsTokenVerifier::from_keys` at `now`. -/
def fromKeys (library : TokenLibrary DecodingKey) (keys : DdsVerificationKeys)
    (now : Instant) : Except P2pError (VerificationKeyRing library) :=
  match parseKeySet library keys with
  | .error error => .error error
  | .ok (current, previous) =>
    .ok ⟨keys.generation, current, previous,
      keys.previousEs256Pem.map fun _ => now + ddsPreviousKeyMinOverlap, now⟩

variable (ring : VerificationKeyRing library)

/-- The previous key is still protected at `now`. -/
def overlapActive (now : Instant) : Bool :=
  ring.previousProtectedUntil.any fun deadline => now < deadline

/-- `DdsTokenVerifier::replace_keys_at`. -/
def replaceKeysAt (keys : DdsVerificationKeys) (now : Instant) :
    Except P2pError Unit × VerificationKeyRing library :=
  match parseKeySet library keys with
  | .error error => (.error error, ring)
  | .ok (current, previous) =>
    match validateKeySuccessor ring.generation ring.current ring.previous keys.generation
        current previous with
    | .error error => (.error error, ring)
    | .ok .exactRefresh => (.ok (), { ring with lastRefreshedAt := now })
    | .ok .rotateCurrent =>
      if ring.overlapActive now then
        (.error .verificationKeyOverlapActive, ring)
      else
        (.ok (), ⟨keys.generation, current, previous,
          some (now + ddsPreviousKeyMinOverlap), now⟩)
    | .ok .retirePrevious =>
      if ring.overlapActive now then
        (.error .verificationKeyOverlapActive, ring)
      else
        (.ok (), ⟨keys.generation, current, previous, none, now⟩)
    | .ok .generationAdvance =>
      (.ok (), ⟨keys.generation, current, previous, ring.previousProtectedUntil, now⟩)

def decodeClaims (token : String) (key : VerificationKey library) :
    Except P2pError P2PAccessClaims :=
  (library.decode token key.decoding).mapError .tokenVerification

/-- The claims under the current key, else under the previous one. -/
def ringClaims (token : String) :
    Except P2pError P2PAccessClaims :=
  match decodeClaims token ring.current with
  | .ok claims => .ok claims
  | .error currentError =>
    match ring.previous with
    | none => .error currentError
    | some previous => (decodeClaims token previous).mapError fun _ => currentError

def verifyAt (token : String) (wallTimeSeconds : ℕ) (monotonicNow : Instant) :
    Except P2pError P2PAccessClaims :=
  if ¬IsTokenSized token then
    .error encodedSizeError
  else if Instant.durationSince monotonicNow ring.lastRefreshedAt >
      ddsVerificationKeysMaxStaleness then
    .error .verificationKeysStale
  else
    match ring.ringClaims token with
    | .error error => .error error
    | .ok claims =>
      match validateProfile claims wallTimeSeconds with
      | .error error => .error error
      | .ok () => .ok claims

/-- Verification succeeds exactly when size, freshness, signature and profile
all check. -/
theorem verifyAt_eq_ok_iff {ring : VerificationKeyRing library} {token : String}
    {wallTimeSeconds : ℕ} {monotonicNow : Instant} {claims : P2PAccessClaims} :
    ring.verifyAt token wallTimeSeconds monotonicNow = .ok claims ↔ IsTokenSized token ∧
      Instant.durationSince monotonicNow ring.lastRefreshedAt ≤ ddsVerificationKeysMaxStaleness ∧
      ring.ringClaims token = .ok claims ∧
      validateProfile claims wallTimeSeconds = .ok () := by
  unfold verifyAt
  by_cases hsized : IsTokenSized token
  · by_cases hsta : Instant.durationSince monotonicNow ring.lastRefreshedAt >
        ddsVerificationKeysMaxStaleness
    · simp [hsized, hsta, Nat.not_le.mpr hsta]
    · rw [if_neg (not_not_intro hsized), if_neg hsta]
      simp only [hsized, Nat.le_of_not_lt hsta, true_and]
      cases hclm : ring.ringClaims token with
      | error error => simp
      | ok decoded =>
        simp only [Except.ok.injEq]
        cases hprof : validateProfile decoded wallTimeSeconds with
        | error error =>
          simp only [reduceCtorEq, false_iff, not_and]
          rintro rfl
          simp [hprof]
        | ok passed =>
          simp only [Except.ok.injEq, iff_self_and]
          rintro rfl
          exact hprof
  · simp [hsized]

end VerificationKeyRing

end AukiSdk.Authority
