import AukiSdk.Foundation.ByteStream
import AukiSdk.Authority.LocalAuthority

/-!
# Mutual authentication of a stream

The exchange of token frames and status bytes that precedes every application stream.
-/

namespace AukiSdk.Authority

open AukiSdk.Foundation
open AukiSdk.Foundation.ByteStream
open AukiSdk.Net

variable {DecodingKey : Type} {library : TokenLibrary DecodingKey}

def authAccepted : UInt8 := 1
def authRejected : UInt8 := 0

structure SessionRequirements where
  domainId : Uuid
  expectedRemotePeerId : Option PeerId

def SessionRequirements.validateDomain (requirements : SessionRequirements)
    (claims : P2PAccessClaims) : Except P2pError Unit :=
  Checks.require (claims.namesDomain requirements.domainId)
    (.remoteDomainMismatch requirements.domainId.toText)

def SessionRequirements.validateRemote (requirements : SessionRequirements)
    (claims : P2PAccessClaims) (noisePeerId : PeerId) : Except P2pError Unit :=
  Checks.all
    [Checks.optional requirements.expectedRemotePeerId fun expected =>
      Checks.require (expected = noisePeerId)
        (.unexpectedRemotePeer expected.toText noisePeerId.toText),
    requirements.validateDomain claims]

structure AuthenticatedPeer where
  peerId : PeerId
  subject : String
  peerType : Option String
  domainIds : List Uuid
  scopes : List String
  application : Option SignedApplicationMetadata
  verifiedUntil : DateTime
  deriving DecidableEq

def writeTokenFrame (fault : Option (WriteFault P2pError)) (token outgoing : List UInt8) :
    Except P2pError Unit × List UInt8 :=
  if token.length > p2pTokenMaxBytes then
    (.error (.tokenFrameTooLarge p2pTokenMaxBytes), outgoing)
  else
    writeAll fault (u32ToBeBytes token.length ++ token) outgoing

def readTokenFrame (failure : P2pError) (arrived : List UInt8) : Read P2pError (List UInt8) :=
  match readExact failure 4 arrived with
  | (.error error, rest) => (.error error, rest)
  | (.ok length, rest) =>
    if u32FromBeBytes length > p2pTokenMaxBytes then
      (.error (.tokenFrameTooLarge p2pTokenMaxBytes), rest)
    else
      readExact failure (u32FromBeBytes length) rest

/-- A `verify` call: the key ring it reads and its clock readings. -/
structure VerifierReading (library : TokenLibrary DecodingKey) where
  ring : VerificationKeyRing library
  clock : VerifyClock

/-- `DdsTokenVerifier::verify`, then the checks of the verified claims. -/
def VerifierReading.verifyWith (reading : VerifierReading library) (token : String)
    (checks : P2PAccessClaims → List (Except P2pError Unit)) :
    Except P2pError P2PAccessClaims :=
  Checks.checked (reading.ring.verify token reading.clock) fun claims =>
    Checks.all (checks claims)

/-- `local_result`; no installed credential is the empty token. -/
def checkLocalToken (localPeerId : PeerId) (requirements : SessionRequirements)
    (reading : VerifierReading library) (localToken : String) :
    Except P2pError P2PAccessClaims :=
  if localToken = "" then
    .error .missingToken
  else
    reading.verifyWith localToken fun claims =>
      [ensureTokenPeer claims localPeerId, requirements.validateDomain claims]

/-- `remote_result`. -/
def checkRemoteToken (remotePeerId : PeerId) (requirements : SessionRequirements)
    (reading : VerifierReading library) (remoteToken : Except P2pError (List UInt8)) :
    Except P2pError SignedP2pCredential := do
  let bytes ← remoteToken
  let token ← (utf8Text bytes).elim (.error .invalidTokenEncoding) .ok
  let credential ← SignedP2pCredential.new token
  let _ ← reading.verifyWith credential.compact fun claims =>
    [ensureTokenPeer claims remotePeerId, requirements.validateRemote claims remotePeerId]
  return credential

def validateCurrentLocalAuthority (tokens : TokenStore) (reading : VerifierReading library)
    (localPeerId : PeerId) (requirements : SessionRequirements) (now : ℕ) :
    Except P2pError Unit :=
  match tokens.current with
  | none => .error .missingToken
  | some credential =>
    (reading.verifyWith credential.signed.compact fun claims =>
      [ensureTokenPeer claims localPeerId, requirements.validateDomain claims,
        ensureLiteralExpiry claims now]).map fun _ => ()

/-- The largest second that `chrono` represents, `+262142-12-31T23:59:59Z`. -/
def chronoMaxSeconds : ℕ := 8210266876799

/-- `i64::try_from`, then `DateTime::from_timestamp`. -/
def dateTimeFromTimestamp (seconds : ℕ) : Option DateTime :=
  if seconds ≤ chronoMaxSeconds then some (seconds * nanosPerSecond : ℕ) else none

def authenticatedPeerFromClaims (claims : P2PAccessClaims) (remotePeerId : PeerId) :
    Except P2pError AuthenticatedPeer :=
  match claims.domainIds.mapM Uuid.parseStr with
  | none => .error (.invalidToken "domain_ids must contain canonical UUIDs")
  | some domainIds =>
    match dateTimeFromTimestamp claims.exp with
    | none => .error (.invalidToken "expiration is outside the supported range")
    | some expiration =>
      .ok ⟨remotePeerId, claims.sub, claims.peerType, domainIds, claims.scopes,
        claims.application, expiration⟩

def finalizeAuthenticatedPeer (remoteCredential : SignedP2pCredential)
    (reading : VerifierReading library) (requirements : SessionRequirements)
    (remotePeerId : PeerId) (now : ℕ) : Except P2pError AuthenticatedPeer := do
  let claims ← reading.verifyWith remoteCredential.compact fun claims =>
    [ensureTokenPeer claims remotePeerId, requirements.validateRemote claims remotePeerId,
      ensureLiteralExpiry claims now]
  authenticatedPeerFromClaims claims remotePeerId

/-- What the exchange reads of state and clocks. -/
structure AuthenticationEnvironment (library : TokenLibrary DecodingKey) where
  startTokens : TokenStore
  frameWrite : Option (WriteFault P2pError)
  frameRead : ReadPhase P2pError
  localCheck : VerifierReading library
  remoteCheck : VerifierReading library
  statusWrite : Option (WriteFault P2pError)
  statusRead : ReadPhase P2pError
  localFinalNow : ℕ
  finalTokens : TokenStore
  localFinal : VerifierReading library
  remoteFinalNow : ℕ
  remoteFinal : VerifierReading library

/-- The result of the exchange, the bytes not yet read and the bytes sent. -/
structure AuthenticationOutcome where
  result : Except P2pError AuthenticatedPeer
  incoming : List UInt8
  outgoing : List UInt8

section Exchange

variable (localPeerId remotePeerId : PeerId) (requirements : SessionRequirements)
  (environment : AuthenticationEnvironment library)

/-- The token of the credential installed at the start. -/
def AuthenticationEnvironment.localToken : String :=
  (environment.startTokens.current.map fun stored => stored.signed.compact).getD ""

/-- The end of `authenticate_duplex`, once both status bytes are exchanged. -/
def concludeAuthentication (localResult : Except P2pError P2PAccessClaims)
    (remoteResult : Except P2pError SignedP2pCredential) (remoteStatus : List UInt8) :
    Except P2pError AuthenticatedPeer := do
  let _ ← localResult
  let remoteCredential ← remoteResult
  Checks.require (remoteStatus = [authAccepted]) .remoteRejected
  validateCurrentLocalAuthority environment.finalTokens environment.localFinal localPeerId
    requirements environment.localFinalNow
  finalizeAuthenticatedPeer remoteCredential environment.remoteFinal requirements
    remotePeerId environment.remoteFinalNow

/-- The status exchange of `authenticate_duplex`. -/
def exchangeStatus (localResult : Except P2pError P2PAccessClaims)
    (remoteResult : Except P2pError SignedP2pCredential) (incoming outgoing : List UInt8) :
    AuthenticationOutcome :=
  let localAccepts := localResult.isOk && remoteResult.isOk
  match writeAll environment.statusWrite
      [if localAccepts then authAccepted else authRejected] outgoing with
  | (.error error, outgoing) => ⟨.error error, incoming, outgoing⟩
  | (.ok (), outgoing) =>
    match environment.statusRead.run (fun failure => readExact failure 1) incoming with
    | (.error error, incoming) => ⟨.error error, incoming, outgoing⟩
    | (.ok remoteStatus, incoming) =>
      ⟨concludeAuthentication localPeerId remotePeerId requirements environment
        localResult remoteResult remoteStatus, incoming, outgoing⟩

/-- `authenticate_duplex` on the bytes the remote side sends. -/
def authenticateDuplex (incoming : List UInt8) : AuthenticationOutcome :=
  match writeTokenFrame environment.frameWrite (textBytes environment.localToken) [] with
  | (.error error, outgoing) => ⟨.error error, incoming, outgoing⟩
  | (.ok (), outgoing) =>
    -- A failed frame read does not end the exchange: the error is kept and the
    -- rest of the stream is read on from where the phase stopped.
    let frame := environment.frameRead.run readTokenFrame incoming
    exchangeStatus localPeerId remotePeerId requirements environment
      (checkLocalToken localPeerId requirements environment.localCheck
        environment.localToken)
      (checkRemoteToken remotePeerId requirements environment.remoteCheck frame.1)
      frame.2 outgoing

end Exchange

end AukiSdk.Authority
