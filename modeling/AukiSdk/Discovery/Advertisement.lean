import AukiSdk.Routing.RouteAgreement

/-!
# Discovered advertisements

The bounded reading of one tracker advertisement.
-/

namespace AukiSdk.Discovery

open AukiSdk.Foundation
open AukiSdk.Net
open AukiSdk.Relay
open AukiSdk.Routing

/-- `APPLICATION_PROTOCOL_MAX_BYTES` and `MAX_PROTOCOL_BYTES`. -/
def maxProtocolBytes : ℕ := 255

def isApplicationComponent (component : List Char) : Bool :=
  match component with
  | [] => false
  | first :: rest =>
    byteLength component ≤ 64 && first.isLower &&
      rest.all fun char => char.isLower || char.isDigit || char ∈ ['-', '_', '.']

def isVersionComponent (component : List Char) : Bool :=
  let bytes := match component with
    | 'v' :: rest => rest
    | chars => chars
  !component.isEmpty && byteLength component ≤ 32 &&
    bytes.head?.any Char.isDigit && bytes.getLast?.any Char.isDigit &&
    bytes.all (fun char => char.isDigit || char ∈ ['.', '-']) &&
    !(bytes.zip bytes.tail).any fun pair => !pair.1.isDigit && !pair.2.isDigit

/-- `ApplicationProtocol::new`, as its success. -/
def isApplicationProtocol (value : String) : Bool :=
  let components := value.toList.splitOn '/'
  let sdkApplication := match components with
    | [[], auki, auth, one, application, version] =>
      auki = "auki".toList && auth = "auth".toList && one = ['1'] &&
        isApplicationComponent application && isVersionComponent version
    | _ => false
  let productApplication := match components with
    | [] :: first :: second :: rest =>
      first ≠ "auki".toList &&
        (first :: second :: rest).dropLast.all isApplicationComponent &&
        isVersionComponent ((second :: rest).getLast?.getD [])
    | _ => false
  byteLength value.toList ≤ maxProtocolBytes && (sdkApplication || productApplication)

def maxRoutes : ℕ := 32

def maxProtocols : ℕ := 64

/-- `P2P_TOKEN_MAX_SUBJECT_BYTES`. -/
def maxSubjectBytes : ℕ := 255

/-- `AukiDiscoveryError::InvalidResponse`. -/
structure InvalidResponse where
  operation : String
  reason : String
  deriving DecidableEq

structure WireAdvertisement where
  peerId : String
  routes : List String
  protocols : List String
  expiresAt : DateTime
  subjectId : Option String
  peerType : Option String

/-- `AukiDiscoveryCandidate`.  Its source is always the DDS tracker. -/
structure AukiDiscoveryCandidate where
  peerId : PeerId
  routes : List Multiaddr
  servedProtocols : List String
  expiresAt : DateTime
  subjectId : Option String
  peerType : Option String

def isWhitespace (char : Char) : Bool :=
  let code := char.toNat
  (0x9 ≤ code && code ≤ 0xd) || code ∈ [0x20, 0x85, 0xa0, 0x1680] ||
    (0x2000 ≤ code && code ≤ 0x200a) || code ∈ [0x2028, 0x2029, 0x202f, 0x205f, 0x3000]

def trim (text : String) : String :=
  String.ofList
    ((text.toList.dropWhile isWhitespace).reverse.dropWhile isWhitespace).reverse

variable (otherLength : String → ℕ)

/-- One route of `canonicalize_routes`. -/
def canonicalizeRoute (expectedPeer : PeerId) (operation : String) (route : Multiaddr) :
    Except InvalidResponse Multiaddr :=
  if multiaddrLength otherLength route > candidateRouteMaxBytes then
    .error ⟨operation, "route is too large"⟩
  else
    match canonicalizeCandidateRoute otherLength route expectedPeer with
    | .ok candidate => .ok candidate.route
    | .error _ => .error ⟨operation, "route grammar is invalid"⟩

def canonicalizeRoutes (expectedPeer : PeerId) (routes : List Multiaddr) (operation : String) :
    Except InvalidResponse (List Multiaddr) :=
  if routes.length > maxRoutes then
    .error ⟨operation, "route limit exceeded"⟩
  else
    (routes.mapM (canonicalizeRoute otherLength expectedPeer operation)).map sortedUniqueRoutes

def validateProtocol (value operation : String) : Except InvalidResponse String :=
  if byteLength value.toList > maxProtocolBytes ∨ ¬ isApplicationProtocol value then
    .error ⟨operation, "protocol ID is invalid"⟩
  else
    .ok value

def canonicalizeProtocols (protocols : List String) (operation : String) :
    Except InvalidResponse (List String) :=
  if protocols.length > maxProtocols then
    .error ⟨operation, "protocol limit exceeded"⟩
  else
    (protocols.mapM (validateProtocol · operation)).map fun protocols =>
      (protocols.insertionSort (· ≤ ·)).destutter (· ≠ ·)

/-- One route text of `validate_advertisement`. -/
def parseRoute (parseMultiaddr : String → Option Multiaddr) (operation value : String) :
    Except InvalidResponse Multiaddr :=
  if byteLength value.toList > candidateRouteMaxBytes then
    .error ⟨operation, "candidate route is too large"⟩
  else
    match parseMultiaddr value with
    | none => .error ⟨operation, "candidate route is invalid"⟩
    | some route => .ok route

/-- `validate_advertisement`, at the clock reading `now`. -/
def validateAdvertisement (parseMultiaddr : String → Option Multiaddr)
    (otherLength : String → ℕ) (now : DateTime) (wire : WireAdvertisement)
    (operation : String) : Except InvalidResponse (Option AukiDiscoveryCandidate) :=
  match PeerId.fromStr wire.peerId with
  | none => .error ⟨operation, "candidate Peer ID is invalid"⟩
  | some peerId => do
      let parsed ← wire.routes.mapM (parseRoute parseMultiaddr operation)
      let routes ← canonicalizeRoutes otherLength peerId parsed operation
      if routes.isEmpty then
        .error ⟨operation, "candidate must contain at least one route"⟩
      else
        let servedProtocols ← canonicalizeProtocols wire.protocols operation
        if wire.expiresAt ≤ now then
          .ok none
        else if wire.subjectId.any fun value =>
            value.isEmpty || byteLength value.toList > maxSubjectBytes then
          .error ⟨operation, "candidate subject must contain 1..=255 UTF-8 bytes"⟩
        else
          .ok (some
            { peerId, routes, servedProtocols
              expiresAt := wire.expiresAt
              subjectId := wire.subjectId
              peerType := (wire.peerType.map trim).filter fun value => !value.isEmpty })

inductive AukiPeerIdentity where
  | peer (id : PeerId)
  | robot (id : Uuid)
  | compute (id : Uuid)

/-- The signed claims that `matches_authenticated` reads. -/
structure AuthenticatedPeer where
  peerId : PeerId
  subject : String
  peerType : Option String

def AukiPeerIdentity.matchesAuthenticated (identity : AukiPeerIdentity)
    (peer : AuthenticatedPeer) : Bool :=
  match identity with
  | .peer id => peer.peerId = id
  | .robot id => peer.peerType = some "robot" && peer.subject = Uuid.toText id
  | .compute id => peer.peerType = some "compute" && peer.subject = Uuid.toText id

/-- The two builds of `supported_route`. -/
inductive Platform where
  | native
  | browser

def supportedRoute (platform : Platform) (kind : CandidateRouteKind) : Bool :=
  match platform with
  | .browser => kind = .relayWss
  | .native => kind = .directTcp || kind = .relayTcp

/-- What `open_exact` returned for a route. -/
inductive ExactOpening where
  | stream (remote : AuthenticatedPeer)
  | p2p (error : String) (unsupportedProtocol : Bool)
  | other (error : String)

/-- `AukiProtocolRouteAttempt`. -/
structure RouteAttempt where
  route : Multiaddr
  error : String
  unsupportedProtocol : Bool

/-- How `open_resolved_routes` ends.  `panicked` is its `expect`. -/
inductive ResolvedOpening where
  | panicked
  | opened (remote : AuthenticatedPeer)
  | expired
  | noSupportedRoutes
  | identityMismatch (cleanupFailed : Bool)
  | allRoutesFailed (attempts : List RouteAttempt)
  | protocol (error : String)

/-- The clock, and how the opening went. -/
structure RouteReading where
  now : DateTime
  opening : ExactOpening
  cleanupFailed : Bool

/-- The loop of `open_resolved_routes`. -/
def openRoutes (otherLength : String → ℕ) (platform : Platform) (identity : AukiPeerIdentity)
    (candidate : AukiDiscoveryCandidate) (reading : ℕ → RouteReading) :
    List Multiaddr → List RouteAttempt → ResolvedOpening
  | [], attempts =>
    if attempts.isEmpty then .noSupportedRoutes else .allRoutesFailed attempts
  | route :: rest, attempts =>
    match canonicalizeCandidateRoute otherLength route candidate.peerId with
    | .error _ => .panicked
    | .ok canonical =>
      if supportedRoute platform canonical.kind = false then
        openRoutes otherLength platform identity candidate reading rest attempts
      else if candidate.expiresAt ≤ (reading rest.length).now then
        .expired
      else
        match (reading rest.length).opening with
        | .stream remote =>
          if remote.peerId = candidate.peerId ∧ identity.matchesAuthenticated remote then
            .opened remote
          else
            .identityMismatch (reading rest.length).cleanupFailed
        | .p2p error unsupportedProtocol =>
          openRoutes otherLength platform identity candidate reading rest
            (attempts ++ [⟨route, String.ofList (error.toList.take 1024),
              unsupportedProtocol⟩])
        | .other error => .protocol error

/-- `open_resolved_routes`, started at the clock reading `started`. -/
def openResolvedRoutes (platform : Platform) (identity : AukiPeerIdentity)
    (candidate : AukiDiscoveryCandidate) (started : DateTime) (reading : ℕ → RouteReading) :
    ResolvedOpening :=
  if candidate.expiresAt ≤ started then
    .expired
  else
    openRoutes otherLength platform identity candidate reading candidate.routes []

end AukiSdk.Discovery
