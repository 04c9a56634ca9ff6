import AukiSdk.Routing.CircuitRoute

/-!
# Dialing hints and relay routes

The grammar of dialing hints, and the relay route parsers.
-/

namespace AukiSdk.Routing

open AukiSdk.Foundation
open AukiSdk.Net
open AukiSdk.Relay

/-- The bytes of an unsigned varint. -/
def uvarintLength (value : ℕ) : ℕ :=
  if value < 128 then 1 else 1 + uvarintLength (value / 128)

/-- A component of known code with a value of `size` bytes behind its length. -/
def prefixedLength (code size : ℕ) : ℕ := uvarintLength code + uvarintLength size + size

variable (otherLength : String → ℕ)

/-- The binary size of a component, by `otherLength` where none is inspected. -/
def protocolLength : Protocol → ℕ
  | .ip4 _ => uvarintLength 4 + 4
  | .ip6 _ => uvarintLength 41 + 16
  | .dns host => prefixedLength 53 (byteLength host.toList)
  | .dns4 host => prefixedLength 54 (byteLength host.toList)
  | .dns6 host => prefixedLength 55 (byteLength host.toList)
  | .dnsaddr host => prefixedLength 56 (byteLength host.toList)
  | .tcp _ => uvarintLength 6 + 2
  | .ws path =>
    if path = "/" then uvarintLength 477
    else prefixedLength 4770 (byteLength path.toList)
  | .wss path =>
    if path = "/" then uvarintLength 478
    else prefixedLength 4780 (byteLength path.toList)
  | .p2p peer => prefixedLength 421 peer.bytes.length
  | .p2pCircuit => uvarintLength 290
  | .other text => otherLength text

/-- `Multiaddr::len`. -/
def multiaddrLength (address : Multiaddr) : ℕ :=
  (address.map (protocolLength otherLength)).sum

def candidateRouteMaxBytes : ℕ := 1024

inductive CandidateRouteKind where
  | directTcp
  | relayTcp
  | relayWss
  deriving DecidableEq

structure CanonicalCandidateRoute where
  route : Multiaddr
  kind : CandidateRouteKind
  deriving DecidableEq

inductive CandidateRouteError where
  | tooLong (actual maximum : ℕ)
  | invalidGrammar
  | targetPeerMismatch
  deriving DecidableEq

/-- `canonical_dns_host`: one trailing dot is dropped. -/
def canonicalDnsHost (host : String) : Except CandidateRouteError String :=
  let stripped := if host.toList.getLast? = some '.' then host.toList.dropLast else host.toList
  if stripped = [] then
    .error .invalidGrammar
  else
    .ok (String.ofList (stripped.map Char.toLower))

/-- The network component of `canonicalize_direct_route`. -/
def canonicalNetwork : Protocol → Except CandidateRouteError Protocol
  | .ip4 address => .ok (.ip4 address)
  | .ip6 address => .ok (.ip6 address)
  | .dns host => (canonicalDnsHost host).map .dns
  | .dns4 host => (canonicalDnsHost host).map .dns4
  | .dns6 host => (canonicalDnsHost host).map .dns6
  | _ => .error .invalidGrammar

variable (route : Multiaddr)

def canonicalizeDirectRoute (expectedTargetPeerId : PeerId) :
    Except CandidateRouteError Multiaddr :=
  match route with
  | [network, .tcp port] => canonicalizeParts network port none
  | [network, .tcp port, .p2p peerId] => canonicalizeParts network port (some peerId)
  | _ => .error .invalidGrammar
where
  canonicalizeParts (network : Protocol) (port : UInt16) (targetPeerId : Option PeerId) :
      Except CandidateRouteError Multiaddr :=
    if port = 0 then
      .error .invalidGrammar
    else if targetPeerId.any (· ≠ expectedTargetPeerId) then
      .error .targetPeerMismatch
    else
      (canonicalNetwork network).map fun network => [network, .tcp port]

/-- The shape of a canonical provider base. -/
def relayRouteKind (base : Multiaddr) : Option CandidateRouteKind :=
  match base with
  | [.dns4 _, .tcp _, .p2p _] => some .relayTcp
  | [.dns4 _, .tcp _, .wss path, .p2p _] => if path = "/" then some .relayWss else none
  | _ => none

def canonicalizeRelayRoute (expectedTargetPeerId : PeerId) :
    Except CandidateRouteError CanonicalCandidateRoute :=
  match Multiaddr.pop route with
  | (some (.p2p targetPeerId), rest) =>
    if targetPeerId ≠ expectedTargetPeerId then
      .error .targetPeerMismatch
    else
      match Multiaddr.pop rest with
      | (some .p2pCircuit, providerBase) =>
        match providerBase.getLast? with
        | some (.p2p relayPeerId) =>
          match canonicalizeProviderBase providerBase.toText relayPeerId with
          | .error _ => .error .invalidGrammar
          | .ok canonicalBase =>
            match relayRouteKind canonicalBase with
            | none => .error .invalidGrammar
            | some kind =>
              .ok ⟨(canonicalBase.with .p2pCircuit).with (.p2p targetPeerId), kind⟩
        | _ => .error .invalidGrammar
      | _ => .error .invalidGrammar
  | _ => .error .invalidGrammar

def canonicalizeCandidateRoute (route : Multiaddr) (expectedTargetPeerId : PeerId) :
    Except CandidateRouteError CanonicalCandidateRoute :=
  let length := multiaddrLength otherLength route
  if length > candidateRouteMaxBytes then
    .error (.tooLong length candidateRouteMaxBytes)
  else
    match canonicalizeDirectRoute route expectedTargetPeerId with
    | .ok route => .ok ⟨route, .directTcp⟩
    | .error .targetPeerMismatch => .error .targetPeerMismatch
    | .error .invalidGrammar => canonicalizeRelayRoute route expectedTargetPeerId
    -- The size was checked above; the source has no such branch.
    | .error (.tooLong actual maximum) => .error (.tooLong actual maximum)

structure InvalidRelayRoute where
  address : String
  reason : String
  deriving DecidableEq

structure ParsedRelayRoute where
  relayPeerId : PeerId
  targetPeerId : PeerId
  directRelayAddress : Multiaddr
  deriving DecidableEq

def parseRelayRoute : Except InvalidRelayRoute ParsedRelayRoute :=
  let (target, withoutTarget) := Multiaddr.pop route
  let (circuit, withoutCircuit) := Multiaddr.pop withoutTarget
  let (relay, base) := Multiaddr.pop withoutCircuit
  match target, circuit, relay with
  | some (.p2p targetPeerId), some .p2pCircuit, some (.p2p relayPeerId) =>
    let rawBase := (base.with (.p2p relayPeerId)).toText
    match canonicalizeProviderBase rawBase relayPeerId with
    | .error error => .error ⟨route.toText, error.toText⟩
    | .ok canonical =>
      if (canonical.with .p2pCircuit).with (.p2p targetPeerId) ≠ route then
        .error ⟨route.toText, "route is not in canonical form"⟩
      else
        .ok ⟨relayPeerId, targetPeerId, (Multiaddr.pop canonical).2⟩
  | _, _, _ =>
    .error ⟨route.toText, "expected exact dns4/tcp[/wss]/p2p/p2p-circuit/p2p grammar"⟩

structure ParsedBrowserRelayRoute where
  relayPeerId : PeerId
  targetPeerId : PeerId
  directRelayAddress : Multiaddr
  circuitDialAddress : Multiaddr
  deriving DecidableEq

/-- A secure WebSocket component without a path. -/
def isRootWss : Protocol → Bool
  | .wss path => path = "/"
  | _ => false

def parseBrowserRelayRoute :
    Except InvalidRelayRoute ParsedBrowserRelayRoute :=
  match Multiaddr.pop route with
  | (some (.p2p targetPeerId), withoutTarget) =>
    match Multiaddr.pop withoutTarget with
    | (some .p2pCircuit, base) =>
      match base.getLast? with
      | some (.p2p relayPeerId) =>
        match canonicalizeProviderBase base.toText relayPeerId with
        | .error error => .error ⟨route.toText, error.toText⟩
        | .ok canonical =>
          if canonical ≠ base ∨ ¬ canonical.any isRootWss then
            .error ⟨route.toText, "expected one exact canonical WSS relay route"⟩
          else if (canonical.with .p2pCircuit).with (.p2p targetPeerId) ≠ route then
            .error ⟨route.toText, "route is not in canonical form"⟩
          else
            .ok ⟨relayPeerId, targetPeerId, (Multiaddr.pop canonical).2,
              (Multiaddr.pop route).2⟩
      | _ => .error ⟨route.toText, "relay base is missing its Peer ID"⟩
    | _ => .error ⟨route.toText, "route is missing p2p-circuit"⟩
  | _ => .error ⟨route.toText, "route is missing its target Peer ID"⟩

end AukiSdk.Routing
