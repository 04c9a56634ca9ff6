import AukiSdk.Net.Multiaddr
import AukiSdk.Net.Clock

/-!
# Relay limits and provider snapshots

Validated relay limits and the immutable provider snapshot a reservation is made against.
-/

namespace AukiSdk.Relay

open AukiSdk.Foundation
open AukiSdk.Net

inductive RelayBaseTransport where
  | tcp
  | wss
  deriving DecidableEq

/-- `libp2p` listener identifier. -/
abbrev ListenerId := ℕ

/-- `libp2p` connection identifier. -/
abbrev ConnectionId := ℕ

/-- Positive limits that the wire format and the configuration represent. -/
structure ExpectedRelayLimits where
  durationSeconds : ℕ
  dataBytesPerDirection : ℕ
  duration_pos : 0 < durationSeconds
  duration_lt : durationSeconds < 2 ^ 32
  data_pos : 0 < dataBytesPerDirection
  data_le : dataBytesPerDirection ≤ 2 ^ 63 - 1
  deriving DecidableEq

/-- `ObservedRelayLimits`: the optional fields of an acceptance event. -/
structure ObservedRelayLimits where
  duration : Option Duration
  dataBytesPerDirection : Option ℕ
  deriving DecidableEq

inductive RelayConfirmationRejection where
  | missingLimits
  | incompleteLimits (observed : ObservedRelayLimits)
  | limitMismatch (expected : ExpectedRelayLimits) (observed : ObservedRelayLimits)
  | duplicateInitialAcceptance
  | renewalBeforeInitialAcceptance
  deriving DecidableEq

inductive RelayReservationError where
  | emptyBases
  | invalidBase (address reason : String)
  | basePeerMismatch (expected : PeerId) (actual : String)
  | duplicateBase (base : Multiaddr)
  | missingTransportBase (transport : RelayBaseTransport)
  | invalidLimits (reason : String)
  | reservationAlreadyExists (relayPeerId : PeerId)
  | listenerAlreadyAssigned (listenerId : ListenerId)
  | generationExhausted
  | foreignHandle
  | staleHandle
  | unknownHandle
  | listenerMismatch (expected actual : ListenerId)
  | connectionMismatch (expected actual : ConnectionId)
  | noDirectConnection
  | connectionStillOpen (connectionId : ConnectionId)
  deriving DecidableEq

/-- `RelayBaseTransport::fmt`. -/
def RelayBaseTransport.toText : RelayBaseTransport → String
  | .tcp => "TCP"
  | .wss => "WSS"

/-- `RelayReservationError::to_string`. -/
def RelayReservationError.toText : RelayReservationError → String
  | .emptyBases => "at least one relay provider base is required"
  | .invalidBase address reason =>
    "invalid relay provider base " ++ address ++ ": " ++ reason
  | .basePeerMismatch expected actual =>
    "relay provider base has Peer ID " ++ actual ++ ", expected " ++ expected.toText
  | .duplicateBase base =>
    "duplicate relay provider base after normalization: " ++ base.toText
  | .missingTransportBase transport => "relay provider has no " ++ transport.toText ++ " base"
  | .invalidLimits reason => "invalid relay limits: " ++ reason
  | .reservationAlreadyExists relayPeerId =>
    "relay " ++ relayPeerId.toText ++ " already has an active or canceling generation"
  | .listenerAlreadyAssigned listenerId =>
    "listener " ++ toString listenerId ++ " is already assigned to another relay generation"
  | .generationExhausted => "the reservation generation counter is exhausted"
  | .foreignHandle => "reservation handle belongs to a different relay node instance"
  | .staleHandle => "reservation handle is stale"
  | .unknownHandle => "reservation handle is not known by this relay node"
  | .listenerMismatch expected actual =>
    "listener evidence used listener " ++ toString actual ++ ", expected " ++
      toString expected
  | .connectionMismatch expected actual =>
    "connection evidence used connection " ++ toString actual ++ ", expected " ++
      toString expected
  | .noDirectConnection => "this relay generation has no associated direct connection"
  | .connectionStillOpen connectionId =>
    "no-connection evidence conflicts with open connection " ++ toString connectionId

def ExpectedRelayLimits.new (duration : Duration) (dataBytesPerDirection : ℕ) :
    Except RelayReservationError ExpectedRelayLimits :=
  if duration = 0 then
    .error (.invalidLimits "duration must be positive")
  else if duration.subsecNanos ≠ 0 then
    .error (.invalidLimits "duration must be a whole number of seconds")
  else if hseconds : duration.asSecs < 2 ^ 32 then
    if hpos : 0 < duration.asSecs then
      if hrange : dataBytesPerDirection ≤ 2 ^ 63 - 1 then
        if hdata : 0 < dataBytesPerDirection then
          .ok ⟨duration.asSecs, dataBytesPerDirection, hpos, hseconds, hdata, hrange⟩
        else
          .error (.invalidLimits "data limit must be positive")
      else
        .error (.invalidLimits "data limit exceeds the provider signed 64-bit range")
    else
      .error (.invalidLimits "duration must be positive")
  else
    .error (.invalidLimits "duration exceeds the Circuit Relay v2 uint32 wire limit")

variable (limits : ExpectedRelayLimits)

def ExpectedRelayLimits.duration : Duration :=
  Duration.fromSecs limits.durationSeconds

/-- The observed limits that equal the expected ones. -/
def ExpectedRelayLimits.observed : ObservedRelayLimits :=
  ⟨some limits.duration, some limits.dataBytesPerDirection⟩

def ExpectedRelayLimits.validateObserved (observed : Option ObservedRelayLimits) :
    Except RelayConfirmationRejection Unit :=
  match observed with
  | none => .error .missingLimits
  | some observed =>
    match observed.duration, observed.dataBytesPerDirection with
    | some duration, some data =>
      if duration ≠ limits.duration ∨ data ≠ limits.dataBytesPerDirection then
        .error (.limitMismatch limits observed)
      else
        .ok ()
    | _, _ => .error (.incompleteLimits observed)

theorem ExpectedRelayLimits.validateObserved_eq_ok_iff (observed : Option ObservedRelayLimits) :
    limits.validateObserved observed = .ok () ↔ observed = some limits.observed := by
  rcases observed with _ | ⟨duration, data⟩
  · simp [validateObserved]
  · cases duration <;> cases data <;>
      simp [validateObserved, ExpectedRelayLimits.observed]

def forbiddenSuffixes : List String :=
  [".localhost", ".local", ".internal", ".invalid", ".test", ".example", ".home.arpa"]

/-- `str::len`: UTF-8 bytes. -/
def byteLength (text : List Char) : ℕ :=
  (text.map Char.utf8Size).sum

/-- The per-label test of `canonicalize_fqdn`. -/
def isFqdnLabel (label : List Char) : Bool :=
  !label.isEmpty && byteLength label ≤ 63 && label.head? ≠ some '-' &&
    label.getLast? ≠ some '-' && label.all fun char => char.isAlphanum || char == '-'

variable (raw : String)

/-- `canonicalize_fqdn`; only IPv4 literals pass the label test and are refused. -/
def canonicalizeFqdn : Option String :=
  let host := (raw.toList.reverse.dropWhile (· = '.')).reverse.map Char.toLower
  if host.isEmpty ∨ byteLength host > 253 ∨ '.' ∉ host then
    none
  else if (Ipv4Addr.fromStr host).isSome then
    none
  else if String.ofList host = "localhost" ∨
      forbiddenSuffixes.any (fun suffix => suffix.toList.isSuffixOf host) then
    none
  else if (host.splitOn '.').any (fun label => !isFqdnLabel label) then
    none
  else
    some (String.ofList host)

/-- `str::parse::<u16>`: an optional plus sign and decimal digits. -/
def parseU16 (text : String) : Option UInt16 := do
  let digits := match text.toList with
    | '+' :: rest => rest
    | chars => chars
  let value ← Text.parseNumeral Text.decimalValue 10 digits
  if value < 2 ^ 16 then some (UInt16.ofNat value) else none

def invalidBase (raw reason : String) : RelayReservationError :=
  .invalidBase raw reason

/-- The exact `dns4/tcp[/wss]/p2p` grammar of a provider base text. -/
def splitProviderBase :
    Option (String × String × RelayBaseTransport × String) :=
  match (raw.toList.splitOn '/').map String.ofList with
  | ["", "dns4", host, "tcp", port, "p2p", peerId] => some (host, port, .tcp, peerId)
  | ["", "dns4", host, "tcp", port, "wss", "p2p", peerId] => some (host, port, .wss, peerId)
  | _ => none

/-- Components of a canonical provider base. -/
def providerBase (host : String) (port : UInt16) (transport : RelayBaseTransport)
    (peer : PeerId) : Multiaddr :=
  match transport with
  | .tcp => [.dns4 host, .tcp port, .p2p peer]
  | .wss => [.dns4 host, .tcp port, .wss "/", .p2p peer]

/-- `canonicalize_provider_base`. -/
def canonicalizeProviderBase (expectedPeerId : PeerId) :
    Except RelayReservationError Multiaddr :=
  match splitProviderBase raw with
  | none => .error (invalidBase raw "expected exact dns4/tcp[/wss]/p2p grammar")
  | some (rawHost, rawPort, transport, rawPeerId) =>
    match canonicalizeFqdn rawHost with
    | none => .error (invalidBase raw "host is not an allowed public FQDN")
    | some host =>
      match (parseU16 rawPort).filter (· ≠ 0) with
      | none => .error (invalidBase raw "TCP port must be in 1..=65535")
      | some port =>
        match PeerId.fromStr rawPeerId with
        | none => .error (invalidBase raw "terminal p2p component is not a Peer ID")
        | some actual =>
          if actual ≠ expectedPeerId ∨ rawPeerId ≠ expectedPeerId.toText then
            .error (.basePeerMismatch expectedPeerId rawPeerId)
          else
            .ok (providerBase host port transport expectedPeerId)

def providerBaseTransport (base : Multiaddr) : Option RelayBaseTransport :=
  match base with
  | [.dns4 _, .tcp _, .p2p _] => some .tcp
  | [.dns4 _, .tcp _, .wss path, .p2p _] => if path = "/" then some .wss else none
  | _ => none

/-- `RelayProvider`; some base carries the selected transport. -/
structure RelayProvider where
  relayPeerId : PeerId
  bases : List Multiaddr
  selectedTransport : RelayBaseTransport
  expectedLimits : ExpectedRelayLimits
  exists_selected : ∃ base ∈ bases, providerBaseTransport base = some selectedTransport

/-- The canonicalization loop of `RelayProvider::new_for_transport`. -/
def collectBases (relayPeerId : PeerId) :
    List String → List Multiaddr → Except RelayReservationError (List Multiaddr)
  | [], canonical => .ok canonical
  | raw :: rest, canonical =>
    match canonicalizeProviderBase raw relayPeerId with
    | .error error => .error error
    | .ok address =>
      if address.toText ∈ canonical.map Multiaddr.toText then
        .error (.duplicateBase address)
      else
        collectBases relayPeerId rest (canonical ++ [address])

/-- `sort_unstable_by_key(ToString::to_string)`, in the order of code points. -/
def sortByText (addresses : List Multiaddr) : List Multiaddr :=
  addresses.insertionSort fun left right => left.toText ≤ right.toText

def RelayProvider.newForTransport (relayPeerId : PeerId) (rawBases : List String)
    (selectedTransport : RelayBaseTransport) (expectedLimits : ExpectedRelayLimits) :
    Except RelayReservationError RelayProvider :=
  match collectBases relayPeerId rawBases [] with
  | .error error => .error error
  | .ok canonical =>
    if canonical.isEmpty then
      .error .emptyBases
    else
      let bases := sortByText canonical
      if hselected : ∃ base ∈ bases, providerBaseTransport base = some selectedTransport then
        .ok ⟨relayPeerId, bases, selectedTransport, expectedLimits, hselected⟩
      else
        .error (.missingTransportBase selectedTransport)

def RelayProvider.new (relayPeerId : PeerId) (rawBases : List String)
    (expectedLimits : ExpectedRelayLimits) : Except RelayReservationError RelayProvider :=
  RelayProvider.newForTransport relayPeerId rawBases .tcp expectedLimits

variable (provider : RelayProvider)

def RelayProvider.baseForTransport (transport : RelayBaseTransport) : Option Multiaddr :=
  provider.bases.find? fun base => providerBaseTransport base = some transport

theorem RelayProvider.isSome_baseForTransport_selected :
    (provider.baseForTransport provider.selectedTransport).isSome = true := by
  obtain ⟨base, hm, htrn⟩ := provider.exists_selected
  rw [baseForTransport, List.find?_isSome]
  exact ⟨base, hm, by simp [htrn]⟩

def RelayProvider.selectedBase : Multiaddr :=
  (provider.baseForTransport provider.selectedTransport).get
    provider.isSome_baseForTransport_selected

def RelayProvider.circuitRouteForTransport (transport : RelayBaseTransport)
    (targetPeerId : PeerId) :
    Except RelayReservationError Multiaddr :=
  match provider.baseForTransport transport with
  | none => .error (.missingTransportBase transport)
  | some base => .ok ((base.with .p2pCircuit).with (.p2p targetPeerId))

def RelayProvider.publishableRoute (localPeerId : PeerId) :
    Multiaddr :=
  (provider.selectedBase.with .p2pCircuit).with (.p2p localPeerId)

end AukiSdk.Relay
