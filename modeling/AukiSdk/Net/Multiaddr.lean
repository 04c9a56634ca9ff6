import AukiSdk.Net.IpAddr
import AukiSdk.Net.Identifiers

/-!
# Multiaddresses

A multiaddress is its sequence of protocol components.
-/

namespace AukiSdk.Net

open AukiSdk.Foundation List

inductive Protocol where
  | ip4 (address : Ipv4Addr)
  | ip6 (address : Ipv6Addr)
  | dns (host : String)
  | dns4 (host : String)
  | dns6 (host : String)
  | dnsaddr (host : String)
  | tcp (port : UInt16)
  | ws (path : String)
  | wss (path : String)
  | p2p (peer : PeerId)
  | p2pCircuit
  | other (text : String)
  deriving DecidableEq

abbrev Multiaddr := List Protocol

/-- Bytes that `multiaddr` escapes in a WebSocket path. -/
def escapedInPath (char : Char) : Bool :=
  char.toNat < 0x20 || 0x7f ≤ char.toNat ||
    char ∈ ['%', '/', '\x60', '?', '\x7b', '\x7d', ' ', '\x22', '#', '<', '>']

/-- `percent_encoding::percent_encode`: escaped bytes in upper-case hexadecimal. -/
def percentEncode (text : String) : List Char :=
  text.toList.flatMap fun char =>
    if escapedInPath char then
      (String.utf8EncodeChar char).flatMap fun byte =>
        ['%', (Text.hexDigit (byte.toNat / 16)).toUpper,
          (Text.hexDigit (byte.toNat % 16)).toUpper]
    else
      [char]

/-- A component with a value: `/tag/value`. -/
def tagged (tag : String) (value : List Char) : List Char :=
  '/' :: (tag.toList ++ '/' :: value)

/-- `Protocol::fmt`. -/
def Protocol.display : Protocol → List Char
  | .ip4 address => tagged "ip4" address.display
  | .ip6 address => tagged "ip6" address.display
  | .dns host => tagged "dns" host.toList
  | .dns4 host => tagged "dns4" host.toList
  | .dns6 host => tagged "dns6" host.toList
  | .dnsaddr host => tagged "dnsaddr" host.toList
  | .tcp port => tagged "tcp" (Text.decimal port.toNat)
  | .ws path => if path = "/" then "/ws".toList else tagged "x-parity-ws" (percentEncode path)
  | .wss path =>
    if path = "/" then "/wss".toList else tagged "x-parity-wss" (percentEncode path)
  | .p2p peer => tagged "p2p" peer.toText.toList
  | .p2pCircuit => "/p2p-circuit".toList
  | .other text => text.toList

variable (address : Multiaddr)

/-- `Multiaddr::to_string`. -/
def Multiaddr.toText : String :=
  String.ofList (address.flatMap Protocol.display)

def Multiaddr.with (protocol : Protocol) : Multiaddr :=
  address ++ [protocol]

/-- `Multiaddr::pop`: the last component and what remains. -/
def Multiaddr.pop : Option Protocol × Multiaddr :=
  (address.getLast?, address.dropLast)

/-- Network components that may open a direct route. -/
def Protocol.isNetwork : Protocol → Bool
  | .ip4 _ | .ip6 _ | .dns _ | .dns4 _ | .dns6 _ => true
  | _ => false

theorem tagged_injective {left right : String} {leftValue rightValue : List Char}
    (hleft : '/' ∉ left.toList) (hrgt : '/' ∉ right.toList)
    (heq : tagged left leftValue = tagged right rightValue) :
    left = right ∧ leftValue = rightValue := by
  simp only [tagged, List.cons.injEq, true_and] at heq
  obtain ⟨htag, hval⟩ := Text.split_first_unique hleft hrgt heq
  exact ⟨String.toList_inj.mp htag, hval⟩

/-- Tag and value of a network component. -/
def Protocol.networkParts : Protocol → Option (String × List Char)
  | .ip4 address => some ("ip4", address.display)
  | .ip6 address => some ("ip6", address.display)
  | .dns host => some ("dns", host.toList)
  | .dns4 host => some ("dns4", host.toList)
  | .dns6 host => some ("dns6", host.toList)
  | _ => none

theorem Protocol.networkParts_of_isNetwork {protocol : Protocol}
    (hnet : protocol.isNetwork = true) :
    ∃ tag value, protocol.networkParts = some (tag, value) ∧
      tag ∈ ["ip4", "ip6", "dns", "dns4", "dns6"] ∧
      protocol.display = tagged tag value := by
  cases protocol <;>
    first
    | exact ⟨_, _, rfl, by simp, rfl⟩
    | simp [Protocol.isNetwork] at hnet

variable {right left : Protocol}

theorem Protocol.networkParts_injective {parts : String × List Char}
    (hleft : left.networkParts = some parts) (hrgt : right.networkParts = some parts) :
    left = right := by
  rw [← hrgt] at hleft
  cases left <;> cases right <;>
    simp only [Protocol.networkParts, Option.some.injEq, Prod.mk.injEq,
      String.reduceEq, false_and, true_and, reduceCtorEq] at hleft
  case ip4.ip4 => rw [Ipv4Addr.display_injective hleft]
  case ip6.ip6 => rw [Ipv6Addr.display_injective hleft]
  case dns.dns => rw [String.toList_inj.mp hleft]
  case dns4.dns4 => rw [String.toList_inj.mp hleft]
  case dns6.dns6 => rw [String.toList_inj.mp hleft]
  all_goals simp [Protocol.networkParts] at hrgt

/-- The text of a network component determines it, tag by tag. -/
theorem Protocol.display_injective_of_isNetwork (hleft : left.isNetwork = true)
    (hrgt : right.isNetwork = true) (heq : left.display = right.display) : left = right := by
  obtain ⟨leftTag, leftValue, hlef, hlft, hlet⟩ := Protocol.networkParts_of_isNetwork hleft
  obtain ⟨rightTag, rightValue, hrig, hrgh, hrit⟩ := Protocol.networkParts_of_isNetwork hrgt
  have hsl : ∀ tag ∈ ["ip4", "ip6", "dns", "dns4", "dns6"],
      '/' ∉ (tag : String).toList := by decide +kernel
  rw [hlet, hrit] at heq
  obtain ⟨rfl, rfl⟩ := tagged_injective (hsl _ hlft) (hsl _ hrgh) heq
  exact Protocol.networkParts_injective hlef hrig

/-- Two-component `network/tcp` addresses are told apart by their texts. -/
theorem Multiaddr.toText_injective_of_network_tcp {leftPort rightPort : UInt16}
    (hleft : left.isNetwork = true) (hrgt : right.isNetwork = true)
    (heq : Multiaddr.toText [left, .tcp leftPort] = Multiaddr.toText [right, .tcp rightPort]) :
    left = right ∧ leftPort = rightPort := by
  have htext : ∀ network port, (Multiaddr.toText [network, .tcp port]).toList =
      (network.display ++ '/' :: "tcp".toList) ++ '/' :: Text.decimal port.toNat := by
    intro network port
    have htcp : (Protocol.tcp port).display =
        '/' :: ("tcp".toList ++ '/' :: Text.decimal port.toNat) := rfl
    rw [Multiaddr.toText, String.toList_ofList, flatMap_cons, flatMap_singleton,
      htcp, append_assoc, cons_append]
  have hcha := congrArg String.toList heq
  rw [htext, htext] at hcha
  obtain ⟨hnet, hport⟩ := Text.split_last_unique
    (Text.notMem_decimal (by decide) _) (Text.notMem_decimal (by decide) _) hcha
  exact ⟨Protocol.display_injective_of_isNetwork hleft hrgt (append_cancel_right hnet),
    UInt16.toNat_inj.mp (Text.decimal_injective hport)⟩

end AukiSdk.Net
