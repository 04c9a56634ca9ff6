import AukiSdk.Foundation.Checks
import AukiSdk.Discovery.Advertisement

/-!
# Resolving discovered routes

The resolver canonicalizes the routes that discovery stored.
-/

namespace AukiSdk.Discovery

open AukiSdk.Foundation List
open AukiSdk.Net
open AukiSdk.Relay
open AukiSdk.Routing

theorem utf8Size_toLower (char : Char) : char.toLower.utf8Size = char.utf8Size := by
  by_cases hupp : char.isUpper = true
  · have hbou : 65 ≤ char.toNat ∧ char.toNat ≤ 90 := by
      simpa [Char.isUpper, UInt32.le_iff_toNat_le] using hupp
    have hchar : char = Char.ofNat char.toNat := (Char.ofNat_toNat char).symm
    rw [hchar]
    generalize char.toNat = code at hbou
    obtain ⟨hlow, hhigh⟩ := hbou
    interval_cases code <;> rfl
  · rw [Char.toLower_eq_of_not_isUpper hupp]

theorem toLower_eq_dot {char : Char} (hdot : char.toLower = '.') : char = '.' := by
  have halp : char.isAlpha = false := by
    rw [← Char.isAlpha_toLower_eq_isAlpha, hdot]
    rfl
  have hupp : ¬ char.isUpper = true := by
    simp only [Char.isAlpha, Bool.or_eq_false_iff] at halp
    simp [halp.1]
  rwa [Char.toLower_eq_of_not_isUpper hupp] at hdot

theorem byteLength_map_toLower (text : List Char) :
    byteLength (text.map Char.toLower) = byteLength text := by
  rw [byteLength, byteLength, map_map]
  congr 2
  funext char
  exact utf8Size_toLower char

variable {raw host : String}

/-- The host that `canonicalize_fqdn` checks, and what it checks. -/
theorem canonicalizeFqdn_eq_some_iff : canonicalizeFqdn raw = some host ↔
      host.toList = (raw.toList.reverse.dropWhile (· = '.')).reverse.map Char.toLower ∧
      ¬ (host.toList.isEmpty ∨ byteLength host.toList > 253 ∨ '.' ∉ host.toList) ∧
      ¬ (Ipv4Addr.fromStr host.toList).isSome ∧
      ¬ (host = "localhost" ∨
        forbiddenSuffixes.any (fun suffix => suffix.toList.isSuffixOf host.toList)) ∧
      ¬ (host.toList.splitOn '.').any (fun label => !isFqdnLabel label) := by
  simp only [canonicalizeFqdn]
  generalize (raw.toList.reverse.dropWhile (· = '.')).reverse.map Char.toLower = found
  constructor
  · intro hhost
    split at hhost
    · cases hhost
    · split at hhost
      · cases hhost
      · split at hhost
        · cases hhost
        · split at hhost
          · cases hhost
          · cases hhost
            rw [String.toList_ofList]
            exact ⟨rfl, ‹_›, ‹_›, ‹_›, ‹_›⟩
  · rintro ⟨rfl, hbou, hlit, hfor, hlab⟩
    rw [if_neg hbou, if_neg hlit, String.ofList_toList, if_neg hfor, if_neg hlab]

/-- A host that `canonicalize_fqdn` returned is returned unchanged. -/
theorem canonicalizeFqdn_self (hhost : canonicalizeFqdn raw = some host) :
    canonicalizeFqdn host = some host := by
  rw [canonicalizeFqdn_eq_some_iff] at hhost ⊢
  obtain ⟨hlow, hcks⟩ := hhost
  refine ⟨?_, hcks⟩
  have htri : ∀ text : List Char, (text.map Char.toLower).dropWhile (· = '.') =
        (text.dropWhile (· = '.')).map Char.toLower := by
    intro text
    rw [dropWhile_map]
    congr 2
    funext char
    simp only [Function.comp, decide_eq_decide]
    exact ⟨toLower_eq_dot, by rintro rfl; rfl⟩
  rw [hlow, ← map_reverse, reverse_reverse, htri, dropWhile_idempotent, ← map_reverse, map_map]
  congr 1
  funext char
  exact (Char.toLower_toLower_eq_toLower char).symm

theorem notMem_slash_canonicalizeFqdn (hhost : canonicalizeFqdn raw = some host) :
    '/' ∉ host.toList := by
  have hlab := (canonicalizeFqdn_eq_some_iff.mp hhost).2.2.2.2
  intro hm
  have hjoin : ['.'].intercalate (host.toList.splitOn '.') = host.toList := intercalate_splitOn '.'
  rw [← hjoin] at hm
  refine Text.notMem_intercalate (by decide) (fun label hlbl hsl => ?_) hm
  apply hlab
  rw [any_eq_true]
  refine ⟨label, hlbl, ?_⟩
  rw [Bool.not_eq_true', isFqdnLabel]
  simp only [Bool.and_eq_false_iff]
  right
  rw [all_eq_false]
  exact ⟨'/', hsl, by decide⟩

theorem parseU16_decimal (port : UInt16) :
    parseU16 (String.ofList (Text.decimal port.toNat)) = some port := by
  have hplus : '+' ∉ Text.decimal port.toNat := Text.notMem_decimal (by decide) _
  have hread : Text.parseNumeral Text.decimalValue 10 (Text.decimal port.toNat) = some port.toNat :=
    Text.parseNumeral_renderNumeral (by norm_num) Text.decimalValue_decimalDigit _
  rw [parseU16, String.toList_ofList]
  split
  · rename_i rest heq
    rw [heq] at hplus
    exact absurd mem_cons_self hplus
  · have hbnd := port.toNat_lt
    simp [hread, hbnd]

/-- The pieces of the text of a canonical base. -/
def basePieces (host : String) (port : UInt16) (transport : RelayBaseTransport)
    (peer : PeerId) : List (List Char) :=
  match transport with
  | .tcp => [[], "dns4".toList, host.toList, "tcp".toList, Text.decimal port.toNat,
      "p2p".toList, peer.toText.toList]
  | .wss => [[], "dns4".toList, host.toList, "tcp".toList, Text.decimal port.toNat,
      "wss".toList, "p2p".toList, peer.toText.toList]

theorem toText_tcpBase (host : String) (port : UInt16) (peer : PeerId) :
    (Multiaddr.toText [.dns4 host, .tcp port, .p2p peer]).toList =
      tagged "dns4" host.toList ++ (tagged "tcp" (Text.decimal port.toNat) ++
        tagged "p2p" peer.toText.toList) := by
  rw [Multiaddr.toText, String.toList_ofList, flatMap_cons, flatMap_cons, flatMap_singleton]
  rfl

theorem toText_wssBase (host : String) (port : UInt16) (peer : PeerId) :
    (Multiaddr.toText [.dns4 host, .tcp port, .wss "/", .p2p peer]).toList =
      tagged "dns4" host.toList ++ (tagged "tcp" (Text.decimal port.toNat) ++
        ('/' :: "wss".toList ++ tagged "p2p" peer.toText.toList)) := by
  have hpath : ∀ path, (Protocol.wss path).display =
      if path = "/" then "/wss".toList else tagged "x-parity-wss" (percentEncode path) :=
    fun _ => rfl
  have hwss : (Protocol.wss "/").display = '/' :: "wss".toList := by
    rw [hpath, if_pos rfl]
    decide
  rw [Multiaddr.toText, String.toList_ofList, flatMap_cons, flatMap_cons,
    flatMap_cons, flatMap_singleton, hwss]
  rfl

theorem toText_providerBase (host : String) (port : UInt16) (transport : RelayBaseTransport)
    (peer : PeerId) : (providerBase host port transport peer).toText.toList =
      ['/'].intercalate (basePieces host port transport peer) := by
  cases transport with
  | tcp =>
    have htext := toText_tcpBase host port peer
    rw [providerBase, htext, basePieces]
    generalize peer.toText.toList = peerText
    generalize Text.decimal port.toNat = portText
    simp [tagged, List.intercalate]
  | wss =>
    have htext := toText_wssBase host port peer
    rw [providerBase, htext, basePieces]
    generalize peer.toText.toList = peerText
    generalize Text.decimal port.toNat = portText
    simp [tagged, List.intercalate]

theorem notMem_slash_peerText (peer : PeerId) : '/' ∉ peer.toText.toList := by
  have halp : ∀ digit, base58Digit digit ≠ '/' := by
    intro digit hsl
    have hm : base58Digit digit ∈ '1' :: base58Alphabet := by
      rw [base58Digit, getD_eq_getElem?_getD]
      cases hf : base58Alphabet[digit]? with
      | none => exact mem_cons_self
      | some char => exact mem_cons_of_mem _ (mem_of_getElem? hf)
    rw [hsl] at hm
    exact absurd hm (by decide)
  rw [PeerId.toText, String.toList_ofList, base58Encode, mem_append, not_or]
  constructor
  · intro hm
    exact absurd (eq_of_mem_replicate hm) (by decide)
  · intro hm
    obtain ⟨digit, -, hdig⟩ := mem_map.mp hm
    exact halp digit hdig

variable {peer : PeerId}

theorem splitProviderBase_toText (port : UInt16) (transport : RelayBaseTransport)
    (hhost : '/' ∉ host.toList) :
    splitProviderBase (providerBase host port transport peer).toText =
      some (host, String.ofList (Text.decimal port.toNat), transport, peer.toText) := by
  have hport : '/' ∉ Text.decimal port.toNat := Text.notMem_decimal (by decide) _
  have hpeer := notMem_slash_peerText peer
  have hsl : ∀ piece ∈ basePieces host port transport peer, '/' ∉ piece := by
    cases transport <;> simp [basePieces, hhost, hport, hpeer]
  have hpie : (providerBase host port transport peer).toText.toList.splitOn '/' =
      basePieces host port transport peer := by
    rw [toText_providerBase]
    apply splitOn_intercalate '/' hsl
    cases transport <;> simp [basePieces]
  rw [splitProviderBase, hpie]
  cases transport <;> simp [basePieces]

theorem canonicalizeProviderBase_relay {relay : PeerId} {base : Multiaddr}
    (hbase : canonicalizeProviderBase raw relay = .ok base) :
    PeerId.fromStr relay.toText = some relay ∧
      ∃ rawHost host port transport, canonicalizeFqdn rawHost = some host ∧ port ≠ 0 ∧
        base = providerBase host port transport relay := by
  simp only [canonicalizeProviderBase] at hbase
  split at hbase
  · cases hbase
  · rename_i rawHost rawPort transport rawPeerId hsp
    split at hbase
    · cases hbase
    · rename_i host hhost
      split at hbase
      · cases hbase
      · rename_i port hport
        split at hbase
        · cases hbase
        · rename_i actual hact
          split at hbase
          · cases hbase
          · rename_i hpeer
            rw [not_or, not_not, not_not] at hpeer
            obtain ⟨rfl, rfl⟩ := hpeer
            cases hbase
            have hzero : port ≠ 0 := by
              have := (Option.filter_eq_some_iff.mp hport).2
              simpa using this
            exact ⟨hact, rawHost, host, port, transport, hhost, hzero, rfl⟩

theorem canonicalizeProviderBase_self {relay : PeerId} {base : Multiaddr}
    (hbase : canonicalizeProviderBase raw relay = .ok base) :
    canonicalizeProviderBase base.toText relay = .ok base := by
  obtain ⟨hrly, rawHost, host, port, transport, hhost, hport, rfl⟩ :=
    canonicalizeProviderBase_relay hbase
  simp only [canonicalizeProviderBase, canonicalizeFqdn_self hhost, hrly, parseU16_decimal,
    splitProviderBase_toText port transport (notMem_slash_canonicalizeFqdn hhost)]
  simp [Option.filter, hport]

variable {route : Multiaddr}

/-- `canonicalize_relay_route` returns a relay route with its kind. -/
theorem canonicalizeRelayRoute_ok {target : PeerId} {canonical : CanonicalCandidateRoute}
    (hcan : canonicalizeRelayRoute route target = .ok canonical) :
    (∃ transport relay, IsRelayRoute canonical.route transport relay target ∧
      canonical.kind = transportKind transport) ∧
      ∃ base : Multiaddr, route = (base.with .p2pCircuit).with (.p2p target) := by
  simp only [canonicalizeRelayRoute] at hcan
  split at hcan
  · rename_i targetPeerId rest htgt
    split at hcan
    · cases hcan
    · rename_i hsm
      rw [not_not] at hsm
      subst hsm
      split at hcan
      · rename_i providerBase hcirc
        split at hcan
        · rename_i relayPeerId hrly
          split at hcan
          · cases hcan
          · rename_i base hbase
            split at hcan
            · cases hcan
            · rename_i kind hkind
              cases hcan
              obtain ⟨-, transport, htrn⟩ := canonicalBase_shape hbase
              rw [relayRouteKind_of_transport htrn] at hkind
              refine ⟨⟨transport, relayPeerId, ⟨base, rfl, canonicalizeProviderBase_self hbase,
                htrn⟩, (Option.some.inj hkind).symm⟩, providerBase, ?_⟩
              rw [← with_of_pop hcirc, ← with_of_pop htgt]
        · cases hcan
      · cases hcan
  · cases hcan

/-- The DNS host of a network component. -/
def dnsHost : Protocol → Option String
  | .dns host | .dns4 host | .dns6 host => some host
  | _ => none

/-- A direct TCP route to the DNS name of two dots. -/
def IsTwoDotRoute (route : Multiaddr) : Prop :=
  match route with
  | [network, .tcp _] => dnsHost network = some ".."
  | [network, .tcp _, .p2p _] => dnsHost network = some ".."
  | _ => False

theorem IsTwoDotRoute.length_le (hrt : IsTwoDotRoute route) : route.length ≤ 3 := by
  simp only [IsTwoDotRoute] at hrt
  split at hrt
  · simp
  · simp
  · exact hrt.elim

variable {stored : String}

theorem canonicalDnsHost_eq_ok_iff : canonicalDnsHost host = .ok stored ↔
      ∃ stripped, stripped ≠ [] ∧ stored.toList = stripped.map Char.toLower ∧
        (host.toList = stripped ++ ['.'] ∨
          host.toList = stripped ∧ host.toList.getLast? ≠ some '.') := by
  simp only [canonicalDnsHost]
  split
  · rename_i hdot
    have hsp := dropLast_append_getLast? '.' hdot
    constructor
    · intro hst
      split at hst
      · cases hst
      · cases hst
        exact ⟨_, ‹_›, String.toList_ofList, Or.inl hsp.symm⟩
    · rintro ⟨stripped, hne, hst, hhost | ⟨-, hlast⟩⟩
      · rw [hhost, dropLast_concat, if_neg hne, ← hst, String.ofList_toList]
      · exact absurd hdot hlast
  · rename_i hdot
    constructor
    · intro hst
      split at hst
      · cases hst
      · cases hst
        exact ⟨_, ‹_›, String.toList_ofList, Or.inr ⟨rfl, hdot⟩⟩
    · rintro ⟨stripped, hne, hst, hhost | ⟨hhost, -⟩⟩
      · rw [hhost, getLast?_concat] at hdot
        exact absurd rfl hdot
      · rw [hhost, if_neg hne, ← hst, String.ofList_toList]

theorem canonicalDnsHost_again (hst : canonicalDnsHost host = .ok stored) :
    (∃ again, canonicalDnsHost stored = .ok again) ↔ host ≠ ".." := by
  obtain ⟨stripped, hne, hlow, hhost⟩ := canonicalDnsHost_eq_ok_iff.mp hst
  have hdots : host = ".." ↔ stripped = ['.'] := by
    rw [← String.toList_inj]
    have htext : "..".toList = ['.'] ++ ['.'] := by decide
    rw [htext]
    rcases hhost with hhost | ⟨hhost, hlast⟩
    · rw [hhost, append_left_inj]
    · constructor
      · intro heq
        rw [heq] at hlast
        exact absurd rfl hlast
      · rintro rfl
        rw [hhost] at hlast
        exact absurd rfl hlast
  rw [ne_eq, hdots]
  constructor
  · rintro ⟨again, haga⟩ rfl
    obtain ⟨rest, hrest, -, hdot | ⟨hsm, hlast⟩⟩ := canonicalDnsHost_eq_ok_iff.mp haga
    · rw [hlow] at hdot
      cases rest with
      | nil => exact hrest rfl
      | cons first tail =>
        have hlen := congrArg List.length hdot
        simp at hlen
    · rw [hlow] at hlast
      exact hlast rfl
  · intro hdot
    by_cases hlast : stored.toList.getLast? = some '.'
    · have hsp := dropLast_append_getLast? '.' hlast
      refine ⟨String.ofList (stored.toList.dropLast.map Char.toLower),
        canonicalDnsHost_eq_ok_iff.mpr ⟨stored.toList.dropLast, ?_, String.toList_ofList,
          Or.inl hsp.symm⟩⟩
      intro hemp
      rw [hemp, hlow] at hsp
      apply hdot
      have hsin : stripped.length = 1 := by
        have := congrArg List.length hsp
        simpa using this.symm
      obtain ⟨char, rfl⟩ := length_eq_one_iff.mp hsin
      rw [map_singleton, nil_append, singleton_inj] at hsp
      rw [toLower_eq_dot hsp.symm]
    · refine ⟨_, canonicalDnsHost_eq_ok_iff.mpr ⟨stored.toList, ?_, String.toList_ofList,
        Or.inr ⟨rfl, hlast⟩⟩⟩
      rw [hlow]
      simpa using hne

theorem byteLength_canonicalDnsHost (hst : canonicalDnsHost host = .ok stored) :
    byteLength stored.toList ≤ byteLength host.toList := by
  obtain ⟨stripped, -, hlow, hhost⟩ := canonicalDnsHost_eq_ok_iff.mp hst
  rw [hlow, byteLength_map_toLower]
  rcases hhost with hhost | ⟨hhost, -⟩
  · rw [hhost]
    simp [byteLength]
  · rw [hhost]

theorem uvarintLength_mono {left right : ℕ} (hle : left ≤ right) :
    uvarintLength left ≤ uvarintLength right := by
  induction right using Nat.strong_induction_on generalizing left with
  | _ right ih =>
    rw [uvarintLength, uvarintLength.eq_def right]
    split
    · split <;> omega
    · rename_i hleft
      rw [if_neg (by omega)]
      have hn := ih (right / 128) (by omega) (Nat.div_le_div_right hle)
      omega

theorem prefixedLength_mono (code : ℕ) {left right : ℕ} (hle : left ≤ right) :
    prefixedLength code left ≤ prefixedLength code right := by
  have hlen := uvarintLength_mono hle
  rw [prefixedLength, prefixedLength]
  omega

variable {network : Protocol}

theorem canonicalNetwork_again (otherLength : String → ℕ) {stored : Protocol}
    (hst : canonicalNetwork network = .ok stored) :
    ((∃ again, canonicalNetwork stored = .ok again) ↔ dnsHost network ≠ some "..") ∧
      protocolLength otherLength stored ≤ protocolLength otherLength network := by
  cases network <;> simp only [canonicalNetwork] at hst
  case ip4 address =>
    cases hst
    simp [canonicalNetwork, dnsHost]
  case ip6 address =>
    cases hst
    simp [canonicalNetwork, dnsHost]
  case dns host =>
    obtain ⟨found, hf, rfl⟩ := Checks.map_eq_ok.mp hst
    refine ⟨?_, prefixedLength_mono 53 (byteLength_canonicalDnsHost hf)⟩
    rw [dnsHost, ne_eq, Option.some.injEq, ← ne_eq, ← canonicalDnsHost_again hf]
    simp [canonicalNetwork, Checks.map_eq_ok]
  case dns4 host =>
    obtain ⟨found, hf, rfl⟩ := Checks.map_eq_ok.mp hst
    refine ⟨?_, prefixedLength_mono 54 (byteLength_canonicalDnsHost hf)⟩
    rw [dnsHost, ne_eq, Option.some.injEq, ← ne_eq, ← canonicalDnsHost_again hf]
    simp [canonicalNetwork, Checks.map_eq_ok]
  case dns6 host =>
    obtain ⟨found, hf, rfl⟩ := Checks.map_eq_ok.mp hst
    refine ⟨?_, prefixedLength_mono 55 (byteLength_canonicalDnsHost hf)⟩
    rw [dnsHost, ne_eq, Option.some.injEq, ← ne_eq, ← canonicalDnsHost_again hf]
    simp [canonicalNetwork, Checks.map_eq_ok]
  all_goals cases hst

theorem canonicalizeDirectRoute_ok {stored : Multiaddr}
    (hst : canonicalizeDirectRoute route peer = .ok stored) :
    ∃ network port canonical, canonicalNetwork network = .ok canonical ∧ port ≠ 0 ∧
      stored = [canonical, .tcp port] ∧
      (route = [network, .tcp port] ∨ route = [network, .tcp port, .p2p peer]) := by
  have hpar : ∀ network port target,
      canonicalizeDirectRoute.canonicalizeParts peer network port target = .ok stored →
      ∃ canonical, canonicalNetwork network = .ok canonical ∧ port ≠ 0 ∧
        stored = [canonical, .tcp port] ∧ ∀ found ∈ target, found = peer := by
    intro network port target hres
    simp only [canonicalizeDirectRoute.canonicalizeParts] at hres
    split at hres
    · cases hres
    · split at hres
      · cases hres
      · rename_i hport htgt
        obtain ⟨canonical, hcan, rfl⟩ := Checks.map_eq_ok.mp hres
        refine ⟨canonical, hcan, hport, rfl, ?_⟩
        rintro found rfl
        simpa using htgt
  simp only [canonicalizeDirectRoute] at hst
  split at hst
  · rename_i network port
    obtain ⟨canonical, hcan, hport, hst, -⟩ := hpar _ _ _ hst
    exact ⟨network, port, canonical, hcan, hport, hst, Or.inl rfl⟩
  · rename_i network port target
    obtain ⟨canonical, hcan, hport, hsha, htgt⟩ := hpar _ _ _ hst
    obtain rfl := htgt target rfl
    exact ⟨network, port, canonical, hcan, hport, hsha, Or.inr rfl⟩
  · cases hst

theorem canonicalNetwork_error {error : CandidateRouteError}
    (herr : canonicalNetwork network = .error error) : error = .invalidGrammar := by
  have hhost : ∀ host, canonicalDnsHost host = .error error → error = .invalidGrammar := by
    intro host hhost
    simp only [canonicalDnsHost] at hhost
    generalize (if host.toList.getLast? = some '.' then host.toList.dropLast
      else host.toList) = stripped at hhost
    by_cases hemp : stripped = []
    · rw [if_pos hemp] at hhost
      cases hhost
      rfl
    · rw [if_neg hemp] at hhost
      cases hhost
  have hmap : ∀ (host : String) (wrap : String → Protocol),
      (canonicalDnsHost host).map wrap = .error error → error = .invalidGrammar := by
    intro host wrap hwrap
    cases hf : canonicalDnsHost host with
    | error found =>
      rw [hf] at hwrap
      cases hwrap
      exact hhost host hf
    | ok found =>
      rw [hf] at hwrap
      cases hwrap
  cases network <;> simp only [canonicalNetwork] at herr
  case dns host => exact hmap _ _ herr
  case dns4 host => exact hmap _ _ herr
  case dns6 host => exact hmap _ _ herr
  all_goals cases herr
  all_goals rfl

variable {otherLength : String → ℕ}

theorem canonicalizeCandidateRoute_direct {port : UInt16} (hport : port ≠ 0)
    (hlen : multiaddrLength otherLength [network, .tcp port] ≤ candidateRouteMaxBytes)
    (again : CanonicalCandidateRoute) :
    canonicalizeCandidateRoute otherLength [network, .tcp port] peer = .ok again ↔
      ∃ canonical, canonicalNetwork network = .ok canonical ∧
        ⟨[canonical, .tcp port], .directTcp⟩ = again := by
  have hdir : canonicalizeDirectRoute [network, .tcp port] peer =
      (canonicalNetwork network).map fun network => [network, .tcp port] := by
    simp [canonicalizeDirectRoute, canonicalizeDirectRoute.canonicalizeParts, hport]
  have hsize : ¬ candidateRouteMaxBytes < multiaddrLength otherLength [network, .tcp port] :=
    Nat.not_lt_of_le hlen
  simp only [canonicalizeCandidateRoute, gt_iff_lt, if_neg hsize, hdir]
  cases hnet : canonicalNetwork network with
  | ok canonical => simp [Except.map]
  | error error =>
    obtain rfl := canonicalNetwork_error hnet
    simp [Except.map, canonicalizeRelayRoute, Multiaddr.pop]

/-- The resolver accepts the canonical form, but for the name of two dots. -/
theorem canonicalizeCandidateRoute_again {stored : CanonicalCandidateRoute}
    (hst : canonicalizeCandidateRoute otherLength route peer = .ok stored) :
    (∃ again, canonicalizeCandidateRoute otherLength stored.route peer = .ok again) ↔
      ¬ IsTwoDotRoute route := by
  simp only [canonicalizeCandidateRoute] at hst
  split at hst
  · cases hst
  · rename_i hlen
    rw [gt_iff_lt, not_lt] at hlen
    split at hst
    · rename_i direct hdir
      cases hst
      obtain ⟨network, port, canonical, hcan, hport, rfl, hrt⟩ := canonicalizeDirectRoute_ok hdir
      obtain ⟨haga, hshr⟩ := canonicalNetwork_again otherLength hcan
      have hsto : multiaddrLength otherLength [canonical, .tcp port] ≤ candidateRouteMaxBytes := by
        rcases hrt with rfl | rfl <;>
          simp only [multiaddrLength, map_cons, map_nil, sum_cons, sum_nil] at hlen ⊢ <;>
          omega
      have hdrc : (∃ again, canonicalizeCandidateRoute otherLength [canonical, .tcp port] peer =
          .ok again) ↔ ∃ again, canonicalNetwork canonical = .ok again := by
        simp [canonicalizeCandidateRoute_direct hport hsto]
      rw [hdrc, haga]
      rcases hrt with rfl | rfl <;> rfl
    · cases hst
    · obtain ⟨⟨transport, relay, hrly, -⟩, base, rfl⟩ := canonicalizeRelayRoute_ok hst
      refine iff_of_true ⟨_, (candidate_self_iff transport).mpr ⟨relay, hrly⟩⟩ ?_
      -- A relay route has a circuit where a direct one has its port.
      rcases base with _ | ⟨_, _ | ⟨_, rest⟩⟩
      · simp [IsTwoDotRoute, Multiaddr.with]
      · simp [IsTwoDotRoute, Multiaddr.with]
      · intro htwo
        have hsho := htwo.length_le
        simp only [Multiaddr.with, cons_append, length_cons, length_append, length_nil] at hsho
        omega
    · cases hst

theorem exists_mapM_ok_of_mem {α β ε : Type} {f : α → Except ε β} {inputs : List α}
    {results : List β} (hmap : inputs.mapM f = .ok results) {input : α}
    (hm : input ∈ inputs) : ∃ result ∈ results, f input = .ok result := by
  induction inputs generalizing results with
  | nil => cases hm
  | cons head inputs ih =>
    rw [mapM_cons] at hmap
    obtain ⟨first, hfst, htail⟩ := Checks.bind_eq_ok.mp hmap
    obtain ⟨rest, hrest, hrsl⟩ := Checks.bind_eq_ok.mp htail
    cases hrsl
    rcases mem_cons.mp hm with rfl | hm
    · exact ⟨first, mem_cons_self, hfst⟩
    · obtain ⟨result, hres, hinp⟩ := ih hrest hm
      exact ⟨result, mem_cons_of_mem _ hres, hinp⟩

theorem mem_destutter' {α : Type} [DecidableEq α] {first entry : α} {rest : List α}
    (hm : entry ∈ first :: rest) : entry ∈ rest.destutter' (· ≠ ·) first := by
  induction rest generalizing first with
  | nil => simpa using hm
  | cons next rest ih =>
    rw [destutter'_cons]
    split
    · rcases mem_cons.mp hm with rfl | hm
      · exact mem_cons_self
      · exact mem_cons_of_mem _ (ih hm)
    · rename_i hsm
      rw [not_not] at hsm
      subst hsm
      rcases mem_cons.mp hm with rfl | hm
      · exact ih mem_cons_self
      · exact ih hm

variable {routes : List Multiaddr}

theorem mem_sortedUniqueRoutes (hm : route ∈ routes) : route ∈ sortedUniqueRoutes routes := by
  have hsort : route ∈ sortByText routes := (mem_insertionSort _).mpr hm
  rw [sortedUniqueRoutes]
  cases hrts : sortByText routes with
  | nil =>
    rw [hrts] at hsort
    cases hsort
  | cons first rest =>
    rw [hrts] at hsort
    exact mem_destutter' hsort

variable {candidate : AukiDiscoveryCandidate} {operation : String}
  {parseMultiaddr : String → Option Multiaddr}

theorem validateAdvertisement_ok {now : DateTime} {wire : WireAdvertisement}
    (hval : validateAdvertisement parseMultiaddr otherLength now wire operation =
      .ok (some candidate)) :
    ∃ parsed canonical, wire.routes.mapM (parseRoute parseMultiaddr operation) = .ok parsed ∧
      parsed.mapM (canonicalizeRoute otherLength candidate.peerId operation) = .ok canonical ∧
      candidate.routes = sortedUniqueRoutes canonical := by
  simp only [validateAdvertisement] at hval
  split at hval
  · cases hval
  · obtain ⟨parsed, hparsed, hval⟩ := Checks.bind_eq_ok.mp hval
    obtain ⟨routes, hrts, hval⟩ := Checks.bind_eq_ok.mp hval
    split at hval
    · cases hval
    · obtain ⟨servedProtocols, -, hval⟩ := Checks.bind_eq_ok.mp hval
      split at hval
      · cases hval
      · split at hval
        · cases hval
        · cases hval
          simp only [canonicalizeRoutes] at hrts
          split at hrts
          · cases hrts
          · obtain ⟨canonical, hcan, hsort⟩ := Checks.map_eq_ok.mp hrts
            exact ⟨parsed, canonical, hparsed, hcan, hsort.symm⟩

theorem parseRoute_ok {value : String}
    (hrt : parseRoute parseMultiaddr operation value = .ok route) :
    parseMultiaddr value = some route := by
  simp only [parseRoute] at hrt
  split at hrt
  · cases hrt
  · split at hrt
    · cases hrt
    · rename_i hparsed
      cases hrt
      exact hparsed

theorem canonicalizeRoute_ok {stored : Multiaddr}
    (hst : canonicalizeRoute otherLength peer operation route = .ok stored) :
    ∃ canonical, canonicalizeCandidateRoute otherLength route peer = .ok canonical ∧
      canonical.route = stored := by
  simp only [canonicalizeRoute] at hst
  split at hst
  · cases hst
  · split at hst
    · rename_i canonical hcan
      cases hst
      exact ⟨canonical, hcan, rfl⟩
    · cases hst

/-- A stored route is accepted again unless it was a direct one to two dots. -/
theorem routes_again_iff {now : DateTime} {wire : WireAdvertisement}
    (hval : validateAdvertisement parseMultiaddr otherLength now wire operation =
      .ok (some candidate)) :
    (∀ route ∈ candidate.routes, ∃ again,
      canonicalizeCandidateRoute otherLength route candidate.peerId = .ok again) ↔
      ∀ text ∈ wire.routes, ∀ route, parseMultiaddr text = some route → ¬ IsTwoDotRoute route := by
  obtain ⟨parsed, canonical, hparsed, hcan, hrts⟩ := validateAdvertisement_ok hval
  constructor
  · intro haga text htext route hrt
    obtain ⟨found, hf, hprs⟩ := exists_mapM_ok_of_mem hparsed htext
    cases (parseRoute_ok hprs).symm.trans hrt
    obtain ⟨stored, hst, hres⟩ := exists_mapM_ok_of_mem hcan hf
    obtain ⟨form, hform, rfl⟩ := canonicalizeRoute_ok hres
    apply (canonicalizeCandidateRoute_again hform).mp
    apply haga
    rw [hrts]
    exact mem_sortedUniqueRoutes hst
  · intro hnone stored hst
    rw [hrts] at hst
    obtain ⟨route, hrt, hres⟩ := exists_of_mem_mapM_ok hcan (mem_of_mem_sortedUniqueRoutes hst)
    obtain ⟨text, htext, hprs⟩ := exists_of_mem_mapM_ok hparsed hrt
    obtain ⟨form, hform, rfl⟩ := canonicalizeRoute_ok hres
    exact (canonicalizeCandidateRoute_again hform).mpr
      (hnone text htext route (parseRoute_ok hprs))

theorem openRoutes_ne_panicked (platform : Platform) (identity : AukiPeerIdentity)
    (reading : ℕ → RouteReading) (attempts : List RouteAttempt)
    (hrts : ∀ route ∈ routes, ∃ again,
      canonicalizeCandidateRoute otherLength route candidate.peerId = .ok again) :
    openRoutes otherLength platform identity candidate reading routes attempts ≠ .panicked := by
  induction routes generalizing attempts with
  | nil =>
    rw [openRoutes]
    split <;> simp
  | cons route rest ih =>
    obtain ⟨again, haga⟩ := hrts route mem_cons_self
    have hrest := fun attempts => ih attempts fun found hf =>
      hrts found (mem_cons_of_mem _ hf)
    simp only [openRoutes, haga]
    split
    · exact hrest attempts
    · split
      · simp
      · split
        · split <;> simp
        · exact hrest _
        · simp

/-- A reading under which every route is tried and fails. -/
def failedReading (candidate : AukiDiscoveryCandidate) : ℕ → RouteReading :=
  fun _ => ⟨candidate.expiresAt - 1, .p2p "unreachable" false, false⟩

theorem openRoutes_panicked (platform : Platform) (identity : AukiPeerIdentity)
    (attempts : List RouteAttempt) (hm : route ∈ routes) {error : CandidateRouteError}
    (hrt : canonicalizeCandidateRoute otherLength route candidate.peerId = .error error) :
    openRoutes otherLength platform identity candidate (failedReading candidate) routes
      attempts = .panicked := by
  induction routes generalizing attempts with
  | nil => cases hm
  | cons first rest ih =>
    rcases mem_cons.mp hm with rfl | hm
    · simp only [openRoutes, hrt]
    · have hfrs : ¬ candidate.expiresAt ≤ (failedReading candidate rest.length).now := by
        simp [failedReading]
      rw [openRoutes]
      split
      · rfl
      · split
        · exact ih attempts hm
        · exact ih _ hm

/-- The resolver never panics exactly without a direct route to two dots. -/
theorem resolver_never_panics_iff (parseMultiaddr : String → Option Multiaddr)
    (otherLength : String → ℕ) (now : DateTime) (wire : WireAdvertisement)
    (operation : String) (candidate : AukiDiscoveryCandidate)
    (hvalid : validateAdvertisement parseMultiaddr otherLength now wire operation =
      .ok (some candidate)) :
    ((∀ route ∈ candidate.routes, ∃ again,
        canonicalizeCandidateRoute otherLength route candidate.peerId = .ok again) ↔
      ∀ text ∈ wire.routes, ∀ route, parseMultiaddr text = some route → ¬ IsTwoDotRoute route) ∧
    ((∀ platform identity started reading,
        openResolvedRoutes otherLength platform identity candidate started reading ≠ .panicked) ↔
      ∀ text ∈ wire.routes, ∀ route, parseMultiaddr text = some route → ¬ IsTwoDotRoute route) := by
  have hagain := routes_again_iff hvalid
  refine ⟨hagain, ?_⟩
  rw [← hagain]
  constructor
  · intro hsafe route hroute
    cases hresult : canonicalizeCandidateRoute otherLength route candidate.peerId with
    | ok again => exact ⟨again, rfl⟩
    | error error =>
      exfalso
      apply hsafe .native (.peer candidate.peerId) (candidate.expiresAt - 1)
        (failedReading candidate)
      rw [openResolvedRoutes, if_neg (by simp)]
      exact openRoutes_panicked _ _ [] hroute hresult
  · intro hroutes platform identity started reading
    rw [openResolvedRoutes]
    split
    · simp
    · exact openRoutes_ne_panicked platform identity reading [] hroutes

/-- The parser of multiaddr texts on one text: a `dns4` value is any text
between slashes. -/
def sampleParse (text : String) : Option Multiaddr :=
  if text = "/dns4/../tcp/4001" then some [.dns4 "..", .tcp 4001] else none

def sampleAdvertisement : WireAdvertisement :=
  ⟨"11", ["/dns4/../tcp/4001"], [], 1, none, none⟩

theorem isPeerIdBytes_zeros : isPeerIdBytes [0, 0] = true := rfl

def sampleCandidate : AukiDiscoveryCandidate :=
  ⟨⟨[0, 0], isPeerIdBytes_zeros⟩, [[.dns4 ".", .tcp 4001]], [], 1, none, none⟩

theorem samplePeerText_fromStr : PeerId.fromStr "11" = some ⟨[0, 0], rfl⟩ := by
  have hdec : base58Decode "11".toList = some [0, 0] := by
    have hdig : "11".toList.mapM base58Value = some [0, 0] := by decide
    rw [base58Decode, hdig]
    simp [Text.horner]
  rw [PeerId.fromStr, hdec]
  rfl

theorem sampleRoute_length (otherLength : String → ℕ) (host : String)
    (hhost : byteLength host.toList ≤ 2) :
    ¬ multiaddrLength otherLength [.dns4 host, .tcp 4001] > candidateRouteMaxBytes := by
  have hdns : prefixedLength 54 (byteLength host.toList) ≤ 4 + 2 :=
    prefixedLength_le (by norm_num) hhost (by norm_num)
  have htcp := uvarintLength_le_two (show 6 < 16384 by norm_num)
  simp only [multiaddrLength, protocolLength, map_cons, map_nil, sum_cons,
    sum_nil, candidateRouteMaxBytes]
  omega

theorem sampleRoute_first (otherLength : String → ℕ) (peer : PeerId) :
    canonicalizeCandidateRoute otherLength [.dns4 "..", .tcp 4001] peer =
      .ok ⟨[.dns4 ".", .tcp 4001], .directTcp⟩ := by
  have hhost : canonicalDnsHost ".." = .ok "." :=
    canonicalDnsHost_eq_ok_iff.mpr ⟨['.'], by decide, by decide, Or.inl (by decide)⟩
  have hport : (4001 : UInt16) ≠ 0 := by decide
  simp only [canonicalizeCandidateRoute, if_neg (sampleRoute_length otherLength ".." (by decide)),
    canonicalizeDirectRoute, canonicalizeDirectRoute.canonicalizeParts, if_neg hport,
    Option.any_none, Bool.false_eq_true, if_false, canonicalNetwork, hhost, Except.map]

theorem sampleRoute_second (otherLength : String → ℕ) (peer : PeerId) :
    canonicalizeCandidateRoute otherLength [.dns4 ".", .tcp 4001] peer =
      .error .invalidGrammar := by
  have hhost : canonicalDnsHost "." = .error .invalidGrammar := by
    have hdot : ".".toList = ['.'] := by decide
    simp [canonicalDnsHost, hdot]
  have hport : (4001 : UInt16) ≠ 0 := by decide
  simp only [canonicalizeCandidateRoute, if_neg (sampleRoute_length otherLength "." (by decide)),
    canonicalizeDirectRoute, canonicalizeDirectRoute.canonicalizeParts, if_neg hport,
    Option.any_none, Bool.false_eq_true, if_false, canonicalNetwork, hhost, Except.map]
  rfl

theorem sampleAdvertisement_valid :
    validateAdvertisement sampleParse (fun _ => 0) 0 sampleAdvertisement "list" =
      .ok (some sampleCandidate) := by
  have hprs : sampleAdvertisement.routes.mapM (parseRoute sampleParse "list") =
      .ok [[.dns4 "..", .tcp 4001]] := rfl
  have hrt : canonicalizeRoute (fun _ => 0) ⟨[0, 0], rfl⟩ "list" [.dns4 "..", .tcp 4001] =
      .ok [.dns4 ".", .tcp 4001] := by
    rw [canonicalizeRoute, if_neg (sampleRoute_length _ ".." (by decide)), sampleRoute_first]
  have hrts : canonicalizeRoutes (fun _ => 0) ⟨[0, 0], rfl⟩ [[.dns4 "..", .tcp 4001]] "list" =
      .ok [[.dns4 ".", .tcp 4001]] := by
    rw [canonicalizeRoutes, if_neg (by decide), mapM_cons, hrt]
    rfl
  have hpro : canonicalizeProtocols sampleAdvertisement.protocols "list" = .ok [] := rfl
  have hpeer : PeerId.fromStr sampleAdvertisement.peerId = some ⟨[0, 0], rfl⟩ :=
    samplePeerText_fromStr
  rw [validateAdvertisement, hpeer]
  simp only [hprs, bind, Except.bind, hrts, hpro]
  rfl

/-- An accepted advertisement whose stored route is refused by the resolver. -/
theorem resolver_panics_on_two_dots : ∃ parseMultiaddr otherLength now wire operation candidate,
      validateAdvertisement parseMultiaddr otherLength now wire operation = .ok (some candidate) ∧
      (¬ ∀ route ∈ candidate.routes, ∃ again,
        canonicalizeCandidateRoute otherLength route candidate.peerId = .ok again) ∧
      ∃ platform identity started reading,
        openResolvedRoutes otherLength platform identity candidate started reading = .panicked := by
  refine ⟨sampleParse, fun _ => 0, 0, sampleAdvertisement, "list", sampleCandidate,
    sampleAdvertisement_valid, ?_, .native, .peer sampleCandidate.peerId, 0,
    failedReading sampleCandidate, ?_⟩
  · intro hagain
    obtain ⟨again, hagain⟩ := hagain [.dns4 ".", .tcp 4001] mem_cons_self
    rw [sampleRoute_second] at hagain
    cases hagain
  · rw [openResolvedRoutes, if_neg (by decide)]
    exact openRoutes_panicked _ _ [] mem_cons_self (sampleRoute_second _ _)

theorem resolver_never_panics_iff_sample : ¬ (∀ platform identity started reading,
      openResolvedRoutes (fun _ => 0) platform identity sampleCandidate started reading ≠
        .panicked) ∧
    ¬ ∀ text ∈ sampleAdvertisement.routes, ∀ route, sampleParse text = some route →
      ¬ IsTwoDotRoute route := by
  have hiff := (resolver_never_panics_iff sampleParse (fun _ => 0) 0 sampleAdvertisement "list"
    sampleCandidate sampleAdvertisement_valid).2
  have hdots : ¬ ∀ text ∈ sampleAdvertisement.routes, ∀ route, sampleParse text = some route →
      ¬ IsTwoDotRoute route := by
    intro hnone
    exact hnone "/dns4/../tcp/4001" mem_cons_self [.dns4 "..", .tcp 4001] rfl rfl
  exact ⟨fun hsafe => hdots (hiff.mp hsafe), hdots⟩

end AukiSdk.Discovery
