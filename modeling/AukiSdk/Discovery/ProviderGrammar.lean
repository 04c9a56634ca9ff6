import AukiSdk.Discovery.Resolution
import AukiSdk.Net.PeerIdText

/-!
# The grammar of relay providers

Which raw bases make a provider, which depends on their canonical forms alone.
-/

namespace AukiSdk.Discovery

open AukiSdk.Foundation List
open AukiSdk.Net
open AukiSdk.Relay
open AukiSdk.Routing

/-- A label of letters, digits and inner hyphens. -/
structure IsLdhLabel (label : List Char) : Prop where
  nonempty : label ≠ []
  bounded : byteLength label ≤ 63
  head : label.head? ≠ some '-'
  last : label.getLast? ≠ some '-'
  ldh : ∀ char ∈ label, char.isAlphanum = true ∨ char = '-'

/-- A dotted name of the public DNS. -/
structure IsPublicFqdn (host : String) : Prop where
  bounded : byteLength host.toList ≤ 253
  dotted : '.' ∈ host.toList
  notLiteral : Ipv4Addr.fromStr host.toList = none
  notForbidden : ∀ suffix ∈ forbiddenSuffixes, ¬ suffix.toList <:+ host.toList
  labels : ∀ label ∈ host.toList.splitOn '.', IsLdhLabel label

/-- A host without its trailing dots, in lower case. -/
def normalizedHost (host : String) : String :=
  String.ofList ((host.toList.reverse.dropWhile (· = '.')).reverse.map Char.toLower)

/-- `/dns4/host/tcp/port[/wss]/p2p/id`. -/
def baseText (host port : String) (transport : RelayBaseTransport) (id : String) : String :=
  match transport with
  | .tcp => "/dns4/" ++ host ++ "/tcp/" ++ port ++ "/p2p/" ++ id
  | .wss => "/dns4/" ++ host ++ "/tcp/" ++ port ++ "/wss/p2p/" ++ id

/-- The raw text of a base of the relay, with its canonical form. -/
def IsBase (relay : PeerId) (raw : String) (base : Multiaddr) : Prop :=
  ∃ host portText transport port,
    raw = baseText host portText transport relay.toText ∧
    '/' ∉ host.toList ∧ '/' ∉ portText.toList ∧
    IsPublicFqdn (normalizedHost host) ∧ parseU16 portText = some port ∧ port ≠ 0 ∧
    base = providerBase (normalizedHost host) port transport relay

/-- The raw texts of a provider that can use `transport`. -/
def IsProvider (relay : PeerId) (raws : List String) (transport : RelayBaseTransport) : Prop :=
  raws ≠ [] ∧ ∃ bases, List.Forall₂ (IsBase relay) raws bases ∧ bases.Nodup ∧
    ∃ base ∈ bases, providerBaseTransport base = some transport

theorem isFqdnLabel_iff {label : List Char} : isFqdnLabel label = true ↔ IsLdhLabel label := by
  simp only [isFqdnLabel, Bool.and_eq_true, Bool.not_eq_true', isEmpty_eq_false_iff,
    decide_eq_true_eq, ne_eq, all_eq_true, Bool.or_eq_true, beq_iff_eq]
  constructor
  · rintro ⟨⟨⟨⟨hnon, hbdd⟩, hhead⟩, hlast⟩, hldh⟩
    exact ⟨hnon, hbdd, hhead, hlast, hldh⟩
  · rintro ⟨hnon, hbdd, hhead, hlast, hldh⟩
    exact ⟨⟨⟨⟨hnon, hbdd⟩, hhead⟩, hlast⟩, hldh⟩

variable {raw : String}

/-- `canonicalize_fqdn` accepts the names that are public after normalization. -/
theorem canonicalizeFqdn_iff {host : String} :
    canonicalizeFqdn raw = some host ↔ host = normalizedHost raw ∧ IsPublicFqdn host := by
  have hnor : host = normalizedHost raw ↔
      host.toList = (raw.toList.reverse.dropWhile (· = '.')).reverse.map Char.toLower := by
    rw [normalizedHost, ← String.toList_inj, String.toList_ofList]
  rw [canonicalizeFqdn_eq_some_iff, hnor]
  refine and_congr_right fun _ => ?_
  constructor
  · rintro ⟨hbou, hlit, hfor, hlab⟩
    push Not at hbou hfor
    refine ⟨hbou.2.1, hbou.2.2, by simpa using hlit, ?_, ?_⟩
    · intro suffix hsuf hends
      apply hfor.2
      rw [any_eq_true]
      exact ⟨suffix, hsuf, isSuffixOf_iff_suffix.mpr hends⟩
    · intro label hlbl
      rw [← isFqdnLabel_iff]
      by_contra hbad
      apply hlab
      rw [any_eq_true]
      exact ⟨label, hlbl, by simpa using hbad⟩
  · intro hpublic
    refine ⟨?_, by simp [hpublic.notLiteral], ?_, ?_⟩
    · rintro (hemp | hlong | hdot)
      · have hdtt := hpublic.dotted
        rw [List.isEmpty_iff.mp hemp] at hdtt
        cases hdtt
      · exact absurd hpublic.bounded (Nat.not_le.mpr hlong)
      · exact hdot hpublic.dotted
    · rintro (hloc | hfor)
      · have hdtt := hpublic.dotted
        rw [hloc] at hdtt
        exact absurd hdtt (by decide)
      · obtain ⟨suffix, hsuf, hends⟩ := any_eq_true.mp hfor
        exact hpublic.notForbidden suffix hsuf (isSuffixOf_iff_suffix.mp hends)
    · intro hbad
      obtain ⟨label, hlbl, hfai⟩ := any_eq_true.mp hbad
      rw [isFqdnLabel_iff.mpr (hpublic.labels label hlbl)] at hfai
      cases hfai

/-- The pieces of a raw base. -/
def rawPieces (host port : List Char) (transport : RelayBaseTransport) (id : List Char) :
    List (List Char) :=
  match transport with
  | .tcp => [[], "dns4".toList, host, "tcp".toList, port, "p2p".toList, id]
  | .wss => [[], "dns4".toList, host, "tcp".toList, port, "wss".toList, "p2p".toList, id]

theorem toList_baseText (host port : String) (transport : RelayBaseTransport) (id : String) :
    (baseText host port transport id).toList =
      ['/'].intercalate (rawPieces host.toList port.toList transport id.toList) := by
  cases transport with
  | tcp => simp [baseText, rawPieces, List.intercalate]
  | wss => simp [baseText, rawPieces, List.intercalate]

variable {transport : RelayBaseTransport}

theorem splitProviderBase_iff {host port id : String} :
    splitProviderBase raw = some (host, port, transport, id) ↔
      raw = baseText host port transport id ∧ '/' ∉ host.toList ∧ '/' ∉ port.toList ∧
        '/' ∉ id.toList := by
  have hpcs : raw.toList.splitOn '/' = rawPieces host.toList port.toList transport id.toList ↔
      raw = baseText host port transport id ∧ '/' ∉ host.toList ∧ '/' ∉ port.toList ∧
        '/' ∉ id.toList := by
    constructor
    · intro hsp
      have hfree : ∀ piece ∈ raw.toList.splitOn '/', '/' ∉ piece := by
        intro piece hpie
        exact Text.notMem_of_mem_splitOn hpie
      rw [← String.toList_inj, toList_baseText, ← hsp, intercalate_splitOn]
      rw [hsp] at hfree
      refine ⟨rfl, hfree _ ?_, hfree _ ?_, hfree _ ?_⟩
      all_goals cases transport <;> simp [rawPieces]
    · rintro ⟨rfl, hhost, hport, hid⟩
      rw [toList_baseText]
      apply splitOn_intercalate '/'
      · cases transport <;> simp [rawPieces, hhost, hport, hid]
      · cases transport <;> simp [rawPieces]
  rw [← hpcs, splitProviderBase]
  constructor
  · intro hsp
    have htex : ∀ texts : List String, (raw.toList.splitOn '/').map String.ofList = texts →
        raw.toList.splitOn '/' = texts.map String.toList := by
      rintro texts rfl
      rw [map_map]
      exact (map_id'' (fun piece => String.toList_ofList) _).symm
    split at hsp
    next heq =>
      cases hsp
      exact htex _ heq
    next heq =>
      cases hsp
      exact htex _ heq
    next => cases hsp
  · intro hsp
    rw [hsp]
    cases transport <;> simp [rawPieces]

variable {base : Multiaddr} {relay : PeerId}

theorem canonicalizeProviderBase_iff :
    canonicalizeProviderBase raw relay = .ok base ↔ IsBase relay raw base := by
  constructor
  · intro hbase
    simp only [canonicalizeProviderBase] at hbase
    split at hbase
    · cases hbase
    next rawHost rawPort transport rawPeerId hsp =>
      split at hbase
      · cases hbase
      next host hhost =>
        split at hbase
        · cases hbase
        next port hport =>
          split at hbase
          · cases hbase
          next actual hactual =>
            split at hbase
            · cases hbase
            next hpeer =>
              rw [not_or, not_not, not_not] at hpeer
              obtain ⟨rfl, rfl⟩ := hpeer
              cases hbase
              obtain ⟨hraw, hhos, hpor, -⟩ := splitProviderBase_iff.mp hsp
              obtain ⟨rfl, hpublic⟩ := canonicalizeFqdn_iff.mp hhost
              obtain ⟨hprs, hzero⟩ := Option.filter_eq_some_iff.mp hport
              exact ⟨rawHost, rawPort, transport, port, hraw, hhos, hpor, hpublic,
                hprs, by simpa using hzero, rfl⟩
  · rintro ⟨host, portText, transport, port, hraw, hhost, hport, hpublic, hprs, hzero, rfl⟩
    have hsp := splitProviderBase_iff.mpr ⟨hraw, hhost, hport, notMem_slash_peerText relay⟩
    have hcan := canonicalizeFqdn_iff.mpr ⟨rfl, hpublic⟩
    simp only [canonicalizeProviderBase, hsp, hcan, hprs, PeerId.fromStr_toText]
    simp [Option.filter, hzero]

theorem IsBase.unique {left right : Multiaddr} (hleft : IsBase relay raw left)
    (hrgt : IsBase relay raw right) : left = right := by
  rw [← canonicalizeProviderBase_iff] at hleft hrgt
  exact Except.ok.inj (hleft.symm.trans hrgt)

theorem IsBase.self (hbase : IsBase relay raw base) : IsBase relay base.toText base := by
  rw [← canonicalizeProviderBase_iff] at hbase ⊢
  exact canonicalizeProviderBase_self hbase

theorem IsBase.eq_of_toText {leftRaw rightRaw : String} {left right : Multiaddr}
    (hleft : IsBase relay leftRaw left) (hrgt : IsBase relay rightRaw right)
    (htext : left.toText = right.toText) :
    left = right := by
  have hself := hleft.self
  rw [htext] at hself
  exact hself.unique hrgt.self

variable {raws : List String}

theorem collectBases_iff {result : List Multiaddr} :
    ∀ {canonical : List Multiaddr}, (∀ base ∈ canonical, ∃ raw, IsBase relay raw base) →
      canonical.Nodup →
      (collectBases relay raws canonical = .ok result ↔
        ∃ bases, List.Forall₂ (IsBase relay) raws bases ∧ result = canonical ++ bases ∧
          result.Nodup) := by
  induction raws with
  | nil =>
    intro canonical _ hnd
    rw [collectBases, Except.ok.injEq]
    constructor
    · rintro rfl
      exact ⟨[], .nil, (append_nil canonical).symm, hnd⟩
    · rintro ⟨bases, hbas, hres, -⟩
      cases hbas
      rw [hres, append_nil]
  | cons raw rest ih =>
    intro canonical hcan hnd
    rw [collectBases]
    cases hbase : canonicalizeProviderBase raw relay with
    | error error =>
      refine iff_of_false (fun hok => by cases hok) ?_
      rintro ⟨bases, hbas, -⟩
      cases hbas with
      | cons hfst _ =>
        rw [← canonicalizeProviderBase_iff, hbase] at hfst
        cases hfst
    | ok address =>
      have hadd := canonicalizeProviderBase_iff.mp hbase
      have hseen : address.toText ∈ canonical.map Multiaddr.toText ↔ address ∈ canonical := by
        rw [mem_map]
        constructor
        · rintro ⟨found, hf, htext⟩
          obtain ⟨foundRaw, hfou⟩ := hcan found hf
          rwa [← hfou.eq_of_toText hadd htext]
        · exact fun hm => ⟨address, hm, rfl⟩
      dsimp only
      by_cases hm : address ∈ canonical
      · rw [if_pos (hseen.mpr hm)]
        refine iff_of_false (fun hok => by cases hok) ?_
        rintro ⟨bases, hbas, rfl, hdist⟩
        cases hbas with
        | cons hfst _ =>
          rw [hfst.unique hadd] at hdist
          exact disjoint_of_nodup_append hdist hm mem_cons_self
      · rw [if_neg (hseen.not.mpr hm)]
        have hkno : ∀ base ∈ canonical ++ [address], ∃ raw, IsBase relay raw base := by
          intro base hbase
          cases mem_append.mp hbase with
          | inl hpre => exact hcan base hpre
          | inr hlast =>
            rw [mem_singleton.mp hlast]
            exact ⟨raw, hadd⟩
        have hnew : (canonical ++ [address]).Nodup := by
          rw [← concat_eq_append]
          exact hnd.concat hm
        rw [ih hkno hnew]
        constructor
        · rintro ⟨bases, hbas, hres, hdist⟩
          refine ⟨address :: bases, .cons hadd hbas, ?_, hdist⟩
          rw [hres, append_assoc, singleton_append]
        · rintro ⟨bases, hbas, hres, hdist⟩
          cases hbas with
          | cons hfst hrest =>
            refine ⟨_, hrest, ?_, hdist⟩
            rw [hres, hfst.unique hadd, append_assoc, singleton_append]

def circuitRoutes (provider : RelayProvider) (targetPeerId : PeerId) :
    Except RelayReservationError RelayCircuitRoutes := do
  let tcp ← provider.circuitRouteForTransport .tcp targetPeerId
  let wss ← provider.circuitRouteForTransport .wss targetPeerId
  .ok ⟨tcp, wss⟩

theorem sortByText_perm (bases : List Multiaddr) : (sortByText bases).Perm bases :=
  perm_insertionSort _ bases

theorem newForTransport_iff {limits : ExpectedRelayLimits} {provider : RelayProvider} :
    RelayProvider.newForTransport relay raws transport limits = .ok provider ↔
      (provider.relayPeerId = relay ∧ provider.selectedTransport = transport ∧
        provider.expectedLimits = limits) ∧ raws ≠ [] ∧
      ∃ bases, List.Forall₂ (IsBase relay) raws bases ∧ bases.Nodup ∧
        provider.bases = sortByText bases := by
  have hcol : ∀ result, collectBases relay raws [] = .ok result ↔ ∃ bases,
      List.Forall₂ (IsBase relay) raws bases ∧ result = [] ++ bases ∧ result.Nodup :=
    fun result => collectBases_iff (forall_mem_nil _) nodup_nil
  simp only [nil_append] at hcol
  rw [RelayProvider.newForTransport]
  constructor
  · intro hnew
    cases hbas : collectBases relay raws [] with
    | error error =>
      rw [hbas] at hnew
      cases hnew
    | ok canonical =>
      obtain ⟨bases, hfor, rfl, hnd⟩ := (hcol canonical).mp hbas
      rw [hbas] at hnew
      dsimp only at hnew
      split at hnew
      · cases hnew
      next hemp =>
        split at hnew
        · cases hnew
          refine ⟨⟨rfl, rfl, rfl⟩, ?_, canonical, hfor, hnd, rfl⟩
          rintro rfl
          cases hfor
          exact hemp rfl
        · cases hnew
  · obtain ⟨relayPeerId, stored, selectedTransport, expectedLimits, hsel⟩ := provider
    rintro ⟨⟨rfl, rfl, rfl⟩, hne, bases, hfor, hnd, hst⟩
    dsimp only at hfor hst hne ⊢
    subst hst
    have hlen := hfor.length_eq
    have hemp : ¬ bases.isEmpty = true := by
      rw [isEmpty_iff_length_eq_zero, ← hlen, length_eq_zero_iff]
      exact hne
    rw [(hcol bases).mpr ⟨bases, hfor, rfl, hnd⟩]
    dsimp only
    rw [if_neg hemp, dif_pos hsel]

theorem mem_bases_iff {bases : List Multiaddr} (hbas : List.Forall₂ (IsBase relay) raws bases) :
    base ∈ bases ↔ ∃ raw ∈ raws, IsBase relay raw base := by
  induction hbas with
  | nil => simp
  | cons hfst _ ih =>
    rw [mem_cons, ih]
    constructor
    · rintro (rfl | ⟨raw, hraw, hbase⟩)
      · exact ⟨_, mem_cons_self, hfst⟩
      · exact ⟨raw, mem_cons_of_mem _ hraw, hbase⟩
    · rintro ⟨raw, hraw, hbase⟩
      cases mem_cons.mp hraw with
      | inl hsm =>
        rw [hsm] at hbase
        exact .inl (hbase.unique hfst)
      | inr hrest => exact .inr ⟨raw, hrest, hbase⟩

theorem sortByText_strict {bases : List Multiaddr} (hbas : List.Forall₂ (IsBase relay) raws bases)
    (hnd : bases.Nodup) :
    (sortByText bases).Pairwise TextBefore := by
  have hsort : (sortByText bases).Pairwise fun left right => left.toText ≤ right.toText :=
    pairwise_insertionSort _ bases
  have hdist : (sortByText bases).Nodup := (sortByText_perm bases).nodup_iff.mpr hnd
  refine (hsort.and hdist).imp_of_mem fun hleft hrgt hboth => ?_
  refine lt_of_le_of_ne hboth.1 fun htext => hboth.2 ?_
  rw [(sortByText_perm bases).mem_iff, mem_bases_iff hbas] at hleft hrgt
  obtain ⟨leftRaw, -, hleft⟩ := hleft
  obtain ⟨rightRaw, -, hrgt⟩ := hrgt
  exact hleft.eq_of_toText hrgt htext

theorem newForTransport_perm {permuted : List String} {limits : ExpectedRelayLimits}
    {provider : RelayProvider} (hperm : permuted.Perm raws)
    (hnew : RelayProvider.newForTransport relay raws transport limits = .ok provider) :
    RelayProvider.newForTransport relay permuted transport limits = .ok provider := by
  rw [newForTransport_iff] at hnew ⊢
  obtain ⟨hfields, hne, bases, hbas, hnd, hst⟩ := hnew
  obtain ⟨reordered, hreo, hbss⟩ := perm_comp_forall₂ hperm hbas
  have hnodup' := hbss.nodup_iff.mpr hnd
  refine ⟨hfields, ?_, reordered, hreo, hnodup', ?_⟩
  · rintro rfl
    exact hne hperm.nil_eq.symm
  · rw [hst]
    have hsm : (sortByText bases).Perm (sortByText reordered) :=
      (sortByText_perm bases).trans (hbss.symm.trans (sortByText_perm reordered).symm)
    refine hsm.eq_of_pairwise ?_ (sortByText_strict hbas hnd)
      (sortByText_strict hreo hnodup')
    intro left right _ _ hlt hgt
    exact absurd hgt (lt_asymm hlt)

/-- Construction accepts exactly distinct bases in the grammar, in order. -/
theorem relay_provider_grammar (relay : PeerId) (raws : List String)
    (transport : RelayBaseTransport) (limits : ExpectedRelayLimits) :
    ((∃ provider, RelayProvider.newForTransport relay raws transport limits = .ok provider) ↔
      IsProvider relay raws transport) ∧
    ∀ provider, RelayProvider.newForTransport relay raws transport limits = .ok provider →
      (provider.relayPeerId = relay ∧ provider.selectedTransport = transport ∧
        provider.expectedLimits = limits) ∧
      provider.bases.Pairwise TextBefore ∧
      (∀ base, base ∈ provider.bases ↔ ∃ raw ∈ raws, IsBase relay raw base) ∧
      (∀ base ∈ provider.bases, canonicalizeProviderBase base.toText relay = .ok base) ∧
      ∀ permuted : List String, permuted.Perm raws → ∃ reordered,
        RelayProvider.newForTransport relay permuted transport limits = .ok reordered ∧
        reordered.bases = provider.bases ∧
        reordered.selectedBase = provider.selectedBase ∧
        ∀ targetPeerId, circuitRoutes reordered targetPeerId =
          circuitRoutes provider targetPeerId := by
  constructor
  · constructor
    · rintro ⟨provider, hnew⟩
      obtain ⟨⟨-, hselected, -⟩, hne, bases, hbases, hnodup, hstored⟩ := newForTransport_iff.mp hnew
      refine ⟨hne, bases, hbases, hnodup, ?_⟩
      obtain ⟨base, hmem, htransport⟩ := provider.exists_selected
      rw [hstored, (sortByText_perm bases).mem_iff] at hmem
      exact ⟨base, hmem, htransport.trans (congrArg some hselected)⟩
    · rintro ⟨hne, bases, hbases, hnodup, base, hmem, htransport⟩
      have hsorted := (sortByText_perm bases).mem_iff.mpr hmem
      exact ⟨⟨relay, sortByText bases, transport, limits, base, hsorted, htransport⟩,
        newForTransport_iff.mpr ⟨⟨rfl, rfl, rfl⟩, hne, bases, hbases, hnodup, rfl⟩⟩
  · intro provider hnew
    obtain ⟨hfields, -, bases, hbases, hnodup, hstored⟩ := newForTransport_iff.mp hnew
    have hmem : ∀ base, base ∈ provider.bases ↔ ∃ raw ∈ raws, IsBase relay raw base := by
      intro base
      rw [hstored, (sortByText_perm bases).mem_iff, mem_bases_iff hbases]
    refine ⟨hfields, hstored ▸ sortByText_strict hbases hnodup, hmem, ?_, ?_⟩
    · intro base hbase
      obtain ⟨raw, -, hraw⟩ := (hmem base).mp hbase
      exact canonicalizeProviderBase_iff.mpr hraw.self
    · intro permuted hperm
      exact ⟨provider, newForTransport_perm hperm hnew, rfl, rfl, fun _ => rfl⟩

end AukiSdk.Discovery
