import AukiSdk.Discovery.AdvertisedRoutes
import AukiSdk.Discovery.Pagination

/-!
# What a discovery promises

A discovery ends within the page limit, and returns what the pages advertise.
-/

namespace AukiSdk.Discovery

open AukiSdk.Foundation List
open AukiSdk.Net
open AukiSdk.Relay
open AukiSdk.Routing

variable {E : Type*}

section

variable (answer : ℕ → ListRequest → Except E ListResponse) (filters : DiscoveryFilters)

/-- The cursor of the request that is sent after `sent` others. -/
def requestCursor : ℕ → Option String
  | 0 => none
  | sent + 1 =>
    match answer sent ⟨filters, requestCursor sent⟩ with
    | .error _ => none
    | .ok page => page.nextCursor

/-- The answer to the request that is sent after `sent` others. -/
def pageAt (sent : ℕ) : Except E ListResponse :=
  answer sent ⟨filters, requestCursor answer filters sent⟩

/-- The advertisements of the first pages, with the clock readings. -/
def advertised (clock : ℕ → ℕ → DateTime) (requests : ℕ) :
    List (WireAdvertisement × DateTime) :=
  (List.range requests).flatMap fun index =>
    match pageAt answer filters index with
    | .error _ => []
    | .ok page => timed (clock index) page.advertisements

end

section

variable (parseMultiaddr : String → Option Multiaddr) (otherLength : String → ℕ)
  (localPeerId : PeerId) (protocol : Option String) (identity : Option AukiPeerIdentity)

/-- An advertisement that has not expired, of a candidate other than the local peer. -/
def Qualifies (entry : WireAdvertisement × DateTime) (candidate : AukiDiscoveryCandidate) :
    Prop :=
  entry.2 < entry.1.expiresAt ∧ Advertises parseMultiaddr otherLength entry.1 candidate ∧
    candidate.peerId ≠ localPeerId

/-- What is collected from some advertisements. -/
structure Collects (entries : List (WireAdvertisement × DateTime))
    (candidates : List AukiDiscoveryCandidate) : Prop where
  valid : ∀ entry ∈ entries, ∃ peer,
    IsValidAdvertisement parseMultiaddr otherLength entry.1 peer
  once : entries.Pairwise fun earlier later => ∀ first second,
    Qualifies parseMultiaddr otherLength localPeerId earlier first →
    Qualifies parseMultiaddr otherLength localPeerId later second →
    first.peerId ≠ second.peerId
  mem : ∀ candidate, candidate ∈ candidates ↔
    ∃ entry ∈ entries, Qualifies parseMultiaddr otherLength localPeerId entry candidate
  sorted : candidates.Pairwise (candidateKey · < candidateKey ·)
  identity : ∀ candidate ∈ candidates, ∀ expected, identity = some expected →
    expected.matchesCandidate candidate = true
  protocol : ∀ candidate ∈ candidates, ∀ expected, protocol = some expected →
    expected ∈ candidate.servedProtocols
  limit : candidates.length ≤ maxCandidates

/-- Cursors that are all present, sized and distinct, as far as `sent` of them. -/
structure CursorsValid (cursor : ℕ → Option String) (sent : ℕ) : Prop where
  sized : ∀ index < sent, ∃ next, cursor (index + 1) = some next ∧ next ≠ "" ∧
    next.utf8ByteSize ≤ maxCursorBytes
  distinct : ∀ earlier later, earlier < later → later < sent →
    cursor (earlier + 1) ≠ cursor (later + 1)

/-- A discovery of `requests` pages that returns `peers`. -/
structure Discovers (answer : ℕ → ListRequest → Except E ListResponse)
    (clock : ℕ → ℕ → DateTime) (requests : ℕ) (peers : List AukiDiscoveryCandidate) :
    Prop where
  positive : 0 < requests
  pages : ∀ index < requests, ∃ page,
    pageAt answer (.new protocol identity) index = .ok page ∧
      page.advertisements.length ≤ pageLimit
  cursors : CursorsValid (requestCursor answer (.new protocol identity)) (requests - 1)
  complete : requestCursor answer (.new protocol identity) requests = none
  collects : Collects parseMultiaddr otherLength localPeerId protocol identity
    (advertised answer (.new protocol identity) clock requests) peers

/-- The loop before the request that is sent after `sent` others. -/
structure PageLoop.Sound (answer : ℕ → ListRequest → Except E ListResponse)
    (clock : ℕ → ℕ → DateTime) (sent : ℕ) (loop : PageLoop) : Prop where
  cursor : loop.cursor = requestCursor answer (.new protocol identity) sent
  cursors : ∀ next, next ∈ loop.cursors ↔
    ∃ index < sent, requestCursor answer (.new protocol identity) (index + 1) = some next
  valid : CursorsValid (requestCursor answer (.new protocol identity)) sent
  pages : ∀ index < sent, ∃ page, pageAt answer (.new protocol identity) index = .ok page ∧
    page.advertisements.length ≤ pageLimit
  collects : Collects parseMultiaddr otherLength localPeerId protocol identity
    (advertised answer (.new protocol identity) clock sent) loop.candidates

end

section

variable {parseMultiaddr : String → Option Multiaddr} {otherLength : String → ℕ}
  {localPeerId : PeerId} {protocol : Option String} {identity : Option AukiPeerIdentity}

theorem Collects.start : Collects parseMultiaddr otherLength localPeerId protocol identity [] [] :=
  ⟨by simp, .nil, by simp, .nil, by simp, by simp, Nat.zero_le _⟩

variable {entries : List (WireAdvertisement × DateTime)} {candidates : List AukiDiscoveryCandidate}

theorem Collects.skip {entry : WireAdvertisement × DateTime}
    (hcoll : Collects parseMultiaddr otherLength localPeerId protocol identity entries
      candidates) (hval : ∃ peer, IsValidAdvertisement parseMultiaddr otherLength entry.1 peer)
    (hnone : ∀ candidate, ¬ Qualifies parseMultiaddr otherLength localPeerId entry candidate) :
    Collects parseMultiaddr otherLength localPeerId protocol identity (entries ++ [entry])
      candidates := by
  refine ⟨?_, ?_, ?_, hcoll.sorted, hcoll.identity, hcoll.protocol, hcoll.limit⟩
  · intro found hf
    cases mem_append.mp hf with
    | inl hpre => exact hcoll.valid found hpre
    | inr hlast => rwa [mem_singleton.mp hlast]
  · rw [pairwise_append]
    refine ⟨hcoll.once, pairwise_singleton _ _, ?_⟩
    intro earlier _ later hlat first second _ hsnd
    rw [mem_singleton.mp hlat] at hsnd
    exact (hnone second hsnd).elim
  · intro candidate
    rw [hcoll.mem]
    simp only [mem_append, mem_singleton]
    constructor
    · rintro ⟨found, hf, hqua⟩
      exact ⟨found, .inl hf, hqua⟩
    · rintro ⟨found, hf | rfl, hqua⟩
      · exact ⟨found, hf, hqua⟩
      · exact (hnone candidate hqua).elim

theorem sorted_orderedInsert {candidate : AukiDiscoveryCandidate}
    (hsort : candidates.Pairwise (candidateKey · < candidateKey ·))
    (hnew : candidateKey candidate ∉ candidates.map candidateKey) :
    (candidates.orderedInsert (candidateKey · ≤ candidateKey ·) candidate).Pairwise
      (candidateKey · < candidateKey ·) := by
  induction candidates with
  | nil => exact pairwise_singleton _ _
  | cons first rest ih =>
    rw [map_cons, mem_cons, not_or] at hnew
    rw [pairwise_cons] at hsort
    rw [orderedInsert_cons]
    split
    next hpre =>
      have hlt := lt_of_le_of_ne hpre hnew.1
      rw [pairwise_cons, pairwise_cons]
      refine ⟨?_, hsort⟩
      intro other ho
      cases mem_cons.mp ho with
      | inl hfst => rwa [hfst]
      | inr hrest => exact hlt.trans (hsort.1 other hrest)
    next haft =>
      rw [pairwise_cons]
      refine ⟨?_, ih hsort.2 hnew.2⟩
      intro other ho
      rw [mem_orderedInsert] at ho
      cases ho with
      | inl hsm =>
        rw [hsm]
        exact not_le.mp haft
      | inr hrest => exact hsort.1 other hrest

theorem Collects.insert {candidates inserted : CandidateMap} {entry : WireAdvertisement × DateTime}
    {candidate : AukiDiscoveryCandidate}
    (hcoll : Collects parseMultiaddr otherLength localPeerId protocol identity entries
      candidates) (hqua : Qualifies parseMultiaddr otherLength localPeerId entry candidate)
    (hident : ∀ expected, identity = some expected → expected.matchesCandidate candidate = true)
    (hprot : ∀ expected, protocol = some expected → expected ∈ candidate.servedProtocols)
    (hins : candidates.insertNew candidate = some inserted)
    (hlim : inserted.length ≤ maxCandidates) :
    Collects parseMultiaddr otherLength localPeerId protocol identity (entries ++ [entry])
      inserted := by
  rw [CandidateMap.insertNew] at hins
  split at hins
  · cases hins
  next hnew =>
    cases hins
    have hm : ∀ other, other ∈ candidates.orderedInsert (candidateKey · ≤ candidateKey ·)
        candidate ↔ other = candidate ∨ other ∈ candidates :=
      fun other => mem_orderedInsert _
    refine ⟨?_, ?_, ?_, sorted_orderedInsert hcoll.sorted hnew, ?_, ?_, hlim⟩
    · intro found hf
      cases mem_append.mp hf with
      | inl hpre => exact hcoll.valid found hpre
      | inr hlast =>
        rw [mem_singleton.mp hlast]
        exact ⟨candidate.peerId, hqua.2.1.valid⟩
    · rw [pairwise_append]
      refine ⟨hcoll.once, pairwise_singleton _ _, ?_⟩
      intro earlier hpri later hlat first second hfst hsnd hpeer
      rw [mem_singleton.mp hlat] at hsnd
      rw [hsnd.2.1.unique hqua.2.1] at hpeer
      apply hnew
      rw [candidateKey, ← hpeer]
      exact mem_map_of_mem ((hcoll.mem first).mpr ⟨earlier, hpri, hfst⟩)
    · intro other
      rw [hm, hcoll.mem]
      simp only [mem_append, mem_singleton]
      constructor
      · rintro (rfl | ⟨found, hf, ho⟩)
        · exact ⟨entry, .inr rfl, hqua⟩
        · exact ⟨found, .inl hf, ho⟩
      · rintro ⟨found, hf | rfl, ho⟩
        · exact .inr ⟨found, hf, ho⟩
        · exact .inl (ho.2.1.unique hqua.2.1)
    · intro other ho
      cases (hm other).mp ho with
      | inl hsm => rwa [hsm]
      | inr hpre => exact hcoll.identity other hpre
    · intro other ho
      cases (hm other).mp ho with
      | inl hsm => rwa [hsm]
      | inr hpre => exact hcoll.protocol other hpre

theorem Collects.collectCandidates {page : List (WireAdvertisement × DateTime)} :
    ∀ {entries : List (WireAdvertisement × DateTime)} {candidates collected : CandidateMap},
      Collects parseMultiaddr otherLength localPeerId protocol identity entries candidates →
      collectCandidates parseMultiaddr otherLength localPeerId protocol identity page
        candidates = .ok collected →
      Collects parseMultiaddr otherLength localPeerId protocol identity (entries ++ page)
        collected := by
  induction page with
  | nil =>
    intro entries candidates collected hcoll hpage
    cases hpage
    rwa [append_nil]
  | cons entry rest ih =>
    intro entries candidates collected hcoll hpage
    obtain ⟨wire, now⟩ := entry
    rw [Discovery.collectCandidates] at hpage
    rw [append_cons]
    cases hvld : validateAdvertisement parseMultiaddr otherLength now wire "list" with
    | error error =>
      rw [hvld] at hpage
      cases hpage
    | ok result =>
      obtain ⟨hval, ⟨rfl, hexp⟩ | ⟨candidate, rfl, hcur, hadv⟩⟩ := validateAdvertisement_reads hvld
      · rw [hvld] at hpage
        exact ih (hcoll.skip hval fun _ hqua =>
          absurd hqua.1 (not_lt.mpr hexp)) hpage
      · rw [hvld] at hpage
        dsimp only at hpage
        split at hpage
        · cases hpage
        next hide =>
          split at hpage
          next hloc =>
            refine ih (hcoll.skip hval fun other ho => ho.2.2 ?_) hpage
            rw [ho.2.1.unique hadv, hloc]
          next hrem =>
            split at hpage
            · cases hpage
            next hprot =>
              split at hpage
              · cases hpage
              next inserted hins =>
                split at hpage
                · cases hpage
                next hlim =>
                  refine ih (hcoll.insert ⟨hcur, hadv, hrem⟩ ?_ ?_ hins (Nat.not_lt.mp hlim)) hpage
                  · rintro expected rfl
                    simpa using hide
                  · rintro expected rfl
                    simpa using hprot

theorem PageLoop.Sound.start (answer : ℕ → ListRequest → Except E ListResponse)
    (clock : ℕ → ℕ → DateTime) :
    PageLoop.Sound parseMultiaddr otherLength localPeerId protocol identity answer clock 0
      .start where
  cursor := rfl
  cursors := by simp [PageLoop.start]
  valid := ⟨by simp, by simp⟩
  pages := by simp
  collects := Collects.start

variable {page : ListResponse} {sent : ℕ}

theorem pages_succ {answer : ℕ → ListRequest → Except E ListResponse} {filters : DiscoveryFilters}
    (hpre : ∀ index < sent, ∃ page, pageAt answer filters index = .ok page ∧
      page.advertisements.length ≤ pageLimit) (hpage : pageAt answer filters sent = .ok page)
    (hlim : page.advertisements.length ≤ pageLimit) :
    ∀ index < sent + 1, ∃ page, pageAt answer filters index = .ok page ∧
      page.advertisements.length ≤ pageLimit := by
  intro index hidx
  cases Nat.lt_succ_iff_lt_or_eq.mp hidx with
  | inl hlt => exact hpre index hlt
  | inr hsm =>
    rw [hsm]
    exact ⟨page, hpage, hlim⟩

variable {clock : ℕ → ℕ → DateTime}

theorem advertised_succ {answer : ℕ → ListRequest → Except E ListResponse}
    {filters : DiscoveryFilters} (hpage : pageAt answer filters sent = .ok page) :
    advertised answer filters clock (sent + 1) =
      advertised answer filters clock sent ++ timed (clock sent) page.advertisements := by
  rw [advertised, range_succ, flatMap_append, flatMap_singleton, hpage, advertised]

theorem requestCursor_succ {answer : ℕ → ListRequest → Except E ListResponse}
    {filters : DiscoveryFilters} (hpage : pageAt answer filters sent = .ok page) :
    requestCursor answer filters (sent + 1) = page.nextCursor := by
  rw [pageAt] at hpage
  rw [requestCursor, hpage]

theorem CursorsValid.succ {cursor : ℕ → Option String} {next : String}
    (hval : CursorsValid cursor sent) (hn : cursor (sent + 1) = some next)
    (hsized : next ≠ "" ∧ next.utf8ByteSize ≤ maxCursorBytes)
    (hnew : ∀ index < sent, cursor (index + 1) ≠ some next) : CursorsValid cursor (sent + 1) := by
  constructor
  · intro index hidx
    cases Nat.lt_succ_iff_lt_or_eq.mp hidx with
    | inl hlt => exact hval.sized index hlt
    | inr hsm =>
      rw [hsm]
      exact ⟨next, hn, hsized⟩
  · intro earlier later hlt hlat
    cases Nat.lt_succ_iff_lt_or_eq.mp hlat with
    | inl hpre => exact hval.distinct earlier later hlt hpre
    | inr hsm =>
      rw [hsm] at hlt ⊢
      rw [hn]
      exact hnew earlier hlt

theorem PageLoop.Sound.turn {answer : ℕ → ListRequest → Except E ListResponse} {loop : PageLoop}
    {outcome : PageLoop ⊕ List AukiDiscoveryCandidate}
    (hs : PageLoop.Sound parseMultiaddr otherLength localPeerId protocol identity answer
      clock sent loop)
    (hturn : discoverTurn parseMultiaddr otherLength localPeerId protocol identity answer clock
      sent loop = .ok outcome) :
    (∃ next, outcome = .inl next ∧ PageLoop.Sound parseMultiaddr otherLength localPeerId
        protocol identity answer clock (sent + 1) next) ∨
      ∃ peers, outcome = .inr peers ∧ Discovers parseMultiaddr otherLength localPeerId protocol
        identity answer clock (sent + 1) peers := by
  rw [discoverTurn, hs.cursor] at hturn
  cases hpage : pageAt answer (.new protocol identity) sent with
  | error error =>
    rw [pageAt] at hpage
    simp only [hpage] at hturn
    cases hturn
  | ok page =>
    have hans := hpage
    rw [pageAt] at hans
    simp only [hans] at hturn
    split at hturn
    · cases hturn
    · split at hturn
      · cases hturn
      next hlim =>
        have hpag := pages_succ hs.pages hpage (Nat.not_lt.mp hlim)
        have hcur := requestCursor_succ hpage
        split at hturn
        · cases hturn
        next candidates hcol =>
          have hcoll := hs.collects.collectCandidates hcol
          rw [← advertised_succ hpage] at hcoll
          split at hturn
          next hlast =>
            cases hturn
            refine .inr ⟨candidates, rfl, Nat.succ_pos sent, hpag, hs.valid, ?_, hcoll⟩
            rw [hcur, hlast]
          next next hn =>
            split at hturn
            · cases hturn
            next hcrs =>
              cases hturn
              push Not at hcrs
              obtain ⟨hnon, hsize, hnew⟩ := hcrs
              have hst := hcur.trans hn
              have hfrs : ∀ index < sent, requestCursor answer (.new protocol identity)
                  (index + 1) ≠ some next := by
                intro index hidx hsm
                exact hnew ((hs.cursors next).mpr ⟨index, hidx, hsm⟩)
              refine .inl ⟨_, rfl, hst.symm, ?_, hs.valid.succ hst ⟨hnon, hsize⟩ hfrs, hpag, hcoll⟩
              intro found
              simp only [Finset.mem_insert, hs.cursors, Nat.lt_succ_iff_lt_or_eq]
              constructor
              · rintro (rfl | ⟨index, hidx, hf⟩)
                · exact ⟨sent, .inr rfl, hst⟩
                · exact ⟨index, .inl hidx, hf⟩
              · rintro ⟨index, hidx | rfl, hf⟩
                · exact .inr ⟨index, hidx, hf⟩
                · exact .inl (Option.some.inj (hf.symm.trans hst))

theorem keeps_sound (answer : ℕ → ListRequest → Except E ListResponse)
    (clock : ℕ → ℕ → DateTime) :
    Paging.Keeps (discoverTurn parseMultiaddr otherLength localPeerId protocol identity answer
        clock)
      (PageLoop.Sound parseMultiaddr otherLength localPeerId protocol identity answer clock) := by
  intro sent loop next hs hturn
  obtain ⟨found, hf, hn⟩ | ⟨peers, hpee, -⟩ := hs.turn hturn
  · cases hf
    exact hn
  · cases hpee

theorem mapM_validateFilter {filter : Option String}
    (hfil : (protocol.mapM validateFilter : Except (DiscoveryError E) _) = .ok filter) :
    filter = protocol := by
  cases protocol with
  | none =>
    cases hfil
    rfl
  | some value =>
    rw [Option.mapM_some, validateFilter] at hfil
    split at hfil
    · cases hfil
    · cases hfil
      rfl

theorem discoverFiltered_requests (answer : ℕ → ListRequest → Except E ListResponse)
    (clock : ℕ → ℕ → DateTime) :
    (discoverFiltered parseMultiaddr otherLength localPeerId protocol identity answer
      clock).2 ≤ maxPages := by
  rw [discoverFiltered]
  split
  · exact Nat.zero_le _
  next filter hfil =>
    rw [mapM_validateFilter hfil]
    have hkps : Paging.Keeps (discoverTurn parseMultiaddr otherLength localPeerId protocol
        identity answer clock) _ := keeps_sound answer clock
    have hbeg : PageLoop.Sound parseMultiaddr otherLength localPeerId protocol identity answer
        clock 0 .start := .start answer clock
    split
    next result requests hrun =>
      obtain ⟨last, -, hlast, -, hlt, -⟩ := Paging.run_result hkps hbeg hrun
      dsimp only
      omega
    next requests hrun =>
      obtain ⟨-, -, heq⟩ := Paging.run_exhausted hkps hbeg (congrArg Prod.fst hrun)
      rw [heq, Prod.mk.injEq] at hrun
      dsimp only
      omega

theorem discoverFiltered_ok {answer : ℕ → ListRequest → Except E ListResponse}
    {peers : List AukiDiscoveryCandidate}
    (hok : (discoverFiltered parseMultiaddr otherLength localPeerId protocol identity answer
      clock).1 = .ok peers) :
    Discovers parseMultiaddr otherLength localPeerId protocol identity answer clock
      (discoverFiltered parseMultiaddr otherLength localPeerId protocol identity answer
        clock).2 peers := by
  rw [discoverFiltered] at hok ⊢
  cases hfil : (protocol.mapM validateFilter : Except (DiscoveryError E) _) with
  | error error =>
    rw [hfil] at hok
    cases hok
  | ok filter =>
    rw [hfil] at hok
    obtain rfl := mapM_validateFilter hfil
    dsimp only at hok ⊢
    split at hok
    next result requests hrun =>
      cases hok
      obtain ⟨last, final, hlast, -, -, hfin, hturn⟩ := Paging.run_result
        (keeps_sound answer clock) (PageLoop.Sound.start answer clock) hrun
      obtain ⟨found, hf, -⟩ | ⟨found, hf, hdis⟩ := hfin.turn hturn
      · cases hf
      · cases hf
        rw [hlast]
        exact hdis
    next => cases hok

theorem Collects.eq_of_mem_iff {now : DateTime} {entries' : List (WireAdvertisement × DateTime)}
    {candidates' : List AukiDiscoveryCandidate}
    (hcoll : Collects parseMultiaddr otherLength localPeerId protocol identity entries candidates)
    (hcollects' : Collects parseMultiaddr otherLength localPeerId protocol identity entries'
      candidates') (hnow : ∀ entry ∈ entries, entry.2 = now)
    (hnow' : ∀ entry ∈ entries', entry.2 = now)
    (hsm : ∀ wire, wire ∈ entries.map Prod.fst ↔ wire ∈ entries'.map Prod.fst) :
    candidates = candidates' := by
  have hents : ∀ entry, entry ∈ entries ↔ entry ∈ entries' := by
    intro entry
    obtain ⟨wire, reading⟩ := entry
    have hpair : ∀ {list : List (WireAdvertisement × DateTime)}, (∀ entry ∈ list, entry.2 = now) →
        ((wire, reading) ∈ list ↔ reading = now ∧ wire ∈ list.map Prod.fst) := by
      intro list hlist
      rw [mem_map]
      constructor
      · exact fun hm => ⟨hlist _ hm, _, hm, rfl⟩
      · rintro ⟨rfl, ⟨found, time⟩, hm, rfl⟩
        rwa [← hlist _ hm]
    rw [hpair hnow, hpair hnow', hsm wire]
  refine eq_of_pairwise_of_mem_iff lt_asymm hcoll.sorted hcollects'.sorted fun candidate => ?_
  rw [hcoll.mem, hcollects'.mem]
  simp only [hents]

theorem advertised_reading {answer : ℕ → ListRequest → Except E ListResponse}
    {filters : DiscoveryFilters} {now : DateTime} {requests : ℕ} :
    ∀ entry ∈ advertised answer filters (fun _ _ => now) requests, entry.2 = now := by
  intro entry hent
  obtain ⟨index, -, hent⟩ := mem_flatMap.mp hent
  split at hent
  · cases hent
  · obtain ⟨position, hpos, hsome⟩ := mem_mapIdx.mp hent
    rw [← hsome]

end

/-- The advertisements that a discovery read. -/
def readAdvertisements (answer : ℕ → ListRequest → Except E ListResponse)
    (protocol : Option String) (identity : Option AukiPeerIdentity) (requests : ℕ) :
    List WireAdvertisement :=
  (advertised answer (.new protocol identity) (fun _ _ => 0) requests).map Prod.fst

theorem map_fst_timed (clock : ℕ → DateTime) (advertisements : List WireAdvertisement) :
    (timed clock advertisements).map Prod.fst = advertisements := by
  apply ext_getElem?
  intro index
  simp [timed, Function.comp_def]

theorem map_fst_advertised (answer : ℕ → ListRequest → Except E ListResponse)
    (filters : DiscoveryFilters) (clock clock' : ℕ → ℕ → DateTime) (requests : ℕ) :
    (advertised answer filters clock requests).map Prod.fst =
      (advertised answer filters clock' requests).map Prod.fst := by
  rw [advertised, advertised, map_flatMap, map_flatMap]
  congr 1
  funext index
  split
  · rfl
  · rw [map_fst_timed, map_fst_timed]

/-- A discovery ends and returns exactly the advertised candidates. -/
theorem discovery_returns_advertised (parseMultiaddr : String → Option Multiaddr)
    (otherLength : String → ℕ) (localPeerId : PeerId) (protocol : Option String)
    (identity : Option AukiPeerIdentity) :
    let discover := discoverFiltered parseMultiaddr otherLength localPeerId protocol identity
    (∀ (answer : ℕ → ListRequest → Except E ListResponse) (clock : ℕ → ℕ → DateTime),
      (discover answer clock).2 ≤ maxPages ∧
      ∀ peers, (discover answer clock).1 = .ok peers →
        Discovers parseMultiaddr otherLength localPeerId protocol identity answer clock
          (discover answer clock).2 peers) ∧
    ∀ (answer answer' : ℕ → ListRequest → Except E ListResponse) (now : DateTime) peers peers',
      (discover answer fun _ _ => now).1 = .ok peers →
      (discover answer' fun _ _ => now).1 = .ok peers' →
      (∀ wire, wire ∈ readAdvertisements answer protocol identity
            (discover answer fun _ _ => now).2 ↔
          wire ∈ readAdvertisements answer' protocol identity
            (discover answer' fun _ _ => now).2) →
      peers = peers' := by
  intro discover
  constructor
  · intro answer clock
    exact ⟨discoverFiltered_requests answer clock, fun peers hok => discoverFiltered_ok hok⟩
  · intro answer answer' now peers peers' hok hok' hsame
    refine (discoverFiltered_ok hok).collects.eq_of_mem_iff (discoverFiltered_ok hok').collects
      advertised_reading advertised_reading fun wire => ?_
    rw [map_fst_advertised _ _ _ fun _ _ => 0, map_fst_advertised answer' _ _ fun _ _ => 0]
    exact hsame wire

end AukiSdk.Discovery
