import AukiSdk.Discovery.AccessibleDomains

/-!
# What a listing promises

A listing ends within eleven requests, and is complete if it succeeds.
-/

namespace AukiSdk.Discovery.AccessibleDomains

open AukiSdk.Foundation List
open AukiSdk.Net

variable {E : Type*}

/-- The listed choice of an advertised Domain. -/
def Converts (E : Type*) (domain : AccessibleDomain) (choice : DomainChoice) : Prop :=
  (convertDomain domain : Except (ListingError E) DomainDescriptor) = .ok choice.domain

/-- The Domains of a page, none for a request that failed. -/
def pageDomains (page : Except E AccessibleDomainsResponse) : List AccessibleDomain :=
  match page with
  | .error _ => []
  | .ok response => response.domains

/-- The request sent after `sent` others. -/
def requestAfter (sent : ℕ) : PageRequest :=
  ⟨accessibleDomainsPageSize, accessibleDomainsPageSize * sent⟩

/-- The Domains of the first `requests` pages, in page order. -/
def advertised (answer : ℕ → PageRequest → Except E AccessibleDomainsResponse)
    (requests : ℕ) : List AccessibleDomain :=
  (List.range requests).flatMap fun index => pageDomains (answer index (requestAfter index))

theorem advertised_succ (answer : ℕ → PageRequest → Except E AccessibleDomainsResponse)
    (requests : ℕ) :
    advertised answer (requests + 1) =
      advertised answer requests ++ pageDomains (answer requests (requestAfter requests)) := by
  rw [advertised, range_succ, flatMap_append, flatMap_singleton, advertised]

/-- A page that echoes its request and announces `total` Domains. -/
def Echoes (answer : ℕ → PageRequest → Except E AccessibleDomainsResponse) (total index : ℕ) :
    Prop :=
  ∃ response, answer index (requestAfter index) = .ok response ∧
    response.limit = (requestAfter index).limit ∧
    response.offset = (requestAfter index).offset ∧ response.total = total

/-- A complete listing, made of the pages of so many requests. -/
structure Listed (answer : ℕ → PageRequest → Except E AccessibleDomainsResponse)
    (allowedDomainIds : Option (Finset Uuid)) (requests : ℕ) (list : List DomainChoice) :
    Prop where
  echoed : ∀ index < requests, Echoes answer list.length index
  bounded : list.length ≤ maxAccessibleDomainResults
  inPageOrder : List.Forall₂ (Converts E) (advertised answer requests) list
  canonical : List.Forall₂ (fun domain choice => choice.domain.id.toText = domain.id)
    (advertised answer requests) list
  distinct : (list.map fun choice => choice.domain.id).Nodup
  allowed : ∀ ids, allowedDomainIds = some ids → ∀ choice ∈ list, choice.domain.id ∈ ids

/-- The two errors that are about the arithmetic of offsets. -/
def IsOffsetOverflow : ListingError E → Prop
  | .invalidResponse _ reason =>
    reason = "accessible Domain offset overflowed" ∨
      reason = "pagination offset exceeds the accessible Domain total"
  | _ => False

/-- What holds of a listing function, given how many turns it may take. -/
def ListsFaithfully (answer : ℕ → PageRequest → Except E AccessibleDomainsResponse)
    (allowedDomainIds : Option (Finset Uuid))
    (fetch : ℕ → Option (Except (ListingError E) (List DomainChoice)) × ℕ) : Prop :=
  ∃ result requests, requests ≤ 11 ∧
    (∀ turns, 11 ≤ turns → fetch turns = (some result, requests)) ∧
    (∀ error, result = .error error → ¬ IsOffsetOverflow error) ∧
    ∀ list, result = .ok list → Listed answer allowedDomainIds requests list

variable {domain : AccessibleDomain}

theorem Converts.id_toText {choice : DomainChoice} (hcon : Converts E domain choice) :
    choice.domain.id.toText = domain.id := by
  unfold Converts convertDomain canonicalUuid at hcon
  cases hprs : Uuid.parseStr domain.id with
  | none =>
    rw [hprs] at hcon
    cases hcon
  | some id =>
    rw [hprs] at hcon
    by_cases hcan : id.toText = domain.id
    · simp only [hcan, ne_eq, not_true_eq_false, if_false] at hcon
      split at hcon
      · cases hcon
      · have hid := congrArg DomainDescriptor.id (Except.ok.inj hcon)
        rw [← hid]
        exact hcan
    · simp [hcan] at hcon

/-- What is collected from some advertised Domains. -/
structure Collects (E : Type*) (allowedDomainIds : Option (Finset Uuid))
    (domains : List AccessibleDomain) (collected : Collected) : Prop where
  inPageOrder : List.Forall₂ (Converts E) domains collected.domains
  ids : ∀ id, id ∈ collected.domainIds ↔ ∃ choice ∈ collected.domains, choice.domain.id = id
  distinct : (collected.domains.map fun choice => choice.domain.id).Nodup
  allowed : ∀ ids, allowedDomainIds = some ids →
    ∀ choice ∈ collected.domains, choice.domain.id ∈ ids

theorem Collects.start (allowedDomainIds : Option (Finset Uuid)) :
    Collects E allowedDomainIds [] ⟨[], ∅⟩ :=
  ⟨.nil, by simp, nodup_nil, by simp⟩

theorem Collects.snoc {allowedDomainIds : Option (Finset Uuid)} {domains : List AccessibleDomain}
    {collected : Collected} {descriptor : DomainDescriptor}
    (hcoll : Collects E allowedDomainIds domains collected)
    (hconv : (convertDomain domain : Except (ListingError E) _) = .ok descriptor)
    (hall : ∀ ids, allowedDomainIds = some ids → descriptor.id ∈ ids)
    (hnew : descriptor.id ∉ collected.domainIds) :
    Collects E allowedDomainIds (domains ++ [domain])
      ⟨collected.domains ++ [⟨descriptor⟩], insert descriptor.id collected.domainIds⟩ := by
  constructor
  · exact rel_append hcoll.inPageOrder (.cons hconv .nil)
  · intro id
    simp only [Finset.mem_insert, hcoll.ids, mem_append, mem_singleton]
    constructor
    · rintro (rfl | ⟨choice, hcho, rfl⟩)
      · exact ⟨⟨descriptor⟩, .inr rfl, rfl⟩
      · exact ⟨choice, .inl hcho, rfl⟩
    · rintro ⟨choice, hcho | rfl, rfl⟩
      · exact .inr ⟨choice, hcho, rfl⟩
      · exact .inl rfl
  · rw [map_append, map_singleton, ← concat_eq_append]
    refine hcoll.distinct.concat ?_
    rw [mem_map]
    exact fun hm => hnew ((hcoll.ids descriptor.id).mpr hm)
  · intro ids hids choice hcho
    simp only [mem_append, mem_singleton] at hcho
    cases hcho with
    | inl hpre => exact hcoll.allowed ids hids choice hpre
    | inr hlast =>
      rw [hlast]
      exact hall ids hids

theorem Collects.appendDomains {allowedDomainIds : Option (Finset Uuid)} :
    ∀ {page domains : List AccessibleDomain} {collected collected' : Collected},
      Collects E allowedDomainIds domains collected →
      (appendDomains allowedDomainIds page collected : Except (ListingError E) _) = .ok collected' →
      Collects E allowedDomainIds (domains ++ page) collected' := by
  intro page
  induction page with
  | nil =>
    intro domains collected collected' hcoll happ
    cases happ
    rwa [append_nil]
  | cons domain rest ih =>
    intro domains collected collected' hcoll happ
    rw [AccessibleDomains.appendDomains] at happ
    cases hconv : (convertDomain domain : Except (ListingError E) _) with
    | error error =>
      rw [hconv] at happ
      cases happ
    | ok descriptor =>
      rw [hconv] at happ
      dsimp only at happ
      by_cases hout : allowedDomainIds.any (descriptor.id ∉ ·) = true
      · rw [if_pos hout] at happ
        cases happ
      · rw [if_neg hout] at happ
        by_cases hseen : descriptor.id ∈ collected.domainIds
        · rw [if_pos hseen] at happ
          cases happ
        · rw [if_neg hseen] at happ
          rw [append_cons]
          refine ih (hcoll.snoc hconv ?_ hseen) happ
          intro ids hids
          by_contra hm
          exact hout (by simp [hids, hm])

theorem not_isOffsetOverflow_of_convertDomain {error : ListingError E}
    (hconv : convertDomain domain = .error error) :
    ¬ IsOffsetOverflow error := by
  have hcan : ∀ {value : String} {error : ListingError E},
      canonicalUuid value ddsAccessibleDomains = .error error → ¬ IsOffsetOverflow error := by
    intro value error herr
    unfold canonicalUuid at herr
    split at herr
    · cases herr
      simp [IsOffsetOverflow]
    · split at herr <;> cases herr
      simp [IsOffsetOverflow]
  unfold convertDomain at hconv
  split at hconv
  next error' herr =>
    cases hconv
    exact hcan herr
  next =>
    split at hconv
    next error' herr =>
      cases hconv
      cases horg : domain.organizationId with
      | none =>
        rw [horg] at herr
        cases herr
      | some value =>
        rw [horg, Option.mapM_some] at herr
        cases hval : (canonicalUuid value ddsAccessibleDomains : Except (ListingError E) Uuid) with
        | error found =>
          rw [hval] at herr
          cases herr
          exact hcan hval
        | ok id =>
          rw [hval] at herr
          cases herr
    next => cases hconv

theorem not_isOffsetOverflow_of_appendDomains {allowedDomainIds : Option (Finset Uuid)}
    {error : ListingError E} :
    ∀ {page : List AccessibleDomain} {collected : Collected},
      appendDomains allowedDomainIds page collected = .error error →
      ¬ IsOffsetOverflow error := by
  intro page
  induction page with
  | nil =>
    intro collected happ
    cases happ
  | cons domain rest ih =>
    intro collected happ
    rw [appendDomains] at happ
    split at happ
    next found hconv =>
      cases happ
      exact not_isOffsetOverflow_of_convertDomain hconv
    next descriptor hconv =>
      split at happ
      · cases happ
        simp [IsOffsetOverflow, invalid]
      · split at happ
        · cases happ
          simp [IsOffsetOverflow, invalid]
        · exact ih happ

/-- A page that was appended to what was collected before it. -/
structure Appended (response : AccessibleDomainsResponse) (limit offset : ℕ)
    (expectedTotal : Option ℕ) (collected : Collected)
    (allowedDomainIds : Option (Finset Uuid)) (appended : Except (ListingError E) Collected) :
    Prop where
  echoedLimit : response.limit = limit
  echoedOffset : response.offset = offset
  bounded : response.total ≤ maxAccessibleDomainResults
  unchanged : ∀ total, expectedTotal = some total → total = response.total
  within : offset ≤ response.total
  full : response.domains.length = min (response.total - offset) limit
  domains : appended = appendDomains allowedDomainIds response.domains collected

/-- A page is refused before its Domains are read, or its Domains are appended. -/
theorem appendAccessibleDomainPage_cases (response : AccessibleDomainsResponse)
    (limit offset : ℕ) (expectedTotal : Option ℕ) (collected : Collected)
    (allowedDomainIds : Option (Finset Uuid)) :
    (∃ error : ListingError E,
      appendAccessibleDomainPage response limit offset expectedTotal collected
        allowedDomainIds = .error error ∧
      (IsOffsetOverflow error → response.total < offset ∧
        ∀ total, expectedTotal = some total → total = response.total)) ∨
    ∃ appended : Except (ListingError E) Collected,
      Appended response limit offset expectedTotal collected allowedDomainIds appended ∧
      appendAccessibleDomainPage response limit offset expectedTotal collected
        allowedDomainIds = appended.map (·, response.total) := by
  unfold appendAccessibleDomainPage
  split
  · exact .inl ⟨_, rfl, by simp [IsOffsetOverflow, invalid]⟩
  next hecho =>
    split
    · exact .inl ⟨_, rfl, by simp [IsOffsetOverflow, invalid]⟩
    next =>
      split
      · exact .inl ⟨_, rfl, by simp [IsOffsetOverflow]⟩
      next htot =>
        split
        · exact .inl ⟨_, rfl, by simp [IsOffsetOverflow, invalid]⟩
        next =>
          split
          · exact .inl ⟨_, rfl, by simp [IsOffsetOverflow, invalid]⟩
          next hexp =>
            have hunch : ∀ total, expectedTotal = some total → total = response.total := by
              intro total hsome
              simpa [hsome] using hexp
            by_cases hwin : offset ≤ response.total
            · simp only [Word.checkedSub, if_pos hwin]
              split
              · exact .inl ⟨_, rfl, by simp [IsOffsetOverflow, invalid]⟩
              next hfull =>
                push Not at hecho hfull
                exact .inr ⟨_, ⟨hecho.1, hecho.2, Nat.not_lt.mp htot, hunch, hwin, hfull, rfl⟩, rfl⟩
            · simp only [Word.checkedSub, if_neg hwin]
              exact .inl ⟨_, rfl, fun _ => ⟨Nat.not_le.mp hwin, hunch⟩⟩

/-- The loop before the request that is sent after `sent` others. -/
structure Listing.Sound (answer : ℕ → PageRequest → Except E AccessibleDomainsResponse)
    (allowedDomainIds : Option (Finset Uuid)) (sent : ℕ) (listing : Listing) : Prop where
  offset : listing.offset = accessibleDomainsPageSize * sent
  collects : Collects E allowedDomainIds (advertised answer sent) listing.collected
  full : listing.collected.domains.length = accessibleDomainsPageSize * sent
  first : listing.expectedTotal = none → sent = 0
  unfinished : ∀ total, listing.expectedTotal = some total →
    accessibleDomainsPageSize * sent < total ∧ total ≤ maxAccessibleDomainResults ∧
      ∀ index < sent, Echoes answer total index

variable {answer : ℕ → PageRequest → Except E AccessibleDomainsResponse}
  {allowedDomainIds : Option (Finset Uuid)}

theorem Listing.Sound.start : Listing.Sound answer allowedDomainIds 0 Listing.start :=
  ⟨rfl, Collects.start allowedDomainIds, rfl, fun _ => rfl, fun _ hsome => by cases hsome⟩

variable {sent : ℕ} {listing : Listing}

theorem Listing.Sound.sent_lt (hs : Listing.Sound answer allowedDomainIds sent listing) :
    sent < 11 := by
  cases htot : listing.expectedTotal with
  | none =>
    rw [hs.first htot]
    decide
  | some total =>
    have hlt := hs.unfinished total htot
    simp only [accessibleDomainsPageSize, maxAccessibleDomainResults] at hlt
    omega

theorem Listing.Sound.request (hs : Listing.Sound answer allowedDomainIds sent listing) :
    ⟨accessibleDomainsPageSize, listing.offset⟩ = requestAfter sent := by
  rw [hs.offset, requestAfter]

/-- What a turn leads to from a sound state. -/
def TurnSound (answer : ℕ → PageRequest → Except E AccessibleDomainsResponse)
    (allowedDomainIds : Option (Finset Uuid)) (sent : ℕ) :
    Except (ListingError E) (Listing ⊕ List DomainChoice) → Prop
  | .error error => ¬ IsOffsetOverflow error
  | .ok (.inl next) => Listing.Sound answer allowedDomainIds (sent + 1) next
  | .ok (.inr list) => Listed answer allowedDomainIds (sent + 1) list

theorem Listing.Sound.appended {response : AccessibleDomainsResponse} {collected : Collected}
    (hs : Listing.Sound answer allowedDomainIds sent listing)
    (hans : answer sent (requestAfter sent) = .ok response)
    (happ : Appended response accessibleDomainsPageSize listing.offset
      listing.expectedTotal listing.collected allowedDomainIds
      (.ok collected : Except (ListingError E) Collected)) :
    Collects E allowedDomainIds (advertised answer (sent + 1)) collected ∧
      collected.domains.length = min response.total (accessibleDomainsPageSize * (sent + 1)) ∧
      ∀ index < sent + 1, Echoes answer response.total index := by
  have hcoll : Collects E allowedDomainIds (advertised answer (sent + 1)) collected := by
    rw [advertised_succ, hans]
    exact hs.collects.appendDomains happ.domains.symm
  refine ⟨hcoll, ?_, ?_⟩
  · have hpre := hs.collects.inPageOrder.length_eq
    have haft := hcoll.inPageOrder.length_eq
    have hfull := happ.full
    have hwin := happ.within
    have hoff := hs.offset
    have hlen := hs.full
    rw [advertised_succ, hans, pageDomains, length_append] at haft
    rw [Nat.mul_succ]
    omega
  · intro index hidx
    by_cases hlast : index = sent
    · rw [hlast]
      refine ⟨response, hans, happ.echoedLimit, ?_, rfl⟩
      rw [happ.echoedOffset, ← hs.request]
    · cases htot : listing.expectedTotal with
      | none =>
        have hzero := hs.first htot
        omega
      | some total =>
        rw [← happ.unchanged total htot]
        exact (hs.unfinished total htot).2.2 index (by omega)

theorem Listing.Sound.turn (hs : Listing.Sound answer allowedDomainIds sent listing) :
    TurnSound answer allowedDomainIds sent
      (listingTurn answer allowedDomainIds sent listing) := by
  rw [listingTurn, hs.request]
  cases hans : answer sent (requestAfter sent) with
  | error error => exact id
  | ok response =>
    dsimp only
    have hcas : _ ∨ ∃ appended : Except (ListingError E) Collected, _ :=
      appendAccessibleDomainPage_cases response accessibleDomainsPageSize
        listing.offset listing.expectedTotal listing.collected allowedDomainIds
    obtain ⟨error, hpage, hove⟩ | ⟨appended, happ, hpage⟩ := hcas
    · rw [hpage]
      intro hf
      have hbel := hove hf
      cases htot : listing.expectedTotal with
      | none =>
        have hoff := hs.offset
        rw [hs.first htot] at hoff
        omega
      | some total =>
        have hunf := hs.unfinished total htot
        have hunch := hbel.2 total htot
        have hoff := hs.offset
        omega
    · rw [hpage]
      cases appended with
      | error error => exact not_isOffsetOverflow_of_appendDomains happ.domains.symm
      | ok collected =>
        obtain ⟨hcoll, hlen, hech⟩ := hs.appended hans happ
        simp only [Except.map]
        by_cases hdone : collected.domains.length = response.total
        · rw [if_pos hdone]
          exact ⟨hdone ▸ hech, hdone ▸ happ.bounded, hcoll.inPageOrder,
            hcoll.inPageOrder.imp fun _ _ => Converts.id_toText, hcoll.distinct,
            hcoll.allowed⟩
        · rw [if_neg hdone]
          have hbnd := happ.bounded
          have hoff : listing.offset + accessibleDomainsPageSize =
              accessibleDomainsPageSize * (sent + 1) := by
            rw [hs.offset, Nat.mul_succ]
          have hmore : accessibleDomainsPageSize * (sent + 1) < response.total := by
            omega
          have hfits : listing.offset + accessibleDomainsPageSize < 2 ^ 32 := by
            simp only [maxAccessibleDomainResults] at hbnd
            omega
          rw [checkedAddU32, if_pos hfits]
          refine ⟨hoff, hcoll, by dsimp only; omega, fun hnone => (by cases hnone), ?_⟩
          intro total htot
          cases htot
          exact ⟨hmore, hbnd, hech⟩

theorem keeps_sound : Paging.Keeps (listingTurn answer allowedDomainIds)
    (Listing.Sound answer allowedDomainIds) := by
  intro sent listing next hs hturn
  have hn := hs.turn
  rwa [hturn] at hn

theorem run_listsFaithfully
    (answer : ℕ → PageRequest → Except E AccessibleDomainsResponse)
    (allowedDomainIds : Option (Finset Uuid)) :
    ListsFaithfully answer allowedDomainIds fun turns =>
      Paging.run (listingTurn answer allowedDomainIds) turns 0 .start := by
  have hbeg : Listing.Sound answer allowedDomainIds 0 Listing.start := Listing.Sound.start
  have hkps : Paging.Keeps (listingTurn answer allowedDomainIds) _ := keeps_sound
  have heno : 11 ≤ 0 + 11 := le_rfl
  obtain ⟨result, requests, hle, hrun⟩ :=
    Paging.run_terminates hkps (fun sent listing hs => hs.sent_lt) hbeg heno
  obtain ⟨last, final, hlast, -, -, hfin, hturn⟩ := Paging.run_result hkps hbeg (hrun 0)
  have hs := hfin.turn
  rw [hturn] at hs
  refine ⟨result, requests, hle, ?_, ?_, ?_⟩
  · intro turns htur
    obtain ⟨extra, rfl⟩ := Nat.exists_eq_add_of_le htur
    exact hrun extra
  · rintro error rfl
    exact hs
  · rintro list rfl
    rw [hlast]
    exact hs

/-- Both listings end within eleven requests and are complete. -/
theorem accessible_domains_complete
    (answer : ℕ → PageRequest → Except E AccessibleDomainsResponse)
    (grant : ImportedListingGrant) :
    ListsFaithfully answer none (fetchAccessibleDomains answer) ∧
      ListsFaithfully answer grant.allowedDomains
        (fetchAccessibleDomainsWithGrant answer grant) :=
  ⟨run_listsFaithfully answer none, run_listsFaithfully answer grant.allowedDomains⟩

end AukiSdk.Discovery.AccessibleDomains
