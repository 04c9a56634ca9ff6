import AukiSdk.Discovery.Advertisement
import AukiSdk.Foundation.Paging
import AukiSdk.Foundation.Word

/-!
# Accessible Domains

The paged listing of the Domains a session or an imported grant can reach.
-/

namespace AukiSdk.Discovery.AccessibleDomains

open AukiSdk.Foundation
open AukiSdk.Net

def ddsAccessibleDomains : String := "DDS /api/v1/accessible-domains"

def accessibleDomainsPageSize : ℕ := 100

def maxAccessibleDomainResults : ℕ := 1024

def maxDomainNameBytes : ℕ := 256

def maxDomainDescriptionBytes : ℕ := 4 * 1024

/-- The query of one request. -/
structure PageRequest where
  limit : ℕ
  offset : ℕ
  deriving DecidableEq

structure AccessibleDomain where
  id : String
  name : String
  description : String
  organizationId : Option String
  deriving DecidableEq

structure AccessibleDomainsResponse where
  domains : List AccessibleDomain
  total : ℕ
  limit : ℕ
  offset : ℕ
  deriving DecidableEq

structure DomainDescriptor where
  id : Uuid
  name : Option String
  description : Option String
  organizationId : Option Uuid
  deriving DecidableEq

structure DomainChoice where
  domain : DomainDescriptor
  deriving DecidableEq

/-- The errors of a listing. -/
inductive ListingError (E : Type*) where
  | request (error : E)
  | invalidResponse (endpoint reason : String)
  | accessibleDomainsTruncated (total returned : ℕ)
  deriving DecidableEq

variable {E : Type*}

/-- `Error::invalid_response` of the listing. -/
def invalid (reason : String) : ListingError E :=
  .invalidResponse ddsAccessibleDomains reason

def canonicalUuid (value endpoint : String) : Except (ListingError E) Uuid :=
  match Uuid.parseStr value with
  | none => .error (.invalidResponse endpoint "UUID field is invalid")
  | some parsed =>
    if parsed.toText ≠ value then
      .error (.invalidResponse endpoint "UUID field is not canonical")
    else
      .ok parsed

def boundedDisplayMetadata (value : String) (maxBytes : ℕ) : Option String :=
  let value := trim value
  if value ≠ "" ∧ value.utf8ByteSize ≤ maxBytes then some value else none

def convertDomain (domain : AccessibleDomain) : Except (ListingError E) DomainDescriptor :=
  match canonicalUuid domain.id ddsAccessibleDomains with
  | .error error => .error error
  | .ok id =>
    match domain.organizationId.mapM (canonicalUuid · ddsAccessibleDomains) with
    | .error error => .error error
    | .ok organizationId =>
      .ok { id, organizationId
            name := boundedDisplayMetadata domain.name maxDomainNameBytes
            description :=
              boundedDisplayMetadata domain.description maxDomainDescriptionBytes }

/-- The vectors that a page is appended to. -/
structure Collected where
  domains : List DomainChoice
  domainIds : Finset Uuid

/-- The loop of `append_accessible_domain_page` over the Domains of a page. -/
def appendDomains (allowedDomainIds : Option (Finset Uuid)) :
    List AccessibleDomain → Collected → Except (ListingError E) Collected
  | [], collected => .ok collected
  | domain :: rest, collected =>
    match convertDomain domain with
    | .error error => .error error
    | .ok descriptor =>
      if allowedDomainIds.any (descriptor.id ∉ ·) then
        .error (invalid "Domain is outside the service-token allowlist")
      else if descriptor.id ∈ collected.domainIds then
        .error (invalid "Domain IDs must be unique across pages")
      else
        appendDomains allowedDomainIds rest
          { domains := collected.domains ++ [⟨descriptor⟩]
            domainIds := insert descriptor.id collected.domainIds }

/-- `append_accessible_domain_page`. -/
def appendAccessibleDomainPage (response : AccessibleDomainsResponse)
    (expectedLimit expectedOffset : ℕ) (expectedTotal : Option ℕ) (collected : Collected)
    (allowedDomainIds : Option (Finset Uuid)) : Except (ListingError E) (Collected × ℕ) :=
  if response.limit ≠ expectedLimit ∨ response.offset ≠ expectedOffset then
    .error (invalid "pagination echo does not match the request")
  else if response.domains.length > expectedLimit then
    .error (invalid "accessible Domain page exceeds the requested bound")
  else if response.total > maxAccessibleDomainResults then
    .error (.accessibleDomainsTruncated response.total
      (collected.domains.length + response.domains.length))
  else if allowedDomainIds.any (response.total > Finset.card ·) then
    .error (invalid "accessible Domain total exceeds the service-token allowlist")
  else if expectedTotal.any (· ≠ response.total) then
    .error (invalid "accessible Domain total changed between pages")
  else
    match Word.checkedSub response.total expectedOffset with
    | none => .error (invalid "pagination offset exceeds the accessible Domain total")
    | some remaining =>
      if response.domains.length ≠ min remaining expectedLimit then
        .error (invalid "accessible Domain page length is inconsistent with total")
      else
        (appendDomains allowedDomainIds response.domains collected).map (·, response.total)

/-- `u32::checked_add`. -/
def checkedAddU32 (value increment : ℕ) : Option ℕ :=
  if value + increment < 2 ^ 32 then some (value + increment) else none

/-- The variables of the loop. -/
structure Listing where
  collected : Collected
  expectedTotal : Option ℕ
  offset : ℕ

def Listing.start : Listing := ⟨⟨[], ∅⟩, none, 0⟩

variable (answer : ℕ → PageRequest → Except E AccessibleDomainsResponse)

/-- One turn of the loop. -/
def listingTurn (allowedDomainIds : Option (Finset Uuid)) (sent : ℕ) (listing : Listing) :
    Except (ListingError E) (Listing ⊕ List DomainChoice) :=
  match answer sent ⟨accessibleDomainsPageSize, listing.offset⟩ with
  | .error error => .error (.request error)
  | .ok response =>
    match appendAccessibleDomainPage response accessibleDomainsPageSize listing.offset
        listing.expectedTotal listing.collected allowedDomainIds with
    | .error error => .error error
    | .ok (collected, total) =>
      if collected.domains.length = total then
        .ok (.inr collected.domains)
      else
        match checkedAddU32 listing.offset accessibleDomainsPageSize with
        | none => .error (invalid "accessible Domain offset overflowed")
        | some offset => .ok (.inl ⟨collected, some total, offset⟩)

/-- `fetch_accessible_domains` in at most `turns` turns. -/
def fetchAccessibleDomains (turns : ℕ) : Option (Except (ListingError E) (List DomainChoice)) × ℕ :=
  Paging.run (listingTurn answer none) turns 0 .start

inductive ImportedListingGrantKind where
  | user (organization : Uuid)
  | peer

/-- `ImportedListingGrant` without its bearer. -/
structure ImportedListingGrant where
  domains : Finset Uuid
  kind : ImportedListingGrantKind

/-- `canonical_listing_domains`, from the Domains already seen. -/
def canonicalListingDomains (endpoint : String) :
    List String → Finset Uuid → Except (ListingError E) (Finset Uuid)
  | [], domains => .ok domains
  | domain :: rest, domains =>
    match Uuid.parseStr domain with
    | none => .error (.invalidResponse endpoint "invalid imported Domain allowlist")
    | some id =>
      if id.toText ≠ domain ∨ id ∈ domains then
        .error (.invalidResponse endpoint "invalid imported Domain allowlist")
      else
        canonicalListingDomains endpoint rest (insert id domains)

def ImportedListingGrant.allowedDomains (grant : ImportedListingGrant) :
    Option (Finset Uuid) :=
  match grant.kind with
  | .user _ => if grant.domains = ∅ then none else some grant.domains
  | .peer => some grant.domains

def fetchAccessibleDomainsWithGrant (grant : ImportedListingGrant) (turns : ℕ) :
    Option (Except (ListingError E) (List DomainChoice)) × ℕ :=
  Paging.run (listingTurn answer grant.allowedDomains) turns 0 .start

end AukiSdk.Discovery.AccessibleDomains
