import AukiSdk.Discovery.Advertisement
import AukiSdk.Foundation.Paging

/-!
# Paged discovery

The loop that collects the candidates of a Domain from the pages of the tracker.
-/

namespace AukiSdk.Discovery

open AukiSdk.Foundation
open AukiSdk.Net
open AukiSdk.Relay
open AukiSdk.Routing

structure DiscoveryFilters where
  protocol : String
  peerType : String
  peerId : String
  subjectId : String
  deriving DecidableEq

def DiscoveryFilters.new (protocol : Option String) (identity : Option AukiPeerIdentity) :
    DiscoveryFilters :=
  let filters : DiscoveryFilters := ⟨protocol.getD "", "", "", ""⟩
  match identity with
  | some (.peer id) => { filters with peerId := id.toText }
  | some (.robot id) => { filters with subjectId := id.toText, peerType := "robot" }
  | some (.compute id) => { filters with subjectId := id.toText, peerType := "compute" }
  | none => filters

def AukiPeerIdentity.matchesCandidate (identity : AukiPeerIdentity)
    (candidate : AukiDiscoveryCandidate) : Bool :=
  match identity with
  | .peer id => candidate.peerId = id
  | .robot id => candidate.peerType = some "robot" && candidate.subjectId = some id.toText
  | .compute id => candidate.peerType = some "compute" && candidate.subjectId = some id.toText

def pageLimit : ℕ := 100

def maxPages : ℕ := 100

def maxCandidates : ℕ := pageLimit * maxPages

def maxCursorBytes : ℕ := 2048

/-- What the URL of a list request varies in. -/
structure ListRequest where
  filters : DiscoveryFilters
  cursor : Option String
  deriving DecidableEq

structure ListResponse where
  advertisements : List WireAdvertisement
  nextCursor : Option String
  appliedFilters : Option DiscoveryFilters

/-- The errors of a discovery. -/
inductive DiscoveryError (E : Type*) where
  | request (error : E)
  | invalidProtocol
  | invalidResponse (error : InvalidResponse)

variable {E : Type*}

def validateFilter (value : String) : Except (DiscoveryError E) String :=
  if byteLength value.toList > maxProtocolBytes ∨ ¬ isApplicationProtocol value then
    .error .invalidProtocol
  else
    .ok value

/-- The candidates by the text of their Peer ID. -/
abbrev CandidateMap := List AukiDiscoveryCandidate

/-- The key of a candidate. -/
def candidateKey (candidate : AukiDiscoveryCandidate) : String := candidate.peerId.toText

/-- `BTreeMap::insert`, if it replaces nothing. -/
def CandidateMap.insertNew (candidates : CandidateMap) (candidate : AukiDiscoveryCandidate) :
    Option CandidateMap :=
  if candidateKey candidate ∈ candidates.map candidateKey then
    none
  else
    some (candidates.orderedInsert (candidateKey · ≤ candidateKey ·) candidate)

section

variable (parseMultiaddr : String → Option Multiaddr) (otherLength : String → ℕ)
  (localPeerId : PeerId) (protocol : Option String) (identity : Option AukiPeerIdentity)

/-- The loop of `discover_filtered`. -/
def collectCandidates : List (WireAdvertisement × DateTime) → CandidateMap →
    Except InvalidResponse CandidateMap
  | [], candidates => .ok candidates
  | (wire, now) :: rest, candidates =>
    match validateAdvertisement parseMultiaddr otherLength now wire "list" with
    | .error error => .error error
    | .ok none => collectCandidates rest candidates
    | .ok (some candidate) =>
      if identity.any (! ·.matchesCandidate candidate) then
        .error ⟨"resolve", "identity-filtered page contains a non-matching candidate"⟩
      else if candidate.peerId = localPeerId then
        collectCandidates rest candidates
      else if protocol.any (· ∉ candidate.servedProtocols) then
        .error ⟨"list", "protocol-filtered page contains a non-matching candidate"⟩
      else
        match candidates.insertNew candidate with
        | none => .error ⟨"list", "candidate Peer ID is repeated across pages"⟩
        | some candidates =>
          if candidates.length > maxCandidates then
            .error ⟨"list", "aggregate candidate limit exceeded"⟩
          else
            collectCandidates rest candidates

/-- The variables of the loop. -/
structure PageLoop where
  candidates : CandidateMap
  cursors : Finset String
  cursor : Option String

def PageLoop.start : PageLoop := ⟨[], ∅, none⟩

/-- The advertisements of a page with the clock readings at them. -/
def timed (clock : ℕ → DateTime) (advertisements : List WireAdvertisement) :
    List (WireAdvertisement × DateTime) :=
  advertisements.mapIdx fun index wire => (wire, clock index)

/-- One turn of the loop of `discover_filtered`. -/
def discoverTurn (answer : ℕ → ListRequest → Except E ListResponse)
    (clock : ℕ → ℕ → DateTime) (sent : ℕ) (loop : PageLoop) :
    Except (DiscoveryError E) (PageLoop ⊕ List AukiDiscoveryCandidate) :=
  let filters := DiscoveryFilters.new protocol identity
  match answer sent ⟨filters, loop.cursor⟩ with
  | .error error => .error (.request error)
  | .ok page =>
    if identity.isSome ∧ page.appliedFilters ≠ some filters then
      .error (.invalidResponse ⟨"resolve",
        "DDS did not confirm the exact identity filters; provider support is required"⟩)
    else if page.advertisements.length > pageLimit then
      .error (.invalidResponse ⟨"list", "page exceeds the requested candidate limit"⟩)
    else
      match collectCandidates parseMultiaddr otherLength localPeerId protocol identity
          (timed (clock sent) page.advertisements) loop.candidates with
      | .error error => .error (.invalidResponse error)
      | .ok candidates =>
        match page.nextCursor with
        | none => .ok (.inr candidates)
        | some next =>
          if next = "" ∨ next.utf8ByteSize > maxCursorBytes ∨
              next ∈ loop.cursors then
            .error (.invalidResponse ⟨"list", "invalid or repeated page cursor"⟩)
          else
            .ok (.inl ⟨candidates, insert next loop.cursors, some next⟩)

/-- `discover_filtered`, with the requests it sent. -/
def discoverFiltered (answer : ℕ → ListRequest → Except E ListResponse)
    (clock : ℕ → ℕ → DateTime) : Except (DiscoveryError E) (List AukiDiscoveryCandidate) × ℕ :=
  match (protocol.mapM validateFilter : Except (DiscoveryError E) (Option String)) with
  | .error error => (.error error, 0)
  | .ok protocol =>
    match Paging.run (discoverTurn parseMultiaddr otherLength localPeerId protocol identity
        answer clock) maxPages 0 .start with
    | (some result, requests) => (result, requests)
    | (none, requests) => (.error (.invalidResponse ⟨"list", "page limit exceeded"⟩), requests)

end

end AukiSdk.Discovery
