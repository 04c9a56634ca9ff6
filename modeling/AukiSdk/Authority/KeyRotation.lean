import AukiSdk.Foundation.Transition
import AukiSdk.Authority.KeyRing

/-!
# Key rotation keeps live credentials

A credential stays verifiable through key replacements until it expires.
-/

namespace AukiSdk.Authority

open AukiSdk.Foundation
open AukiSdk.Net

variable {DecodingKey : Type} {library : TokenLibrary DecodingKey}

namespace VerificationKeyRing

variable {ring : VerificationKeyRing library} {now : Instant}

/-- Everything `replace_keys_at` can do to the ring. -/
inductive Replaces (ring : VerificationKeyRing library) (keys : DdsVerificationKeys)
    (now : Instant) : Except P2pError Unit × VerificationKeyRing library → Prop where
  | refused (error : P2pError) : Replaces ring keys now (.error error, ring)
  | refreshed (hgeneration : keys.generation = ring.generation) :
      Replaces ring keys now (.ok (), { ring with lastRefreshedAt := now })
  | rotated (current : VerificationKey library) (previous : Option (VerificationKey library))
      (hparsed : parseKeySet library keys = .ok (current, previous))
      (hgeneration : ring.generation < keys.generation)
      (hkept : previous.map VerificationKey.canonicalPublicKey =
        some ring.current.canonicalPublicKey)
      (hfree : ring.overlapActive now = false) :
      Replaces ring keys now (.ok (), ⟨keys.generation, current, previous,
        some (now + ddsPreviousKeyMinOverlap), now⟩)
  | retired (current : VerificationKey library) (previous : Option (VerificationKey library))
      (hparsed : parseKeySet library keys = .ok (current, previous))
      (hgeneration : ring.generation < keys.generation)
      (hsame : current.canonicalPublicKey = ring.current.canonicalPublicKey)
      (hfree : ring.overlapActive now = false) :
      Replaces ring keys now (.ok (), ⟨keys.generation, current, previous, none, now⟩)
  | advanced (current : VerificationKey library) (previous : Option (VerificationKey library))
      (hparsed : parseKeySet library keys = .ok (current, previous))
      (hgeneration : ring.generation < keys.generation)
      (hsame : current.canonicalPublicKey = ring.current.canonicalPublicKey)
      (hkept : previous.map VerificationKey.canonicalPublicKey =
        ring.previous.map VerificationKey.canonicalPublicKey) :
      Replaces ring keys now (.ok (), ⟨keys.generation, current, previous,
        ring.previousProtectedUntil, now⟩)

theorem validateKeySuccessor_ok {generation proposed : ℕ}
    {current proposedCurrent : VerificationKey library}
    {previous proposedPrevious : Option (VerificationKey library)}
    {transition : VerificationKeyTransition}
    (hval : validateKeySuccessor generation current previous proposed proposedCurrent
      proposedPrevious = .ok transition) :
    match transition with
    | .exactRefresh => proposed = generation
    | .rotateCurrent => generation < proposed ∧
        proposedPrevious.map VerificationKey.canonicalPublicKey = some current.canonicalPublicKey
    | .retirePrevious => generation < proposed ∧
        proposedCurrent.canonicalPublicKey = current.canonicalPublicKey
    | .generationAdvance => generation < proposed ∧
        proposedCurrent.canonicalPublicKey = current.canonicalPublicKey ∧
        proposedPrevious.map VerificationKey.canonicalPublicKey =
          previous.map VerificationKey.canonicalPublicKey := by
  unfold validateKeySuccessor at hval
  split at hval
  · cases hval
  rename_i hstale
  split at hval
  · rename_i hequal
    split at hval
    · cases hval
    · cases hval
      exact hequal
  rename_i hnew
  have hlt : generation < proposed := by omega
  split at hval
  · split at hval
    · cases hval
    · rename_i hkept
      cases hval
      exact ⟨hlt, by simpa using hkept⟩
  rename_i hsm
  rw [not_not] at hsm
  split at hval
  · split at hval
    · cases hval
    · cases hval
      exact ⟨hlt, hsm⟩
  · rename_i hkept
    cases hval
    exact ⟨hlt, hsm, by simpa using hkept⟩

theorem replaces_replaceKeysAt (ring : VerificationKeyRing library)
    (keys : DdsVerificationKeys) (now : Instant) :
    Replaces ring keys now (ring.replaceKeysAt keys now) := by
  unfold replaceKeysAt
  split
  · exact .refused _
  · rename_i current previous hprs
    split
    · exact .refused _
    · rename_i hval
      exact .refreshed (validateKeySuccessor_ok hval)
    · rename_i hval
      obtain ⟨hgen, hkept⟩ := validateKeySuccessor_ok hval
      split
      · exact .refused _
      · rename_i hfree
        exact .rotated current previous hprs hgen hkept (by simpa using hfree)
    · rename_i hval
      obtain ⟨hgen, hsm⟩ := validateKeySuccessor_ok hval
      split
      · exact .refused _
      · rename_i hfree
        exact .retired current previous hprs hgen hsm (by simpa using hfree)
    · rename_i hval
      obtain ⟨hgen, hsm, hkept⟩ := validateKeySuccessor_ok hval
      exact .advanced current previous hprs hgen hsm hkept

/-- `key` is the current key, or a previous one protected until `deadline`. -/
def Retains (ring : VerificationKeyRing library) (key : List UInt8) (deadline : Instant) :
    Prop :=
  ring.current.canonicalPublicKey = key ∨
    (ring.previous.map VerificationKey.canonicalPublicKey = some key ∧
      ∃ protectedUntil, ring.previousProtectedUntil = some protectedUntil ∧
        deadline ≤ protectedUntil)

theorem overlapActive_of_protected {protectedUntil deadline : Instant}
    (hpro : ring.previousProtectedUntil = some protectedUntil)
    (hdead : deadline ≤ protectedUntil) (hnow : now < deadline) :
    ring.overlapActive now = true := by
  rw [overlapActive, hpro]
  exact decide_eq_true (hnow.trans_le hdead)

theorem Retains.replace (keys : DdsVerificationKeys) {key : List UInt8} {start : Instant}
    (hret : ring.Retains key (start + ddsPreviousKeyMinOverlap)) (hbeg : start ≤ now)
    (hnow : now < start + ddsPreviousKeyMinOverlap) :
    (ring.replaceKeysAt keys now).2.Retains key (start + ddsPreviousKeyMinOverlap) := by
  have hrepl := ring.replaces_replaceKeysAt keys now
  generalize ring.replaceKeysAt keys now = outcome at hrepl
  cases hrepl with
  | refused error => exact hret
  | refreshed hgen => exact hret
  | rotated current previous hprs hgen hkept hfree =>
    rcases hret with hcur | ⟨-, protectedUntil, hpro, hdead⟩
    · refine .inr ⟨hcur ▸ hkept, _, rfl, Nat.add_le_add_right hbeg _⟩
    · rw [overlapActive_of_protected hpro hdead hnow] at hfree
      cases hfree
  | retired current previous hprs hgen hsm hfree =>
    rcases hret with hcur | ⟨-, protectedUntil, hpro, hdead⟩
    · exact .inl (hsm.trans hcur)
    · rw [overlapActive_of_protected hpro hdead hnow] at hfree
      cases hfree
  | advanced current previous hprs hgen hsm hkept =>
    rcases hret with hcur | ⟨hprev, hpro⟩
    · exact .inl (hsm.trans hcur)
    · exact .inr ⟨hkept.trans hprev, hpro⟩

theorem Retains.ringClaims_eq (hlaw : library.Lawful) {key : VerificationKey library}
    {deadline : Instant} (hret : ring.Retains key.canonicalPublicKey deadline)
    {token : String} {claims : P2PAccessClaims}
    (hdec : library.decode token key.decoding = .ok claims) :
    ring.ringClaims token = .ok claims := by
  have hof : ∀ other : VerificationKey library, other.canonicalPublicKey = key.canonicalPublicKey →
      decodeClaims token other = .ok claims := by
    intro other hsm
    rw [decodeClaims, hlaw.decode_of_public_key key other token claims hsm.symm hdec]
    rfl
  unfold ringClaims
  rcases hret with hcur | ⟨hprev, -⟩
  · rw [hof _ hcur]
  · cases hres : library.decode token ring.current.decoding with
    | ok claims' =>
      rw [decodeClaims, hres, hlaw.claims_of_token _ _ _ _ _ hdec hres]
      rfl
    | error error =>
      obtain ⟨previous, hsome, hsm⟩ := Option.map_eq_some_iff.mp hprev
      simp only [decodeClaims, hres, hsome, Except.mapError] at hof ⊢
      have hdcd := hof previous hsm
      rw [hdcd]

end VerificationKeyRing

/-- `unix_time_now`, when the wall clock is `offset` ahead of monotonic time. -/
def unixSeconds (offset : ℕ) (now : Instant) : ℕ :=
  (offset + now) / nanosPerSecond

/-- One call of `replace_keys_at` with its result. -/
structure ReplaceLabel where
  now : Instant
  keys : DdsVerificationKeys
  result : Except P2pError Unit

/-- A call on the ring, no earlier than the call before it. -/
def ReplaceStep (_history : List ReplaceLabel)
    (source : VerificationKeyRing library × Instant) (label : ReplaceLabel)
    (target : VerificationKeyRing library × Instant) : Prop :=
  source.2 ≤ label.now ∧ target.2 = label.now ∧
    (label.result, target.1) = source.1.replaceKeysAt label.keys label.now

/-- Sequences of accepted and rejected key replacements. -/
abbrev ReplaceRun (start : VerificationKeyRing library × Instant) :
    List ReplaceLabel → VerificationKeyRing library × Instant → Prop :=
  Transition.Run ReplaceStep start

theorem ReplaceRun.le {start target : VerificationKeyRing library × Instant}
    {history : List ReplaceLabel} (hrun : ReplaceRun start history target) :
    start.2 ≤ target.2 := by
  refine hrun.invariant (fun _ target => start.2 ≤ target.2) le_rfl ?_
  rintro history source label target hle ⟨hlat, hnow, -⟩
  rw [hnow]
  exact hle.trans hlat

theorem ReplaceRun.retains {ring : VerificationKeyRing library} {start : Instant}
    {target : VerificationKeyRing library × Instant} {history : List ReplaceLabel}
    {key : List UInt8} (hrun : ReplaceRun (ring, start) history target)
    (hkey : ring.current.canonicalPublicKey = key)
    (hend : target.2 < start + ddsPreviousKeyMinOverlap) :
    target.1.Retains key (start + ddsPreviousKeyMinOverlap) := by
  have hinv := hrun.invariant
    (fun _ target => start ≤ target.2 ∧ (target.2 < start + ddsPreviousKeyMinOverlap →
      target.1.Retains key (start + ddsPreviousKeyMinOverlap)))
    ⟨le_rfl, fun _ => .inl hkey⟩
    (by
      rintro history source label target ⟨hbeg, hret⟩ ⟨hlat, hnow, hrep⟩
      rw [hnow]
      refine ⟨hbeg.trans hlat, fun hpre => ?_⟩
      have hkept := (hret (hlat.trans_lt hpre)).replace label.keys
        (hbeg.trans hlat) hpre
      rw [← hrep] at hkept
      exact hkept)
  exact hinv.2 hend

theorem lt_overlap_of_unexpired {claims : P2PAccessClaims} {offset : ℕ}
    {verifiedAt later : Instant}
    (hprof : validateProfile claims (unixSeconds offset verifiedAt) = .ok ())
    (hune : unixSeconds offset later < claims.exp) :
    later < verifiedAt + ddsPreviousKeyMinOverlap := by
  obtain ⟨hlif, -, hiss⟩ := validateProfile_times hprof
  have hove : ddsPreviousKeyMinOverlap = 1860 * 1000000000 := by decide
  have hseconds : ∀ first second : ℕ, claims.iat ≤ (offset + first) / 1000000000 + 60 →
      (offset + second) / 1000000000 < claims.exp →
      second < first + 1860 * 1000000000 := by
    intro first second hfst hsnd
    omega
  rw [hove]
  exact hseconds verifiedAt later hiss hune

/-- A token that verifies still does after any rotations, until it expires. -/
theorem rotation_keeps_live_credentials (hlawful : library.Lawful)
    {ring : VerificationKeyRing library} {offset : ℕ} {verifiedAt : Instant}
    {token : String} {claims : P2PAccessClaims}
    (hverified : ring.verifyAt token (unixSeconds offset verifiedAt) verifiedAt = .ok claims)
    (hcurrent : (library.decode token ring.current.decoding).isOk = true)
    {later : List ReplaceLabel} {next : VerificationKeyRing library} {nextCall : Instant}
    (hlater : ReplaceRun (ring, verifiedAt) later (next, nextCall))
    {now : Instant} (hnow : nextCall ≤ now)
    (hfresh : Instant.durationSince now next.lastRefreshedAt ≤ ddsVerificationKeysMaxStaleness)
    (hunexpired : unixSeconds offset now < claims.exp) :
    next.verifyAt token (unixSeconds offset now) now = .ok claims := by
  obtain ⟨hsized, -, hclaims, hprofile⟩ := VerificationKeyRing.verifyAt_eq_ok_iff.mp hverified
  have hdecode : library.decode token ring.current.decoding = .ok claims := by
    cases hresult : library.decode token ring.current.decoding with
    | error error =>
      rw [hresult] at hcurrent
      cases hcurrent
    | ok decoded =>
      simp only [VerificationKeyRing.ringClaims, VerificationKeyRing.decodeClaims, hresult,
        Except.mapError] at hclaims
      rw [Except.ok.inj hclaims]
  have hend := lt_overlap_of_unexpired hprofile hunexpired
  have hretains := hlater.retains rfl (hnow.trans_lt hend)
  have helapsed : verifiedAt ≤ now := hlater.le.trans hnow
  have hseconds : unixSeconds offset verifiedAt ≤ unixSeconds offset now :=
    Nat.div_le_div_right (Nat.add_le_add_left helapsed offset)
  exact VerificationKeyRing.verifyAt_eq_ok_iff.mpr ⟨hsized, hfresh,
    hretains.ringClaims_eq hlawful hdecode, validateProfile_mono hseconds hunexpired hprofile⟩

def sampleLibrary (tokens : List (String × P2PAccessClaims)) : TokenLibrary (List UInt8) where
  publicKeyFromPem text := some (textBytes text)
  decodingKeyFromPem pem :=
    match utf8Text pem with
    | none => .error "InvalidKeyFormat"
    | some text => .ok (textBytes text)
  decode token key :=
    if key = textBytes "first key" then
      match tokens.lookup token with
      | none => .error "InvalidToken"
      | some claims => .ok claims
    else
      .error "InvalidSignature"

theorem sampleLibrary_lawful (tokens : List (String × P2PAccessClaims)) :
    (sampleLibrary tokens).Lawful where
  decode_of_public_key := by
    rintro ⟨pem, canonical, decoding, hcan, hdecoding⟩
      ⟨pem', canonical', decoding', hcanonical', hdecoding'⟩ token claims hsm hdec
    simp only at hsm hdec ⊢
    obtain ⟨text, htext, hpublic⟩ := Option.bind_eq_some_iff.mp hcan
    obtain ⟨text', htext', hpublic'⟩ := Option.bind_eq_some_iff.mp hcanonical'
    simp only [sampleLibrary, htext, htext', Option.some.injEq, Except.ok.injEq]
      at hpublic hpublic' hdecoding hdecoding'
    rw [← hdecoding', hpublic', ← hsm, ← hpublic, hdecoding]
    exact hdec
  claims_of_token := by
    intro token key key' claims claims' hdec hdecode'
    simp only [sampleLibrary] at hdec hdecode'
    split at hdec
    · split at hdecode'
      · rw [hdec] at hdecode'
        exact Except.ok.inj hdecode'
      · cases hdecode'
    · cases hdec

/-- Claims of the sample node in Domain 5, issued at `iat`. -/
def sampleClaims (iat : ℕ) : P2PAccessClaims where
  tokenType := p2pTokenType
  iss := p2pTokenIssuer
  aud := [p2pTokenAudience]
  sub := "subject"
  organizationId := none
  peerType := some "robot"
  peerId := (samplePeer 1).toText
  domainIds := [Uuid.toText 5]
  scopes := []
  application := none
  iat := iat
  nbf := none
  exp := iat + 1800

def sampleTokens : List (String × P2PAccessClaims) :=
  [("issued at 1000", sampleClaims 1000), ("issued at 990", sampleClaims 990),
    ("issued to peer 2", { sampleClaims 1000 with peerId := (samplePeer 2).toText })]

def firstKey : VerificationKey (sampleLibrary sampleTokens) where
  pem := textBytes "first key"
  canonicalPublicKey := textBytes "first key"
  decoding := textBytes "first key"
  canonical_eq := by decide +kernel
  decoding_eq := by decide +kernel

def sampleRing : VerificationKeyRing (sampleLibrary sampleTokens) :=
  ⟨1, firstKey, none, none, Duration.fromSecs 1000⟩

def sampleRotation : DdsVerificationKeys :=
  ⟨2, textBytes "second key", some (textBytes "first key")⟩

/-- A credential still verifies under the previous key after a rotation. -/
theorem rotation_keeps_live_credentials_sample :
    ∃ later next, ReplaceRun (sampleRing, Duration.fromSecs 1000) later
        (next, Duration.fromSecs 1001) ∧
      next.generation = 2 ∧
      next.verifyAt "issued at 1000" (unixSeconds 0 (Duration.fromSecs 2000))
        (Duration.fromSecs 2000) = .ok (sampleClaims 1000) := by
  have hrotated : ReplaceRun (sampleRing, Duration.fromSecs 1000)
      ([] ++ [⟨Duration.fromSecs 1001, sampleRotation, .ok ()⟩])
      ((sampleRing.replaceKeysAt sampleRotation (Duration.fromSecs 1001)).2,
        Duration.fromSecs 1001) := by
    refine .extend .start ⟨by decide, rfl, ?_⟩
    have hresult : (sampleRing.replaceKeysAt sampleRotation (Duration.fromSecs 1001)).1 =
        .ok () := by decide +kernel
    exact Prod.ext hresult.symm rfl
  refine ⟨_, _, hrotated, by decide +kernel, ?_⟩
  have hverified : sampleRing.verifyAt "issued at 1000"
      (unixSeconds 0 (Duration.fromSecs 1000)) (Duration.fromSecs 1000) =
        .ok (sampleClaims 1000) := by decide +kernel
  exact rotation_keeps_live_credentials (sampleLibrary_lawful sampleTokens) hverified
    (by decide +kernel) hrotated (by decide) (by decide +kernel) (by decide +kernel)

end AukiSdk.Authority
