import AukiSdk.Authority.LocalAuthority

/-!
# Atomicity of authority replacement

A replacement commits the key ring before the credential store decides.
-/

namespace AukiSdk.Authority

open AukiSdk.Foundation
open AukiSdk.Net

variable {DecodingKey : Type} {library : TokenLibrary DecodingKey}

namespace VerificationKeyRing

/-- What a replacement commits. -/
def lineage (ring : VerificationKeyRing library) :
    ℕ × VerificationKey library × Option (VerificationKey library) × Option Instant :=
  (ring.generation, ring.current, ring.previous, ring.previousProtectedUntil)

variable {ring next : VerificationKeyRing library} {keys : DdsVerificationKeys}
  {now : Instant}

theorem replaceKeysAt_error {error : P2pError}
    (hrep : ring.replaceKeysAt keys now = (.error error, next)) : next = ring := by
  have hrepl := ring.replaces_replaceKeysAt keys now
  rw [hrep] at hrepl
  cases hrepl
  rfl

theorem replaceKeysAt_lineage (hrep : ring.replaceKeysAt keys now = (.ok (), next))
    (hnot : ¬ring.generation < keys.generation) : next.lineage = ring.lineage := by
  have hrepl := ring.replaces_replaceKeysAt keys now
  rw [hrep] at hrepl
  cases hrepl with
  | refreshed hgen => rfl
  | rotated _ _ _ hgen _ _ => exact absurd hgen hnot
  | retired _ _ _ hgen _ _ => exact absurd hgen hnot
  | advanced _ _ _ hgen _ _ => exact absurd hgen hnot

theorem replaceKeysAt_newer (hrep : ring.replaceKeysAt keys now = (.ok (), next))
    (hnew : ring.generation < keys.generation) :
    parseKeySet library keys = .ok (next.current, next.previous) ∧
      next.generation = keys.generation ∧ next.lastRefreshedAt = now := by
  have hrepl := ring.replaces_replaceKeysAt keys now
  rw [hrep] at hrepl
  cases hrepl with
  | refreshed hgen => exact absurd hgen (Nat.ne_of_gt hnew)
  | rotated current previous hprs _ _ _ => exact ⟨hprs, rfl, rfl⟩
  | retired current previous hprs _ _ _ => exact ⟨hprs, rfl, rfl⟩
  | advanced current previous hprs _ _ _ => exact ⟨hprs, rfl, rfl⟩

theorem fromKeys_eq_ok (hring : fromKeys library keys now = .ok ring) :
    parseKeySet library keys = .ok (ring.current, ring.previous) := by
  unfold fromKeys at hring
  split at hring
  · cases hring
  · rename_i current previous hprs
    cases hring
    exact hprs

theorem ringClaims_congr (hcur : next.current = ring.current)
    (hprev : next.previous = ring.previous) (token : String) :
    next.ringClaims token = ring.ringClaims token := by
  unfold ringClaims
  rw [hcur, hprev]

end VerificationKeyRing

namespace LocalAuthority

/-- The claim that a call with this result is all or nothing. -/
def Atomic (update : PeerAuthorityUpdate) (replacedAt : Instant)
    (result : Except P2pError P2PAccessClaims) (source target : LocalAuthority library) :
    Prop :=
  match result with
  | .error _ =>
    target.verifier.lineage = source.verifier.lineage ∧ target.tokens = source.tokens
  | .ok claims =>
    source.verifier.replaceKeysAt update.verificationKeys replacedAt =
        (.ok (), target.verifier) ∧
      target.tokens.current.map StoredCredential.claims = some claims

/-- The bundle's keys are accepted as newer, and then the store refuses its credential. -/
def CommitsKeysOnly (authority : LocalAuthority library) (update : PeerAuthorityUpdate)
    (clock : ReplaceClock) : Prop :=
  ∃ expiration candidate claims,
    validateUpdate library authority.peerId authority.domainId update clock.toUpdateClock =
      .ok (expiration, candidate) ∧
    candidate.ringClaims update.credential.compact = .ok claims ∧
    (authority.verifier.replaceKeysAt update.verificationKeys clock.replacedAt).1 = .ok () ∧
    authority.verifier.generation < update.verificationKeys.generation ∧
    (ddsVerificationKeysMaxStaleness <
        Instant.durationSince clock.installedAt.monotonicNow clock.replacedAt ∨
      validateProfile claims clock.installedAt.wallTimeSeconds ≠ .ok () ∨
      ¬authority.tokens.Admits claims)

variable {authority : LocalAuthority library} {update : PeerAuthorityUpdate}
  {clock : ReplaceClock} {expiration : ℕ} {candidate verifier : VerificationKeyRing library}

/-- A fresh ring and a profile that holds give the store the candidate's claims. -/
theorem verifiedClaims_committed {claims found : P2PAccessClaims}
    (hval : validateUpdate library authority.peerId authority.domainId update
      clock.toUpdateClock = .ok (expiration, candidate))
    (hclm : candidate.ringClaims update.credential.compact = .ok claims)
    (hrep : authority.verifier.replaceKeysAt update.verificationKeys clock.replacedAt =
      (.ok (), verifier))
    (hnew : authority.verifier.generation < update.verificationKeys.generation) :
    verifiedClaims verifier update.credential authority.peerId (some expiration)
        (some authority.domainId) clock.installedAt = .ok found ↔
      found = claims ∧
      Instant.durationSince clock.installedAt.monotonicNow clock.replacedAt ≤
        ddsVerificationKeysMaxStaleness ∧
      validateProfile claims clock.installedAt.wallTimeSeconds = .ok () := by
  obtain ⟨hring, checked, hchk⟩ := validateUpdate_eq_ok hval
  obtain ⟨hver, hcks⟩ := verifiedClaims_eq_ok_iff.mp hchk
  obtain ⟨hsized, -, hcand, -⟩ := VerificationKeyRing.verifyAt_eq_ok_iff.mp hver
  cases hcand.symm.trans hclm
  obtain ⟨hprs, -, href⟩ := VerificationKeyRing.replaceKeysAt_newer hrep hnew
  have hkeys := Except.ok.inj (hprs.symm.trans (VerificationKeyRing.fromKeys_eq_ok hring))
  have hsm := VerificationKeyRing.ringClaims_congr (congrArg Prod.fst hkeys)
    (congrArg Prod.snd hkeys) update.credential.compact
  rw [verifiedClaims_eq_ok_iff, VerificationKeyRing.verify,
    VerificationKeyRing.verifyAt_eq_ok_iff, hsm, hclm, href]
  constructor
  · rintro ⟨⟨-, hfrs, hf, hprof⟩, -⟩
    cases hf
    exact ⟨rfl, hfrs, hprof⟩
  · rintro ⟨rfl, hfrs, hprof⟩
    exact ⟨⟨hsized, hfrs, rfl, hprof⟩, hcks⟩

theorem ringClaims_of_validateUpdate
    (hval : validateUpdate library authority.peerId authority.domainId update
      clock.toUpdateClock = .ok (expiration, candidate)) :
    ∃ claims, candidate.ringClaims update.credential.compact = .ok claims := by
  obtain ⟨-, claims, hclm⟩ := validateUpdate_eq_ok hval
  obtain ⟨hver, -⟩ := verifiedClaims_eq_ok_iff.mp hclm
  exact ⟨claims, (VerificationKeyRing.verifyAt_eq_ok_iff.mp hver).2.2.1⟩

/-- Once committed, the condition is that the keys are newer and installation fails. -/
theorem commitsKeysOnly_iff
    (hval : validateUpdate library authority.peerId authority.domainId update
      clock.toUpdateClock = .ok (expiration, candidate))
    (hrep : authority.verifier.replaceKeysAt update.verificationKeys clock.replacedAt =
      (.ok (), verifier)) :
    authority.CommitsKeysOnly update clock ↔
      authority.verifier.generation < update.verificationKeys.generation ∧
      ¬(authority.tokens.install update.credential verifier authority.peerId
        (some expiration) (some authority.domainId) clock.installedAt).1.isOk = true := by
  rw [TokenStore.install_isOk_iff]
  constructor
  · rintro ⟨expiration', candidate', claims, hvalid', hclm, -, hnew, href⟩
    cases hval.symm.trans hvalid'
    refine ⟨hnew, ?_⟩
    rintro ⟨found, hf, hadm⟩
    obtain ⟨rfl, hfrs, hprof⟩ := (verifiedClaims_committed hval hclm hrep hnew).mp hf
    rcases href with hsta | hexp | href
    · exact absurd hfrs (Nat.not_le.mpr hsta)
    · exact hexp hprof
    · exact href hadm
  · rintro ⟨hnew, hfail⟩
    obtain ⟨claims, hclm⟩ := ringClaims_of_validateUpdate hval
    refine ⟨expiration, candidate, claims, hval, hclm, by rw [hrep], hnew, ?_⟩
    by_contra hinstalls
    push Not at hinstalls
    obtain ⟨hfrs, hprof, hadm⟩ := hinstalls
    exact hfail ⟨claims, (verifiedClaims_committed hval hclm hrep hnew).mpr
      ⟨rfl, hfrs, hprof⟩, hadm⟩

theorem atomic_replace_iff (authority : LocalAuthority library)
    (update : PeerAuthorityUpdate) (clock : ReplaceClock) :
    Atomic update clock.replacedAt (authority.replace update clock).1 authority
        (authority.replace update clock).2 ↔
      ¬authority.CommitsKeysOnly update clock := by
  unfold replace
  cases hval : validateUpdate library authority.peerId authority.domainId update
      clock.toUpdateClock with
  | error error =>
    refine iff_of_true ⟨rfl, rfl⟩ ?_
    rintro ⟨expiration, candidate, claims, hpas, -⟩
    rw [hval] at hpas
    cases hpas
  | ok bundle =>
    obtain ⟨expiration, candidate⟩ := bundle
    dsimp only
    rcases hrep : authority.verifier.replaceKeysAt update.verificationKeys
        clock.replacedAt with ⟨⟨error⟩ | ⟨⟩, verifier⟩
    · refine iff_of_true ?_ ?_
      · rw [VerificationKeyRing.replaceKeysAt_error hrep]
        exact ⟨rfl, rfl⟩
      · rintro ⟨-, -, -, -, -, hacc, -⟩
        rw [hrep] at hacc
        cases hacc
    · rw [commitsKeysOnly_iff hval hrep]
      dsimp only
      rcases hinst : authority.tokens.install update.credential verifier
        authority.peerId (some expiration) (some authority.domainId) clock.installedAt with
        ⟨⟨error⟩ | ⟨installed⟩, tokens⟩
      · have htok := TokenStore.install_error hinst
        by_cases hnew : authority.verifier.generation < update.verificationKeys.generation
        · apply iff_of_false _
            (not_not_intro ⟨hnew, by simp [Except.isOk, Except.toBool]⟩)
          rintro ⟨hlin, -⟩
          have hgen := (VerificationKeyRing.replaceKeysAt_newer hrep hnew).2.1
          exact absurd (hgen.symm.trans (congrArg Prod.fst hlin))
            (Nat.ne_of_gt hnew)
        · exact iff_of_true
            ⟨VerificationKeyRing.replaceKeysAt_lineage hrep hnew, htok⟩
            fun hcom => hnew hcom.1
      · exact iff_of_true ⟨hrep, TokenStore.install_ok hinst⟩
          fun hcom => hcom.2 rfl

/-- The calls that change an authority, with their results. -/
inductive AuthorityLabel where
  | replace (update : PeerAuthorityUpdate) (clock : ReplaceClock)
      (result : Except P2pError P2PAccessClaims)
  | clear

/-- The calls are serialized by the `updates` mutex. -/
def AuthorityStep (_history : List AuthorityLabel) (source : LocalAuthority library)
    (label : AuthorityLabel) (target : LocalAuthority library) : Prop :=
  match label with
  | .replace update clock result => source.replace update clock = (result, target)
  | .clear => target = source.clear

/-- Sequences of calls on one authority. -/
abbrev AuthorityRun (initial : LocalAuthority library) :
    List AuthorityLabel → LocalAuthority library → Prop :=
  Transition.Run AuthorityStep initial

/-- A `replace` call is atomic exactly when it does not commit the keys only. -/
theorem replace_atomic_unless_keys_only {initial final : LocalAuthority library}
    {before after : List AuthorityLabel} {update : PeerAuthorityUpdate}
    {clock : ReplaceClock} {result : Except P2pError P2PAccessClaims}
    (hrun : AuthorityRun initial
      (before ++ AuthorityLabel.replace update clock result :: after) final) :
    ∃ source target : LocalAuthority library, AuthorityRun initial before source ∧
      source.replace update clock = (result, target) ∧
      AuthorityRun initial (before ++ [AuthorityLabel.replace update clock result]) target ∧
      (Atomic update clock.replacedAt result source target ↔
        ¬source.CommitsKeysOnly update clock) := by
  obtain ⟨source, target, hbefore, hstep, htarget⟩ := hrun.step_at
  have hreplace : source.replace update clock = (result, target) := hstep
  have hatomic := atomic_replace_iff source update clock
  rw [hreplace] at hatomic
  exact ⟨source, target, hbefore, hreplace, htarget, hatomic⟩

/-- An update with key generation `generation` and the token issued at `iat`. -/
def sampleUpdate (generation iat : ℕ) (credential : SignedP2pCredential) :
    PeerAuthorityUpdate where
  domainId := 5
  peerId := samplePeer 1
  verificationKeys := ⟨generation, textBytes "first key", none⟩
  credential := credential
  credentialExpiresAt := Duration.fromSecs (iat + 1800)

def sampleClock : ReplaceClock where
  expirationNow := Duration.fromSecs 1000
  candidateAt := Duration.fromSecs 1000
  checkedAt := ⟨1000, Duration.fromSecs 1000⟩
  replacedAt := Duration.fromSecs 1000
  installedAt := ⟨1000, Duration.fromSecs 1000⟩

def earlierCredential : SignedP2pCredential := ⟨"issued at 990", by decide⟩
def laterCredential : SignedP2pCredential := ⟨"issued at 1000", by decide⟩

/-- The authority of a node that was started with `credential`. -/
def sampleAuthority (iat : ℕ) (credential : SignedP2pCredential) :
    LocalAuthority (sampleLibrary sampleTokens) :=
  ⟨samplePeer 1, 5, sampleRing, ⟨some ⟨credential, sampleClaims iat⟩⟩⟩

theorem start_laterCredential : start (sampleLibrary sampleTokens) (samplePeer 1)
        (sampleUpdate 1 1000 laterCredential) sampleClock.toUpdateClock
        sampleClock.installedAt =
      .ok (sampleAuthority 1000 laterCredential) := by
  decide +kernel

theorem replace_earlierCredential : ∃ target, (sampleAuthority 1000 laterCredential).replace
        (sampleUpdate 2 990 earlierCredential) sampleClock =
        (.error (.staleCredential 1000 990), target) ∧
      target.verifier.generation = 2 := by
  have hout : (((sampleAuthority 1000 laterCredential).replace
      (sampleUpdate 2 990 earlierCredential) sampleClock).1,
      ((sampleAuthority 1000 laterCredential).replace
        (sampleUpdate 2 990 earlierCredential) sampleClock).2.verifier.generation) =
        (.error (.staleCredential 1000 990), 2) := by
    decide +kernel
  generalize (sampleAuthority 1000 laterCredential).replace
    (sampleUpdate 2 990 earlierCredential) sampleClock = outcome at hout ⊢
  obtain ⟨result, target⟩ := outcome
  rw [Prod.mk.injEq] at hout
  exact ⟨target, Prod.ext hout.1 rfl, hout.2⟩

theorem not_atomic_of_generation {update : PeerAuthorityUpdate} {replacedAt : Instant}
    {error : P2pError} {source target : LocalAuthority library}
    (hgen : target.verifier.generation ≠ source.verifier.generation) :
    ¬Atomic update replacedAt (.error error) source target :=
  fun hato => hgen (congrArg Prod.fst hato.1)

/-- In the run that refuses the earlier token, the call commits its keys only. -/
theorem replace_atomic_unless_keys_only_sample :
    ∃ final, AuthorityRun (sampleAuthority 1000 laterCredential)
        ([] ++ [AuthorityLabel.replace (sampleUpdate 2 990 earlierCredential) sampleClock
          (.error (.staleCredential 1000 990))]) final ∧
      (sampleAuthority 1000 laterCredential).CommitsKeysOnly
        (sampleUpdate 2 990 earlierCredential) sampleClock := by
  obtain ⟨final, hreplace, hgeneration⟩ := replace_earlierCredential
  have hrun : AuthorityRun (sampleAuthority 1000 laterCredential)
      ([] ++ [AuthorityLabel.replace (sampleUpdate 2 990 earlierCredential) sampleClock
        (.error (.staleCredential 1000 990))]) final :=
    .extend .start hreplace
  refine ⟨final, hrun, ?_⟩
  obtain ⟨source, target, hsource, hcall, -, hatomic⟩ := replace_atomic_unless_keys_only hrun
  rw [hsource.eq_of_nil] at hcall hatomic
  cases (Prod.mk.injEq _ _ _ _ ▸ hreplace.symm.trans hcall).2
  by_contra hcommits
  exact not_atomic_of_generation (by simp [hgeneration, sampleAuthority, sampleRing])
    (hatomic.mpr hcommits)

/-- The node refuses the older token but keeps the generation that came with it. -/
theorem replace_keeps_refused_keys :
    ∃ initial target, start (sampleLibrary sampleTokens) (samplePeer 1)
        (sampleUpdate 1 1000 laterCredential) sampleClock.toUpdateClock
        sampleClock.installedAt = .ok initial ∧
      initial.replace (sampleUpdate 2 990 earlierCredential) sampleClock =
        (.error (.staleCredential 1000 990), target) ∧
      ¬Atomic (sampleUpdate 2 990 earlierCredential) sampleClock.replacedAt
        (.error (.staleCredential 1000 990)) initial target := by
  obtain ⟨target, hreplace, hgeneration⟩ := replace_earlierCredential
  exact ⟨_, target, start_laterCredential, hreplace,
    not_atomic_of_generation (by simp [hgeneration, sampleAuthority, sampleRing])⟩

end LocalAuthority

end AukiSdk.Authority
