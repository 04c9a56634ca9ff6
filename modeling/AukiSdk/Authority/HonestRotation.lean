import AukiSdk.Authority.KeyRotation
import AukiSdk.Foundation.Run

/-!
# Renewal under an honest key schedule

DDS publishes key sets on a schedule, and peers fetch them.
-/

namespace AukiSdk.Authority

open AukiSdk.Foundation Option
open AukiSdk.Net

deriving instance DecidableEq for DdsVerificationKeys

variable {DecodingKey : Type} {library : TokenLibrary DecodingKey}

def DdsVerificationKeys.validateSuccessor (library : TokenLibrary DecodingKey)
    (keys proposed : DdsVerificationKeys) : Except P2pError VerificationKeyTransition :=
  match parseKeySet library keys with
  | .error error => .error error
  | .ok (current, previous) =>
    match parseKeySet library proposed with
    | .error error => .error error
    | .ok (proposedCurrent, proposedPrevious) =>
      validateKeySuccessor keys.generation current previous proposed.generation
        proposedCurrent proposedPrevious

/-- Each change advances the generation, and keeps a rotated-out key for the overlap. -/
structure HonestSchedule (library : TokenLibrary DecodingKey) where
  keys : Instant → DdsVerificationKeys
  current : Instant → VerificationKey library
  previous : Instant → Option (VerificationKey library)
  parsed : ∀ now, parseKeySet library (keys now) = .ok (current now, previous now)
  advances : ∀ now, keys (now + 1) = keys now ∨
    (keys now).generation < (keys (now + 1)).generation
  overlaps : ∀ now later,
    (current (now + 1)).canonicalPublicKey ≠ (current now).canonicalPublicKey →
    now < later → later ≤ now + ddsPreviousKeyMinOverlap →
      (previous later).map VerificationKey.canonicalPublicKey =
        some (current now).canonicalPublicKey
  retires : ∀ now,
    (current (now + 1)).canonicalPublicKey = (current now).canonicalPublicKey →
      (previous (now + 1)).map VerificationKey.canonicalPublicKey =
        (previous now).map VerificationKey.canonicalPublicKey ∨ previous (now + 1) = none

namespace HonestSchedule

variable (schedule : HonestSchedule library) {first now : Instant}

theorem keys_or_newer (hle : first ≤ now) : schedule.keys now = schedule.keys first ∨
    (schedule.keys first).generation < (schedule.keys now).generation := by
  induction now, hle using Nat.le_induction with
  | base => exact .inl rfl
  | succ now _ ih =>
    obtain hsm | hnew := schedule.advances now
    · rw [hsm]
      exact ih
    · obtain hsm | holder := ih
      · exact .inr (hsm ▸ hnew)
      · exact .inr (holder.trans hnew)

theorem parsed_unique (hsm : schedule.keys now = schedule.keys first) :
    schedule.current now = schedule.current first ∧
      schedule.previous now = schedule.previous first := by
  have hprs := (schedule.parsed now).symm.trans (hsm ▸ schedule.parsed first)
  exact Prod.mk.inj (Except.ok.inj hprs)

theorem unrotated (hle : first ≤ now)
    (hkept : ∀ instant, first ≤ instant → instant < now →
      (schedule.current (instant + 1)).canonicalPublicKey =
        (schedule.current instant).canonicalPublicKey) :
    (schedule.current now).canonicalPublicKey = (schedule.current first).canonicalPublicKey ∧
      ((schedule.previous now).map VerificationKey.canonicalPublicKey =
        (schedule.previous first).map VerificationKey.canonicalPublicKey ∨
          schedule.previous now = none) := by
  induction now, hle using Nat.le_induction with
  | base => exact ⟨rfl, .inl rfl⟩
  | succ now hfst ih =>
    obtain ⟨hcur, hprev⟩ := ih fun instant hins hlt => hkept instant hins (Nat.lt_succ_of_lt hlt)
    have hlast := hkept now hfst (Nat.lt_succ_self now)
    refine ⟨hlast.trans hcur, ?_⟩
    obtain hsm | hnone := schedule.retires now hlast
    · obtain hsame' | hnone := hprev
      · exact .inl (hsm.trans hsame')
      · rw [hnone] at hsm
        exact .inr (map_eq_none_iff.mp hsm)
    · exact .inr hnone

theorem current_ne_previous (now : Instant) :
    (schedule.previous now).map VerificationKey.canonicalPublicKey ≠
      some (schedule.current now).canonicalPublicKey := by
  intro hsm
  obtain ⟨previous, hprev, hkey⟩ := map_eq_some_iff.mp hsm
  have hprs := schedule.parsed now
  unfold parseKeySet at hprs
  split at hprs
  · cases hprs
  · split at hprs
    · cases hprs
    · split at hprs
      · cases hprs
      · rename_i hdist
        obtain ⟨hcurrent', hprevious'⟩ := Prod.mk.inj (Except.ok.inj hprs)
        rw [hprevious', hprev, hcurrent', any_some, decide_eq_true_eq] at hdist
        exact hdist hkey

theorem successor (hle : first ≤ now) (hlt : now < first + ddsPreviousKeyMinOverlap) :
    ∃ transition, validateKeySuccessor (schedule.keys first).generation (schedule.current first)
      (schedule.previous first) (schedule.keys now).generation (schedule.current now)
      (schedule.previous now) = .ok transition := by
  obtain hsm | hnew := schedule.keys_or_newer hle
  · obtain ⟨hcur, hprev⟩ := schedule.parsed_unique hsm
    refine ⟨.exactRefresh, ?_⟩
    rw [hsm, hcur, hprev, validateKeySuccessor, if_neg (Nat.lt_irrefl _), if_pos rfl,
      if_neg (by simp)]
  by_cases hrotated : ∃ instant, first ≤ instant ∧ instant < now ∧
      (schedule.current (instant + 1)).canonicalPublicKey ≠
        (schedule.current instant).canonicalPublicKey
  · -- the first rotation keeps the key of `first` as previous until after `now`
    classical
    obtain ⟨hfst, hpre, hrot⟩ := Nat.find_spec hrotated
    have hunr := schedule.unrotated hfst fun instant hins hpri => by
      by_contra hne
      exact Nat.find_min hrotated hpri ⟨hins, hpri.trans hpre, hne⟩
    have hprev := schedule.overlaps _ now hrot hpre
      (hlt.le.trans (Nat.add_le_add_right hfst _))
    rw [hunr.1] at hprev
    have hchd : (schedule.current now).canonicalPublicKey ≠
        (schedule.current first).canonicalPublicKey := by
      intro hsm
      rw [← hsm] at hprev
      exact schedule.current_ne_previous now hprev
    refine ⟨.rotateCurrent, ?_⟩
    rw [validateKeySuccessor, if_neg (Nat.lt_asymm hnew), if_neg (Nat.ne_of_gt hnew),
      if_pos hchd, if_neg (not_not.mpr hprev)]
  · push Not at hrotated
    obtain ⟨hcur, hprev⟩ := schedule.unrotated hle hrotated
    rw [validateKeySuccessor, if_neg (Nat.lt_asymm hnew), if_neg (Nat.ne_of_gt hnew),
      if_neg (not_not.mpr hcur)]
    obtain hsm | hnone := hprev
    · exact ⟨.generationAdvance, if_neg (not_not.mpr hsm)⟩
    · split
      · exact ⟨.retirePrevious, by rw [hnone]; rfl⟩
      · exact ⟨.generationAdvance, rfl⟩

theorem validateSuccessor_eq (first now : Instant) :
    (schedule.keys first).validateSuccessor library (schedule.keys now) =
      validateKeySuccessor (schedule.keys first).generation (schedule.current first)
        (schedule.previous first) (schedule.keys now).generation (schedule.current now)
        (schedule.previous now) := by
  rw [DdsVerificationKeys.validateSuccessor, schedule.parsed first]
  dsimp only
  rw [schedule.parsed now]

end HonestSchedule

theorem VerificationKeyRing.replaceKeysAt_of_successor (ring : VerificationKeyRing library)
    {keys : DdsVerificationKeys} {current : VerificationKey library}
    {previous : Option (VerificationKey library)} {transition : VerificationKeyTransition}
    (hprs : parseKeySet library keys = .ok (current, previous))
    (hval : validateKeySuccessor ring.generation ring.current ring.previous keys.generation
      current previous = .ok transition) (now : Instant) :
    (∃ next, ring.replaceKeysAt keys now = (.ok (), next) ∧
      (transition = .exactRefresh ∧ next = { ring with lastRefreshedAt := now } ∨
        next.generation = keys.generation ∧ next.current = current ∧
          next.previous = previous)) ∨
    (∃ error, ring.replaceKeysAt keys now = (.error error, ring)) ∧ ring.overlapActive now = true ∧
      (transition = .rotateCurrent ∨ transition = .retirePrevious) := by
  rw [replaceKeysAt, hprs]
  dsimp only
  rw [hval]
  cases transition with
  | exactRefresh => exact .inl ⟨_, rfl, .inl ⟨rfl, rfl⟩⟩
  | generationAdvance => exact .inl ⟨_, rfl, .inr ⟨rfl, rfl, rfl⟩⟩
  | rotateCurrent | retirePrevious =>
    dsimp only
    split
    · rename_i hact
      exact .inr ⟨⟨_, rfl⟩, hact, by simp⟩
    · exact .inl ⟨_, rfl, .inr ⟨rfl, rfl, rfl⟩⟩

/-- `AuthoritySupervisorConfig::default`. -/
def retryInitial : Duration := Duration.fromSecs 1
def retryMax : Duration := Duration.fromSecs 30

inductive RenewalError where
  | staleAuthority
  | verificationKeyGenerationConflict
  | nonAdvancingCredential (current proposed : ℕ)
  | keys (error : P2pError)

/-- `SessionRenewal::renew_authority`, for the material of one fetch. -/
def renewAuthority (library : TokenLibrary DecodingKey) (currentIssuedAt : ℕ)
    (currentKeys : DdsVerificationKeys) (issuedAt : ℕ) (keys : DdsVerificationKeys) :
    Except RenewalError Unit :=
  if issuedAt ≤ currentIssuedAt ∨ keys.generation < currentKeys.generation then
    .error .staleAuthority
  else if keys.generation = currentKeys.generation ∧ keys ≠ currentKeys then
    .error .verificationKeyGenerationConflict
  else
    match currentKeys.validateSuccessor library keys with
    | .error error => .error (.keys error)
    | .ok _ => .ok ()

/-- A peer between two renewal attempts, with what it has installed. -/
structure RenewingPeer (library : TokenLibrary DecodingKey) where
  sessionIssuedAt : ℕ
  sessionKeys : DdsVerificationKeys
  installedKeys : DdsVerificationKeys
  ring : VerificationKeyRing library
  issuedAt : ℕ
  lastAttempt : Instant
  failed : Bool

namespace RenewingPeer

/-- The literal expiry of the installed credential. -/
def expiresAt (peer : RenewingPeer library) : Instant :=
  Duration.fromSecs (peer.issuedAt + p2pTokenTtl.asSecs)

/-- `renewal_time`: at three quarters of the lifetime. -/
def renewAt (peer : RenewingPeer library) : Instant :=
  Duration.fromSecs (peer.issuedAt + p2pTokenTtl.asSecs * 3 / 4)

/-- The latest time of the next attempt. -/
def nextAttempt (peer : RenewingPeer library) : Instant :=
  if peer.failed = true then peer.lastAttempt + retryMax else peer.renewAt

/-- An attempt at `renewAt`, or a retry; `schedule_retry` cuts the delay at the expiry. -/
def Due (peer : RenewingPeer library) (now : Instant) : Prop :=
  if peer.failed = true then
    peer.lastAttempt + min retryInitial (peer.expiresAt - peer.lastAttempt) ≤ now ∧
      now ≤ peer.nextAttempt
  else now = peer.renewAt

instance (peer : RenewingPeer library) (now : Instant) : Decidable (peer.Due now) := by
  unfold Due
  infer_instance

/-- `apply_update`: the keys go to the live verifier before the credential is installed. -/
def applyUpdate (peer : RenewingPeer library) (issuedAt : ℕ) (keys : DdsVerificationKeys)
    (now : Instant) : Except RenewalError (RenewingPeer library) :=
  match peer.installedKeys.validateSuccessor library keys with
  | .error error => .error (.keys error)
  | .ok _ =>
    if issuedAt ≤ peer.issuedAt then
      .error (.nonAdvancingCredential peer.issuedAt issuedAt)
    else
      match peer.ring.replaceKeysAt keys now with
      | (.error error, _) => .error (.keys error)
      | (.ok (), ring) =>
        .ok { peer with installedKeys := keys, ring := ring, issuedAt := issuedAt }

/-- One renewal with the key set and a credential of the moment. -/
def attempt (schedule : HonestSchedule library) (peer : RenewingPeer library) (now : Instant) :
    RenewingPeer library :=
  let issuedAt := now / nanosPerSecond
  let keys := schedule.keys now
  let failure (peer : RenewingPeer library) := { peer with lastAttempt := now, failed := true }
  match renewAuthority library peer.sessionIssuedAt peer.sessionKeys issuedAt keys with
  | .error _ => failure peer
  | .ok () =>
    -- the version moves on also when the update is refused
    let renewed := { peer with sessionIssuedAt := issuedAt, sessionKeys := keys }
    match renewed.applyUpdate issuedAt keys now with
    | .error _ => failure renewed
    | .ok next => { next with lastAttempt := now, failed := false }

def step (schedule : HonestSchedule library) (peer : RenewingPeer library) (now : Instant) :
    Option (RenewingPeer library) :=
  if peer.Due now then some (peer.attempt schedule now) else none

/-- A peer with the key set and a credential of `now`. -/
def start (schedule : HonestSchedule library) (now : Instant) :
    Except P2pError (RenewingPeer library) :=
  (VerificationKeyRing.fromKeys library (schedule.keys now) now).map fun ring =>
    ⟨now / nanosPerSecond, schedule.keys now, schedule.keys now, ring, now / nanosPerSecond, now,
      false⟩

/-- A displaced key's protection ends one retry before the installed credential. -/
def ProtectionEndsFirst (schedule : HonestSchedule library) (peer : RenewingPeer library)
    (now : Instant) : Prop :=
  ∀ deadline, peer.ring.previousProtectedUntil = some deadline → now < deadline →
    (peer.installedKeys.validateSuccessor library (schedule.keys now) = .ok .rotateCurrent ∨
      peer.installedKeys.validateSuccessor library (schedule.keys now) = .ok .retirePrevious) →
    deadline + retryMax ≤ peer.expiresAt

variable {schedule : HonestSchedule library} {peer next : RenewingPeer library}

/-- The peer has installed the key set of `installed`. -/
structure Follows (schedule : HonestSchedule library) (peer : RenewingPeer library)
    (installed : Instant) : Prop where
  installedKeys : peer.installedKeys = schedule.keys installed
  generation : peer.ring.generation = (schedule.keys installed).generation
  current : peer.ring.current = schedule.current installed
  previous : peer.ring.previous = schedule.previous installed
  issuedAt : peer.issuedAt = installed / nanosPerSecond
  sessionKeys : peer.sessionKeys = schedule.keys peer.lastAttempt
  sessionIssuedAt : peer.sessionIssuedAt = peer.lastAttempt / nanosPerSecond
  installed_le : installed ≤ peer.lastAttempt
  accepted : peer.failed = false → peer.lastAttempt = installed
  inTime : peer.nextAttempt < peer.expiresAt

variable {installed : Instant}

theorem Follows.times {now : Instant} (hfol : peer.Follows schedule installed)
    (hdue : peer.Due now) :
    now ≤ peer.nextAttempt ∧ peer.lastAttempt ≤ now ∧
      peer.lastAttempt / nanosPerSecond < now / nanosPerSecond ∧
      now < installed + ddsPreviousKeyMinOverlap ∧
      now < peer.lastAttempt + ddsPreviousKeyMinOverlap := by
  have hseconds : ∀ installed last now expires : ℕ,
      expires = (installed / 1000000000 + 1800) * 1000000000 → installed ≤ last →
      last + 30000000000 < expires → last + min 1000000000 (expires - last) ≤ now →
      now ≤ last + 30000000000 →
        last ≤ now ∧ last / 1000000000 < now / 1000000000 ∧ now < installed + 1860000000000 ∧
          now < last + 1860000000000 := by
    intro installed last now expires
    omega
  have hqua : ∀ installed now : ℕ, now = (installed / 1000000000 + 1350) * 1000000000 →
      installed ≤ now ∧ installed / 1000000000 < now / 1000000000 ∧
        now < installed + 1860000000000 := by
    intro installed now
    omega
  have hexp : peer.expiresAt = (installed / 1000000000 + 1800) * 1000000000 := by
    rw [expiresAt, hfol.issuedAt]
    rfl
  have htime := hfol.inTime
  cases hfail : peer.failed with
  | true =>
    rw [nextAttempt, if_pos hfail] at htime ⊢
    rw [Due, if_pos hfail, nextAttempt, if_pos hfail] at hdue
    obtain ⟨hlast, hnew, hinst, hfet⟩ := hseconds installed peer.lastAttempt now
      peer.expiresAt hexp hfol.installed_le htime hdue.1 hdue.2
    exact ⟨hdue.2, hlast, hnew, hinst, hfet⟩
  | false =>
    rw [Due, if_neg (by simp [hfail])] at hdue
    rw [nextAttempt, if_neg (by simp [hfail])] at htime ⊢
    have hren : now = (installed / 1000000000 + 1350) * 1000000000 := by
      rw [hdue, renewAt, hfol.issuedAt]
      rfl
    obtain ⟨hlast, hnew, hinst⟩ := hqua installed now hren
    rw [hfol.accepted hfail]
    exact ⟨hdue.le, hlast, hnew, hinst, hinst⟩

theorem Follows.renewAuthority {now : Instant} (hfol : peer.Follows schedule installed)
    (hdue : peer.Due now) :
    Authority.renewAuthority library peer.sessionIssuedAt peer.sessionKeys
      (now / nanosPerSecond) (schedule.keys now) = .ok () := by
  obtain ⟨-, hlast, hnew, -, hlt⟩ := hfol.times hdue
  obtain ⟨transition, hsucc⟩ := schedule.successor hlast hlt
  have hgen : (schedule.keys peer.lastAttempt).generation ≤ (schedule.keys now).generation :=
    (schedule.keys_or_newer hlast).elim (fun hsm => le_of_eq (congrArg _ hsm.symm)) le_of_lt
  have hcon : ¬ ((schedule.keys now).generation = (schedule.keys peer.lastAttempt).generation ∧
        schedule.keys now ≠ schedule.keys peer.lastAttempt) := by
    intro ⟨hequ, hne⟩
    exact (schedule.keys_or_newer hlast).elim hne fun hless => Nat.ne_of_gt hless hequ
  rw [Authority.renewAuthority, hfol.sessionIssuedAt, hfol.sessionKeys,
    if_neg (by rw [not_or, not_le, not_lt]; exact ⟨hnew, hgen⟩), if_neg hcon,
    schedule.validateSuccessor_eq, hsucc]

/-- The set of the moment is installed, unless it displaces a protected key. -/
theorem Follows.replaceKeysAt {now : Instant} (hfol : peer.Follows schedule installed)
    (hdue : peer.Due now) :
    (∃ ring, peer.ring.replaceKeysAt (schedule.keys now) now = (.ok (), ring) ∧
      ring.generation = (schedule.keys now).generation ∧ ring.current = schedule.current now ∧
      ring.previous = schedule.previous now) ∨
    (∃ error, peer.ring.replaceKeysAt (schedule.keys now) now = (.error error, peer.ring)) ∧
      peer.ring.overlapActive now = true ∧
      (peer.installedKeys.validateSuccessor library (schedule.keys now) = .ok .rotateCurrent ∨
        peer.installedKeys.validateSuccessor library (schedule.keys now) = .ok .retirePrevious) := by
  obtain ⟨-, hlast, -, hlt, -⟩ := hfol.times hdue
  have hle : installed ≤ now := hfol.installed_le.trans hlast
  obtain ⟨transition, hsucc⟩ := schedule.successor hle hlt
  have hval : peer.installedKeys.validateSuccessor library (schedule.keys now) =
      .ok transition := by
    rw [hfol.installedKeys, schedule.validateSuccessor_eq, hsucc]
  rw [hfol.generation.symm, hfol.current.symm, hfol.previous.symm] at hsucc
  obtain ⟨ring, hrep, hring⟩ | ⟨href, hact, hdis⟩ :=
    peer.ring.replaceKeysAt_of_successor (schedule.parsed now) hsucc now
  · refine .inl ⟨ring, hrep, ?_⟩
    obtain ⟨rfl, rfl⟩ | hnew := hring
    · -- the same generation is the same set
      have hequ := VerificationKeyRing.validateKeySuccessor_ok hsucc
      dsimp only at hequ
      rw [hfol.generation] at hequ
      have hsm : schedule.keys now = schedule.keys installed :=
        (schedule.keys_or_newer hle).resolve_right fun hnwr => Nat.ne_of_gt hnwr hequ
      obtain ⟨hcur, hprev⟩ := schedule.parsed_unique hsm
      exact ⟨hfol.generation.trans hequ.symm, hfol.current.trans hcur.symm,
        hfol.previous.trans hprev.symm⟩
    · exact hnew
  · refine .inr ⟨href, hact, ?_⟩
    rw [hval]
    exact hdis.imp (congrArg Except.ok) (congrArg Except.ok)

/-- The set is installed, or refused while a protected previous key would go. -/
theorem Follows.attempt {now : Instant} (hfol : peer.Follows schedule installed)
    (hdue : peer.Due now) (hgrd : peer.ProtectionEndsFirst schedule now) :
    ((peer.attempt schedule now).Follows schedule now ∧
      (peer.attempt schedule now).failed = false) ∨
    ((peer.attempt schedule now).Follows schedule installed ∧
      (peer.attempt schedule now).expiresAt = peer.expiresAt ∧
      ∃ deadline, peer.ring.previousProtectedUntil = some deadline ∧ now < deadline ∧
        deadline + retryMax ≤ peer.expiresAt) := by
  obtain ⟨-, hlast, hnew, hlt, -⟩ := hfol.times hdue
  have hle : installed ≤ now := hfol.installed_le.trans hlast
  obtain ⟨transition, hsucc⟩ := schedule.successor hle hlt
  have hval : peer.installedKeys.validateSuccessor library (schedule.keys now) =
      .ok transition := by
    rw [hfol.installedKeys, schedule.validateSuccessor_eq, hsucc]
  have hiss : ¬ now / nanosPerSecond ≤ peer.issuedAt := by
    rw [hfol.issuedAt, not_le]
    exact (Nat.div_le_div_right hfol.installed_le).trans_lt hnew
  obtain ⟨ring, hrep, hgen, hcur, hprev⟩ |
    ⟨⟨error, href⟩, hact, hdis⟩ := hfol.replaceKeysAt hdue
  · have hatt : peer.attempt schedule now =
        ⟨now / nanosPerSecond, schedule.keys now, schedule.keys now, ring, now / nanosPerSecond,
          now, false⟩ := by
      simp only [RenewingPeer.attempt, hfol.renewAuthority hdue, applyUpdate, hval,
        if_neg hiss, hrep]
    rw [hatt]
    refine .inl ⟨⟨rfl, hgen, hcur, hprev, rfl, rfl, rfl, le_rfl, fun _ => rfl, ?_⟩,
      rfl⟩
    have hqua : ∀ seconds : ℕ, (seconds + 1350) * 1000000000 < (seconds + 1800) * 1000000000 := by
      intro seconds
      omega
    exact hqua (now / nanosPerSecond)
  · have hatt : peer.attempt schedule now =
        { peer with
          sessionIssuedAt := now / nanosPerSecond
          sessionKeys := schedule.keys now
          lastAttempt := now
          failed := true } := by
      simp only [RenewingPeer.attempt, hfol.renewAuthority hdue, applyUpdate, hval,
        if_neg hiss, href]
    obtain ⟨deadline, hdead, hpre⟩ := any_eq_true _ _ |>.mp hact
    have hends := hgrd deadline hdead (of_decide_eq_true hpre) hdis
    rw [hatt]
    refine .inr ⟨⟨hfol.installedKeys, hfol.generation, hfol.current,
      hfol.previous, hfol.issuedAt, rfl, rfl, hle, (fun hfail => by cases hfail), ?_⟩,
      rfl, deadline, hdead, of_decide_eq_true hpre, hends⟩
    exact (Nat.add_lt_add_right (of_decide_eq_true hpre) retryMax).trans_le hends

theorem follows_start {now : Instant} (hbeg : start schedule now = .ok peer) :
    peer.Follows schedule now := by
  obtain ⟨ring, hring, rfl⟩ := Checks.map_eq_ok.mp hbeg
  rw [VerificationKeyRing.fromKeys, schedule.parsed now] at hring
  cases hring
  refine ⟨rfl, rfl, rfl, rfl, rfl, rfl, rfl, le_rfl, fun _ => rfl, ?_⟩
  have hqua : ∀ seconds : ℕ, (seconds + 1350) * 1000000000 < (seconds + 1800) * 1000000000 := by
    intro seconds
    omega
  exact hqua (now / nanosPerSecond)

end RenewingPeer

/-- Spaced rotations are installed before the installed credential expires. -/
theorem honest_rotation_keeps_authority (schedule : HonestSchedule library) (started : Instant)
    (first last : RenewingPeer library) (attempts : List Instant)
    (hstart : RenewingPeer.start schedule started = .ok first)
    (hguard : GuardedRun (RenewingPeer.step schedule) first
      (RenewingPeer.ProtectionEndsFirst schedule) attempts)
    (hrun : runSteps (RenewingPeer.step schedule) first attempts = some last) :
    last.nextAttempt < last.expiresAt ∧
    ∀ now next, last.step schedule now = some next → last.ProtectionEndsFirst schedule now →
      now < last.expiresAt ∧ next.nextAttempt < next.expiresAt ∧
      (next.installedKeys = schedule.keys now ∧ next.issuedAt = now / nanosPerSecond ∨
        next.expiresAt = last.expiresAt ∧
          ∃ deadline, last.ring.previousProtectedUntil = some deadline ∧ now < deadline ∧
            deadline + retryMax ≤ last.expiresAt) := by
  have hfollows : ∃ installed, last.Follows schedule installed := by
    apply @invariant_of_guardedRun _ _ _ _ _
      (fun peer : RenewingPeer library => ∃ installed, peer.Follows schedule installed)
      ⟨started, RenewingPeer.follows_start hstart⟩ _ _ hguard _ hrun
    rintro peer now next ⟨installed, hpeer⟩ hends hstep
    rw [RenewingPeer.step] at hstep
    split at hstep
    · rename_i hdue
      cases hstep
      exact (hpeer.attempt hdue hends).elim (fun haccepted => ⟨now, haccepted.1⟩)
        fun hrefused => ⟨installed, hrefused.1⟩
    · cases hstep
  obtain ⟨installed, hlast⟩ := hfollows
  refine ⟨hlast.inTime, ?_⟩
  intro now next hstep hends
  rw [RenewingPeer.step] at hstep
  split at hstep
  · rename_i hdue
    cases hstep
    have htime : now < last.expiresAt := (hlast.times hdue).1.trans_lt hlast.inTime
    obtain ⟨haccepted, -⟩ | ⟨hrefused, hexpires, hdeadline⟩ := hlast.attempt hdue hends
    · exact ⟨htime, haccepted.inTime, .inl ⟨haccepted.installedKeys, haccepted.issuedAt⟩⟩
    · exact ⟨htime, hrefused.inTime, .inr ⟨hexpires, hdeadline⟩⟩
  · cases hstep

/-- A library whose keys are their PEM texts and that decodes no token. -/
def rotationLibrary : TokenLibrary Unit where
  publicKeyFromPem text := some (textBytes text)
  decodingKeyFromPem _ := .ok ()
  decode _ _ := .error "InvalidToken"

def keyA : VerificationKey rotationLibrary where
  pem := textBytes "A"
  canonicalPublicKey := textBytes "A"
  decoding := ()
  canonical_eq := by decide +kernel
  decoding_eq := rfl

def keyB : VerificationKey rotationLibrary where
  pem := textBytes "B"
  canonicalPublicKey := textBytes "B"
  decoding := ()
  canonical_eq := by decide +kernel
  decoding_eq := rfl

/-- The first rotation, and the end of its overlap. -/
def rotatedAt : Instant := Duration.fromSecs 60
def retiredAt : Instant := rotatedAt + ddsPreviousKeyMinOverlap

/-- `A`, then `B` with the previous `A` for exactly the minimal overlap, then `B`. -/
def minimalOverlap : HonestSchedule rotationLibrary where
  keys now :=
    if now < rotatedAt then ⟨1, textBytes "A", none⟩
    else if now < retiredAt then ⟨2, textBytes "B", some (textBytes "A")⟩
    else ⟨3, textBytes "B", none⟩
  current now := if now < rotatedAt then keyA else keyB
  previous now := if now < rotatedAt then none else if now < retiredAt then some keyA else none
  parsed now := by
    split
    · decide +kernel
    · split <;> decide +kernel
  advances now := by
    have hsplit : ∀ rotated retired now : ℕ, rotated < retired →
        (now + 1 < rotated ∧ now < rotated) ∨
        (¬ now + 1 < rotated ∧ now < rotated ∧ now + 1 < retired) ∨
        (¬ now < rotated ∧ ¬ now + 1 < rotated ∧ now + 1 < retired ∧ now < retired) ∨
        (¬ now < rotated ∧ ¬ now + 1 < rotated ∧ ¬ now + 1 < retired ∧ now < retired) ∨
        (¬ now < rotated ∧ ¬ now + 1 < rotated ∧ ¬ now + 1 < retired ∧ ¬ now < retired) := by
      intro rotated retired now hlt
      omega
    obtain hcase | hcase | hcase | hcase | hcase :=
      hsplit rotatedAt retiredAt now (by decide) <;> simp [hcase]
  overlaps now later hrotated hafter hwithin := by
    have hnow : now + 1 = rotatedAt := by
      by_contra hne
      have hsame : (now + 1 < rotatedAt) = (now < rotatedAt) :=
        propext ⟨fun hlt => (Nat.lt_succ_self now).trans hlt, fun hlt =>
          lt_of_le_of_ne hlt hne⟩
      simp only [hsame] at hrotated
      exact hrotated rfl
    have hlater : ¬ later < rotatedAt ∧ later < retiredAt := by
      rw [retiredAt, ← hnow, not_lt, Nat.add_right_comm]
      exact ⟨hafter, Nat.lt_succ_of_le hwithin⟩
    have hearlier : now < rotatedAt := hnow ▸ Nat.lt_succ_self now
    simp [hlater, hearlier]
  retires now hkept := by
    by_cases hlast : now + 1 < rotatedAt
    · have hnow : now < rotatedAt := (Nat.lt_succ_self now).trans hlast
      exact .inr (by simp [hlast])
    · by_cases hretired : now + 1 < retiredAt
      · have hnow : ¬ now < rotatedAt := by
          intro hnow
          simp only [hlast, hnow, if_true, if_false] at hkept
          revert hkept
          decide
        exact .inl (by simp [hlast, hnow, hretired, (Nat.lt_succ_self now).trans hretired])
      · exact .inr (by simp [hlast, hretired])

/-- The first renewal observes the rotation; it holds the protection of the old key. -/
def observedRotation : List Instant := [Duration.fromSecs 1350]

/-- The second renewal meets the set without the old key, and so do its retries. -/
def refusedRenewals : List Instant :=
  observedRotation ++ (List.range 16).map fun retry => Duration.fromSecs (2700 + 30 * retry)

def samplePeer0 : RenewingPeer rotationLibrary :=
  ⟨0, ⟨1, textBytes "A", none⟩, ⟨1, textBytes "A", none⟩, ⟨1, keyA, none, none, 0⟩, 0, 0, false⟩

theorem start_samplePeer0 : RenewingPeer.start minimalOverlap 0 = .ok samplePeer0 := by
  have hring : VerificationKeyRing.fromKeys rotationLibrary ⟨1, textBytes "A", none⟩ 0 =
      .ok ⟨1, keyA, none, none, 0⟩ := by decide +kernel
  have hkeys : minimalOverlap.keys 0 = ⟨1, textBytes "A", none⟩ := by decide +kernel
  rw [RenewingPeer.start, hkeys, hring]
  rfl

theorem honest_rotation_keeps_authority_sample :
    ∃ last, runSteps (RenewingPeer.step minimalOverlap) samplePeer0 observedRotation = some last ∧
      last.nextAttempt < last.expiresAt := by
  have htested : ((runSteps (RenewingPeer.step minimalOverlap) samplePeer0
      observedRotation).map fun _ => ()) = some () := by decide +kernel
  obtain ⟨last, hrun, -⟩ := map_eq_some_iff.mp htested
  have hguard : GuardedRun (RenewingPeer.step minimalOverlap) samplePeer0
      (RenewingPeer.ProtectionEndsFirst minimalOverlap) observedRotation := by
    apply GuardedRun.cons
    · intro deadline hdeadline
      cases hdeadline
    · intro next _
      exact GuardedRun.nil _ _ _
  exact ⟨last, hrun, (honest_rotation_keeps_authority minimalOverlap 0 samplePeer0 last
    observedRotation start_samplePeer0 hguard hrun).1⟩

/-- With the minimal overlap every fetch since the second renewal was refused. -/
theorem honest_rotation_interrupts_authority :
    ∃ last, RenewingPeer.start minimalOverlap 0 = .ok samplePeer0 ∧
      runSteps (RenewingPeer.step minimalOverlap) samplePeer0 refusedRenewals = some last ∧
      last.failed = true ∧ last.expiresAt ≤ last.lastAttempt := by
  have htested : ((runSteps (RenewingPeer.step minimalOverlap) samplePeer0
      refusedRenewals).map fun last => decide (last.failed = true ∧
        last.expiresAt ≤ last.lastAttempt)) = some true := by decide +kernel
  obtain ⟨last, hrun, hlast⟩ := map_eq_some_iff.mp htested
  exact ⟨last, start_samplePeer0, hrun, of_decide_eq_true hlast⟩

end AukiSdk.Authority
