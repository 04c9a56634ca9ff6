import AukiSdk.Authority.Authentication

/-!
# Soundness of mutual authentication

An authenticated peer has proved its authority, whatever the remote side sends meanwhile.
-/

namespace AukiSdk.Authority

open AukiSdk.Foundation List
open AukiSdk.Foundation.ByteStream
open AukiSdk.Net

variable {DecodingKey : Type} {library : TokenLibrary DecodingKey}

/-- The token decodes under the current or the previous key of the ring. -/
def VerificationKeyRing.Signs (ring : VerificationKeyRing library) (token : String)
    (claims : P2PAccessClaims) : Prop :=
  ∃ key, (key = ring.current ∨ ring.previous = some key) ∧
    library.decode token key.decoding = .ok claims

/-- The token is valid for a peer and a Domain at one reading of the verifier. -/
structure Verified (reading : VerifierReading library) (token : String) (peerId : PeerId)
    (domainId : Uuid) (claims : P2PAccessClaims) : Prop where
  sized : IsTokenSized token
  fresh : Instant.durationSince reading.clock.monotonicNow reading.ring.lastRefreshedAt ≤
    ddsVerificationKeysMaxStaleness
  signed : reading.ring.Signs token claims
  profile : validateProfile claims reading.clock.wallTimeSeconds = .ok ()
  unexpired : reading.clock.wallTimeSeconds < claims.exp
  peer : claims.peerId = peerId.toText
  domain : domainId.toText ∈ claims.domainIds

/-- The peer reports exactly these claims. -/
structure AuthenticatedPeer.Reports (peer : AuthenticatedPeer) (claims : P2PAccessClaims) :
    Prop where
  peerId : peer.peerId.toText = claims.peerId
  subject : peer.subject = claims.sub
  peerType : peer.peerType = claims.peerType
  domainIds : peer.domainIds.map Uuid.toText = claims.domainIds
  scopes : peer.scopes = claims.scopes
  application : peer.application = claims.application
  verifiedUntil : peer.verifiedUntil = (claims.exp * nanosPerSecond : ℕ)

/-- The bytes begin with the frame of `token`, and `rest` follows it. -/
def BeginsWithFrame (incoming : List UInt8) (token : String) (rest : List UInt8) : Prop :=
  ∃ length bytes, incoming = length ++ bytes ++ rest ∧ length.length = 4 ∧
    u32FromBeBytes length = bytes.length ∧ bytes.length ≤ p2pTokenMaxBytes ∧
    utf8Text bytes = some token

theorem VerificationKeyRing.signs_of_ringClaims {ring : VerificationKeyRing library}
    {token : String} {claims : P2PAccessClaims}
    (hclm : ring.ringClaims token = .ok claims) : ring.Signs token claims := by
  have hdcd : ∀ key : VerificationKey library, decodeClaims token key = .ok claims →
      library.decode token key.decoding = .ok claims := by
    intro key hkey
    unfold decodeClaims at hkey
    cases hdec : library.decode token key.decoding with
    | error error => simp [hdec, Except.mapError] at hkey
    | ok decoded =>
      rw [hdec] at hkey
      cases hkey
      rfl
  unfold ringClaims at hclm
  split at hclm
  · rename_i decoded hcur
    cases hclm
    exact ⟨ring.current, .inl rfl, hdcd _ hcur⟩
  · split at hclm
    · cases hclm
    · rename_i previous hprev
      refine ⟨previous, .inr hprev, hdcd _ ?_⟩
      cases hdec : decodeClaims token previous with
      | error error => simp [hdec, Except.mapError] at hclm
      | ok decoded =>
        rw [hdec] at hclm
        cases hclm
        rfl

theorem VerifierReading.verified_of_verifyWith {reading : VerifierReading library}
    {token : String} {checks : P2PAccessClaims → List (Except P2pError Unit)}
    {peerId : PeerId} {domainId : Uuid} {claims : P2PAccessClaims}
    (hvrf : reading.verifyWith token checks = .ok claims)
    (hpeer : ensureTokenPeer claims peerId ∈ checks claims)
    (hdom : Checks.all (checks claims) = .ok () → claims.namesDomain domainId = true) :
    Verified reading token peerId domainId claims := by
  obtain ⟨hver, hcks⟩ := Checks.checked_eq_ok.mp hvrf
  obtain ⟨hsized, hfrs, hclm, hprof⟩ := VerificationKeyRing.verifyAt_eq_ok_iff.mp hver
  exact ⟨hsized, hfrs, VerificationKeyRing.signs_of_ringClaims hclm, hprof,
    (validateProfile_times hprof).2.1,
    peerId_eq_of_ensureTokenPeer hprof (Checks.all_eq_ok.mp hcks _ hpeer),
    mem_domainIds_of_namesDomain hprof (hdom hcks)⟩

section Checks

variable {localPeerId remotePeerId : PeerId} {requirements : SessionRequirements}
  {reading : VerifierReading library} {claims : P2PAccessClaims}

theorem validateRemote_eq_ok : requirements.validateRemote claims remotePeerId = .ok () ↔
      (∀ expected ∈ requirements.expectedRemotePeerId, expected = remotePeerId) ∧
      claims.namesDomain requirements.domainId = true := by
  simp [SessionRequirements.validateRemote, SessionRequirements.validateDomain, Checks.all_eq_ok]

theorem checkLocalToken_eq_ok {localToken : String}
    (hchk : checkLocalToken localPeerId requirements reading localToken = .ok claims) :
    localToken ≠ "" ∧
      Verified reading localToken localPeerId requirements.domainId claims := by
  unfold checkLocalToken at hchk
  split at hchk
  · cases hchk
  · rename_i hnon
    refine ⟨hnon, VerifierReading.verified_of_verifyWith hchk (by simp) ?_⟩
    simp [Checks.all_eq_ok, SessionRequirements.validateDomain]

theorem checkRemoteToken_eq_ok {remoteToken : Except P2pError (List UInt8)}
    {credential : SignedP2pCredential}
    (hchk : checkRemoteToken remotePeerId requirements reading remoteToken = .ok credential) :
    ∃ bytes claims, remoteToken = .ok bytes ∧ utf8Text bytes = some credential.compact ∧
      Verified reading credential.compact remotePeerId requirements.domainId claims ∧
      ∀ expected ∈ requirements.expectedRemotePeerId, expected = remotePeerId := by
  unfold checkRemoteToken at hchk
  obtain ⟨bytes, hbyt, hchk⟩ := Checks.bind_eq_ok.mp hchk
  obtain ⟨token, htok, hchk⟩ := Checks.bind_eq_ok.mp hchk
  obtain ⟨created, hcre, hchk⟩ := Checks.bind_eq_ok.mp hchk
  obtain ⟨claims, hver, hchk⟩ := Checks.bind_eq_ok.mp hchk
  cases hchk
  have htext : utf8Text bytes = some credential.compact := by
    unfold SignedP2pCredential.new at hcre
    split at hcre
    · cases hcre
      cases hutf8 : utf8Text bytes with
      | none => simp [hutf8] at htok
      | some text =>
        rw [hutf8] at htok
        cases htok
        rfl
    · cases hcre
  have hrem := Checks.all_eq_ok.mp (Checks.checked_eq_ok.mp hver).2
    (requirements.validateRemote claims remotePeerId) (by simp)
  refine ⟨bytes, claims, hbyt, htext,
    VerifierReading.verified_of_verifyWith hver (by simp) fun _ => ?_,
    (validateRemote_eq_ok.mp hrem).1⟩
  exact (validateRemote_eq_ok.mp hrem).2

theorem validateCurrentLocalAuthority_eq_ok {tokens : TokenStore} {now : ℕ}
    (hval : validateCurrentLocalAuthority tokens reading localPeerId requirements now = .ok ()) :
    ∃ stored claims, tokens.current = some stored ∧
      Verified reading stored.signed.compact localPeerId requirements.domainId claims ∧
      now < claims.exp := by
  unfold validateCurrentLocalAuthority at hval
  split at hval
  · cases hval
  · rename_i stored hst
    obtain ⟨claims, hver, -⟩ := Checks.map_eq_ok.mp hval
    have hcks := Checks.all_eq_ok.mp (Checks.checked_eq_ok.mp hver).2
    refine ⟨stored, claims, hst,
      VerifierReading.verified_of_verifyWith hver (by simp) fun _ => ?_, ?_⟩
    · exact Checks.require_eq_ok.mp (hcks (requirements.validateDomain claims) (by simp))
    · exact Checks.require_eq_ok.mp (hcks (ensureLiteralExpiry claims now) (by simp))

theorem map_toText_of_mapM_parseStr {names : List String} {domainIds : List Uuid}
    (hcan : ∀ name ∈ names, ∃ parsed, Uuid.parseStr name = some parsed ∧ parsed.toText = name)
    (hprs : names.mapM Uuid.parseStr = some domainIds) :
    domainIds.map Uuid.toText = names := by
  induction names generalizing domainIds with
  | nil =>
    cases hprs
    rfl
  | cons name rest ih =>
    rw [forall_mem_cons] at hcan
    obtain ⟨⟨parsed, hname, htext⟩, hrest⟩ := hcan
    simp only [mapM_cons, hname, Option.bind_eq_bind, Option.bind_some,
      Option.bind_eq_some_iff, Option.pure_def, Option.some.injEq] at hprs
    obtain ⟨others, hots, rfl⟩ := hprs
    rw [map_cons, htext, ih hrest hots]

theorem authenticatedPeerFromClaims_eq_ok {now : ℕ} {peer : AuthenticatedPeer}
    (hprof : validateProfile claims now = .ok ())
    (hpeer : claims.peerId = remotePeerId.toText)
    (hres : authenticatedPeerFromClaims claims remotePeerId = .ok peer) :
    peer.peerId = remotePeerId ∧ peer.Reports claims := by
  unfold authenticatedPeerFromClaims at hres
  split at hres
  · cases hres
  · rename_i domainIds hprs
    split at hres
    · cases hres
    · rename_i expiration hexp
      cases hres
      refine ⟨rfl, hpeer.symm, rfl, rfl,
        map_toText_of_mapM_parseStr (validateProfile_domainIds hprof) hprs, rfl, rfl, ?_⟩
      unfold dateTimeFromTimestamp at hexp
      split at hexp
      · exact (Option.some.inj hexp).symm
      · cases hexp

theorem finalizeAuthenticatedPeer_eq_ok {credential : SignedP2pCredential} {now : ℕ}
    {peer : AuthenticatedPeer}
    (hfin : finalizeAuthenticatedPeer credential reading requirements remotePeerId now = .ok peer) :
    ∃ claims, Verified reading credential.compact remotePeerId requirements.domainId claims ∧
      now < claims.exp ∧ peer.peerId = remotePeerId ∧ peer.Reports claims := by
  obtain ⟨claims, hvrf, hpeer⟩ := Checks.bind_eq_ok.mp hfin
  have hcks := Checks.all_eq_ok.mp (Checks.checked_eq_ok.mp hvrf).2
  have hrem := hcks (requirements.validateRemote claims remotePeerId) (by simp)
  have hver : Verified reading credential.compact remotePeerId requirements.domainId
      claims :=
    VerifierReading.verified_of_verifyWith hvrf (by simp) fun _ =>
      (validateRemote_eq_ok.mp hrem).2
  exact ⟨claims, hver, Checks.require_eq_ok.mp (hcks (ensureLiteralExpiry claims now) (by simp)),
    authenticatedPeerFromClaims_eq_ok hver.profile hver.peer hpeer⟩

end Checks

theorem readTokenFrame_eq_ok {failure : P2pError} {arrived token rest : List UInt8}
    (hread : readTokenFrame failure arrived = (.ok token, rest)) :
    ∃ front, arrived = front ++ rest ∧ ∃ length, front = length ++ token ∧
      length.length = 4 ∧ u32FromBeBytes length = token.length ∧
      token.length ≤ p2pTokenMaxBytes := by
  unfold readTokenFrame at hread
  split at hread
  · cases hread
  · rename_i length after hlen
    obtain ⟨rfl, hfour⟩ := readExact_eq_ok hlen
    split at hread
    · cases hread
    · rename_i hbdd
      obtain ⟨rfl, hcnt⟩ := readExact_eq_ok hread
      refine ⟨length ++ token, by simp, length, rfl, hfour, hcnt.symm, ?_⟩
      rw [hcnt]
      exact Nat.le_of_not_lt hbdd

theorem length_writeTokenFrame (fault : Option (WriteFault P2pError)) (token : List UInt8) :
    (writeTokenFrame fault token []).2.length ≤ 4 + token.length := by
  unfold writeTokenFrame
  split
  · simp
  · cases fault with
    | none =>
      simp only [writeAll, u32ToBeBytes, nil_append, length_append, length_cons, length_nil]
      omega
    | some fault =>
      simp only [writeAll, u32ToBeBytes, nil_append, length_take,
        length_append, length_cons, length_nil]
      omega

theorem writeTokenFrame_eq_ok {fault : Option (WriteFault P2pError)}
    {token outgoing : List UInt8}
    (hwrt : writeTokenFrame fault token [] = (.ok (), outgoing)) :
    outgoing.length = 4 + token.length := by
  unfold writeTokenFrame at hwrt
  split at hwrt
  · cases hwrt
  · rw [writeAll_eq_ok hwrt]
    simp [u32ToBeBytes]
    omega

section Exchange

variable (localPeerId remotePeerId : PeerId) (requirements : SessionRequirements)
  (environment : AuthenticationEnvironment library) (incoming : List UInt8)

/-- The credential installed at the start is valid for the local peer. -/
def LocalAccepted : Prop :=
  ∃ stored claims, environment.startTokens.current = some stored ∧
    Verified environment.localCheck stored.signed.compact localPeerId requirements.domainId
      claims

/-- The bytes begin with a token frame, then `rest`. -/
def RemoteAccepted (token : String) (rest : List UInt8) : Prop :=
  BeginsWithFrame incoming token rest ∧
    (∃ claims, Verified environment.remoteCheck token remotePeerId requirements.domainId
      claims) ∧
    ∀ expected ∈ requirements.expectedRemotePeerId, expected = remotePeerId

/-- What an authenticated peer has proved, and what is valid again at the end. -/
structure Authenticated (peer : AuthenticatedPeer) : Prop where
  peerId : peer.peerId = remotePeerId
  remote : ∃ token rest finalClaims,
    RemoteAccepted remotePeerId requirements environment incoming token
      (authAccepted :: rest) ∧
    Verified environment.remoteFinal token remotePeerId requirements.domainId finalClaims ∧
    environment.remoteFinalNow < finalClaims.exp ∧ peer.Reports finalClaims
  localStart : LocalAccepted localPeerId requirements environment
  localEnd : ∃ stored claims, environment.finalTokens.current = some stored ∧
    Verified environment.localFinal stored.signed.compact localPeerId
      requirements.domainId claims ∧
    environment.localFinalNow < claims.exp

variable {localPeerId remotePeerId requirements environment incoming}

theorem localAccepted_of_checkLocalToken {claims : P2PAccessClaims}
    (hchk : checkLocalToken localPeerId requirements environment.localCheck
      environment.localToken = .ok claims) :
    LocalAccepted localPeerId requirements environment := by
  obtain ⟨hnon, hver⟩ := checkLocalToken_eq_ok hchk
  unfold AuthenticationEnvironment.localToken at hnon hver
  cases hst : environment.startTokens.current with
  | none => simp [hst] at hnon
  | some stored =>
    rw [hst] at hver
    exact ⟨stored, claims, hst, hver⟩

theorem remoteAccepted_of_checkRemoteToken {credential : SignedP2pCredential}
    (hchk : checkRemoteToken remotePeerId requirements environment.remoteCheck
      (environment.frameRead.run readTokenFrame incoming).1 = .ok credential) :
    RemoteAccepted remotePeerId requirements environment incoming credential.compact
      (environment.frameRead.run readTokenFrame incoming).2 := by
  obtain ⟨bytes, claims, hbyt, htext, hver, hexp⟩ := checkRemoteToken_eq_ok hchk
  obtain ⟨front, hinc, length, rfl, hfour, hlen, hbdd⟩ :=
    ReadPhase.run_eq_ok (Prod.ext hbyt rfl) fun _ _ hread => readTokenFrame_eq_ok hread
  exact ⟨⟨length, bytes, hinc, hfour, hlen, hbdd, htext⟩, ⟨claims, hver⟩, hexp⟩

theorem accepted_of_exchangeStatus {localResult : Except P2pError P2PAccessClaims}
    {remoteResult : Except P2pError SignedP2pCredential} {sent : List UInt8}
    (hstat : authAccepted ∈ (exchangeStatus localPeerId remotePeerId requirements
      environment localResult remoteResult incoming sent).outgoing.drop sent.length) :
    localResult.isOk = true ∧ remoteResult.isOk = true := by
  by_contra hrej
  rw [← Bool.and_eq_true, Bool.not_eq_true] at hrej
  have hout : ∃ count, (exchangeStatus localPeerId remotePeerId requirements
      environment localResult remoteResult incoming sent).outgoing =
        sent ++ [authRejected].take count := by
    unfold exchangeStatus
    rw [hrej]
    cases environment.statusWrite with
    | some fault => exact ⟨fault.written, rfl⟩
    | none =>
      refine ⟨1, ?_⟩
      simp only [writeAll]
      split <;> rfl
  obtain ⟨count, hout⟩ := hout
  rw [hout, drop_left] at hstat
  exact absurd (mem_singleton.mp (mem_of_mem_take hstat)) (by decide)

theorem result_of_exchangeStatus {localResult : Except P2pError P2PAccessClaims}
    {remoteResult : Except P2pError SignedP2pCredential} {sent : List UInt8}
    {peer : AuthenticatedPeer}
    (hres : (exchangeStatus localPeerId remotePeerId requirements environment localResult
      remoteResult incoming sent).result = .ok peer) :
    ∃ status rest, incoming = status ++ rest ∧
      concludeAuthentication localPeerId remotePeerId requirements environment localResult
        remoteResult status = .ok peer := by
  unfold exchangeStatus at hres
  dsimp only at hres
  split at hres
  · cases hres
  · split at hres
    · cases hres
    · rename_i status rest hread
      obtain ⟨front, hinc, hfro⟩ := ReadPhase.run_eq_ok hread
        fun _ _ hstat => ⟨status, (readExact_eq_ok hstat).1, Eq.refl status⟩
      rw [← hfro] at hinc
      exact ⟨status, rest, hinc, hres⟩

/-- An authenticated peer has proved its authority, whatever the remote side sends. -/
theorem authentication_sound (localPeerId remotePeerId : PeerId)
    (requirements : SessionRequirements) (environment : AuthenticationEnvironment library)
    (incoming : List UInt8) :
    (∀ peer, (authenticateDuplex localPeerId remotePeerId requirements environment
        incoming).result = .ok peer →
      Authenticated localPeerId remotePeerId requirements environment incoming peer) ∧
    (authAccepted ∈ (authenticateDuplex localPeerId remotePeerId requirements environment
        incoming).outgoing.drop (4 + (textBytes environment.localToken).length) →
      LocalAccepted localPeerId requirements environment ∧
      ∃ token rest, RemoteAccepted remotePeerId requirements environment incoming token
        rest) := by
  unfold authenticateDuplex
  split
  · rename_i error outgoing hwrite
    have hlength := length_writeTokenFrame environment.frameWrite
      (textBytes environment.localToken)
    rw [hwrite] at hlength
    constructor
    · intro peer hresult
      cases hresult
    · intro hstatus
      rw [drop_eq_nil_of_le hlength] at hstatus
      cases hstatus
  · rename_i outgoing hwrite
    rw [← writeTokenFrame_eq_ok hwrite]
    constructor
    · intro peer hresult
      obtain ⟨status, rest, hrest, hconclude⟩ := result_of_exchangeStatus hresult
      obtain ⟨claims, hlocal, hconclude⟩ := Checks.bind_eq_ok.mp hconclude
      obtain ⟨credential, hremote, hconclude⟩ := Checks.bind_eq_ok.mp hconclude
      obtain ⟨_, hstatus, hconclude⟩ := Checks.bind_eq_ok.mp hconclude
      obtain ⟨_, hcurrent, hfinal⟩ := Checks.bind_eq_ok.mp hconclude
      have haccepted := remoteAccepted_of_checkRemoteToken hremote
      rw [hrest, Checks.require_eq_ok.mp hstatus] at haccepted
      obtain ⟨finalClaims, hverified, hunexpired, hpeer, hreports⟩ :=
        finalizeAuthenticatedPeer_eq_ok hfinal
      exact ⟨hpeer, ⟨credential.compact, rest, finalClaims, haccepted, hverified, hunexpired,
        hreports⟩, localAccepted_of_checkLocalToken hlocal,
        validateCurrentLocalAuthority_eq_ok hcurrent⟩
    · intro hstatus
      obtain ⟨hlocal, hremote⟩ := accepted_of_exchangeStatus hstatus
      obtain ⟨claims, hlocal⟩ := Checks.isOk_iff.mp hlocal
      obtain ⟨credential, hremote⟩ := Checks.isOk_iff.mp hremote
      exact ⟨localAccepted_of_checkLocalToken hlocal, credential.compact, _,
        remoteAccepted_of_checkRemoteToken hremote⟩

end Exchange

theorem sampleText_sized : IsTokenSized "issued at 1000" := by decide

def sampleEnvironment : AuthenticationEnvironment (sampleLibrary sampleTokens) :=
  let tokens : TokenStore := ⟨some ⟨⟨"issued at 1000", sampleText_sized⟩, sampleClaims 1000⟩⟩
  let reading : VerifierReading (sampleLibrary sampleTokens) :=
    ⟨sampleRing, 1000, Duration.fromSecs 1000⟩
  let phase : ReadPhase P2pError := ⟨1000, .authenticationTimeout⟩
  ⟨tokens, none, phase, reading, reading, none, phase, 1000, tokens, reading, 1000, reading⟩

def sampleIncoming : List UInt8 :=
  u32ToBeBytes 16 ++ textBytes "issued to peer 2" ++ [authAccepted, 7]

def sampleRequirements : SessionRequirements := ⟨5, some (samplePeer 2)⟩

def sampleAuthenticatedPeer : AuthenticatedPeer :=
  ⟨samplePeer 2, "subject", some "robot", [5], [], none, Duration.fromSecs 2800⟩

theorem authentication_sound_sample :
    Authenticated (samplePeer 1) (samplePeer 2) sampleRequirements sampleEnvironment
        sampleIncoming sampleAuthenticatedPeer ∧
      LocalAccepted (samplePeer 1) sampleRequirements sampleEnvironment := by
  have houtcome : ((authenticateDuplex (samplePeer 1) (samplePeer 2) sampleRequirements
      sampleEnvironment sampleIncoming).result,
      (authenticateDuplex (samplePeer 1) (samplePeer 2) sampleRequirements
        sampleEnvironment sampleIncoming).outgoing.drop
          (4 + (textBytes sampleEnvironment.localToken).length)) =
      (.ok sampleAuthenticatedPeer, [authAccepted]) := by
    decide +kernel
  obtain ⟨hresult, hstatus⟩ := Prod.mk.inj houtcome
  obtain ⟨hauthenticated, haccepted⟩ := authentication_sound (samplePeer 1) (samplePeer 2)
    sampleRequirements sampleEnvironment sampleIncoming
  refine ⟨hauthenticated _ hresult, (haccepted ?_).1⟩
  rw [hstatus]
  exact mem_singleton_self _

end AukiSdk.Authority
