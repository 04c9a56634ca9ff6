import AukiSdk.Authority.AuthenticationSafety
import AukiSdk.Foundation.LengthPrefix

/-!
# Authentication between honest sides

Two sides that run the exchange with each other, over a stream that loses nothing.
-/

namespace AukiSdk.Authority

open AukiSdk.Foundation List
open AukiSdk.Foundation.ByteStream
open AukiSdk.Net

variable {DecodingKey : Type} {library : TokenLibrary DecodingKey}

/-- One side of an exchange, whose writes do not fail. -/
structure HonestSide (library : TokenLibrary DecodingKey) where
  peerId : PeerId
  requirements : SessionRequirements
  environment : AuthenticationEnvironment library
  writes : environment.frameWrite = none ∧ environment.statusWrite = none

namespace HonestSide

variable (side other : HonestSide library)

def token : List UInt8 := textBytes side.environment.localToken

/-- What the side makes of bytes that arrive. -/
def authenticate (incoming : List UInt8) : AuthenticationOutcome :=
  authenticateDuplex side.peerId other.peerId side.requirements side.environment incoming

def localResult : Except P2pError P2PAccessClaims :=
  checkLocalToken side.peerId side.requirements side.environment.localCheck
    side.environment.localToken

def remoteResult : Except P2pError SignedP2pCredential :=
  checkRemoteToken other.peerId side.requirements side.environment.remoteCheck (.ok other.token)

/-- The frame and the status byte of the other side arrive in time. -/
def Hears : Prop :=
  4 + other.token.length ≤ side.environment.frameRead.arrivals ∧
    0 < side.environment.statusRead.arrivals

/-- Both checks before the status byte pass. -/
def accepts : Bool := (side.localResult).isOk && (side.remoteResult other).isOk

def status : UInt8 := if side.accepts other then authAccepted else authRejected

theorem length_token_le : side.token.length ≤ p2pTokenMaxBytes := by
  rw [token, AuthenticationEnvironment.localToken]
  cases side.environment.startTokens.current with
  | none => exact Nat.zero_le _
  | some stored => exact stored.signed.sized.2

variable {side other}

theorem readTokenFrame_frame {failure : P2pError} {token : List UInt8}
    (hsz : token.length ≤ p2pTokenMaxBytes) (rest : List UInt8) :
    readTokenFrame failure (u32ToBeBytes token.length ++ token ++ rest) = (.ok token, rest) := by
  have hlen : u32FromBeBytes (u32ToBeBytes token.length) = token.length :=
    LengthPrefix.u32FromBeBytes_u32ToBeBytes (lt_of_le_of_lt hsz (by decide))
  have hfour : readExact failure 4 (u32ToBeBytes token.length ++ token ++ rest) =
      (.ok (u32ToBeBytes token.length), token ++ rest) := by
    rw [readExact, append_assoc, if_pos (by simp [u32ToBeBytes])]
    rfl
  rw [readTokenFrame, hfour]
  dsimp only
  rw [hlen, if_neg (by omega), readExact, if_pos (by simp), take_left, drop_left]

theorem writeTokenFrame_token : writeTokenFrame side.environment.frameWrite side.token [] =
    (.ok (), u32ToBeBytes side.token.length ++ side.token) := by
  rw [writeTokenFrame, if_neg (Nat.not_lt.mpr side.length_token_le), side.writes.1]
  rfl

variable (side other) in
theorem outgoing_authenticate (incoming : List UInt8) : ∃ status,
    (side.authenticate other incoming).outgoing =
      u32ToBeBytes side.token.length ++ side.token ++ [status] := by
  rw [authenticate, authenticateDuplex, ← token, writeTokenFrame_token]
  dsimp only
  rw [exchangeStatus, side.writes.2]
  dsimp only [writeAll]
  split <;> exact ⟨_, rfl⟩

theorem authenticate_eq (hhea : side.Hears other) {status : UInt8} : side.authenticate other
      (u32ToBeBytes other.token.length ++ other.token ++ [status]) =
    ⟨concludeAuthentication side.peerId other.peerId side.requirements side.environment
        side.localResult (side.remoteResult other) [status], [],
      u32ToBeBytes side.token.length ++ side.token ++ [side.status other]⟩ := by
  have hframe : side.environment.frameRead.run readTokenFrame
      (u32ToBeBytes other.token.length ++ other.token ++ [status]) =
        (.ok other.token, [status]) := by
    have hlen : (u32ToBeBytes other.token.length ++ other.token).length ≤
        side.environment.frameRead.arrivals := by
      rw [length_append, LengthPrefix.length_u32ToBeBytes]
      exact hhea.1
    rw [ReadPhase.run, take_append, take_of_length_le hlen, drop_append,
      drop_eq_nil_of_le hlen, nil_append, readTokenFrame_frame other.length_token_le]
    exact Prod.ext rfl (take_append_drop _ _)
  have hstatus : side.environment.statusRead.run (fun failure => readExact failure 1) [status] =
      (.ok [status], []) := by
    rw [ReadPhase.run, take_of_length_le hhea.2, drop_eq_nil_of_le hhea.2]
    rfl
  rw [authenticate, authenticateDuplex, ← token, writeTokenFrame_token]
  dsimp only
  rw [hframe]
  dsimp only
  rw [exchangeStatus, side.writes.2]
  dsimp only [writeAll]
  rw [hstatus]
  rfl

/-- The checks after the status bytes pass for the credential that was received. -/
def Concludes (side other : HonestSide library) : Prop :=
  validateCurrentLocalAuthority side.environment.finalTokens side.environment.localFinal
      side.peerId side.requirements side.environment.localFinalNow = .ok () ∧
    ∀ credential, side.remoteResult other = .ok credential →
      ∃ peer, finalizeAuthenticatedPeer credential side.environment.remoteFinal
        side.requirements other.peerId side.environment.remoteFinalNow = .ok peer

theorem concludeAuthentication_isOk_iff :
    (∃ peer, concludeAuthentication side.peerId other.peerId side.requirements side.environment
      side.localResult (side.remoteResult other) [other.status side] = .ok peer) ↔
      side.accepts other = true ∧ other.accepts side = true ∧ side.Concludes other := by
  have hstatus : other.status side = authAccepted ↔ other.accepts side = true := by
    rw [status]
    cases other.accepts side <;> decide
  rw [accepts, Bool.and_eq_true]
  constructor
  · rintro ⟨peer, hcon⟩
    obtain ⟨claims, hloc, hcon⟩ := Checks.bind_eq_ok.mp hcon
    obtain ⟨credential, hrem, hcon⟩ := Checks.bind_eq_ok.mp hcon
    obtain ⟨_, hstat, hcon⟩ := Checks.bind_eq_ok.mp hcon
    obtain ⟨_, hcur, hfin⟩ := Checks.bind_eq_ok.mp hcon
    rw [Checks.require_eq_ok, singleton_inj, hstatus] at hstat
    refine ⟨⟨by rw [hloc]; rfl, by rw [hrem]; rfl⟩, hstat, hcur, fun found hf => ⟨peer, ?_⟩⟩
    rw [← Except.ok.inj (hrem.symm.trans hf)]
    exact hfin
  · rintro ⟨⟨hloc, hrem⟩, hstat, hcur, hfin⟩
    obtain ⟨claims, hloc⟩ := Checks.isOk_iff.mp hloc
    obtain ⟨credential, hrem⟩ := Checks.isOk_iff.mp hrem
    obtain ⟨peer, hpeer⟩ := hfin credential hrem
    refine ⟨peer, Checks.bind_eq_ok.mpr ⟨claims, hloc, Checks.bind_eq_ok.mpr ⟨credential, hrem,
      Checks.bind_eq_ok.mpr ⟨(), ?_, Checks.bind_eq_ok.mpr ⟨(), hcur, hpeer⟩⟩⟩⟩⟩
    rw [Checks.require_eq_ok, singleton_inj, hstatus]
    exact hstat

end HonestSide

open HonestSide in
/-- When each side receives what the other one sends, a side authenticates the other exactly
when both accept, before their status bytes, and its own checks pass again at the end. -/
theorem honest_sides_agree (side other : HonestSide library) {sent received : List UInt8}
    (hsent : (side.authenticate other received).outgoing = sent)
    (hreceived : (other.authenticate side sent).outgoing = received)
    (hside : side.Hears other) (hother : other.Hears side) :
    ((∃ peer, (side.authenticate other received).result = .ok peer) ↔
      (side.accepts other = true ∧ other.accepts side = true) ∧ side.Concludes other) ∧
    ((∃ peer, (other.authenticate side sent).result = .ok peer) ↔
      (side.accepts other = true ∧ other.accepts side = true) ∧ other.Concludes side) := by
  obtain ⟨byte, hbyte⟩ := side.outgoing_authenticate other received
  have hback := hreceived
  rw [← hsent, hbyte, authenticate_eq hother] at hback
  rw [← hback, authenticate_eq hside] at hsent
  rw [← hback, ← hsent, authenticate_eq hside, authenticate_eq hother]
  refine ⟨concludeAuthentication_isOk_iff.trans and_assoc.symm, ?_⟩
  exact concludeAuthentication_isOk_iff.trans (and_assoc.symm.trans (and_congr_left' and_comm))

def sampleSide (localPeer remotePeer : PeerId) (tokens : TokenStore) :
    HonestSide (sampleLibrary sampleTokens) where
  peerId := localPeer
  requirements := ⟨5, some remotePeer⟩
  environment := { sampleEnvironment with startTokens := tokens, finalTokens := tokens }
  writes := ⟨rfl, rfl⟩

/-- A side without a credential is not authenticated. -/
theorem honest_sides_agree_sample :
    let side := sampleSide (samplePeer 1) (samplePeer 2) sampleEnvironment.startTokens
    let other := sampleSide (samplePeer 2) (samplePeer 1) ⟨none⟩
    ¬ ∃ peer, (side.authenticate other (u32ToBeBytes 0 ++ [authRejected])).result = .ok peer := by
  intro side other hpeer
  have hreceived : (other.authenticate side
      (side.authenticate other (u32ToBeBytes 0 ++ [authRejected])).outgoing).outgoing =
        u32ToBeBytes 0 ++ [authRejected] := by
    decide +kernel
  have hagree := honest_sides_agree side other rfl hreceived
    ⟨by decide +kernel, by decide +kernel⟩ ⟨by decide +kernel, by decide +kernel⟩
  have hother : other.accepts side = false := by decide +kernel
  have haccepts := (hagree.1.mp hpeer).1.2
  rw [hother] at haccepts
  cases haccepts

end AukiSdk.Authority
