import AukiSdk.Protocols.Blob
import AukiSdk.Foundation.Protobuf

/-!
# What a client assembles

An assembled blob has the requested hash, whatever the other end does.
-/

namespace AukiSdk.Protocols

open AukiSdk.Foundation AukiSdk.Registry List
open LengthPrefix (FrameError frame takeFrame takeFrame_frame)

section AnyRemote

variable {State : Type} {messages : BlobMessages} {side : ClientSide} {remote : Remote State}
  {sha256 : Text}

variable {chunk : List UInt8}

theorem validate_of_readBlobResponse {incoming rest : List UInt8} {info : BlobChunkMeta}
    (hread : readBlobResponse messages incoming = .ok ((.ok info, chunk), rest)) :
    info.validate = .ok () := by
  obtain ⟨⟨body, after⟩, -, hread⟩ := Checks.bind_eq_ok.mp hread
  obtain ⟨status, -, hread⟩ := Checks.bind_eq_ok.mp hread
  split at hread
  · cases hread
  · obtain ⟨⟨⟩, hval, hread⟩ := Checks.bind_eq_ok.mp hread
    obtain ⟨-, hread⟩ := Checks.require_bind_eq_ok.mp hread
    cases hread
    exact hval
  · rename_i ho
    cases hread
    exact absurd rfl (ho info)

theorem totalSize_le {info : BlobChunkMeta} (hval : info.validate = .ok ()) :
    info.totalSize ≤ maxBlobBytes := by
  rw [BlobChunkMeta.validate, Checks.all_eq_ok] at hval
  exact Checks.require_eq_ok.mp (hval _ (mem_cons_of_mem _ mem_cons_self))

variable {assembly next : Assembly State}

theorem blobRoundTrip_eq_ok {info : BlobChunkMeta}
    (hrou : blobRoundTrip messages side remote sha256 assembly = .ok ((info, chunk), next)) :
    info.validate = .ok () ∧ next.requests = assembly.requests + 1 := by
  obtain ⟨written, -, hrou⟩ := Checks.bind_eq_ok.mp hrou
  obtain ⟨-, hrou⟩ := Checks.require_bind_eq_ok.mp hrou
  obtain ⟨⟨⟨response, found⟩, rest⟩, hread, hrou⟩ := Checks.bind_eq_ok.mp hrou
  rw [Checks.mapError_eq_ok] at hread
  cases response with
  | notFound => cases hrou
  | error reason => cases hrou
  | ok announced =>
    obtain ⟨-, hrou⟩ := Checks.require_bind_eq_ok.mp hrou
    obtain ⟨-, hrou⟩ := Checks.require_bind_eq_ok.mp hrou
    cases hrou
    exact ⟨validate_of_readBlobResponse hread, rfl⟩

theorem takeChunk_eq_ok {totalSize : ℕ} {complete : Bool}
    (htake : assembly.takeChunk totalSize chunk = .ok (next, complete)) :
    next.requests = assembly.requests ∧ next.expectedTotal = assembly.expectedTotal := by
  unfold Assembly.takeChunk at htake
  split at htake
  · cases htake
    exact ⟨rfl, rfl⟩
  · split at htake
    · cases htake
    · dsimp only at htake
      split at htake
      · cases htake
      · cases htake
        exact ⟨rfl, rfl⟩

theorem assembleRound_eq_ok {complete : Bool}
    (hrou : assembleRound messages side remote sha256 assembly = .ok (next, complete)) :
    next.requests = assembly.requests + 1 ∧
      ∀ expected, next.expectedTotal = some expected → expected ≤ maxBlobBytes := by
  obtain ⟨⟨⟨info, chunk⟩, answered⟩, htrip, hrou⟩ := Checks.bind_eq_ok.mp hrou
  obtain ⟨⟨⟩, -, htake⟩ := Checks.bind_eq_ok.mp hrou
  obtain ⟨hval, hreqs⟩ := blobRoundTrip_eq_ok htrip
  obtain ⟨hsm, htot⟩ := takeChunk_eq_ok htake
  constructor
  · rw [hsm, hreqs]
  · intro expected hexp
    cases htot.symm.trans hexp
    exact totalSize_le hval

theorem assembleRounds_eq_ok {rounds : ℕ} {last : Assembly State}
    (hrnd : assembleRounds messages side remote sha256 rounds assembly = .ok last) :
    last.requests ≤ assembly.requests + rounds ∧
      ∀ expected, last.expectedTotal = some expected → expected ≤ maxBlobBytes := by
  induction rounds generalizing assembly with
  | zero => cases hrnd
  | succ rounds ih =>
    obtain ⟨⟨next, complete⟩, hrou, hrest⟩ := Checks.bind_eq_ok.mp hrnd
    obtain ⟨hreqs, htot⟩ := assembleRound_eq_ok hrou
    cases complete with
    | true =>
      cases hrest
      exact ⟨by omega, htot⟩
    | false =>
      obtain ⟨hlast, hlas⟩ := ih hrest
      exact ⟨by omega, hlas⟩

theorem assembleBlob_eq_ok {start : State} {bytes : List UInt8} {requests : ℕ}
    (hblob : assembleBlob messages side remote sha256 start = .ok (bytes, requests)) :
    side.sha256Hex bytes = sha256 ∧ bytes.length ≤ maxBlobBytes ∧ requests ≤ maxBlobRounds := by
  obtain ⟨-, hblob⟩ := Checks.require_bind_eq_ok.mp hblob
  obtain ⟨assembly, hrou, hblob⟩ := Checks.bind_eq_ok.mp hblob
  obtain ⟨hreqs, htot⟩ := assembleRounds_eq_ok hrou
  cases hexp : assembly.expectedTotal with
  | none =>
    rw [hexp] at hblob
    cases hblob
  | some expected =>
    rw [hexp] at hblob
    obtain ⟨hlen, hblob⟩ := Checks.require_bind_eq_ok.mp hblob
    obtain ⟨hhash, hblob⟩ := Checks.require_bind_eq_ok.mp hblob
    cases hblob
    refine ⟨hhash, ?_, ?_⟩
    · rw [hlen]
      exact htot expected hexp
    · rw [Nat.zero_add] at hreqs
      exact hreqs

end AnyRemote

/-- Valid messages are decoded again and fit into a frame. -/
structure BlobMessages.Lawful (messages : BlobMessages) : Prop where
  request : ∀ request : BlobRequest, request.validate = .ok () →
    messages.decodeRequest (messages.encodeRequest request) = .ok request
  requestLength : ∀ request : BlobRequest, request.validate = .ok () →
    0 < (messages.encodeRequest request).length ∧
      (messages.encodeRequest request).length ≤ maxBlobMetaBytes
  response : ∀ info : BlobChunkMeta, info.validate = .ok () →
    messages.decodeResponse (messages.encodeResponse (.ok info)) = .ok (some (.ok info))
  responseLength : ∀ info : BlobChunkMeta, info.validate = .ok () →
    0 < (messages.encodeResponse (.ok info)).length ∧
      (messages.encodeResponse (.ok info)).length ≤ maxBlobMetaBytes

section Lawful

variable {messages : BlobMessages} {request : BlobRequest} {info : BlobChunkMeta}

theorem readBlobFrame_frame {body : List UInt8} (hpos : 0 < body.length)
    (hlen : body.length ≤ maxBlobMetaBytes) (rest : List UInt8) :
    readBlobFrame (frame body ++ rest) = .ok (body, rest) := by
  rw [readBlobFrame, takeFrame_frame (by decide) hpos hlen]

theorem writeBlobFrame_of_le {body : List UInt8} (hlen : body.length ≤ maxBlobMetaBytes) :
    writeBlobFrame body = .ok (frame body) :=
  if_neg (not_lt.mpr hlen)

theorem writeBlobRequest_of_valid (hlaw : messages.Lawful)
    (hval : request.validate = .ok ()) :
    writeBlobRequest messages request = .ok (frame (messages.encodeRequest request)) := by
  rw [writeBlobRequest, hval]
  exact writeBlobFrame_of_le (hlaw.requestLength request hval).2

theorem readBlobRequest_frame (hlaw : messages.Lawful) (hval : request.validate = .ok ())
    (rest : List UInt8) :
    readBlobRequest messages (frame (messages.encodeRequest request) ++ rest) =
      .ok (request, rest) := by
  obtain ⟨hpos, hlen⟩ := hlaw.requestLength request hval
  apply Checks.bind_eq_ok.mpr
  refine ⟨_, readBlobFrame_frame hpos hlen rest, ?_⟩
  apply Checks.bind_eq_ok.mpr
  refine ⟨request, Checks.mapError_eq_ok.mpr (hlaw.request request hval), ?_⟩
  exact Checks.bind_eq_ok.mpr ⟨(), hval, rfl⟩

theorem writeBlobResponse_of_valid (hlaw : messages.Lawful) (hval : info.validate = .ok ())
    {chunk : List UInt8} (hchk : chunk.length = info.chunkLen) :
    writeBlobResponse messages (.ok info) chunk =
      .ok (frame (messages.encodeResponse (.ok info)) ++ chunk) := by
  apply Checks.bind_eq_ok.mpr
  refine ⟨(), hval, ?_⟩
  apply Checks.require_bind_eq_ok.mpr
  refine ⟨hchk, ?_⟩
  exact Checks.bind_eq_ok.mpr
    ⟨_, writeBlobFrame_of_le (hlaw.responseLength info hval).2, rfl⟩

theorem readBlobResponse_frame (hlaw : messages.Lawful) (hval : info.validate = .ok ())
    {chunk : List UInt8} (hchk : chunk.length = info.chunkLen) (rest : List UInt8) :
    readBlobResponse messages
        (frame (messages.encodeResponse (.ok info)) ++ chunk ++ rest) =
      .ok ((.ok info, chunk), rest) := by
  obtain ⟨hpos, hlen⟩ := hlaw.responseLength info hval
  rw [append_assoc]
  apply Checks.bind_eq_ok.mpr
  refine ⟨_, readBlobFrame_frame hpos hlen (chunk ++ rest), ?_⟩
  apply Checks.bind_eq_ok.mpr
  refine ⟨_, Checks.mapError_eq_ok.mpr (hlaw.response info hval), ?_⟩
  apply Checks.bind_eq_ok.mpr
  refine ⟨(), hval, ?_⟩
  apply Checks.require_bind_eq_ok.mpr
  constructor
  · rw [length_append, ← hchk]
    omega
  · rw [← hchk, take_left, drop_left]

end Lawful

section Stored

variable {messages : BlobMessages} {files : Files} {appRoot : Path} {sha256 : Text}
  {blob : List UInt8} {chunkSize offset : ℕ}

/-- A blob within the limit is in its place. -/
structure Stored (files : Files) (appRoot : Path) (sha256 : Text) (blob : List UInt8) : Prop where
  address : isSha256Hex sha256 = true
  file : files (blobPath appRoot sha256) = some blob
  length : blob.length ≤ maxBlobBytes

/-- The chunk at an offset. -/
def chunkAt (blob : List UInt8) (chunkSize offset : ℕ) : List UInt8 :=
  (blob.drop offset).take (min chunkSize maxBlobChunkBytes)

theorem length_chunkAt (blob : List UInt8) (chunkSize offset : ℕ) :
    (chunkAt blob chunkSize offset).length =
      min (min chunkSize maxBlobChunkBytes) (blob.length - offset) := by
  rw [chunkAt, length_take, length_drop]

theorem validate_request (hst : Stored files appRoot sha256 blob)
    (hoff : offset ≤ blob.length) :
    (⟨sha256, offset, maxBlobChunkBytes⟩ : BlobRequest).validate = .ok () := by
  have hlim := hst.length
  rw [BlobRequest.validate, Checks.all_eq_ok]
  simp only [forall_mem_cons, not_mem_nil, IsEmpty.forall_iff, implies_true, and_true,
    Checks.require_eq_ok]
  exact ⟨hst.address, by decide, hoff.trans hlim⟩

theorem validate_chunk (hst : Stored files appRoot sha256 blob)
    (hoff : offset ≤ blob.length) :
    (⟨sha256, offset, blob.length, (chunkAt blob chunkSize offset).length⟩ :
      BlobChunkMeta).validate = .ok () := by
  have hlen := length_chunkAt blob chunkSize offset
  rw [BlobChunkMeta.validate, Checks.all_eq_ok]
  simp only [forall_mem_cons, not_mem_nil, IsEmpty.forall_iff, implies_true, and_true,
    Checks.require_eq_ok]
  refine ⟨hst.address, hst.length, hoff, ?_, ?_⟩
  · omega
  · omega

theorem readBlobRange_of_stored (hst : Stored files appRoot sha256 blob)
    (hchk : 0 < chunkSize) (hoff : offset ≤ blob.length) :
    fsBlobProvider files appRoot chunkSize ⟨sha256, offset, maxBlobChunkBytes⟩ =
      .ok (some (blob.length, chunkAt blob chunkSize offset)) := by
  have hpst : min chunkSize maxBlobChunkBytes ≠ 0 := by
    rw [maxBlobChunkBytes]
    omega
  have hrange : readBlobRange files appRoot sha256 offset (min chunkSize maxBlobChunkBytes) =
      .ok (some (blob.length, chunkAt blob chunkSize offset)) := by
    rw [readBlobRange, if_neg (by rw [hst.address]; decide), if_neg hpst, hst.file]
    dsimp only
    rw [if_neg (not_lt.mpr hst.length), if_neg (not_lt.mpr hoff)]
    rfl
  rw [fsBlobProvider]
  dsimp only
  rw [hrange]

theorem providerResponse_of_stored (hst : Stored files appRoot sha256 blob)
    (hchk : 0 < chunkSize) (hoff : offset ≤ blob.length) :
    providerResponse ⟨sha256, offset, maxBlobChunkBytes⟩
        (fsBlobProvider files appRoot chunkSize ⟨sha256, offset, maxBlobChunkBytes⟩) =
      (.ok ⟨sha256, offset, blob.length, (chunkAt blob chunkSize offset).length⟩,
        chunkAt blob chunkSize offset) := by
  have hlen := length_chunkAt blob chunkSize offset
  have hsma : (chunkAt blob chunkSize offset).length ≤ maxBlobChunkBytes := by omega
  have hnon : ¬ ((chunkAt blob chunkSize offset).length = 0 ∧ offset < blob.length) := by
    rw [maxBlobChunkBytes] at hlen
    omega
  have hword : ¬ 2 ^ 32 ≤ (chunkAt blob chunkSize offset).length := by
    rw [maxBlobChunkBytes] at hsma
    omega
  rw [readBlobRange_of_stored hst hchk hoff, providerResponse]
  dsimp only
  rw [if_neg hword, if_neg (not_lt.mpr hoff), if_neg (not_lt.mpr hst.length),
    if_neg (by omega), if_neg (by omega), if_neg hnon]

/-- What the server is after a request, with `rounds` rounds left. -/
def serverWith (rounds : ℕ) : BlobServer :=
  if rounds = 0 then .returned else .serving rounds []

theorem serveRequests_nil (provider : BlobProvider) (rounds : ℕ) :
    serveRequests messages provider rounds [] = (serverWith rounds, []) := by
  cases rounds with
  | zero => rfl
  | succ rounds => rfl

theorem answer_of_stored (hlaw : messages.Lawful) (hst : Stored files appRoot sha256 blob)
    (hchk : 0 < chunkSize) (hoff : offset ≤ blob.length) (rounds : ℕ) :
    (blobServer messages (fsBlobProvider files appRoot chunkSize)).answer (serverWith (rounds + 1))
        (frame (messages.encodeRequest ⟨sha256, offset, maxBlobChunkBytes⟩)) =
      (serverWith rounds, frame (messages.encodeResponse
          (.ok ⟨sha256, offset, blob.length, (chunkAt blob chunkSize offset).length⟩)) ++
            chunkAt blob chunkSize offset) := by
  have hread := readBlobRequest_frame hlaw (validate_request hst hoff) []
  rw [append_nil] at hread
  have hsvr : serverWith (rounds + 1) = .serving (rounds + 1) [] := if_neg (Nat.succ_ne_zero rounds)
  rw [hsvr, blobServer]
  dsimp only
  rw [nil_append, serveRequests, hread]
  dsimp only
  rw [providerResponse_of_stored hst hchk hoff]
  dsimp only
  rw [writeBlobResponse_of_valid hlaw (validate_chunk hst hoff) rfl]
  dsimp only
  rw [serveRequests_nil, append_nil]

/-- A client that has read up to an offset, and a server that waits. -/
def assemblyAt (blob : List UInt8) (offset rounds requests : ℕ) : Assembly BlobServer where
  remote := serverWith rounds
  bytes := blob.take offset
  offset := offset
  expectedTotal := if offset = 0 then none else some blob.length
  requests := requests

variable {side : ClientSide}

/-- A client whose own side does not fail. -/
structure ClientSide.Works (side : ClientSide) : Prop where
  writes : ∀ round, side.writes round = true
  reserves : ∀ size ≤ maxBlobBytes, side.reserves size = true

theorem blobRoundTrip_of_stored (hlaw : messages.Lawful) (hwor : side.Works)
    (hst : Stored files appRoot sha256 blob) (hchk : 0 < chunkSize)
    (hoff : offset ≤ blob.length) (rounds requests : ℕ) :
    blobRoundTrip messages side (blobServer messages (fsBlobProvider files appRoot chunkSize))
        sha256 (assemblyAt blob offset (rounds + 1) requests) =
      .ok ((⟨sha256, offset, blob.length, (chunkAt blob chunkSize offset).length⟩,
          chunkAt blob chunkSize offset),
        { assemblyAt blob offset (rounds + 1) requests with
          remote := serverWith rounds
          requests := requests + 1 }) := by
  have hval : (⟨sha256, offset, blob.length, (chunkAt blob chunkSize offset).length⟩ :
      BlobChunkMeta).validate = .ok () := validate_chunk hst hoff
  have hread := readBlobResponse_frame hlaw hval rfl []
  rw [append_nil] at hread
  have hsma : (chunkAt blob chunkSize offset).length ≤ maxBlobChunkBytes := by
    have hlen := length_chunkAt blob chunkSize offset
    omega
  apply Checks.bind_eq_ok.mpr
  refine ⟨_, Checks.mapError_eq_ok.mpr
    (writeBlobRequest_of_valid hlaw (validate_request hst hoff)), ?_⟩
  apply Checks.require_bind_eq_ok.mpr
  refine ⟨hwor.writes _, ?_⟩
  rw [assemblyAt, answer_of_stored hlaw hst hchk hoff]
  apply Checks.bind_eq_ok.mpr
  refine ⟨_, Checks.mapError_eq_ok.mpr hread, ?_⟩
  apply Checks.require_bind_eq_ok.mpr
  refine ⟨⟨rfl, rfl⟩, ?_⟩
  apply Checks.require_bind_eq_ok.mpr
  exact ⟨⟨hsma, hsma⟩, rfl⟩

theorem take_append_chunkAt (blob : List UInt8) (chunkSize offset : ℕ) :
    blob.take offset ++ chunkAt blob chunkSize offset =
      blob.take (offset + (chunkAt blob chunkSize offset).length) := by
  have hchk : chunkAt blob chunkSize offset =
      (blob.drop offset).take (chunkAt blob chunkSize offset).length := by
    rw [length_chunkAt, chunkAt, take_eq_take_iff, length_drop]
    omega
  rw [take_add, ← hchk]

theorem checkTotal_of_stored (hwor : side.Works) (hst : Stored files appRoot sha256 blob) :
    side.checkTotal (if offset = 0 then none else some blob.length) blob.length = .ok () := by
  by_cases hzero : offset = 0
  · rw [if_pos hzero, ClientSide.checkTotal, Checks.require_eq_ok]
    exact hwor.reserves blob.length hst.length
  · rw [if_neg hzero, ClientSide.checkTotal, Checks.require_eq_ok]

theorem assembleRound_of_stored (hlaw : messages.Lawful) (hwor : side.Works)
    (hst : Stored files appRoot sha256 blob) (hchk : 0 < chunkSize)
    (hoff : offset < blob.length) (rounds requests : ℕ) :
    assembleRound messages side (blobServer messages (fsBlobProvider files appRoot chunkSize))
        sha256 (assemblyAt blob offset (rounds + 1) requests) =
      .ok (assemblyAt blob (offset + (chunkAt blob chunkSize offset).length) rounds (requests + 1),
        decide (offset + (chunkAt blob chunkSize offset).length = blob.length)) := by
  have hlen := length_chunkAt blob chunkSize offset
  have hpst : 0 < (chunkAt blob chunkSize offset).length := by
    rw [maxBlobChunkBytes] at hlen
    omega
  apply Checks.bind_eq_ok.mpr
  refine ⟨_, blobRoundTrip_of_stored hlaw hwor hst hchk hoff.le rounds requests, ?_⟩
  apply Checks.bind_eq_ok.mpr
  refine ⟨(), checkTotal_of_stored hwor hst, ?_⟩
  have hnon : chunkAt blob chunkSize offset ≠ [] := ne_nil_of_length_pos hpst
  have hfits : ¬ blob.length < offset + (chunkAt blob chunkSize offset).length := by omega
  have htot : blob.length ≠ 0 := by omega
  have hn : offset + (chunkAt blob chunkSize offset).length ≠ 0 := by omega
  simp only [Assembly.takeChunk, assemblyAt, if_neg htot, if_neg hnon, if_neg hfits,
    if_neg hn, take_append_chunkAt]
  rfl

theorem assembleRound_of_empty (hlaw : messages.Lawful) (hwor : side.Works)
    (hst : Stored files appRoot sha256 []) (hchk : 0 < chunkSize) (rounds requests : ℕ) :
    ∃ last, assembleRound messages side
        (blobServer messages (fsBlobProvider files appRoot chunkSize)) sha256
        (assemblyAt [] 0 (rounds + 1) requests) = .ok (last, true) ∧
      last.bytes = [] ∧ last.expectedTotal = some 0 := by
  have htrip := blobRoundTrip_of_stored hlaw hwor hst hchk (le_refl 0) rounds requests
  have hchk : side.checkTotal none 0 = .ok () :=
    Checks.require_eq_ok.mpr (hwor.reserves 0 (Nat.zero_le _))
  refine ⟨_, Checks.bind_eq_ok.mpr ⟨_, htrip, Checks.bind_eq_ok.mpr ⟨(), hchk, rfl⟩⟩, rfl, rfl⟩

theorem assembleRounds_of_stored (hlaw : messages.Lawful) (hwor : side.Works)
    (hst : Stored files appRoot sha256 blob) (hchk : 0 < chunkSize) (rounds : ℕ)
    (hoff : offset < blob.length) (requests : ℕ) :
    if blob.length ≤ offset + rounds * min chunkSize maxBlobChunkBytes then
      ∃ last, assembleRounds messages side
          (blobServer messages (fsBlobProvider files appRoot chunkSize)) sha256 rounds
          (assemblyAt blob offset rounds requests) = .ok last ∧
        last.bytes = blob ∧ last.expectedTotal = some blob.length
    else
      assembleRounds messages side (blobServer messages (fsBlobProvider files appRoot chunkSize))
        sha256 rounds (assemblyAt blob offset rounds requests) = .error .tooManyRounds := by
  induction rounds generalizing offset requests with
  | zero =>
    rw [if_neg (by omega)]
    rfl
  | succ rounds ih =>
    have hlen := length_chunkAt blob chunkSize offset
    have hrou := assembleRound_of_stored hlaw hwor hst hchk hoff rounds requests
    have hunf : assembleRounds messages side
        (blobServer messages (fsBlobProvider files appRoot chunkSize)) sha256 (rounds + 1)
        (assemblyAt blob offset (rounds + 1) requests) =
        if decide (offset + (chunkAt blob chunkSize offset).length = blob.length) = true then
          .ok (assemblyAt blob (offset + (chunkAt blob chunkSize offset).length) rounds
            (requests + 1))
        else
          assembleRounds messages side
            (blobServer messages (fsBlobProvider files appRoot chunkSize)) sha256 rounds
            (assemblyAt blob (offset + (chunkAt blob chunkSize offset).length) rounds
              (requests + 1)) := by
      rw [assembleRounds, hrou]
      rfl
    rw [Nat.succ_mul]
    by_cases hlast : offset + (chunkAt blob chunkSize offset).length = blob.length
    · rw [if_pos (decide_eq_true hlast)] at hunf
      rw [hunf, if_pos (by omega)]
      refine ⟨_, rfl, ?_, ?_⟩
      · rw [assemblyAt, hlast]
        exact take_length
      · exact if_neg (by omega)
    · have hn : offset + (chunkAt blob chunkSize offset).length < blob.length := by omega
      have hfull : (chunkAt blob chunkSize offset).length = min chunkSize maxBlobChunkBytes := by
        omega
      have hrest := ih hn (requests + 1)
      rw [hfull, add_assoc, add_comm (min chunkSize maxBlobChunkBytes)] at hrest
      rw [if_neg (by simpa using hlast), hfull] at hunf
      rw [hunf]
      exact hrest

theorem assembleBlob_of_rounds {State : Type} {remote : Remote State} {start : State}
    {last : Assembly State} (hadd : isSha256Hex sha256 = true)
    (hrou : assembleRounds messages side remote sha256 maxBlobRounds { remote := start } =
      .ok last) (hbyt : last.bytes = blob) (htot : last.expectedTotal = some blob.length)
    (hhash : side.sha256Hex blob = sha256) :
    ∃ requests, assembleBlob messages side remote sha256 start = .ok (blob, requests) := by
  refine ⟨last.requests, ?_⟩
  apply Checks.require_bind_eq_ok.mpr
  refine ⟨hadd, ?_⟩
  apply Checks.bind_eq_ok.mpr
  refine ⟨last, hrou, ?_⟩
  rw [htot]
  apply Checks.require_bind_eq_ok.mpr
  refine ⟨by rw [hbyt], ?_⟩
  apply Checks.require_bind_eq_ok.mpr
  refine ⟨by rw [hbyt, hhash], ?_⟩
  rw [hbyt]

/-- The client gets the stored blob if its chunks fit into the rounds. -/
theorem assembleBlob_of_stored (hlaw : messages.Lawful) (hwor : side.Works)
    (hst : Stored files appRoot sha256 blob) (hhash : side.sha256Hex blob = sha256)
    (hchk : 0 < chunkSize) :
    if blob.length ≤ maxBlobRounds * min chunkSize maxBlobChunkBytes then
      ∃ requests, assembleBlob messages side
        (blobServer messages (fsBlobProvider files appRoot chunkSize)) sha256 BlobServer.start =
          .ok (blob, requests)
    else
      assembleBlob messages side (blobServer messages (fsBlobProvider files appRoot chunkSize))
        sha256 BlobServer.start = .error .tooManyRounds := by
  have hbeg : ({ remote := BlobServer.start } : Assembly BlobServer) =
      assemblyAt blob 0 maxBlobRounds 0 := rfl
  cases blob with
  | nil =>
    have hfits : ([] : List UInt8).length ≤ maxBlobRounds * min chunkSize maxBlobChunkBytes :=
      Nat.zero_le _
    rw [if_pos hfits]
    obtain ⟨last, hrou, hbyt, htot⟩ :=
      assembleRound_of_empty hlaw hwor hst hchk (maxBlobRounds - 1) 0
    apply assembleBlob_of_rounds hst.address _ hbyt htot hhash
    exact Checks.bind_eq_ok.mpr ⟨_, hrou, rfl⟩
  | cons byte rest =>
    have hrnd := assembleRounds_of_stored hlaw hwor hst hchk maxBlobRounds
      (Nat.succ_pos rest.length) 0
    rw [Nat.zero_add, ← hbeg] at hrnd
    split
    · rename_i hfits
      rw [if_pos hfits] at hrnd
      obtain ⟨last, hlast, hbyt, htot⟩ := hrnd
      exact assembleBlob_of_rounds hst.address hlast hbyt htot hhash
    · rename_i hlarge
      rw [if_neg hlarge] at hrnd
      rw [assembleBlob, Checks.require, if_pos hst.address, hrnd]
      rfl

end Stored

section Wire

open Protobuf

def requestFields (request : BlobRequest) : List Field :=
  bytesField 1 (utf8 request.sha256) ++ numberField 2 request.offset ++
    numberField 3 request.maxLen

def chunkFields (info : BlobChunkMeta) : List Field :=
  bytesField 1 (utf8 info.sha256) ++ numberField 2 info.offset ++
    numberField 3 info.totalSize ++ numberField 4 info.chunkLen

def responseFields : BlobResponse → List Field
  | .ok info => [(1, .bytes (encodeFields (chunkFields info)))]
  | .notFound => [(2, .bytes [])]
  | .error reason => [(3, .bytes (encodeFields (bytesField 1 (utf8 reason))))]

/-- The last status of a response. -/
def readStatus (fields : List Field) : Except Text (Option BlobResponse) :=
  match fields.getLast? with
  | some (1, .bytes body) => do
      let inner ← fieldsOf body
      let sha256 ← stringOf 1 inner
      .ok (some (.ok ⟨sha256, numberOf 2 inner, numberOf 3 inner, numberOf 4 inner⟩))
  | some (2, .bytes _) => .ok (some .notFound)
  | some (3, .bytes body) => do
      let inner ← fieldsOf body
      let reason ← stringOf 1 inner
      .ok (some (.error reason))
  | _ => .ok none

/-- The messages as their schema encodes them. -/
def blobMessages : BlobMessages where
  encodeRequest request := encodeFields (requestFields request)
  decodeRequest bytes := do
    let fields ← fieldsOf bytes
    let sha256 ← stringOf 1 fields
    .ok ⟨sha256, numberOf 2 fields, numberOf 3 fields⟩
  encodeResponse response := encodeFields (responseFields response)
  decodeResponse bytes := do
    let fields ← fieldsOf bytes
    readStatus fields

theorem length_utf8_le (text : Text) : (utf8 text).length ≤ 4 * text.length := by
  induction text with
  | nil => exact Nat.zero_le _
  | cons char text ih =>
    have hchar := Char.utf8Size_le_four char
    rw [utf8, flatMap_cons, length_append, String.length_utf8EncodeChar, length_cons, ← utf8]
    omega

theorem length_utf8_sha256_le {sha256 : Text} (hhex : isSha256Hex sha256 = true) :
    (utf8 sha256).length ≤ 256 := by
  rw [isSha256Hex, Bool.and_eq_true, decide_eq_true_eq] at hhex
  have hlen := length_utf8_le sha256
  omega

theorem utf8_sha256_ne_nil {sha256 : Text} (hhex : isSha256Hex sha256 = true) :
    utf8 sha256 ≠ [] := by
  intro hnil
  have hread := Foundation.Text.fromUtf8_utf8 sha256
  rw [isSha256Hex, Bool.and_eq_true, decide_eq_true_eq] at hhex
  rw [← utf8, hnil] at hread
  have htext : sha256 = [] := (Option.some_inj.mp hread).symm
  rw [htext] at hhex
  simp at hhex

theorem BlobRequest.of_valid {request : BlobRequest} (hval : request.validate = .ok ()) :
    isSha256Hex request.sha256 = true ∧ request.offset ≤ maxBlobBytes ∧
      request.maxLen ≤ maxBlobChunkBytes := by
  rw [BlobRequest.validate, Checks.all_eq_ok] at hval
  simp only [forall_mem_cons, not_mem_nil, IsEmpty.forall_iff, implies_true, and_true,
    Checks.require_eq_ok] at hval
  exact ⟨hval.1, hval.2.2, by omega⟩

theorem BlobChunkMeta.of_valid {info : BlobChunkMeta} (hval : info.validate = .ok ()) :
    isSha256Hex info.sha256 = true ∧ info.totalSize ≤ maxBlobBytes ∧
      info.offset ≤ info.totalSize ∧ info.chunkLen ≤ maxBlobChunkBytes := by
  rw [BlobChunkMeta.validate, Checks.all_eq_ok] at hval
  simp only [forall_mem_cons, not_mem_nil, IsEmpty.forall_iff, implies_true, and_true,
    Checks.require_eq_ok] at hval
  exact ⟨hval.1, hval.2.1, hval.2.2.1, hval.2.2.2.1⟩

theorem fits_requestFields {request : BlobRequest} (hval : request.validate = .ok ()) :
    ∀ field ∈ requestFields request, Fits field := by
  obtain ⟨hhex, hoff, hmax⟩ := BlobRequest.of_valid hval
  have hlen := length_utf8_sha256_le hhex
  rw [maxBlobBytes] at hoff
  rw [maxBlobChunkBytes] at hmax
  intro field hfld
  rw [requestFields, mem_append, mem_append] at hfld
  rcases hfld with (hfld | hfld) | hfld
  · exact fits_bytesField (by decide) (by omega) field hfld
  · exact fits_numberField (by decide) (by omega) field hfld
  · exact fits_numberField (by decide) (by omega) field hfld

theorem fits_chunkFields {info : BlobChunkMeta} (hval : info.validate = .ok ()) :
    ∀ field ∈ chunkFields info, Fits field := by
  obtain ⟨hhex, htot, hoff, hchk⟩ := BlobChunkMeta.of_valid hval
  have hlen := length_utf8_sha256_le hhex
  rw [maxBlobBytes] at htot
  rw [maxBlobChunkBytes] at hchk
  intro field hfld
  rw [chunkFields, mem_append, mem_append, mem_append] at hfld
  rcases hfld with ((hfld | hfld) | hfld) | hfld
  · exact fits_bytesField (by decide) (by omega) field hfld
  · exact fits_numberField (by decide) (by omega) field hfld
  · exact fits_numberField (by decide) (by omega) field hfld
  · exact fits_numberField (by decide) (by omega) field hfld

theorem length_requestFields {request : BlobRequest} (hval : request.validate = .ok ()) :
    0 < (encodeFields (requestFields request)).length ∧
      (encodeFields (requestFields request)).length ≤ 316 := by
  obtain ⟨hhex, -, -⟩ := BlobRequest.of_valid hval
  have hlen := length_utf8_sha256_le hhex
  have hstring := length_bytesField_le 1 (utf8 request.sha256)
  have hoff := length_numberField_le 2 request.offset
  have hmaxLen := length_numberField_le 3 request.maxLen
  have hpst : 0 < (encodeFields (bytesField 1 (utf8 request.sha256))).length := by
    rw [bytesField, if_neg (utf8_sha256_ne_nil hhex)]
    exact Nat.lt_of_lt_of_le Nat.zero_lt_one
      (length_le_encodeFields [(1, .bytes (utf8 request.sha256))])
  rw [requestFields, encodeFields_append, encodeFields_append, length_append, length_append]
  omega

theorem length_chunkFields_le {info : BlobChunkMeta} (hval : info.validate = .ok ()) :
    (encodeFields (chunkFields info)).length ≤ 336 := by
  obtain ⟨hhex, -, -, -⟩ := BlobChunkMeta.of_valid hval
  have hlen := length_utf8_sha256_le hhex
  have hstring := length_bytesField_le 1 (utf8 info.sha256)
  have hoff := length_numberField_le 2 info.offset
  have htot := length_numberField_le 3 info.totalSize
  have hchk := length_numberField_le 4 info.chunkLen
  rw [chunkFields, encodeFields_append, encodeFields_append, encodeFields_append,
    length_append, length_append, length_append]
  omega

theorem length_responseFields {info : BlobChunkMeta} (hval : info.validate = .ok ()) :
    0 < (encodeFields (responseFields (.ok info))).length ∧
      (encodeFields (responseFields (.ok info))).length ≤ 356 := by
  have hlen := length_chunkFields_le hval
  have htag := length_varint_le (1 * 8 + 2)
  have hinit := length_varint_le (encodeFields (chunkFields info)).length
  constructor
  · exact Nat.lt_of_lt_of_le Nat.zero_lt_one (length_le_encodeFields (responseFields (.ok info)))
  · rw [responseFields, encodeFields, flatMap_singleton, encodeField, length_append, length_append]
    omega

theorem bytesOf_requestFields (request : BlobRequest) :
    bytesOf 1 (requestFields request) = utf8 request.sha256 := by
  simp only [requestFields, bytesField, numberField]
  split_ifs <;> simp_all [bytesOf]

theorem numberOf_requestFields (request : BlobRequest) :
    numberOf 2 (requestFields request) = request.offset ∧
      numberOf 3 (requestFields request) = request.maxLen := by
  simp only [requestFields, bytesField, numberField]
  split_ifs <;> simp_all [numberOf]

theorem bytesOf_chunkFields (info : BlobChunkMeta) :
    bytesOf 1 (chunkFields info) = utf8 info.sha256 := by
  simp only [chunkFields, bytesField, numberField]
  split_ifs <;> simp_all [bytesOf]

theorem numberOf_chunkFields (info : BlobChunkMeta) :
    numberOf 2 (chunkFields info) = info.offset ∧ numberOf 3 (chunkFields info) = info.totalSize ∧
      numberOf 4 (chunkFields info) = info.chunkLen := by
  simp only [chunkFields, bytesField, numberField]
  split_ifs <;> simp_all [numberOf]

theorem blobMessages_lawful : blobMessages.Lawful where
  request := by
    intro request hval
    obtain ⟨hoff, hmax⟩ := numberOf_requestFields request
    apply Checks.bind_eq_ok.mpr
    refine ⟨_, fieldsOf_encodeFields (fits_requestFields hval), ?_⟩
    apply Checks.bind_eq_ok.mpr
    refine ⟨request.sha256, stringOf_of_bytesOf (bytesOf_requestFields request), ?_⟩
    rw [hoff, hmax]
  requestLength := by
    intro request hval
    have hlen := length_requestFields hval
    exact ⟨hlen.1, hlen.2.trans (by decide)⟩
  response := by
    intro info hval
    obtain ⟨hoff, htot, hchk⟩ := numberOf_chunkFields info
    have hlen := length_chunkFields_le hval
    have hfits : ∀ field ∈ responseFields (.ok info), Fits field :=
      forall_mem_singleton.mpr ⟨by decide, by omega⟩
    apply Checks.bind_eq_ok.mpr
    refine ⟨_, fieldsOf_encodeFields hfits, ?_⟩
    apply Checks.bind_eq_ok.mpr
    refine ⟨_, fieldsOf_encodeFields (fits_chunkFields hval), ?_⟩
    apply Checks.bind_eq_ok.mpr
    refine ⟨info.sha256, stringOf_of_bytesOf (bytesOf_chunkFields info), ?_⟩
    rw [hoff, htot, hchk]
  responseLength := by
    intro info hval
    have hlen := length_responseFields hval
    exact ⟨hlen.1, hlen.2.trans (by decide)⟩

end Wire

/-- An assembled blob has the requested hash, and a stored one is assembled. -/
theorem blob_transfer :
    (∀ (State : Type) (messages : BlobMessages) (side : ClientSide) (remote : Remote State)
      (start : State) (sha256 : Text) (bytes : List UInt8) (requests : ℕ),
      assembleBlob messages side remote sha256 start = .ok (bytes, requests) →
        side.sha256Hex bytes = sha256 ∧ bytes.length ≤ maxBlobBytes ∧ requests ≤ maxBlobRounds) ∧
    ∀ (messages : BlobMessages) (side : ClientSide) (files : Files) (appRoot : Path)
      (sha256 : Text) (blob : List UInt8) (chunkSize : ℕ),
      messages.Lawful → side.Works → Stored files appRoot sha256 blob →
      side.sha256Hex blob = sha256 → 0 < chunkSize →
      blob.length ≤ maxBlobRounds * min chunkSize maxBlobChunkBytes →
        ∃ requests, assembleBlob messages side
          (blobServer messages (fsBlobProvider files appRoot chunkSize)) sha256 BlobServer.start =
            .ok (blob, requests) := by
  constructor
  · intro State messages side remote start sha256 bytes requests hblob
    exact assembleBlob_eq_ok hblob
  · intro messages side files appRoot sha256 blob chunkSize hlawful hworks hstored hhash hchunk
      hfits
    have hblob := assembleBlob_of_stored hlawful hworks hstored hhash hchunk
    rw [if_pos hfits] at hblob
    exact hblob

/-- A store that holds one blob. -/
def oneBlob (sha256 : Text) (blob : List UInt8) : Files := fun path =>
  if path = blobPath [] sha256 then some blob else none

/-- A client whose writes succeed; only one hash is asked for. -/
def oneHash (sha256 : Text) : ClientSide where
  writes _ := true
  reserves _ := true
  sha256Hex _ := sha256

theorem stored_oneBlob {sha256 : Text} {blob : List UInt8} (hhex : isSha256Hex sha256 = true)
    (hlen : blob.length ≤ maxBlobBytes) : Stored (oneBlob sha256 blob) [] sha256 blob where
  address := hhex
  file := if_pos rfl
  length := hlen

theorem oneHash_works (sha256 : Text) : (oneHash sha256).Works where
  writes _ := rfl
  reserves _ _ := rfl

/-- The SHA-256 of the bytes 1 and 2. -/
def hashOfTwo : Text :=
  "a12871fee210fb8619291eaea194581cbd2531e4b23759d225f6806923f63222".toList

/-- A blob of two chunks, the second of them full. -/
theorem blob_transfer_two_chunks : Stored (oneBlob hashOfTwo [1, 2]) [] hashOfTwo [1, 2] ∧
      ∃ requests, assembleBlob blobMessages (oneHash hashOfTwo)
        (blobServer blobMessages (fsBlobProvider (oneBlob hashOfTwo [1, 2]) [] 1)) hashOfTwo
          BlobServer.start = .ok ([1, 2], requests) := by
  have hstored : Stored (oneBlob hashOfTwo [1, 2]) [] hashOfTwo [1, 2] :=
    stored_oneBlob (by decide +kernel) (by decide)
  refine ⟨hstored, ?_⟩
  exact blob_transfer.2 blobMessages (oneHash hashOfTwo) _ [] hashOfTwo [1, 2] 1
    blobMessages_lawful (oneHash_works _) hstored rfl (by decide) (by decide)

/-- The SHA-256 of 73 zero bytes. -/
def hashOfZeros : Text :=
  "9c56f48ae9bafd205262034bfcc2232b2c63348cb723d681ec39f13409f990cc".toList

/-- A provider that reads single bytes does not deliver 73 of them in 72 rounds. -/
theorem single_bytes_exceed_rounds : blobMessages.Lawful ∧ (oneHash hashOfZeros).Works ∧
      Stored (oneBlob hashOfZeros (List.replicate 73 0)) [] hashOfZeros (List.replicate 73 0) ∧
      (oneHash hashOfZeros).sha256Hex (List.replicate 73 0) = hashOfZeros ∧
      ¬ ∃ requests, assembleBlob blobMessages (oneHash hashOfZeros)
        (blobServer blobMessages (fsBlobProvider (oneBlob hashOfZeros (List.replicate 73 0)) [] 1))
        hashOfZeros BlobServer.start = .ok (List.replicate 73 0, requests) := by
  have hstored : Stored (oneBlob hashOfZeros (List.replicate 73 0)) [] hashOfZeros
      (List.replicate 73 0) :=
    stored_oneBlob (by decide +kernel) (by decide)
  refine ⟨blobMessages_lawful, oneHash_works _, hstored, rfl, ?_⟩
  rintro ⟨requests, hblob⟩
  have hrounds := assembleBlob_of_stored blobMessages_lawful (oneHash_works hashOfZeros)
    hstored rfl Nat.zero_lt_one
  rw [if_neg (by decide), hblob] at hrounds
  cases hrounds

end AukiSdk.Protocols
