import AukiSdk.Foundation.LengthPrefix
import AukiSdk.Registry.Store

/-!
# Blob transfer

A client asks for one chunk after the other and checks the hash of the whole.
-/

namespace AukiSdk.Protocols

open AukiSdk.Foundation AukiSdk.Registry
open LengthPrefix (FrameError frame takeFrame)

abbrev Text := List Char

def maxBlobChunkBytes : ℕ := 1024 * 1024

def maxBlobRounds : ℕ := maxBlobBytes / maxBlobChunkBytes + 8

def maxBlobMetaBytes : ℕ := 16 * 1024

structure BlobRequest where
  sha256 : Text
  offset : ℕ
  maxLen : ℕ
  deriving DecidableEq

structure BlobChunkMeta where
  sha256 : Text
  offset : ℕ
  totalSize : ℕ
  chunkLen : ℕ
  deriving DecidableEq

inductive BlobResponse where
  | ok (info : BlobChunkMeta)
  | notFound
  | error (reason : Text)
  deriving DecidableEq

/-- `BlobsProtocolError`; `ended` is the end or failure of the stream. -/
inductive BlobsProtocolError where
  | ended
  | decode (detail : Text)
  | validation (detail : Text)
  | missingStatus
  | frameTooLarge (actual max : ℕ)

/-- The encoders and decoders of the two protobuf messages. -/
structure BlobMessages where
  encodeRequest : BlobRequest → List UInt8
  decodeRequest : List UInt8 → Except Text BlobRequest
  encodeResponse : BlobResponse → List UInt8
  decodeResponse : List UInt8 → Except Text (Option BlobResponse)

def BlobRequest.validate (request : BlobRequest) : Except BlobsProtocolError Unit :=
  Checks.all
    [Checks.require (isSha256Hex request.sha256 = true)
        (.validation "sha256 must be 64 lowercase hex characters".toList),
      Checks.require (¬ (request.maxLen = 0 ∨ maxBlobChunkBytes < request.maxLen))
        (.validation "max_len must be between 1 and MAX_BLOB_CHUNK_BYTES".toList),
      Checks.require (request.offset ≤ maxBlobBytes)
        (.validation "offset exceeds MAX_BLOB_BYTES".toList)]

def BlobChunkMeta.validate (info : BlobChunkMeta) : Except BlobsProtocolError Unit :=
  Checks.all
    [Checks.require (isSha256Hex info.sha256 = true)
        (.validation "sha256 must be 64 lowercase hex characters".toList),
      Checks.require (info.totalSize ≤ maxBlobBytes)
        (.validation "total_size exceeds MAX_BLOB_BYTES".toList),
      Checks.require (info.offset ≤ info.totalSize)
        (.validation "offset exceeds total_size".toList),
      Checks.require (info.chunkLen ≤ maxBlobChunkBytes)
        (.validation "chunk_len exceeds MAX_BLOB_CHUNK_BYTES".toList),
      Checks.require (info.chunkLen ≤ info.totalSize - info.offset)
        (.validation "chunk_len exceeds remaining bytes".toList)]

/-- `write_frame`: the bytes to be written. -/
def writeBlobFrame (body : List UInt8) : Except BlobsProtocolError (List UInt8) :=
  if maxBlobMetaBytes < body.length then
    .error (.frameTooLarge body.length maxBlobMetaBytes)
  else
    .ok (frame body)

/-- `read_frame`, with the bytes after the frame. -/
def readBlobFrame (incoming : List UInt8) :
    Except BlobsProtocolError (List UInt8 × List UInt8) :=
  match takeFrame maxBlobMetaBytes incoming with
  | .error .ended => .error .ended
  | .error (.length actual) => .error (.frameTooLarge actual maxBlobMetaBytes)
  | .ok result => .ok result

section Codec

variable (messages : BlobMessages)

def writeBlobRequest (request : BlobRequest) : Except BlobsProtocolError (List UInt8) := do
  request.validate
  writeBlobFrame (messages.encodeRequest request)

def readBlobRequest (incoming : List UInt8) :
    Except BlobsProtocolError (BlobRequest × List UInt8) := do
  let (body, rest) ← readBlobFrame incoming
  let request ← (messages.decodeRequest body).mapError .decode
  request.validate
  .ok (request, rest)

def writeBlobResponse (response : BlobResponse) (chunk : List UInt8) :
    Except BlobsProtocolError (List UInt8) :=
  match response with
  | .ok info => do
      info.validate
      Checks.require (chunk.length = info.chunkLen)
        (BlobsProtocolError.validation "chunk length does not match metadata".toList)
      let bytes ← writeBlobFrame (messages.encodeResponse response)
      .ok (bytes ++ chunk)
  | _ => writeBlobFrame (messages.encodeResponse response)

def readBlobResponse (incoming : List UInt8) :
    Except BlobsProtocolError ((BlobResponse × List UInt8) × List UInt8) := do
  let (body, rest) ← readBlobFrame incoming
  let status ← (messages.decodeResponse body).mapError .decode
  match status with
  | none => .error .missingStatus
  | some (.ok info) =>
    info.validate
    Checks.require (info.chunkLen ≤ rest.length) BlobsProtocolError.ended
    .ok ((.ok info, rest.take info.chunkLen), rest.drop info.chunkLen)
  | some response => .ok ((response, []), rest)

end Codec

/-- The errors of `read_blob_range` that the file system does not cause. -/
inductive BlobRangeError where
  | invalidBlob (detail : Text)
  | blobOffsetPastEnd

/-- `read_blob_range`: the total size and a chunk. -/
def readBlobRange (files : Files) (appRoot : Path) (sha256 : Text) (offset maxLen : ℕ) :
    Except BlobRangeError (Option (ℕ × List UInt8)) :=
  if isSha256Hex sha256 = false then
    .error (.invalidBlob "sha256 must be 64 lowercase hex characters".toList)
  else if maxLen = 0 then
    .error (.invalidBlob "max_len must be at least 1".toList)
  else
    match files (blobPath appRoot sha256) with
    | none => .ok none
    | some bytes =>
      if maxBlobBytes < bytes.length then
        .error (.invalidBlob ("on-disk blob exceeds MAX_BLOB_BYTES (".toList ++
          (toString maxBlobBytes).toList ++ ")".toList))
      else if bytes.length < offset then
        .error .blobOffsetPastEnd
      else
        .ok (some (bytes.length, (bytes.drop offset).take maxLen))

/-- A provider: no blob, a total size with a chunk, or the text of an error. -/
abbrev BlobProvider := BlobRequest → Except Text (Option (ℕ × List UInt8))

/-- `FsBlobProvider` when it reads chunks of at most `chunkSize` bytes. -/
def fsBlobProvider (files : Files) (appRoot : Path) (chunkSize : ℕ) : BlobProvider := fun request =>
  match readBlobRange files appRoot request.sha256 request.offset
      (min chunkSize request.maxLen) with
  | .ok provided => .ok provided
  | .error .blobOffsetPastEnd => .error "offset past end of blob".toList
  | .error (.invalidBlob _) => .error "invalid blob".toList

def invalidProviderResponse (reason : String) : BlobResponse × List UInt8 :=
  (.error ("invalid blob provider response: ".toList ++ reason.toList), [])

def providerResponse (request : BlobRequest)
    (provided : Except Text (Option (ℕ × List UInt8))) : BlobResponse × List UInt8 :=
  match provided with
  | .error reason => (.error reason, [])
  | .ok none => (.notFound, [])
  | .ok (some (totalSize, bytes)) =>
    if 2 ^ 32 ≤ bytes.length then
      invalidProviderResponse "chunk length does not fit u32"
    else if totalSize < request.offset then
      invalidProviderResponse "request offset exceeds total size"
    else if maxBlobBytes < totalSize then
      invalidProviderResponse "total size exceeds MAX_BLOB_BYTES"
    else if request.maxLen < bytes.length ∨ maxBlobChunkBytes < bytes.length then
      invalidProviderResponse "chunk exceeds the requested maximum"
    else if totalSize - request.offset < bytes.length then
      invalidProviderResponse "chunk exceeds the remaining blob bytes"
    else if bytes.length = 0 ∧ request.offset < totalSize then
      invalidProviderResponse "empty chunk before end of blob"
    else
      (.ok ⟨request.sha256, request.offset, totalSize, bytes.length⟩, bytes)

/-- The other end of a stream, which takes bytes and answers as it likes. -/
structure Remote (State : Type) where
  answer : State → List UInt8 → State × List UInt8

/-- A server waits for bytes, or its handler has returned. -/
inductive BlobServer where
  | serving (rounds : ℕ) (buffer : List UInt8)
  | returned

/-- `serve_requests` on the bytes that have arrived: the rounds left after it, and
what it writes. -/
def serveRequests (messages : BlobMessages) (provider : BlobProvider) :
    ℕ → List UInt8 → BlobServer × List UInt8
  | 0, _ => (.returned, [])
  | rounds + 1, buffer =>
    match readBlobRequest messages buffer with
    | .error .ended => (.serving (rounds + 1) buffer, [])
    | .error _ => (.returned, [])
    | .ok (request, rest) =>
      let (response, chunk) := providerResponse request (provider request)
      match writeBlobResponse messages response chunk with
      | .error _ => (.returned, [])
      | .ok bytes =>
        let (server, written) := serveRequests messages provider rounds rest
        (server, bytes ++ written)

/-- A server as the other end of a stream. -/
def blobServer (messages : BlobMessages) (provider : BlobProvider) : Remote BlobServer where
  answer
    | .serving rounds buffer, arrived =>
      serveRequests messages provider rounds (buffer ++ arrived)
    | .returned, _ => (.returned, [])

def BlobServer.start : BlobServer := .serving maxBlobRounds []

inductive BlobEndpointError where
  | codec (error : BlobsProtocolError)
  | writeFailed
  | notFound
  | remoteError (reason : Text)
  | invalidRequest (detail : Text)
  | invalidResponse (detail : Text)
  | sizeMismatch (expected actual : ℕ)
  | tooManyRounds
  | hashMismatch

/-- What a client asks of its own side in each round. -/
structure ClientSide where
  writes : ℕ → Bool
  reserves : ℕ → Bool
  sha256Hex : List UInt8 → Text

/-- `assemble_blob` between two rounds, with the other end and the unread bytes. -/
structure Assembly (State : Type) where
  remote : State
  incoming : List UInt8 := []
  bytes : List UInt8 := []
  offset : ℕ := 0
  expectedTotal : Option ℕ := none
  requests : ℕ := 0

/-- The total announced first is kept, and memory is reserved for it. -/
def ClientSide.checkTotal (side : ClientSide) (expectedTotal : Option ℕ) (totalSize : ℕ) :
    Except BlobEndpointError Unit :=
  match expectedTotal with
  | none =>
    Checks.require (side.reserves totalSize = true)
      (.invalidResponse "cannot reserve the advertised blob size".toList)
  | some expected =>
    Checks.require (expected = totalSize) (.sizeMismatch expected totalSize)

/-- A chunk is added; the flag says that the blob is complete. -/
def Assembly.takeChunk {State : Type} (assembly : Assembly State) (totalSize : ℕ)
    (chunk : List UInt8) : Except BlobEndpointError (Assembly State × Bool) :=
  if totalSize = 0 then
    .ok (assembly, true)
  else if chunk = [] then
    .error (.invalidResponse "empty chunk before end of blob".toList)
  else
    let offset := assembly.offset + chunk.length
    if totalSize < offset then
      .error (.invalidResponse "chunk exceeds advertised size".toList)
    else
      .ok ({ assembly with bytes := assembly.bytes ++ chunk, offset }, offset = totalSize)

section Client

variable {State : Type} (messages : BlobMessages) (side : ClientSide) (remote : Remote State)
  (sha256 : Text)

def blobRoundTrip (assembly : Assembly State) :
    Except BlobEndpointError ((BlobChunkMeta × List UInt8) × Assembly State) := do
  let request : BlobRequest := ⟨sha256, assembly.offset, maxBlobChunkBytes⟩
  let written ← (writeBlobRequest messages request).mapError .codec
  Checks.require (side.writes assembly.requests = true) BlobEndpointError.writeFailed
  let (state, answer) := remote.answer assembly.remote written
  let ((response, chunk), rest) ←
    (readBlobResponse messages (assembly.incoming ++ answer)).mapError .codec
  match response with
  | .notFound => .error .notFound
  | .error reason => .error (.remoteError reason)
  | .ok info =>
    Checks.require (info.sha256 = request.sha256 ∧ info.offset = request.offset)
      (BlobEndpointError.invalidResponse
        "response address or offset differs from request".toList)
    Checks.require (info.chunkLen ≤ request.maxLen ∧ chunk.length ≤ request.maxLen)
      (BlobEndpointError.invalidResponse "response chunk exceeds the requested maximum".toList)
    .ok ((info, chunk), { assembly with
      remote := state
      incoming := rest
      requests := assembly.requests + 1 })

/-- One round of `assemble_blob`; the flag says that the blob is complete. -/
def assembleRound (assembly : Assembly State) :
    Except BlobEndpointError (Assembly State × Bool) := do
  let ((info, chunk), assembly) ← blobRoundTrip messages side remote sha256 assembly
  side.checkTotal assembly.expectedTotal info.totalSize
  { assembly with expectedTotal := some info.totalSize }.takeChunk info.totalSize chunk

/-- The loop of `assemble_blob`. -/
def assembleRounds : ℕ → Assembly State → Except BlobEndpointError (Assembly State)
  | 0, _ => .error .tooManyRounds
  | rounds + 1, assembly => do
      let (assembly, complete) ← assembleRound messages side remote sha256 assembly
      if complete then .ok assembly else assembleRounds rounds assembly

/-- `assemble_blob`: the bytes and the number of requests that were sent. -/
def assembleBlob (start : State) : Except BlobEndpointError (List UInt8 × ℕ) := do
  Checks.require (isSha256Hex sha256 = true)
    (BlobEndpointError.invalidRequest "sha256 must be 64 lowercase hex characters".toList)
  let assembly ← assembleRounds messages side remote sha256 maxBlobRounds { remote := start }
  match assembly.expectedTotal with
  | none => .error .tooManyRounds
  | some expected =>
    Checks.require (assembly.bytes.length = expected)
      (BlobEndpointError.invalidResponse
        "assembled size differs from advertised size".toList)
    Checks.require (side.sha256Hex assembly.bytes = sha256) BlobEndpointError.hashMismatch
    .ok (assembly.bytes, assembly.requests)

end Client

end AukiSdk.Protocols
