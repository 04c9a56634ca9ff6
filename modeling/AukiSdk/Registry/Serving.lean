import AukiSdk.Registry.EntryWrite

/-!
# Serving registry entries

The Registry protocol between a client and the file-system provider.
-/

namespace AukiSdk.Registry

open AukiSdk.Foundation List

/-- The bytes of an ASCII literal. -/
def literal (text : String) : List UInt8 :=
  utf8 text.toList

def hexByte (digit : ℕ) : UInt8 :=
  if digit < 10 then (48 + digit).toUInt8 else (87 + digit).toUInt8

/-- One byte of a string as `serde_json` writes it. -/
def escapeByte (byte : UInt8) : List UInt8 :=
  if byte = 0x22 then [0x5C, 0x22]
  else if byte = 0x5C then [0x5C, 0x5C]
  else if byte = 0x08 then [0x5C, 0x62]
  else if byte = 0x09 then [0x5C, 0x74]
  else if byte = 0x0A then [0x5C, 0x6E]
  else if byte = 0x0C then [0x5C, 0x66]
  else if byte = 0x0D then [0x5C, 0x72]
  else if byte < 0x20 then
    [0x5C, 0x75, 0x30, 0x30, hexByte (byte.toNat / 16), hexByte (byte.toNat % 16)]
  else [byte]

/-- A JSON string from its UTF-8 bytes. -/
def jsonString (bytes : List UInt8) : List UInt8 :=
  0x22 :: (bytes.flatMap escapeByte ++ [0x22])

def RegistryKind.asStr : RegistryKind → String
  | .sensor => "sensor"
  | .clock => "clock"
  | .frame => "frame"
  | .detector => "detector"
  | .map => "map"
  | .deviceModel => "device_model"

inductive RegistryRequest where
  | get (kind : RegistryKind) (id hash : List Char)
  | list (kind : RegistryKind)

/-- `RegistryEntryEnvelope`; the canonical text by its UTF-8 bytes. -/
structure RegistryEntryEnvelope where
  kind : RegistryKind
  id : List Char
  hash : List Char
  canonicalJson : List UInt8

structure RegistryListEntry where
  id : List Char
  hash : List Char

inductive RegistryResponse where
  | get (entry : Option RegistryEntryEnvelope)
  | list (entries : List RegistryListEntry)
  | error (reason : List Char)

def RegistryEntryEnvelope.encode (entry : RegistryEntryEnvelope) : List UInt8 :=
  literal "\x7b\"kind\":" ++ jsonString (literal entry.kind.asStr) ++
    literal ",\"id\":" ++ jsonString (utf8 entry.id) ++
    literal ",\"hash\":" ++ jsonString (utf8 entry.hash) ++
    literal ",\"canonical_json\":" ++ jsonString entry.canonicalJson ++ literal "\x7d"

def RegistryListEntry.encode (entry : RegistryListEntry) : List UInt8 :=
  literal "\x7b\"id\":" ++ jsonString (utf8 entry.id) ++
    literal ",\"hash\":" ++ jsonString (utf8 entry.hash) ++ literal "\x7d"

/-- `serde_json::to_vec` of a response. -/
def RegistryResponse.encode : RegistryResponse → List UInt8
  | .get none => literal "\x7b\"op\":\"get\",\"entry\":null\x7d"
  | .get (some entry) => literal "\x7b\"op\":\"get\",\"entry\":" ++ entry.encode ++ literal "\x7d"
  | .list entries =>
    literal "\x7b\"op\":\"list\",\"entries\":[" ++
      (literal ",").intercalate (entries.map RegistryListEntry.encode) ++ literal "]\x7d"
  | .error reason =>
    literal "\x7b\"op\":\"error\",\"reason\":" ++ jsonString (utf8 reason) ++ literal "\x7d"

def maxRegistriesFrameBytes : ℕ := 64 * 1024

inductive RegistriesProtocolError where
  | io
  | decode (message : List Char)
  | emptyFrame
  | frameTooLarge (actual max : ℕ)

/-- The big-endian bytes of a frame length. -/
def lengthPrefix (length : ℕ) : List UInt8 :=
  [(length / 2 ^ 24).toUInt8, (length / 2 ^ 16).toUInt8, (length / 2 ^ 8).toUInt8, length.toUInt8]

/-- `write_json` of an encoded message. -/
def writeJson (bytes : List UInt8) : Except RegistriesProtocolError (List UInt8) :=
  if maxRegistriesFrameBytes < bytes.length then
    .error (.frameTooLarge bytes.length maxRegistriesFrameBytes)
  else
    .ok (lengthPrefix bytes.length ++ bytes)

/-- `read_json`, with the reader of the payload. -/
def readJson {A : Type} (decode : List UInt8 → Except (List Char) A) (stream : List UInt8) :
    Except RegistriesProtocolError A :=
  match stream with
  | first :: second :: third :: fourth :: rest =>
    let length := first.toNat * 2 ^ 24 + second.toNat * 2 ^ 16 + third.toNat * 2 ^ 8 +
      fourth.toNat
    if length = 0 then
      .error .emptyFrame
    else if maxRegistriesFrameBytes < length then
      .error (.frameTooLarge length maxRegistriesFrameBytes)
    else if rest.length < length then
      .error .io
    else
      match decode (rest.take length) with
      | .error message => .error (.decode message)
      | .ok value => .ok value
  | _ => .error .io

inductive FsRegistryReadError where
  | invalidRequest
  | integrity
  | storage

def FsRegistryReadError.remoteReason : FsRegistryReadError → List Char
  | .invalidRequest => "invalid registry request".toList
  | .integrity => "registry entry integrity check failed".toList
  | .storage => "registry read failed".toList

def mapRegistryError : Error → FsRegistryReadError
  | .idMismatch _ _ => .integrity
  | _ => .storage

/-- `String::from_utf8` succeeds. -/
def isUtf8 (bytes : List UInt8) : Bool :=
  bytes.toByteArray.validateUTF8

/-- `read_envelope` with `validate_key` and `read_entry`. -/
def readEnvelope (registries : Registries) (files : Files) (appRoot : Path)
    (localPeerId : List Char) (kind : RegistryKind) (id hash : List Char) :
    Except FsRegistryReadError (Option RegistryEntryEnvelope) :=
  if validateRegistryId id ≠ .ok () ∨ isRegistryEntryHash hash = false then
    .error .invalidRequest
  else
    match registries.read files appRoot kind localPeerId id hash with
    | .error error => .error (mapRegistryError error)
    | .ok none => .ok none
    | .ok (some entry) =>
      if (registries.type kind).peerId entry ≠ localPeerId ∨
          (registries.type kind).id entry ≠ id then
        .error .integrity
      else if registries.hash entry ≠ hash then
        .error .integrity
      else if isUtf8 ((registries.type kind).canonicalBytes entry) = false then
        .error .integrity
      else
        .ok (some ⟨kind, id, hash, (registries.type kind).canonicalBytes entry⟩)

/-- `respond_to`; `listing` is the answer to a list of device models. -/
def respondTo (registries : Registries) (files : Files) (appRoot : Path)
    (localPeerId : List Char) (listing : RegistryResponse) : RegistryRequest → RegistryResponse
  | .get kind id hash =>
    match readEnvelope registries files appRoot localPeerId kind id hash with
    | .ok entry => .get entry
    | .error error => .error error.remoteReason
  | .list .deviceModel => listing
  | .list _ => .error "list is only implemented for device_model".toList

inductive RegistryEndpointError where
  | codec (error : RegistriesProtocolError)
  | invalidRegistryId (error : RegistryIdError)
  | invalidHash
  | remote (reason : List Char)
  | unexpectedResponse (expected actual : String)
  | notFound (kind : RegistryKind) (id hash : List Char)
  | invalidKind (expected found : RegistryKind)
  | invalidId (expected found : List Char)
  | invalidHashField (expected found : List Char)
  | hashMismatch (expected actual : List Char)
  | json (message : List Char)
  | ownerMismatch (expected actual : List Char)
  | invalidEntry (error : Error)

def validateRegistryKey (id hash : List Char) : Except RegistryEndpointError Unit :=
  match validateRegistryId id with
  | .error error => .error (.invalidRegistryId error)
  | .ok () => if isRegistryEntryHash hash then .ok () else .error .invalidHash

def validateRequest : RegistryRequest → Except RegistryEndpointError Unit
  | .get _ id hash => validateRegistryKey id hash
  | .list _ => .ok ()

def writeBoundedResponse (request : RegistryRequest) (response : RegistryResponse) :
    Except RegistriesProtocolError (List UInt8) :=
  match writeJson response.encode with
  | .ok frame => .ok frame
  | .error (.frameTooLarge _ _) =>
    writeJson (RegistryResponse.error (match request with
      | .get _ _ _ => "entry too large".toList
      | .list _ => "list too large".toList)).encode
  | .error error => .error error

/-- `validate_entry`, which frames, maps and device models override. -/
def Registries.validateEntry (registries : Registries) :
    (kind : RegistryKind) → (registries.type kind).Entry → Except Error Unit
  | .frame, entry => (registries.type .frame).validate entry
  | .map, entry => (registries.type .map).validate entry
  | .deviceModel, entry => (registries.type .deviceModel).validate entry
  | _, _ => .ok ()

def decodeGetResponse (registries : Registries) (expectedPeer : List Char)
    (expectedKind : RegistryKind) (expectedId expectedHash : List Char) :
    RegistryResponse → Except RegistryEndpointError (registries.type expectedKind).Entry
  | .get none => .error (.notFound expectedKind expectedId expectedHash)
  | .list _ => .error (.unexpectedResponse "get" "list")
  | .error reason => .error (.remote reason)
  | .get (some envelope) =>
    if envelope.kind ≠ expectedKind then
      .error (.invalidKind expectedKind envelope.kind)
    else if envelope.id ≠ expectedId then
      .error (.invalidId expectedId envelope.id)
    else if envelope.hash ≠ expectedHash then
      .error (.invalidHashField expectedHash envelope.hash)
    else if registries.hashJcsBytes envelope.canonicalJson ≠ expectedHash then
      .error (.hashMismatch expectedHash (registries.hashJcsBytes envelope.canonicalJson))
    else
      match (registries.type expectedKind).fromSlice envelope.canonicalJson with
      | .error message => .error (.json message)
      | .ok entry =>
        if (registries.type expectedKind).peerId entry ≠ expectedPeer then
          .error (.ownerMismatch expectedPeer ((registries.type expectedKind).peerId entry))
        else if (registries.type expectedKind).id entry ≠ expectedId then
          .error (.invalidId expectedId ((registries.type expectedKind).id entry))
        else
          match registries.validateEntry expectedKind entry with
          | .error error => .error (.invalidEntry error)
          | .ok () => .ok entry

/-- What both sides use beyond this repository. -/
structure Wire where
  decodeResponse : List UInt8 → Except (List Char) RegistryResponse
  requestErrorText : RegistryEndpointError → List Char

variable (wire : Wire)

/-- A response is read back from its frame. -/
def Wire.Reads (response : RegistryResponse) : Prop :=
  wire.decodeResponse response.encode = .ok response

/-- One request at the server: the bytes it writes. -/
def serve (registries : Registries) (files : Files) (appRoot : Path) (localPeerId : List Char)
    (listing : RegistryResponse) (request : RegistryRequest) :
    Except RegistriesProtocolError (List UInt8) :=
  writeBoundedResponse request
    (match validateRequest request with
    | .ok () => respondTo registries files appRoot localPeerId listing request
    | .error error => .error (wire.requestErrorText error))

/-- The response in the bytes the server wrote; without any, the stream ends. -/
def receive (sent : Except RegistriesProtocolError (List UInt8)) :
    Except RegistryEndpointError RegistryResponse :=
  (sent.mapError fun _ => RegistryEndpointError.codec .io) >>= fun stream =>
    (readJson wire.decodeResponse stream).mapError RegistryEndpointError.codec

/-- `fetch_sensor` and its siblings, over a stream that delivers what the server
wrote. -/
def fetch (registries : Registries) (files : Files) (appRoot : Path) (peerId : List Char)
    (listing : RegistryResponse) (kind : RegistryKind) (id hash : List Char) :
    Except RegistryEndpointError (registries.type kind).Entry :=
  validateRequest (.get kind id hash) >>= fun _ =>
    receive wire (serve wire registries files appRoot peerId listing (.get kind id hash)) >>=
      decodeGetResponse registries peerId kind id hash

theorem length_escapeByte_pos (byte : UInt8) : 1 ≤ (escapeByte byte).length := by
  rw [escapeByte]
  split_ifs <;> simp

theorem length_le_length_flatMap_escapeByte (bytes : List UInt8) :
    bytes.length ≤ (bytes.flatMap escapeByte).length := by
  induction bytes with
  | nil => exact Nat.zero_le _
  | cons byte rest ih =>
    have hbyte := length_escapeByte_pos byte
    rw [flatMap_cons, length_append, length_cons]
    omega

theorem length_lt_length_jsonString (bytes : List UInt8) :
    bytes.length < (jsonString bytes).length := by
  have hle := length_le_length_flatMap_escapeByte bytes
  rw [jsonString, length_cons, length_append]
  omega

theorem length_tooLarge : (RegistryResponse.error "entry too large".toList).encode.length ≤
      maxRegistriesFrameBytes := by
  have hlen : (RegistryResponse.error "entry too large".toList).encode.length = 41 := by
    decide +kernel
  rw [hlen, maxRegistriesFrameBytes]
  omega

theorem length_lt_length_encode (entry : RegistryEntryEnvelope) :
    entry.canonicalJson.length < (RegistryResponse.get (some entry)).encode.length := by
  have hlt := length_lt_length_jsonString entry.canonicalJson
  simp only [RegistryResponse.encode, RegistryEntryEnvelope.encode, length_append]
  omega

theorem length_encode_pos (response : RegistryResponse) : 0 < response.encode.length := by
  cases response with
  | get entry =>
    cases entry with
    | none => decide
    | some entry => exact Nat.zero_lt_of_lt (length_lt_length_encode entry)
  | list entries =>
    have hpos : 0 < (literal "\x7b\"op\":\"list\",\"entries\":[").length := by decide
    simp only [RegistryResponse.encode, length_append]
    omega
  | error reason =>
    have hlt := length_lt_length_jsonString (utf8 reason)
    simp only [RegistryResponse.encode, length_append]
    omega

theorem lengthPrefix_value {length : ℕ} (hlen : length ≤ maxRegistriesFrameBytes) :
    (length / 2 ^ 24).toUInt8.toNat * 2 ^ 24 + (length / 2 ^ 16).toUInt8.toNat * 2 ^ 16 +
      (length / 2 ^ 8).toUInt8.toNat * 2 ^ 8 + length.toUInt8.toNat = length := by
  rw [maxRegistriesFrameBytes] at hlen
  simp only [Nat.toUInt8_eq, UInt8.toNat_ofNat']
  omega

theorem readJson_of_le {A : Type} {decode : List UInt8 → Except (List Char) A}
    {bytes : List UInt8} {value : A} (hpos : 0 < bytes.length)
    (hlen : bytes.length ≤ maxRegistriesFrameBytes) (hdec : decode bytes = .ok value) :
    readJson decode (lengthPrefix bytes.length ++ bytes) = .ok value := by
  simp only [readJson, lengthPrefix, cons_append, nil_append, lengthPrefix_value hlen]
  rw [if_neg (Nat.ne_of_gt hpos), if_neg (Nat.not_lt.mpr hlen),
    if_neg (Nat.lt_irrefl _), take_length, hdec]

theorem writeJson_of_le {bytes : List UInt8} (hlen : bytes.length ≤ maxRegistriesFrameBytes) :
    writeJson bytes = .ok (lengthPrefix bytes.length ++ bytes) :=
  if_neg (Nat.not_lt.mpr hlen)

theorem writeBoundedResponse_of_le (request : RegistryRequest) {response : RegistryResponse}
    (hlen : response.encode.length ≤ maxRegistriesFrameBytes) :
    writeBoundedResponse request response =
      .ok (lengthPrefix response.encode.length ++ response.encode) := by
  simp only [writeBoundedResponse, writeJson_of_le hlen]

theorem writeBoundedResponse_of_lt (kind : RegistryKind) (id hash : List Char)
    {response : RegistryResponse} (hlen : maxRegistriesFrameBytes < response.encode.length) :
    writeBoundedResponse (.get kind id hash) response =
      .ok (lengthPrefix (RegistryResponse.error "entry too large".toList).encode.length ++
        (RegistryResponse.error "entry too large".toList).encode) := by
  have hlar : writeJson response.encode =
      .error (.frameTooLarge response.encode.length maxRegistriesFrameBytes) := if_pos hlen
  simp only [writeBoundedResponse, hlar]
  exact writeJson_of_le length_tooLarge

/-- `serde_json` reads the canonical text of a valid entry back. -/
def Registries.ReadsBack (registries : Registries) (kind : RegistryKind)
    (entry found : (registries.type kind).Entry) : Prop :=
  (registries.type kind).fromSlice ((registries.type kind).canonicalBytes entry) = .ok found ∧
  (registries.type kind).canonicalBytes found = (registries.type kind).canonicalBytes entry ∧
  (registries.type kind).peerId found = (registries.type kind).peerId entry ∧
  (registries.type kind).id found = (registries.type kind).id entry ∧
  ((registries.type kind).validate entry = .ok () →
    (registries.type kind).validate found = .ok ())

section Accepted

variable {registries : Registries} {kind : RegistryKind}
  {entry found : (registries.type kind).Entry} {files : Files} {appRoot : Path}

theorem Registries.ReadsBack.hash_eq (hreads : registries.ReadsBack kind entry found) :
    registries.hash found = registries.hash entry :=
  congrArg registries.hashJcsBytes hreads.2.1

theorem Registries.Stored.read {outcome : WriteOutcome}
    (hhash : ∀ bytes, isRegistryEntryHash (registries.hashJcsBytes bytes) = true)
    (hst : registries.Stored files appRoot kind entry outcome)
    (hval : registries.Validated kind entry)
    (hreads : registries.ReadsBack kind entry found) :
    registries.read files appRoot kind ((registries.type kind).peerId entry)
      ((registries.type kind).id entry) (registries.hash entry) = .ok (some found) := by
  apply Registries.read_eq_some.mpr
  refine ⟨hhash _, ⟨_, hst.file, hst.size, hreads.1⟩, hreads.2.2.1, hreads.2.2.2.1, ?_⟩
  cases kind with
  | sensor => exact trivial
  | clock => exact trivial
  | frame => exact trivial
  | detector => exact trivial
  | map => exact hreads.2.2.2.2 hval
  | deviceModel => exact ⟨hreads.2.2.2.2 hval, hreads.hash_eq⟩

/-- The envelope of an entry. -/
def Registries.envelope (registries : Registries) (kind : RegistryKind)
    (entry : (registries.type kind).Entry) : RegistryEntryEnvelope :=
  ⟨kind, (registries.type kind).id entry, registries.hash entry,
    (registries.type kind).canonicalBytes entry⟩

theorem readEnvelope_of_read
    (hhash : ∀ bytes, isRegistryEntryHash (registries.hashJcsBytes bytes) = true)
    (hutf8 : isUtf8 ((registries.type kind).canonicalBytes entry) = true)
    (hid : validateRegistryId ((registries.type kind).id entry) = .ok ())
    (hreads : registries.ReadsBack kind entry found)
    (hread : registries.read files appRoot kind ((registries.type kind).peerId entry)
      ((registries.type kind).id entry) (registries.hash entry) = .ok (some found)) :
    readEnvelope registries files appRoot ((registries.type kind).peerId entry) kind
      ((registries.type kind).id entry) (registries.hash entry) =
        .ok (some (registries.envelope kind entry)) := by
  have hkey : ¬ (validateRegistryId ((registries.type kind).id entry) ≠ .ok () ∨
      isRegistryEntryHash (registries.hash entry) = false) := by
    rintro (hne | hfal)
    · exact hne hid
    · have htrue : isRegistryEntryHash (registries.hash entry) = true := hhash _
      rw [hfal] at htrue
      cases htrue
  have hown : ¬ ((registries.type kind).peerId found ≠ (registries.type kind).peerId entry ∨
      (registries.type kind).id found ≠ (registries.type kind).id entry) := by
    rintro (hne | hne)
    · exact hne hreads.2.2.1
    · exact hne hreads.2.2.2.1
  rw [readEnvelope, if_neg hkey, hread]
  simp only
  rw [if_neg hown, if_neg (not_not.mpr hreads.hash_eq), hreads.2.1, if_neg (by rw [hutf8]; decide)]
  rfl

theorem decodeGetResponse_envelope (hval : registries.Validated kind entry)
    (hreads : registries.ReadsBack kind entry found) :
    decodeGetResponse registries ((registries.type kind).peerId entry) kind
      ((registries.type kind).id entry) (registries.hash entry)
      (.get (some (registries.envelope kind entry))) = .ok found := by
  have hvalid : registries.validateEntry kind found = .ok () := by
    cases kind with
    | sensor => rfl
    | clock => rfl
    | frame => exact hreads.2.2.2.2 hval
    | detector => rfl
    | map => exact hreads.2.2.2.2 hval
    | deviceModel => exact hreads.2.2.2.2 hval
  have hself : registries.hashJcsBytes ((registries.type kind).canonicalBytes entry) =
      registries.hash entry := rfl
  simp only [decodeGetResponse, Registries.envelope, ne_eq, not_true_eq_false, if_false, hself,
    hreads.1, hreads.2.2.1, hreads.2.2.2.1, hvalid]

theorem validateRequest_get (entry : (registries.type kind).Entry)
    (hhash : ∀ bytes, isRegistryEntryHash (registries.hashJcsBytes bytes) = true)
    (hid : validateRegistryId ((registries.type kind).id entry) = .ok ()) :
    validateRequest (.get kind ((registries.type kind).id entry) (registries.hash entry)) =
      .ok () := by
  have htrue : isRegistryEntryHash (registries.hash entry) = true := hhash _
  rw [validateRequest, validateRegistryKey, hid]
  simp only
  rw [if_pos htrue]

theorem ok_bind {ε A B : Type} (value : A) (next : A → Except ε B) :
    ((Except.ok value : Except ε A) >>= next) = next value := rfl

theorem mapError_ok {ε ε' A : Type} (value : A) (change : ε → ε') :
    (Except.ok value : Except ε A).mapError change = .ok value := rfl

theorem fetch_of_serve {wire : Wire} {response : RegistryResponse} (hwire : wire.Reads response)
    {peerId id hash : List Char} {listing : RegistryResponse}
    (hreq : validateRequest (.get kind id hash) = .ok ())
    (hlen : response.encode.length ≤ maxRegistriesFrameBytes)
    (hser : serve wire registries files appRoot peerId listing (.get kind id hash) =
      .ok (lengthPrefix response.encode.length ++ response.encode)) :
    fetch wire registries files appRoot peerId listing kind id hash =
      decodeGetResponse registries peerId kind id hash response := by
  have hfrm := readJson_of_le (length_encode_pos response) hlen hwire
  rw [fetch, hreq, ok_bind, hser, receive, mapError_ok, ok_bind, hfrm, mapError_ok, ok_bind]

theorem serve_of_validateRequest (wire : Wire) {peerId id hash : List Char}
    (listing : RegistryResponse) (hreq : validateRequest (.get kind id hash) = .ok ())
    {envelope : Option RegistryEntryEnvelope}
    (henv : readEnvelope registries files appRoot peerId kind id hash = .ok envelope) :
    serve wire registries files appRoot peerId listing (.get kind id hash) =
      writeBoundedResponse (.get kind id hash) (.get envelope) := by
  simp only [serve, hreq, respondTo, henv]

variable {wire : Wire} {checks : WriteChecks registries} {result : Files × WriteOutcome}
  (hhash : ∀ bytes, isRegistryEntryHash (registries.hashJcsBytes bytes) = true)
  (hutf8 : isUtf8 ((registries.type kind).canonicalBytes entry) = true)
  (hwrite : registries.write checks files appRoot kind entry = .ok result)
  (hid : validateRegistryId ((registries.type kind).id entry) = .ok ())
  (hreads : registries.ReadsBack kind entry found) (listing : RegistryResponse)

include hhash hutf8 hwrite hid hreads

theorem fetch_of_fits (hwire : wire.Reads (.get (some (registries.envelope kind entry))))
    (hfits : (RegistryResponse.get (some (registries.envelope kind entry))).encode.length ≤
      maxRegistriesFrameBytes) :
    fetch wire registries result.1 appRoot ((registries.type kind).peerId entry) listing kind
      ((registries.type kind).id entry) (registries.hash entry) = .ok found := by
  obtain ⟨hst, hval⟩ := Registries.write_stored hhash hwrite
  have hread := hst.read hhash hval hreads
  have henv := readEnvelope_of_read hhash hutf8 hid hreads hread
  have hreq := validateRequest_get entry hhash hid
  have hser := serve_of_validateRequest wire listing hreq henv
  rw [writeBoundedResponse_of_le _ hfits] at hser
  rw [fetch_of_serve hwire hreq hfits hser]
  exact decodeGetResponse_envelope hval hreads

theorem fetch_of_large (hwire : wire.Reads (.error "entry too large".toList))
    (hlar : maxRegistriesFrameBytes <
      (RegistryResponse.get (some (registries.envelope kind entry))).encode.length) :
    fetch wire registries result.1 appRoot ((registries.type kind).peerId entry) listing kind
      ((registries.type kind).id entry) (registries.hash entry) =
        .error (.remote "entry too large".toList) := by
  obtain ⟨hst, hval⟩ := Registries.write_stored hhash hwrite
  have hread := hst.read hhash hval hreads
  have henv := readEnvelope_of_read hhash hutf8 hid hreads hread
  have hreq := validateRequest_get entry hhash hid
  have hser := serve_of_validateRequest wire listing hreq henv
  rw [writeBoundedResponse_of_lt _ _ _ hlar] at hser
  rw [fetch_of_serve hwire hreq length_tooLarge hser, decodeGetResponse]

end Accepted

/-- An accepted entry is served exactly when its response fits into one frame. -/
theorem accepted_entry_served_iff_fits (registries : Registries)
    (hhash : ∀ bytes, isRegistryEntryHash (registries.hashJcsBytes bytes) = true)
    (checks : WriteChecks registries) (files : Files) (appRoot : Path) (kind : RegistryKind)
    (entry : (registries.type kind).Entry) (result : Files × WriteOutcome)
    (hwrite : registries.write checks files appRoot kind entry = .ok result)
    (hutf8 : isUtf8 ((registries.type kind).canonicalBytes entry) = true)
    (hreads : ∃ found, registries.ReadsBack kind entry found)
    (hid : validateRegistryId ((registries.type kind).id entry) = .ok ()) (wire : Wire)
    (hserved : wire.Reads (.get (some (registries.envelope kind entry))))
    (hrefused : wire.Reads (.error "entry too large".toList)) (listing : RegistryResponse) :
    ((∃ served, fetch wire registries result.1 appRoot ((registries.type kind).peerId entry)
          listing kind ((registries.type kind).id entry) (registries.hash entry) = .ok served ∧
        (registries.type kind).canonicalBytes served = (registries.type kind).canonicalBytes entry ∧
        registries.hash served = registries.hash entry) ↔
      (RegistryResponse.get (some (registries.envelope kind entry))).encode.length ≤
        maxRegistriesFrameBytes) ∧
    (maxRegistriesFrameBytes <
        (RegistryResponse.get (some (registries.envelope kind entry))).encode.length →
      fetch wire registries result.1 appRoot ((registries.type kind).peerId entry) listing kind
        ((registries.type kind).id entry) (registries.hash entry) =
          .error (.remote "entry too large".toList)) := by
  obtain ⟨found, hfound⟩ := hreads
  have hlarge := fetch_of_large hhash hutf8 hwrite hid hfound listing hrefused
  refine ⟨⟨?_, ?_⟩, hlarge⟩
  · rintro ⟨served, hok, -⟩
    by_contra hnot
    rw [hlarge (Nat.lt_of_not_le hnot)] at hok
    cases hok
  · intro hfits
    exact ⟨found, fetch_of_fits hhash hutf8 hwrite hid hfound listing hserved hfits, hfound.2.1,
      hfound.hash_eq⟩

/-- `Scope` on the wire. -/
def Scope.asStr : Scope → String
  | .deviceLocal => "device-local"
  | .domainLocal => "domain-local"
  | .global => "global"

def ClockBody.typeName : ClockBody → String
  | .monotonicClock _ => "monotonic_clock"
  | .utcClock _ => "utc_clock"

def ClockBody.meta : ClockBody → ClockMeta
  | .monotonicClock found => found
  | .utcClock found => found

/-- The canonical JSON of a clock: its fields in key order. -/
def ClockRegistryEntry.canonicalJson (clock : ClockRegistryEntry) : List UInt8 :=
  literal "\x7b\"clock_id\":" ++ jsonString (literal clock.clockId) ++
    literal ",\"epoch\":" ++ (match clock.body.meta.epoch with
      | none => literal "null"
      | some epoch => jsonString (literal epoch)) ++
    literal ",\"monotonic\":" ++ literal (if clock.body.meta.monotonic then "true" else "false") ++
    literal ",\"peer_id\":" ++ jsonString (literal clock.peerId) ++
    literal ",\"scope\":" ++ jsonString (literal clock.body.meta.scope.asStr) ++
    literal ",\"session_id\":" ++ jsonString (literal clock.sessionId) ++
    literal ",\"type\":" ++ jsonString (literal clock.body.typeName) ++
    literal ",\"unit\":" ++ jsonString (literal clock.body.meta.unit) ++ literal "\x7d"

theorem utf8_append (left right : List Char) : utf8 (left ++ right) = utf8 left ++ utf8 right :=
  flatMap_append

theorem isUtf8_utf8 (text : List Char) : isUtf8 (utf8 text) = true := by
  rw [isUtf8, ByteArray.validateUTF8_eq_true_iff]
  exact ⟨text, rfl⟩

theorem jsonString_of_plain {bytes : List UInt8} (hpln : ∀ byte ∈ bytes, escapeByte byte = [byte]) :
    jsonString bytes = 0x22 :: (bytes ++ [0x22]) := by
  have hsm : bytes.flatMap escapeByte = bytes := by
    induction bytes with
    | nil => rfl
    | cons byte rest ih =>
      rw [flatMap_cons, hpln byte mem_cons_self,
        ih fun found hf => hpln found (mem_cons_of_mem _ hf)]
      rfl
  rw [jsonString, hsm]

variable (id : String)

/-- A clock whose unit has `count` letters. -/
def longClock (count : ℕ) : ClockRegistryEntry :=
  ⟨"p", "s", id, .monotonicClock ⟨String.ofList (List.replicate count 'x'), true, none, .global⟩⟩

/-- The text of a long clock up to its unit. -/
def longClockHead : List UInt8 :=
  literal "\x7b\"clock_id\":" ++ jsonString (literal id) ++
    literal ",\"epoch\":null,\"monotonic\":true,\"peer_id\":\"p\",\"scope\":\"global\"," ++
    literal "\"session_id\":\"s\",\"type\":\"monotonic_clock\",\"unit\":"

variable (count : ℕ)

theorem utf8_replicate : utf8 (List.replicate count 'x') = List.replicate count 0x78 := by
  induction count with
  | zero => rfl
  | succ count ih =>
    rw [replicate_succ, replicate_succ, ← ih]
    rfl

theorem canonicalJson_longClock (count : ℕ) : (longClock id count).canonicalJson =
      longClockHead id ++ (0x22 :: (List.replicate count 0x78 ++ [0x22])) ++ literal "\x7d" := by
  have hunit : jsonString (literal (String.ofList (List.replicate count 'x'))) =
      0x22 :: (List.replicate count 0x78 ++ [0x22]) := by
    rw [literal, String.toList_ofList, utf8_replicate, jsonString_of_plain]
    intro byte hbyte
    rw [eq_of_mem_replicate hbyte]
    rfl
  have hhead : ∀ tail : List UInt8,
      literal ",\"epoch\":" ++ (literal "null" ++ (literal ",\"monotonic\":" ++
        (literal "true" ++ (literal ",\"peer_id\":" ++ (jsonString (literal "p") ++
        (literal ",\"scope\":" ++ (jsonString (literal "global") ++
        (literal ",\"session_id\":" ++ (jsonString (literal "s") ++
        (literal ",\"type\":" ++ (jsonString (literal "monotonic_clock") ++
        (literal ",\"unit\":" ++ tail)))))))))))) =
      literal ",\"epoch\":null,\"monotonic\":true,\"peer_id\":\"p\",\"scope\":\"global\"," ++
        (literal "\"session_id\":\"s\",\"type\":\"monotonic_clock\",\"unit\":" ++ tail) := by
    intro tail
    rfl
  simp only [ClockRegistryEntry.canonicalJson, longClock, ClockBody.meta, ClockBody.typeName,
    Scope.asStr, if_true, hunit, longClockHead, append_assoc, hhead]

theorem isUtf8_canonicalJson_longClock : isUtf8 (longClock "c" count).canonicalJson = true := by
  have hhead : longClockHead "c" = utf8 ("\x7b\"clock_id\":\"c\",\"epoch\":null," ++
      "\"monotonic\":true,\"peer_id\":\"p\",\"scope\":\"global\",\"session_id\":\"s\"," ++
      "\"type\":\"monotonic_clock\",\"unit\":").toList := by
    decide +kernel
  have hunit : (0x22 :: (List.replicate count 0x78 ++ [0x22]) : List UInt8) =
      utf8 ('"' :: (List.replicate count 'x' ++ ['"'])) := by
    calc (0x22 :: (List.replicate count 0x78 ++ [0x22]) : List UInt8)
        = utf8 ['"'] ++ (utf8 (List.replicate count 'x') ++ utf8 ['"']) := by
          rw [utf8_replicate]
          rfl
      _ = utf8 ('"' :: (List.replicate count 'x' ++ ['"'])) := by
          rw [← utf8_append, ← utf8_append]
          rfl
  rw [canonicalJson_longClock, hhead, hunit, literal, ← utf8_append, ← utf8_append]
  exact isUtf8_utf8 _

theorem length_canonicalJson_longClock :
    (longClock "c" count).canonicalJson.length = 129 + count := by
  have hhead : (longClockHead "c").length = 126 := by decide +kernel
  have hend : (literal "\x7d").length = 1 := by decide
  rw [canonicalJson_longClock]
  simp only [length_append, length_cons, length_replicate, length_nil, hhead, hend]
  omega

/-- The checks of `write_sensor` and `write_device_model` are not reached. -/
def noChecks (registries : Registries) : WriteChecks registries :=
  ⟨fun _ _ => .ok (), fun _ _ => .ok ()⟩

/-- The reader of the frames of some responses. -/
def knownWire (responses : List RegistryResponse) : Wire where
  decodeResponse bytes :=
    match responses.find? fun response => response.encode = bytes with
    | some response => .ok response
    | none => .error "expected value".toList
  requestErrorText _ := "invalid Registry request".toList

theorem knownWire_reads_head (response : RegistryResponse) (rest : List RegistryResponse) :
    (knownWire (response :: rest)).Reads response := by
  have hfind : (response :: rest).find? (fun found => found.encode = response.encode) =
      some response := find?_cons_of_pos (decide_eq_true rfl)
  simp only [Wire.Reads, knownWire, hfind]

theorem knownWire_reads_second {first second : RegistryResponse}
    (hne : first.encode ≠ second.encode) : (knownWire [first, second]).Reads second := by
  have hfind : [first, second].find? (fun found => found.encode = second.encode) = some second := by
    rw [find?_cons_of_neg (by simpa using hne)]
    exact find?_cons_of_pos (decide_eq_true rfl)
  simp only [Wire.Reads, knownWire, hfind]

section ClockRegistries

variable (clock : ClockRegistryEntry) (bytes : List UInt8) (hash : List Char)

theorem clockRegistries_canonicalBytes (kind : RegistryKind) :
    ((clockRegistries clock bytes hash).type kind).canonicalBytes clock = bytes :=
  if_pos rfl

theorem clockRegistries_isHash (hhash : isRegistryEntryHash hash = true) (found : List UInt8) :
    isRegistryEntryHash ((clockRegistries clock bytes hash).hashJcsBytes found) = true := by
  by_cases hf : found = bytes
  · exact (congrArg isRegistryEntryHash (if_pos hf)).trans hhash
  · exact (congrArg isRegistryEntryHash (if_neg hf)).trans (by decide)

theorem clockRegistries_hash (kind : RegistryKind) : (clockRegistries clock bytes hash).hash (show
      ((clockRegistries clock bytes hash).type kind).Entry from clock) = hash :=
  (congrArg (clockRegistries clock bytes hash).hashJcsBytes
    (clockRegistries_canonicalBytes clock bytes hash kind)).trans (if_pos rfl)

theorem clockRegistries_readsBack (kind : RegistryKind) :
    (clockRegistries clock bytes hash).ReadsBack kind clock clock :=
  ⟨(congrArg _ (clockRegistries_canonicalBytes clock bytes hash kind)).trans (if_pos rfl), rfl, rfl, rfl,
    fun hvalid => hvalid⟩

theorem clockRegistries_write (hsize : bytes.length ≤ maxRegistryEntryBytes) :
    ∃ result, (clockRegistries clock bytes hash).write (noChecks _) (fun _ => none) [] .clock
      clock = .ok result := by
  have hbyt := clockRegistries_canonicalBytes clock bytes hash .clock
  have hreq : validateRegistryEntrySize
      (((clockRegistries clock bytes hash).type .clock).canonicalBytes clock) = .ok () := by
    rw [hbyt]
    exact Checks.require_eq_ok.mpr hsize
  have hwrite : (clockRegistries clock bytes hash).write (noChecks _) (fun _ => none) [] .clock
      clock = (validateRegistryEntrySize
          (((clockRegistries clock bytes hash).type .clock).canonicalBytes clock) >>= fun _ =>
        storeEntry (clockRegistries clock bytes hash) .clock (fun _ => none) [] clock) := rfl
  rw [hwrite, hreq, ok_bind]
  exact ⟨_, rfl⟩

theorem clock_at_cap_refused (hhash : isRegistryEntryHash hash = true)
    (hid : validateRegistryId clock.clockId.toList = .ok ()) (hutf8 : isUtf8 bytes = true)
    (hsize : bytes.length = maxRegistryEntryBytes) :
    ∃ result, (clockRegistries clock bytes hash).write (noChecks _) (fun _ => none) [] .clock
        clock = .ok result ∧
      fetch (knownWire [.error "entry too large".toList]) (clockRegistries clock bytes hash)
        result.1 [] clock.peerId.toList (.list []) .clock clock.clockId.toList hash =
          .error (.remote "entry too large".toList) := by
  obtain ⟨result, hwrite⟩ := clockRegistries_write clock bytes hash (le_of_eq hsize)
  refine ⟨result, hwrite, ?_⟩
  have hbyt := clockRegistries_canonicalBytes clock bytes hash .clock
  have hlar : maxRegistriesFrameBytes < (RegistryResponse.get (some
      ((clockRegistries clock bytes hash).envelope .clock clock))).encode.length := by
    have hlt := length_lt_length_encode ((clockRegistries clock bytes hash).envelope .clock clock)
    have hjson : ((clockRegistries clock bytes hash).envelope .clock clock).canonicalJson.length =
        maxRegistriesFrameBytes := (congrArg List.length hbyt).trans hsize
    omega
  have hfet := fetch_of_large (clockRegistries_isHash clock bytes hash hhash)
    ((congrArg isUtf8 hbyt).trans hutf8) hwrite hid
    (clockRegistries_readsBack clock bytes hash .clock) (.list []) (knownWire_reads_head _ []) hlar
  rw [show (clockRegistries clock bytes hash).hash _ = hash from
    clockRegistries_hash clock bytes hash .clock] at hfet
  exact hfet

theorem clock_with_invalid_id_refused {error : RegistryIdError}
    (hid : validateRegistryId clock.clockId.toList = .error error)
    (hsize : bytes.length ≤ maxRegistryEntryBytes) :
    ∃ result, (clockRegistries clock bytes hash).write (noChecks _) (fun _ => none) [] .clock
        clock = .ok result ∧
      fetch (knownWire []) (clockRegistries clock bytes hash) result.1 [] clock.peerId.toList
        (.list []) .clock clock.clockId.toList hash = .error (.invalidRegistryId error) := by
  obtain ⟨result, hwrite⟩ := clockRegistries_write clock bytes hash hsize
  refine ⟨result, hwrite, ?_⟩
  have hreq : validateRequest (.get .clock clock.clockId.toList hash) =
      .error (.invalidRegistryId error) := by
    rw [validateRequest, validateRegistryKey, hid]
  rw [fetch, hreq]
  rfl

end ClockRegistries

/-- Accepted clocks that are not served: one at the cap, one with a blank id. -/
theorem accepted_clocks_not_served : (∀ hash, isRegistryEntryHash hash = true →
      ∃ result, (clockRegistries (longClock "c" 65407) (longClock "c" 65407).canonicalJson
          hash).write (noChecks _) (fun _ => none) [] .clock (longClock "c" 65407) = .ok result ∧
        fetch (knownWire [.error "entry too large".toList])
          (clockRegistries (longClock "c" 65407) (longClock "c" 65407).canonicalJson hash)
          result.1 [] "p".toList (.list []) .clock "c".toList hash =
            .error (.remote "entry too large".toList)) ∧
    (∀ hash, isRegistryEntryHash hash = true →
      ∃ result, (clockRegistries (longClock "a b" 1) (longClock "a b" 1).canonicalJson
          hash).write (noChecks _) (fun _ => none) [] .clock (longClock "a b" 1) = .ok result ∧
        fetch (knownWire [])
          (clockRegistries (longClock "a b" 1) (longClock "a b" 1).canonicalJson hash)
          result.1 [] "p".toList (.list []) .clock "a b".toList hash =
            .error (.invalidRegistryId (.disallowedChar ' '))) := by
  constructor
  · intro hash hhash
    have hsize : (longClock "c" 65407).canonicalJson.length = maxRegistryEntryBytes := by
      rw [length_canonicalJson_longClock, maxRegistryEntryBytes]
    have hid : validateRegistryId "c".toList = .ok () := by decide
    exact clock_at_cap_refused (longClock "c" 65407) _ hash hhash hid
      (isUtf8_canonicalJson_longClock 65407) hsize
  · intro hash _
    have hid : validateRegistryId "a b".toList = .error (.disallowedChar ' ') := by decide
    have hlength : (longClock "a b" 1).canonicalJson.length = 132 := by decide +kernel
    have hsize : (longClock "a b" 1).canonicalJson.length ≤ maxRegistryEntryBytes := by
      rw [hlength, maxRegistryEntryBytes]
      omega
    exact clock_with_invalid_id_refused (longClock "a b" 1) _ hash hid hsize

theorem m1UtcBytes_eq : m1UtcBytes = utf8 m1UtcText.toList := by
  decide +kernel

theorem accepted_entry_served_iff_fits_sample : ∃ result served,
    (clockRegistries m1UtcEntry m1UtcBytes m1UtcHash).write (noChecks _) (fun _ => none) [] .clock
      m1UtcEntry = .ok result ∧
    fetch (knownWire [.get (some ((clockRegistries m1UtcEntry m1UtcBytes m1UtcHash).envelope .clock
        m1UtcEntry)), .error "entry too large".toList])
      (clockRegistries m1UtcEntry m1UtcBytes m1UtcHash) result.1 [] m1UtcEntry.peerId.toList
      (.list []) .clock m1UtcEntry.clockId.toList
      ((clockRegistries m1UtcEntry m1UtcBytes m1UtcHash).hash (show
        ((clockRegistries m1UtcEntry m1UtcBytes m1UtcHash).type .clock).Entry from m1UtcEntry)) =
      .ok served := by
  have hbytes := clockRegistries_canonicalBytes m1UtcEntry m1UtcBytes m1UtcHash .clock
  have hsize : m1UtcBytes.length = 183 := by decide +kernel
  have henvelope : (clockRegistries m1UtcEntry m1UtcBytes m1UtcHash).envelope .clock m1UtcEntry =
      ⟨.clock, m1UtcEntry.clockId.toList, m1UtcHash, m1UtcBytes⟩ :=
    congrArg₂ (RegistryEntryEnvelope.mk .clock m1UtcEntry.clockId.toList)
      (clockRegistries_hash m1UtcEntry m1UtcBytes m1UtcHash .clock) hbytes
  have hlength : (RegistryResponse.get (some ((clockRegistries m1UtcEntry m1UtcBytes
      m1UtcHash).envelope .clock m1UtcEntry))).encode.length = 339 := by
    rw [henvelope]
    decide +kernel
  have hne : (RegistryResponse.get (some ((clockRegistries m1UtcEntry m1UtcBytes
      m1UtcHash).envelope .clock m1UtcEntry))).encode ≠
      (RegistryResponse.error "entry too large".toList).encode := by
    intro heq
    have hother : (RegistryResponse.error "entry too large".toList).encode.length = 41 := by
      decide +kernel
    rw [heq, hother] at hlength
    omega
  obtain ⟨result, hwrite⟩ := clockRegistries_write m1UtcEntry m1UtcBytes m1UtcHash (by
    rw [hsize, maxRegistryEntryBytes]
    omega)
  obtain ⟨served, hserved, -⟩ := (accepted_entry_served_iff_fits
    (clockRegistries m1UtcEntry m1UtcBytes m1UtcHash)
    (clockRegistries_isHash m1UtcEntry m1UtcBytes m1UtcHash (by decide)) (noChecks _)
    (fun _ => none) [] .clock m1UtcEntry result hwrite
    ((congrArg isUtf8 hbytes).trans (by rw [m1UtcBytes_eq]; exact isUtf8_utf8 _))
    ⟨_, clockRegistries_readsBack m1UtcEntry m1UtcBytes m1UtcHash .clock⟩ (by decide) _
    (knownWire_reads_head _ _) (knownWire_reads_second hne) (.list [])).1.mpr (by
      rw [hlength, maxRegistriesFrameBytes]
      omega)
  exact ⟨result, served, hwrite, hserved⟩

end AukiSdk.Registry
