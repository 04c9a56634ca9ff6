import AukiSdk.Foundation.LengthPrefix
import AukiSdk.Foundation.Framing
import AukiSdk.Foundation.Protobuf
import AukiSdk.Net.PeerIdText
import AukiSdk.Registry.Store

/-!
# Message frames

A channel is opened and answered, and numbered messages and acknowledgements follow.
-/

namespace AukiSdk.Protocols.MessageV1

open AukiSdk.Foundation AukiSdk.Net AukiSdk.Registry List
open ByteStream (u32ToBeBytes u32FromBeBytes)
open LengthPrefix (FrameError frame takeFrame)

def maxMessageFrameBytes : ℕ := 16 * 1024 * 1024

def openFrame : UInt8 := 1

def openResponseFrame : UInt8 := 2

def messageFrame : UInt8 := 3

def ackFrame : UInt8 := 4

/-- `MessageProtocolError`; `io` is the end or failure of the stream. -/
inductive MessageProtocolError where
  | io
  | decode (detail : List Char)
  | emptyFrame
  | frameTooLarge (actual max : ℕ)
  | unexpectedFrameKind (kind : UInt8)
  | malformedFrame (detail : List Char)

/-- `Message` of the datatypes. -/
structure Message where
  type : List Char
  timestampNs : Int64
  payload : List UInt8
  deriving DecidableEq

/-- The encoder and decoder of messages. -/
structure MessageEncoding where
  encode : Message → List UInt8
  decode : List UInt8 → Except (List Char) Message

variable (value : UInt64)

/-- `u64::to_be_bytes`. -/
def u64ToBeBytes : List UInt8 :=
  (Framing.leBytes 8 value.toNat).reverse

/-- `u64::from_be_bytes`. -/
def u64FromBeBytes (bytes : List UInt8) : UInt64 :=
  UInt64.ofNat (Framing.leValue bytes.reverse)

/-- `write_frame`: the bytes to be written. -/
def writeFrame (payload : List UInt8) : Except MessageProtocolError (List UInt8) :=
  if maxMessageFrameBytes < payload.length then
    .error (.frameTooLarge payload.length maxMessageFrameBytes)
  else
    .ok (frame payload)

/-- `read_frame`: `read_frame_length` and `read_frame_body`, with the bytes after the
frame. -/
def readFrame (incoming : List UInt8) :
    Except MessageProtocolError (List UInt8 × List UInt8) :=
  match takeFrame maxMessageFrameBytes incoming with
  | .error .ended => .error .io
  | .error (.length 0) => .error .emptyFrame
  | .error (.length (actual + 1)) => .error (.frameTooLarge (actual + 1) maxMessageFrameBytes)
  | .ok result => .ok result

/-- `push_string`: the bytes that are added. -/
def pushString (value : List Char) : List UInt8 :=
  u32ToBeBytes (utf8 value).length ++ utf8 value

def takeString (bytes : List UInt8) : Except MessageProtocolError (List Char × List UInt8) :=
  if bytes.length < 4 then
    .error (.malformedFrame "missing string length".toList)
  else
    let len := u32FromBeBytes (bytes.take 4)
    let bytes := bytes.drop 4
    if bytes.length < len then
      .error (.malformedFrame "truncated string".toList)
    else
      match Text.fromUtf8 (bytes.take len) with
      | none => .error (.malformedFrame "string is not UTF-8".toList)
      | some value => .ok (value, bytes.drop len)

inductive FrameKind where
  | open
  | openResponse
  | message
  | ack
  deriving DecidableEq

/-- What a frame says. -/
inductive Frame where
  | open (owner : PeerId) (resourceId : List Char) (expectedClock : RegistryRef)
  | openResponse (accepted : Bool)
  | message (sequence : UInt64) (message : Message)
  | ack (sequence : UInt64)

def Frame.kind : Frame → FrameKind
  | .open _ _ _ => .open
  | .openResponse _ => .openResponse
  | .message _ _ => .message
  | .ack _ => .ack

/-- The payload of `write_open_frame`. -/
def openPayload (owner : PeerId) (resourceId : List Char) (expectedClock : RegistryRef) :
    List UInt8 :=
  openFrame :: (pushString owner.toText.toList ++ (pushString resourceId ++
    (pushString expectedClock.peerId ++ (pushString expectedClock.id ++
      pushString expectedClock.hash))))

/-- The payload of `write_message_frame`. -/
def messagePayload (sequence : UInt64) (body : List UInt8) : List UInt8 :=
  messageFrame :: (u64ToBeBytes sequence ++ body)

section Codec

variable (messages : MessageEncoding)

/-- `write_open_frame`, `write_open_response`, `write_message_frame` and
`write_ack_frame`. -/
def Frame.write : Frame → Except MessageProtocolError (List UInt8)
  | .open owner resourceId expectedClock =>
    writeFrame (openPayload owner resourceId expectedClock)
  | .openResponse accepted =>
    writeFrame [openResponseFrame, if accepted then 1 else 0]
  | .message sequence content =>
    writeFrame (messagePayload sequence (messages.encode content))
  | .ack sequence =>
    writeFrame (ackFrame :: u64ToBeBytes sequence)

def decodeOpenFrame : List UInt8 → Except MessageProtocolError Frame
  | [] => .error .emptyFrame
  | kind :: rest => do
      Checks.require (kind = openFrame) (MessageProtocolError.unexpectedFrameKind kind)
      let (owner, rest) ← takeString rest
      let (resourceId, rest) ← takeString rest
      let (clockPeerId, rest) ← takeString rest
      let (clockId, rest) ← takeString rest
      let (clockHash, rest) ← takeString rest
      Checks.require (rest = [])
        (MessageProtocolError.malformedFrame "open frame has trailing bytes".toList)
      match PeerId.fromStr (String.ofList owner) with
      | none => .error (.malformedFrame "invalid owner PeerId".toList)
      | some ownerPeerId => .ok (.open ownerPeerId resourceId ⟨clockPeerId, clockId, clockHash⟩)

/-- What `read_open_response` does with a frame. -/
def decodeOpenResponse : List UInt8 → Except MessageProtocolError Frame
  | [] => .error (.malformedFrame "invalid open response".toList)
  | kind :: rest =>
    if kind = openResponseFrame ∧ rest = [0] then .ok (.openResponse false)
    else if kind = openResponseFrame ∧ rest = [1] then .ok (.openResponse true)
    else if kind ≠ openResponseFrame then .error (.unexpectedFrameKind kind)
    else .error (.malformedFrame "invalid open response".toList)

def decodeMessageFrame : List UInt8 → Except MessageProtocolError Frame
  | [] => .error .emptyFrame
  | kind :: rest => do
      Checks.require (kind = messageFrame) (MessageProtocolError.unexpectedFrameKind kind)
      Checks.require (8 ≤ rest.length)
        (MessageProtocolError.malformedFrame "message frame is missing sequence".toList)
      let message ← (messages.decode (rest.drop 8)).mapError .decode
      .ok (.message (u64FromBeBytes (rest.take 8)) message)

/-- What `read_ack_frame` does with a frame. -/
def decodeAckFrame : List UInt8 → Except MessageProtocolError Frame
  | [] => .error .emptyFrame
  | kind :: rest => do
      Checks.require (kind = ackFrame) (MessageProtocolError.unexpectedFrameKind kind)
      Checks.require (rest.length = 8)
        (MessageProtocolError.malformedFrame "ack frame must contain exactly one sequence".toList)
      .ok (.ack (u64FromBeBytes rest))

def decodeAs : FrameKind → List UInt8 → Except MessageProtocolError Frame
  | .open => decodeOpenFrame
  | .openResponse => decodeOpenResponse
  | .message => decodeMessageFrame messages
  | .ack => decodeAckFrame

/-- The four readers: a frame is read and decoded. -/
def readAs (kind : FrameKind) (incoming : List UInt8) :
    Except MessageProtocolError (Frame × List UInt8) := do
  let (payload, rest) ← readFrame incoming
  let decoded ← decodeAs messages kind payload
  .ok (decoded, rest)

/-- Frames written one after the other. -/
def writeFrames : List Frame → Except MessageProtocolError (List UInt8)
  | [] => .ok []
  | first :: rest => do
      let bytes ← first.write messages
      let more ← writeFrames rest
      .ok (bytes ++ more)

/-- Frames read one after the other, each by the reader of its kind. -/
def readFrames : List FrameKind → List UInt8 →
    Except MessageProtocolError (List Frame × List UInt8)
  | [], incoming => .ok ([], incoming)
  | kind :: kinds, incoming => do
      let (first, incoming) ← readAs messages kind incoming
      let (frames, incoming) ← readFrames kinds incoming
      .ok (first :: frames, incoming)

end Codec

@[simp]
theorem length_u64ToBeBytes : (u64ToBeBytes value).length = 8 := by
  rw [u64ToBeBytes, length_reverse, Framing.length_leBytes]

theorem u64FromBeBytes_u64ToBeBytes : u64FromBeBytes (u64ToBeBytes value) = value := by
  rw [u64FromBeBytes, u64ToBeBytes, reverse_reverse,
    Framing.leValue_leBytes (UInt64.toNat_lt value), UInt64.ofNat_toNat]

theorem u64ToBeBytes_u64FromBeBytes {bytes : List UInt8} (hlen : bytes.length = 8) :
    u64ToBeBytes (u64FromBeBytes bytes) = bytes := by
  obtain ⟨hbyt, hval⟩ := Framing.leBytes_leValue bytes.reverse
  rw [length_reverse, hlen] at hbyt hval
  rw [u64ToBeBytes, u64FromBeBytes, UInt64.toNat_ofNat_of_lt' hval, hbyt, reverse_reverse]

theorem takeString_pushString {value : List Char} (hlen : (utf8 value).length < 2 ^ 32)
    (rest : List UInt8) : takeString (pushString value ++ rest) = .ok (value, rest) := by
  have htake : (pushString value ++ rest).take 4 = u32ToBeBytes (utf8 value).length := by
    rw [pushString, append_assoc]
    exact take_left' rfl
  have hdrop : (pushString value ++ rest).drop 4 = utf8 value ++ rest := by
    rw [pushString, append_assoc]
    exact drop_left' rfl
  have hlong : ¬ (pushString value ++ rest).length < 4 := by
    rw [pushString, append_assoc, length_append, LengthPrefix.length_u32ToBeBytes]
    omega
  have hfits : ¬ (utf8 value ++ rest).length < (utf8 value).length := by
    rw [length_append]
    omega
  rw [takeString, if_neg hlong]
  dsimp only
  rw [htake, LengthPrefix.u32FromBeBytes_u32ToBeBytes hlen, hdrop, if_neg hfits,
    take_left, drop_left, utf8, Text.fromUtf8_utf8]

theorem takeString_eq_ok {bytes rest : List UInt8} {value : List Char}
    (htake : takeString bytes = .ok (value, rest)) : bytes = pushString value ++ rest := by
  unfold takeString at htake
  split at htake
  · cases htake
  · rename_i hlong
    dsimp only at htake
    split at htake
    · cases htake
    · rename_i hfits
      cases hutf8 : Text.fromUtf8
          ((bytes.drop 4).take (u32FromBeBytes (bytes.take 4))) with
      | none =>
        rw [hutf8] at htake
        cases htake
      | some found =>
        rw [hutf8] at htake
        cases htake
        have hf := Text.utf8_of_fromUtf8 hutf8
        have hinit : u32ToBeBytes (utf8 value).length = bytes.take 4 := by
          rw [utf8, hf, length_take_of_le (not_lt.mp hfits)]
          exact LengthPrefix.u32ToBeBytes_u32FromBeBytes
            (length_take_of_le (not_lt.mp hlong))
        rw [pushString, hinit, utf8, hf, append_assoc, take_append_drop, take_append_drop]

theorem writeFrame_eq_ok {payload written : List UInt8} :
    writeFrame payload = .ok written ↔
      payload.length ≤ maxMessageFrameBytes ∧ written = frame payload := by
  rw [writeFrame]
  split
  · rename_i hlarge
    constructor
    · intro hwrt
      cases hwrt
    · rintro ⟨hsma, -⟩
      omega
  · rename_i hsma
    rw [Except.ok.injEq, eq_comm]
    exact (and_iff_right (not_lt.mp hsma)).symm

theorem readFrame_frame {payload : List UInt8} (hpos : 0 < payload.length)
    (hlen : payload.length ≤ maxMessageFrameBytes) (rest : List UInt8) :
    readFrame (frame payload ++ rest) = .ok (payload, rest) := by
  rw [readFrame, LengthPrefix.takeFrame_frame (by decide) hpos hlen]

theorem readFrame_eq_takeFrame {incoming : List UInt8} {result : List UInt8 × List UInt8}
    (hread : readFrame incoming = .ok result) :
    takeFrame maxMessageFrameBytes incoming = .ok result := by
  unfold readFrame at hread
  split at hread
  · cases hread
  · cases hread
  · cases hread
  · rename_i htake
    cases hread
    exact htake

theorem readFrame_eq_ok {incoming payload rest : List UInt8}
    (hread : readFrame incoming = .ok (payload, rest)) :
    incoming = frame payload ++ rest ∧ payload.length ≤ maxMessageFrameBytes := by
  obtain ⟨hsp, hlen, hpos, hinit⟩ := LengthPrefix.takeFrame_eq_ok (readFrame_eq_takeFrame hread)
  have hlong : 4 ≤ incoming.length := by
    have hsiz := congrArg List.length hsp
    rw [length_append, length_append, length_take] at hsiz
    omega
  have hword : u32ToBeBytes payload.length = incoming.take 4 := by
    rw [hinit]
    exact LengthPrefix.u32ToBeBytes_u32FromBeBytes (length_take_of_le hlong)
  refine ⟨?_, hlen⟩
  rw [frame, hword]
  exact hsp

theorem readFrame_append {incoming : List UInt8} (hlong : 4 ≤ incoming.length)
    (hfrm : 4 + u32FromBeBytes (incoming.take 4) ≤ incoming.length) (more : List UInt8) :
    readFrame (incoming ++ more) =
      (readFrame incoming).map fun (payload, rest) => (payload, rest ++ more) := by
  have htake : (incoming ++ more).take 4 = incoming.take 4 := take_append_of_le_length hlong
  have hdrop : (incoming ++ more).drop 4 = incoming.drop 4 ++ more := drop_append_of_le_length hlong
  have hbody : u32FromBeBytes (incoming.take 4) ≤ (incoming.drop 4).length := by
    rw [length_drop]
    omega
  have hmore : ¬ (incoming.drop 4 ++ more).length < u32FromBeBytes (incoming.take 4) := by
    rw [length_append]
    omega
  have hsho : ¬ (incoming ++ more).length < 4 := by
    rw [length_append]
    omega
  unfold readFrame takeFrame
  rw [if_neg hsho, if_neg (not_lt.mpr hlong)]
  dsimp only
  rw [htake, hdrop]
  split_ifs
  · cases u32FromBeBytes (incoming.take 4) with
    | zero => rfl
    | succ length => rfl
  · rename_i hlarge
    exact absurd hbody (not_le.mpr hlarge)
  · rw [take_append_of_le_length hbody, drop_append_of_le_length hbody]
    rfl

section Frames

variable {messages : MessageEncoding}

/-- Messages that fit into a frame are decoded again. -/
structure MessageEncoding.Lawful (messages : MessageEncoding) : Prop where
  decode_encode : ∀ message, (messages.encode message).length ≤ maxMessageFrameBytes →
    messages.decode (messages.encode message) = .ok message

/-- The payload of a frame. -/
def Frame.payload (messages : MessageEncoding) : Frame → List UInt8
  | .open owner resourceId expectedClock => openPayload owner resourceId expectedClock
  | .openResponse accepted => [openResponseFrame, if accepted then 1 else 0]
  | .message sequence content => messagePayload sequence (messages.encode content)
  | .ack sequence => ackFrame :: u64ToBeBytes sequence

theorem Frame.write_eq (sent : Frame) :
    sent.write messages = writeFrame (sent.payload messages) := by
  cases sent <;> rfl

theorem Frame.payload_pos (sent : Frame) : 0 < (sent.payload messages).length := by
  cases sent <;> exact Nat.succ_pos _

theorem length_pushString (value : List Char) :
    (pushString value).length = 4 + (utf8 value).length := by
  rw [pushString, length_append, LengthPrefix.length_u32ToBeBytes]

theorem decodeOpenFrame_openPayload {owner : PeerId} {resourceId : List Char}
    {expectedClock : RegistryRef}
    (hlen : (openPayload owner resourceId expectedClock).length ≤ maxMessageFrameBytes) :
    decodeOpenFrame (openPayload owner resourceId expectedClock) =
      .ok (.open owner resourceId expectedClock) := by
  rw [openPayload, maxMessageFrameBytes] at hlen
  simp only [length_cons, length_append, length_pushString] at hlen
  have hread : PeerId.fromStr (String.ofList owner.toText.toList) = some owner := by
    rw [String.ofList_toList, PeerId.fromStr_toText]
  have hlast : takeString (pushString expectedClock.hash) = .ok (expectedClock.hash, []) := by
    have htake : takeString (pushString expectedClock.hash ++ []) = .ok (expectedClock.hash, []) :=
      takeString_pushString (by omega) []
    rw [append_nil] at htake
    exact htake
  rw [openPayload, decodeOpenFrame]
  apply Checks.require_bind_eq_ok.mpr
  refine ⟨rfl, ?_⟩
  apply Checks.bind_eq_ok.mpr
  refine ⟨_, takeString_pushString (by omega) _, ?_⟩
  apply Checks.bind_eq_ok.mpr
  refine ⟨_, takeString_pushString (by omega) _, ?_⟩
  apply Checks.bind_eq_ok.mpr
  refine ⟨_, takeString_pushString (by omega) _, ?_⟩
  apply Checks.bind_eq_ok.mpr
  refine ⟨_, takeString_pushString (by omega) _, ?_⟩
  apply Checks.bind_eq_ok.mpr
  refine ⟨_, hlast, ?_⟩
  apply Checks.require_bind_eq_ok.mpr
  refine ⟨rfl, ?_⟩
  rw [hread]

theorem openPayload_of_decodeOpenFrame {payload : List UInt8} {read : Frame}
    (hdec : decodeOpenFrame payload = .ok read) :
    read.kind = .open ∧ payload = read.payload messages := by
  cases payload with
  | nil => cases hdec
  | cons kind rest =>
    obtain ⟨hkind, hdec⟩ := Checks.require_bind_eq_ok.mp hdec
    obtain ⟨⟨owner, rest₁⟩, hown, hdec⟩ := Checks.bind_eq_ok.mp hdec
    obtain ⟨⟨resourceId, rest₂⟩, hres, hdec⟩ := Checks.bind_eq_ok.mp hdec
    obtain ⟨⟨clockPeerId, rest₃⟩, hpeer, hdec⟩ := Checks.bind_eq_ok.mp hdec
    obtain ⟨⟨clockId, rest₄⟩, hid, hdec⟩ := Checks.bind_eq_ok.mp hdec
    obtain ⟨⟨clockHash, rest₅⟩, hhash, hdec⟩ := Checks.bind_eq_ok.mp hdec
    obtain ⟨hend, hdec⟩ := Checks.require_bind_eq_ok.mp hdec
    cases hprs : PeerId.fromStr (String.ofList owner) with
    | none =>
      rw [hprs] at hdec
      cases hdec
    | some peer =>
      rw [hprs] at hdec
      cases hdec
      have htext : peer.toText.toList = owner := by
        rw [PeerId.toText_of_fromStr hprs, String.toList_ofList]
      refine ⟨rfl, ?_⟩
      rw [hkind, Frame.payload, openPayload, htext, takeString_eq_ok hown,
        takeString_eq_ok hres, takeString_eq_ok hpeer, takeString_eq_ok hid,
        takeString_eq_ok hhash, hend, append_nil]

theorem decodeOpenResponse_eq_ok {payload : List UInt8} {read : Frame}
    (hdec : decodeOpenResponse payload = .ok read) :
    read.kind = .openResponse ∧ payload = read.payload messages := by
  cases payload with
  | nil => cases hdec
  | cons kind rest =>
    rw [decodeOpenResponse] at hdec
    split_ifs at hdec with hfal htrue
    · cases hdec
      obtain ⟨rfl, rfl⟩ := hfal
      exact ⟨rfl, rfl⟩
    · cases hdec
      obtain ⟨rfl, rfl⟩ := htrue
      exact ⟨rfl, rfl⟩

theorem decodeMessageFrame_eq_ok {payload : List UInt8} {read : Frame}
    (hdec : decodeMessageFrame messages payload = .ok read) :
    ∃ sequence message body, read = .message sequence message ∧
      messages.decode body = .ok message ∧ payload = messagePayload sequence body := by
  cases payload with
  | nil => cases hdec
  | cons kind rest =>
    obtain ⟨hkind, hdec⟩ := Checks.require_bind_eq_ok.mp hdec
    obtain ⟨hlong, hdec⟩ := Checks.require_bind_eq_ok.mp hdec
    obtain ⟨message, hmsg, hdec⟩ := Checks.bind_eq_ok.mp hdec
    cases hdec
    refine ⟨_, message, rest.drop 8, rfl, Checks.mapError_eq_ok.mp hmsg, ?_⟩
    rw [hkind, messagePayload, u64ToBeBytes_u64FromBeBytes (length_take_of_le hlong),
      take_append_drop]

theorem decodeAckFrame_eq_ok {payload : List UInt8} {read : Frame}
    (hdec : decodeAckFrame payload = .ok read) :
    read.kind = .ack ∧ payload = read.payload messages := by
  cases payload with
  | nil => cases hdec
  | cons kind rest =>
    obtain ⟨hkind, hdec⟩ := Checks.require_bind_eq_ok.mp hdec
    obtain ⟨hlen, hdec⟩ := Checks.require_bind_eq_ok.mp hdec
    cases hdec
    refine ⟨rfl, ?_⟩
    rw [hkind, Frame.payload, u64ToBeBytes_u64FromBeBytes hlen]

theorem decodeAs_payload (hlaw : messages.Lawful) (sent : Frame)
    (hlen : (sent.payload messages).length ≤ maxMessageFrameBytes) :
    decodeAs messages sent.kind (sent.payload messages) = .ok sent := by
  cases sent with
  | «open» owner resourceId expectedClock => exact decodeOpenFrame_openPayload hlen
  | openResponse accepted => cases accepted <;> rfl
  | message sequence message =>
    have htake : (u64ToBeBytes sequence ++ messages.encode message).take 8 =
        u64ToBeBytes sequence := take_left' (length_u64ToBeBytes sequence)
    have hdrop : (u64ToBeBytes sequence ++ messages.encode message).drop 8 =
        messages.encode message := drop_left' (length_u64ToBeBytes sequence)
    rw [Frame.payload, messagePayload, length_cons, length_append, length_u64ToBeBytes] at hlen
    apply Checks.require_bind_eq_ok.mpr
    refine ⟨rfl, ?_⟩
    apply Checks.require_bind_eq_ok.mpr
    constructor
    · rw [length_append, length_u64ToBeBytes]
      omega
    · apply Checks.bind_eq_ok.mpr
      refine ⟨message, Checks.mapError_eq_ok.mpr ?_, ?_⟩
      · rw [hdrop]
        exact hlaw.decode_encode message (by omega)
      · rw [htake, u64FromBeBytes_u64ToBeBytes]
  | ack sequence =>
    apply Checks.require_bind_eq_ok.mpr
    refine ⟨rfl, ?_⟩
    apply Checks.require_bind_eq_ok.mpr
    refine ⟨length_u64ToBeBytes sequence, ?_⟩
    rw [u64FromBeBytes_u64ToBeBytes]

theorem readAs_write (hlaw : messages.Lawful) {sent : Frame} {written : List UInt8}
    (hwrt : sent.write messages = .ok written) (rest : List UInt8) :
    readAs messages sent.kind (written ++ rest) = .ok (sent, rest) := by
  rw [Frame.write_eq, writeFrame_eq_ok] at hwrt
  obtain ⟨hlen, rfl⟩ := hwrt
  apply Checks.bind_eq_ok.mpr
  refine ⟨_, readFrame_frame sent.payload_pos hlen rest, ?_⟩
  apply Checks.bind_eq_ok.mpr
  exact ⟨sent, decodeAs_payload hlaw sent hlen, rfl⟩

theorem readFrames_writeFrames (hlaw : messages.Lawful) {sent : List Frame}
    {written : List UInt8} (hwrt : writeFrames messages sent = .ok written)
    (rest : List UInt8) :
    readFrames messages (sent.map Frame.kind) (written ++ rest) = .ok (sent, rest) := by
  induction sent generalizing written with
  | nil =>
    cases hwrt
    rfl
  | cons first sent ih =>
    obtain ⟨bytes, hfst, hwrt⟩ := Checks.bind_eq_ok.mp hwrt
    obtain ⟨more, hmore, hwrt⟩ := Checks.bind_eq_ok.mp hwrt
    cases hwrt
    rw [append_assoc]
    apply Checks.bind_eq_ok.mpr
    refine ⟨_, readAs_write hlaw hfst (more ++ rest), ?_⟩
    apply Checks.bind_eq_ok.mpr
    exact ⟨_, ih hmore, rfl⟩

theorem decodeAs_eq_ok {kind : FrameKind} {payload : List UInt8} {read : Frame}
    (hdec : decodeAs messages kind payload = .ok read) :
    read.kind = kind ∧ (kind ≠ .message → payload = read.payload messages) ∧
      (kind = .message → ∃ sequence message body, read = .message sequence message ∧
        messages.decode body = .ok message ∧ payload = messagePayload sequence body) := by
  cases kind with
  | «open» =>
    have hfrm : read.kind = _ ∧ payload = read.payload messages :=
      openPayload_of_decodeOpenFrame hdec
    obtain ⟨hkind, hpay⟩ := hfrm
    exact ⟨hkind, fun _ => hpay, fun hmsg => by cases hmsg⟩
  | openResponse =>
    have hfrm : read.kind = _ ∧ payload = read.payload messages := decodeOpenResponse_eq_ok hdec
    obtain ⟨hkind, hpay⟩ := hfrm
    exact ⟨hkind, fun _ => hpay, fun hmsg => by cases hmsg⟩
  | ack =>
    have hfrm : read.kind = _ ∧ payload = read.payload messages := decodeAckFrame_eq_ok hdec
    obtain ⟨hkind, hpay⟩ := hfrm
    exact ⟨hkind, fun _ => hpay, fun hmsg => by cases hmsg⟩
  | message =>
    obtain ⟨sequence, message, body, rfl, hbody, hpay⟩ := decodeMessageFrame_eq_ok hdec
    exact ⟨rfl, fun ho => absurd rfl ho, fun _ =>
      ⟨sequence, message, body, rfl, hbody, hpay⟩⟩

theorem readAs_eq_ok {kind : FrameKind} {incoming rest : List UInt8} {read : Frame}
    (hread : readAs messages kind incoming = .ok (read, rest)) :
    ∃ payload, decodeAs messages kind payload = .ok read ∧ incoming = frame payload ++ rest ∧
      payload.length ≤ maxMessageFrameBytes := by
  obtain ⟨⟨payload, after⟩, hfrm, hread⟩ := Checks.bind_eq_ok.mp hread
  obtain ⟨decoded, hdec, hread⟩ := Checks.bind_eq_ok.mp hread
  cases hread
  obtain ⟨hinc, hlen⟩ := readFrame_eq_ok hfrm
  exact ⟨payload, hdec, hinc, hlen⟩

theorem readAs_append {incoming : List UInt8} (hlong : 4 ≤ incoming.length)
    (hfrm : 4 + u32FromBeBytes (incoming.take 4) ≤ incoming.length) (kind : FrameKind)
    (more : List UInt8) :
    readAs messages kind (incoming ++ more) =
      (readAs messages kind incoming).map fun (read, rest) => (read, rest ++ more) := by
  rw [readAs, readFrame_append hlong hfrm, readAs]
  cases readFrame incoming with
  | error error => rfl
  | ok result =>
    obtain ⟨payload, rest⟩ := result
    cases hdec : decodeAs messages kind payload with
    | error error => simp [Except.map, bind, Except.bind, hdec]
    | ok read => simp [Except.map, bind, Except.bind, hdec]

end Frames

section Wire

open Protobuf

def messageFields (message : Message) : List Field :=
  bytesField 1 (utf8 message.type) ++ numberField 2 message.timestampNs.toUInt64.toNat ++
    bytesField 3 message.payload

/-- The messages as their schema encodes them. -/
def protoMessages : MessageEncoding where
  encode message := encodeFields (messageFields message)
  decode bytes := do
    let fields ← fieldsOf bytes
    let type ← stringOf 1 fields
    .ok ⟨type, (UInt64.ofNat (numberOf 2 fields)).toInt64, bytesOf 3 fields⟩

theorem fits_messageFields {message : Message}
    (hlen : (protoMessages.encode message).length ≤ maxMessageFrameBytes) :
    ∀ field ∈ messageFields message, Fits field := by
  have htype := length_le_bytesField 1 (utf8 message.type)
  have hpay := length_le_bytesField 3 message.payload
  change (encodeFields (messageFields message)).length ≤ maxMessageFrameBytes at hlen
  rw [messageFields, encodeFields_append, encodeFields_append, length_append,
    length_append, maxMessageFrameBytes] at hlen
  intro field hfld
  rw [messageFields, mem_append, mem_append] at hfld
  rcases hfld with (hfld | hfld) | hfld
  · exact fits_bytesField (by decide) (by omega) field hfld
  · exact fits_numberField (by decide) (UInt64.toNat_lt _) field hfld
  · exact fits_bytesField (by decide) (by omega) field hfld

theorem read_messageFields (message : Message) :
    bytesOf 1 (messageFields message) = utf8 message.type ∧
      numberOf 2 (messageFields message) = message.timestampNs.toUInt64.toNat ∧
      bytesOf 3 (messageFields message) = message.payload := by
  simp only [messageFields, bytesField, numberField]
  split_ifs <;> simp_all [bytesOf, numberOf]

theorem protoMessages_lawful : protoMessages.Lawful where
  decode_encode := by
    intro message hlen
    obtain ⟨htype, htim, hpay⟩ := read_messageFields message
    apply Checks.bind_eq_ok.mpr
    refine ⟨_, fieldsOf_encodeFields (fits_messageFields hlen), ?_⟩
    apply Checks.bind_eq_ok.mpr
    refine ⟨message.type, stringOf_of_bytesOf htype, ?_⟩
    rw [htim, hpay, UInt64.ofNat_toNat, Int64.toInt64_toUInt64]

end Wire

/-- Written frames are read back, and what is read was written so. -/
theorem frames_round_trip {messages : MessageEncoding} (hlawful : messages.Lawful) :
    (∀ (sent : Frame) (written rest : List UInt8), sent.write messages = .ok written →
      readAs messages sent.kind (written ++ rest) = .ok (sent, rest)) ∧
    (∀ (sent : List Frame) (written rest : List UInt8), writeFrames messages sent = .ok written →
      readFrames messages (sent.map Frame.kind) (written ++ rest) = .ok (sent, rest)) ∧
    (∀ (kind : FrameKind) (incoming rest : List UInt8) (read : Frame),
      readAs messages kind incoming = .ok (read, rest) →
        read.kind = kind ∧ ∃ written, incoming = written ++ rest ∧
          (read.write messages = .ok written ∨
            ∃ sequence message body, read = .message sequence message ∧
              messages.decode body = .ok message ∧
              writeFrame (messagePayload sequence body) = .ok written)) ∧
    ∀ (kind : FrameKind) (incoming more : List UInt8), 4 ≤ incoming.length →
      4 + u32FromBeBytes (incoming.take 4) ≤ incoming.length →
        readAs messages kind (incoming ++ more) =
          (readAs messages kind incoming).map fun (read, rest) => (read, rest ++ more) := by
  refine ⟨?_, ?_, ?_, ?_⟩
  · intro sent written rest hwrite
    exact readAs_write hlawful hwrite rest
  · intro sent written rest hwrite
    exact readFrames_writeFrames hlawful hwrite rest
  · intro kind incoming rest read hread
    obtain ⟨payload, hdecode, hincoming, hlength⟩ := readAs_eq_ok hread
    obtain ⟨hkind, hexact, hmessage⟩ := decodeAs_eq_ok hdecode
    refine ⟨hkind, frame payload, hincoming, ?_⟩
    by_cases hother : kind = .message
    · obtain ⟨sequence, message, body, hsame, hbody, hpayload⟩ := hmessage hother
      refine .inr ⟨sequence, message, body, hsame, hbody, ?_⟩
      rw [← hpayload]
      exact writeFrame_eq_ok.mpr ⟨hlength, rfl⟩
    · rw [Frame.write_eq, ← hexact hother]
      exact .inl (writeFrame_eq_ok.mpr ⟨hlength, rfl⟩)
  · intro kind incoming more hlong hframe
    exact readAs_append hlong hframe kind more

/-- An acknowledgement and a message are read back. -/
theorem frames_round_trip_sample : ∃ written,
      writeFrames protoMessages [.ack 7, .message 8 ⟨"tick".toList, -1, [5]⟩] = .ok written ∧
      readFrames protoMessages [.ack, .message] (written ++ [9]) =
        .ok ([.ack 7, .message 8 ⟨"tick".toList, -1, [5]⟩], [9]) := by
  have hwritten : ∃ written,
      writeFrames protoMessages [.ack 7, .message 8 ⟨"tick".toList, -1, [5]⟩] = .ok written :=
    ⟨_, rfl⟩
  obtain ⟨written, hwrite⟩ := hwritten
  exact ⟨written, hwrite, (frames_round_trip protoMessages_lawful).2.1 _ written [9] hwrite⟩

theorem frame_injective {payload other : List UInt8} (hsm : frame payload = frame other) :
    payload = other :=
  (append_inj hsm rfl).2

/-- A message whose timestamp zero is written out. -/
def explicitDefault : List UInt8 :=
  frame (messagePayload 0 [16, 0])

theorem decode_explicitDefault : protoMessages.decode [16, 0] = .ok ⟨[], 0, []⟩ := by
  have hfields : Protobuf.fieldsOf [16, 0] = .ok [(2, .varint 0)] := rfl
  apply Checks.bind_eq_ok.mpr
  refine ⟨_, hfields, ?_⟩
  apply Checks.bind_eq_ok.mpr
  exact ⟨[], Protobuf.stringOf_of_bytesOf rfl, rfl⟩

/-- A reader accepts a message that no writer writes. -/
theorem explicit_default_accepted :
    readAs protoMessages .message explicitDefault = .ok (.message 0 ⟨[], 0, []⟩, []) ∧
      ∀ sent : Frame, sent.write protoMessages ≠ .ok explicitDefault := by
  constructor
  · have hframe : readFrame (explicitDefault ++ []) = .ok (messagePayload 0 [16, 0], []) :=
      readFrame_frame (by decide) (by decide) []
    rw [append_nil] at hframe
    apply Checks.bind_eq_ok.mpr
    refine ⟨_, hframe, ?_⟩
    apply Checks.bind_eq_ok.mpr
    refine ⟨.message 0 ⟨[], 0, []⟩, ?_, rfl⟩
    apply Checks.require_bind_eq_ok.mpr
    refine ⟨rfl, ?_⟩
    apply Checks.require_bind_eq_ok.mpr
    refine ⟨by decide, ?_⟩
    apply Checks.bind_eq_ok.mpr
    exact ⟨_, Checks.mapError_eq_ok.mpr decode_explicitDefault, rfl⟩
  · intro sent hwrite
    rw [Frame.write_eq, writeFrame_eq_ok] at hwrite
    obtain ⟨-, hbytes⟩ := hwrite
    have hpayload := frame_injective hbytes
    cases sent with
    | «open» owner resourceId expectedClock => cases hpayload
    | openResponse accepted => cases hpayload
    | ack sequence => cases hpayload
    | message sequence message =>
      have hbody : protoMessages.encode message = [16, 0] :=
        (append_inj (List.cons.inj hpayload).2 rfl).2.symm
      have hdecode := protoMessages_lawful.decode_encode message (by rw [hbody]; decide)
      rw [hbody, decode_explicitDefault] at hdecode
      cases hdecode
      cases hbody

end AukiSdk.Protocols.MessageV1
