import AukiSdk.Foundation.LengthPrefix
import AukiSdk.Foundation.Checks
import AukiSdk.Foundation.Run

/-!
# Typed streams

A producer pumps the items of a source as numbered entries.
-/

namespace AukiSdk.Protocols.StreamV2

open AukiSdk.Foundation
open LengthPrefix (FrameError frame takeFrame)

def maxFrameBytes : ℕ := 16 * 1024 * 1024

/-- The kind of an `EndReason`. -/
inductive EndKind where
  | sourceEnded
  | producerShuttingDown
  | sessionEnded
  | producerError (detail : List Char)
  deriving DecidableEq

/-- `StreamEntry` on the wire. -/
structure WireStreamEntry where
  timestampNs : Int64
  seq : ℕ
  payload : List UInt8
  deriving DecidableEq

/-- `StreamMessage`; requests and declines are not looked into. -/
inductive StreamMessage (Manifest Other : Type) where
  | accept (manifest : Manifest)
  | other (message : Other)
  | entry (entry : WireStreamEntry)
  | endOfStream (kind : Option EndKind)

/-- The encoders and decoders of messages and payloads. -/
structure StreamEncoding (Manifest Other Payload : Type) where
  encode : StreamMessage Manifest Other → List UInt8
  decode : List UInt8 → Except (List Char) (Option (StreamMessage Manifest Other))
  encodePayload : Payload → List UInt8
  decodePayload : List UInt8 → Except (List Char) Payload

inductive StreamProtocolError where
  | io (unexpectedEof : Bool)
  | decode (detail : List Char)
  | missingVariant
  | endReasonHasNoKind
  | frameTooLarge (actual max : ℕ)
  | emptyFrame

inductive StreamError where
  | connectionLost
  | protocol (error : StreamProtocolError)
  | sequenceMismatch (expected actual : ℕ)
  | sequenceExhausted
  | unexpectedMessage
  | endOfStream (kind : EndKind)

structure StreamItem (Payload : Type) where
  timestampNs : Int64
  payload : Payload

structure StreamEntry (Payload : Type) where
  timestampNs : Int64
  seq : ℕ
  payload : Payload

/-- A source: what each call of `next` gives, as long as the calls before it gave
items. -/
abbrev SourceStream (Payload : Type) := ℕ → Option (Except (List Char) (StreamItem Payload))

/-- A connection as its reader sees it. -/
inductive Connection where
  | open
  | ended
  | failed
  deriving DecidableEq

section Sides

variable {Manifest Other Payload : Type} (encoding : StreamEncoding Manifest Other Payload)

/-- `write_message`: the bytes to be written. -/
def writeMessage (message : StreamMessage Manifest Other) :
    Except StreamProtocolError (List UInt8) :=
  if maxFrameBytes < (encoding.encode message).length then
    .error (.frameTooLarge (encoding.encode message).length maxFrameBytes)
  else
    .ok (frame (encoding.encode message))

/-- `read_message` on the bytes that have arrived; `none` while it waits. -/
def readMessage (connection : Connection) (arrived : List UInt8) :
    Option (Except StreamProtocolError (Option (StreamMessage Manifest Other) × List UInt8)) :=
  match takeFrame maxFrameBytes arrived with
  | .error .ended =>
    match connection with
    | .open => none
    | .ended => some (.error (.io true))
    | .failed => some (.error (.io false))
  | .error (.length 0) => some (.error .emptyFrame)
  | .error (.length (actual + 1)) => some (.error (.frameTooLarge (actual + 1) maxFrameBytes))
  | .ok (payload, rest) =>
    match encoding.decode payload with
    | .error detail => some (.error (.decode detail))
    | .ok message => some (.ok (message, rest))

/-- Whether a write completes, or how far it gets. -/
inductive Write where
  | complete
  | broken (written : ℕ)

/-- `pump_typed` between two messages. -/
inductive Producer where
  | starting
  | pumping (sequence position : ℕ)
  | returned

/-- The next reply, item, close or write, or the drop of the handler. -/
inductive ProducerEvent where
  | reply (write : Write)
  | item (write : Write)
  | remote
  | dropped

/-- A message is written, as far as its write gets. -/
def send (message : StreamMessage Manifest Other) (write : Write) (next : Producer) :
    Producer × List UInt8 :=
  match writeMessage encoding message with
  | .error _ => (.returned, [])
  | .ok bytes =>
    match write with
    | .complete => (next, bytes)
    | .broken written => (.returned, bytes.take written)

/-- The message for an item. -/
def entryMessage (sequence : ℕ) (item : StreamItem Payload) : StreamMessage Manifest Other :=
  .entry ⟨item.timestampNs, sequence, encoding.encodePayload item.payload⟩

/-- One turn of `pump_typed`, with the bytes it writes. -/
def Producer.step (manifest : Manifest) (source : SourceStream Payload) (producer : Producer) :
    ProducerEvent → Option (Producer × List UInt8)
  | .reply write =>
    match producer with
    | .starting => some (send encoding (.accept manifest) write (.pumping 0 0))
    | _ => none
  | .item write =>
    match producer with
    | .pumping sequence position =>
      match source position with
      | some (.ok item) =>
        some (send encoding (entryMessage encoding sequence item) write
          (if sequence + 1 < 2 ^ 64 then .pumping (sequence + 1) (position + 1)
           else .returned))
      | some (.error detail) =>
        some (send encoding (.endOfStream (some (.producerError detail))) write .returned)
      | none =>
        some (send encoding (.endOfStream (some .sourceEnded)) write .returned)
    | _ => none
  | .remote =>
    match producer with
    | .pumping _ _ => some (.returned, [])
    | _ => none
  | .dropped => some (.returned, [])

inductive DecodedLiveMessage (Payload : Type) where
  | entry (entry : StreamEntry Payload) (nextSequence : ℕ)
  | ended (kind : EndKind)

def decodeLiveMessage (message : Option (StreamMessage Manifest Other)) (expected : ℕ) :
    Except StreamError (DecodedLiveMessage Payload) :=
  match message with
  | some (.entry entry) =>
    if entry.seq ≠ expected then
      .error (.sequenceMismatch expected entry.seq)
    else if 2 ^ 64 ≤ expected + 1 then
      .error .sequenceExhausted
    else
      match encoding.decodePayload entry.payload with
      | .error detail => .error (.protocol (.decode detail))
      | .ok payload => .ok (.entry ⟨entry.timestampNs, entry.seq, payload⟩ (expected + 1))
  | some (.endOfStream (some kind)) => .ok (.ended kind)
  | some (.endOfStream none) => .error (.protocol .endReasonHasNoKind)
  | none => .error (.protocol .missingVariant)
  | some _ => .error .unexpectedMessage

/-- A subscription waits for its reply, was refused, has a stream, or has given it
up. -/
inductive Phase where
  | handshake
  | refused
  | live
  | closed
  deriving DecidableEq

/-- A consumer, with everything its subscription has yielded. -/
structure Consumer (Payload : Type) where
  connection : Connection := .open
  arrived : List UInt8 := []
  phase : Phase := .handshake
  expected : ℕ := 0
  yields : List (Except StreamError (StreamEntry Payload)) := []
  exhausted : Bool := false

/-- `client_handshake` after its request; `accepts` is `validate_manifest`. -/
def Consumer.handshake (accepts : Manifest → Bool) (consumer : Consumer Payload) :
    Option (Consumer Payload) :=
  if consumer.phase = .handshake then
    match readMessage encoding consumer.connection consumer.arrived with
    | none => some consumer
    | some (.ok (some (.accept manifest), rest)) =>
      if accepts manifest then some { consumer with phase := .live, arrived := rest }
      else some { consumer with phase := .refused }
    | some _ => some { consumer with phase := .refused }
  else
    none

variable (consumer : Consumer Payload)

/-- The terminal error of a subscription. -/
def Consumer.close (error : StreamError) : Consumer Payload :=
  { consumer with phase := .closed, yields := consumer.yields ++ [.error error] }

/-- What a read is to a subscription. -/
def Consumer.receive
    (read : Except StreamProtocolError (Option (StreamMessage Manifest Other) × List UInt8)) :
    Consumer Payload :=
  match read with
  | .error (.io true) => consumer.close .connectionLost
  | .error error => consumer.close (.protocol error)
  | .ok (message, rest) =>
    match decodeLiveMessage encoding message consumer.expected with
    | .error error => consumer.close error
    | .ok (.ended kind) => consumer.close (.endOfStream kind)
    | .ok (.entry entry nextSequence) =>
      { consumer with
        arrived := rest
        expected := nextSequence
        yields := consumer.yields ++ [.ok entry] }

/-- The next item of `subscription_entries`, if it can be had. -/
def Consumer.next : Option (Consumer Payload) :=
  match consumer.phase with
  | .live =>
    match readMessage encoding consumer.connection consumer.arrived with
    | none => some consumer
    | some read => some (consumer.receive encoding read)
  | .closed => some { consumer with exhausted := true }
  | _ => none

/-- What happens to a consumer. -/
inductive ConsumerEvent where
  | arrive (bytes : List UInt8)
  | disconnect (failed : Bool) (kept : ℕ)
  | handshake
  | next

def Consumer.step (accepts : Manifest → Bool) (consumer : Consumer Payload) :
    ConsumerEvent → Option (Consumer Payload)
  | .arrive bytes =>
    if consumer.connection = .open then
      some { consumer with arrived := consumer.arrived ++ bytes }
    else
      none
  | .disconnect failed kept =>
    if consumer.connection = .open then
      some { consumer with
        connection := if failed then .failed else .ended
        arrived := consumer.arrived.take kept }
    else
      none
  | .handshake => consumer.handshake encoding accepts
  | .next => consumer.next encoding

/-- A producer, the bytes under way, and a consumer. -/
structure System (Payload : Type) where
  producer : Producer := .starting
  wire : List UInt8 := []
  consumer : Consumer Payload := {}

inductive SystemEvent where
  | producer (event : ProducerEvent)
  | deliver (count : ℕ)
  | disconnect (failed : Bool) (kept : ℕ)
  | handshake
  | next

def System.step (manifest : Manifest) (source : SourceStream Payload) (accepts : Manifest → Bool)
    (system : System Payload) : SystemEvent → Option (System Payload)
  | .producer event =>
    (system.producer.step encoding manifest source event).map fun (producer, bytes) =>
      { system with producer, wire := system.wire ++ bytes }
  | .deliver count =>
    (system.consumer.step encoding accepts (.arrive (system.wire.take count))).map
      fun consumer => { system with consumer, wire := system.wire.drop count }
  | .disconnect failed kept =>
    (system.consumer.step encoding accepts (.disconnect failed kept)).map
      fun consumer => { system with consumer }
  | .handshake =>
    (system.consumer.step encoding accepts .handshake).map
      fun consumer => { system with consumer }
  | .next =>
    (system.consumer.step encoding accepts .next).map
      fun consumer => { system with consumer }

end Sides

end AukiSdk.Protocols.StreamV2
