import AukiSdk.Foundation.ByteStream
import AukiSdk.Net.Identifiers
import AukiSdk.Recording.Registration
import AukiSdk.Registry.Serving

/-!
# Resource catalogs

The requests and responses of the resource catalog in its versions 0.2 and 0.3.
-/

namespace AukiSdk.Protocols.Catalog

open AukiSdk.Foundation AukiSdk.Net AukiSdk.Recording AukiSdk.Registry
open ByteStream (Read readExact u32ToBeBytes u32FromBeBytes)

/-- A JSON document; a number that is no integer by its text. -/
inductive Json where
  | null
  | bool (value : Bool)
  | integer (value : ℤ)
  | float (text : Recording.Text)
  | string (value : Recording.Text)
  | array (items : List Json)
  | object (entries : List (String × Json))

mutual

/-- `serde_json::to_vec` of a document. -/
def Json.toVec : Json → List UInt8
  | .null => literal "null"
  | .bool true => literal "true"
  | .bool false => literal "false"
  | .integer value => literal (toString value)
  | .float text => utf8 text
  | .string value => jsonString (utf8 value)
  | .array items => 0x5B :: ((literal ",").intercalate (itemsToVec items) ++ [0x5D])
  | .object entries => 0x7B :: ((literal ",").intercalate (entriesToVec entries) ++ [0x7D])

def itemsToVec : List Json → List (List UInt8)
  | [] => []
  | item :: items => item.toVec :: itemsToVec items

def entriesToVec : List (String × Json) → List (List UInt8)
  | [] => []
  | (key, value) :: entries =>
    (jsonString (literal key) ++ literal ":" ++ value.toVec) :: entriesToVec entries

end

def Json.get (key : String) : Json → Option Json
  | .object entries => (entries.find? fun entry => entry.1 = key).map Prod.snd
  | _ => none

def Json.asStr : Json → Option Recording.Text
  | .string value => some value
  | _ => none

/-- The entry of an optional field that is skipped when absent. -/
def optionalEntry {α : Type} (key : String) (toJson : α → Json) : Option α →
    List (String × Json)
  | none => []
  | some value => [(key, toJson value)]

inductive SensorKind where
  | camera | rangefinder | rf | audio | jointEncoders | scalar

inductive Head where
  | rolling (retentionNs : Int64)
  | fixed (startedAtNs : Int64)

structure Extent where
  startAtNs : Int64
  finishAtNs : Int64

structure Available where
  bytes : UInt64
  entries : UInt64
  durationNs : Int64

structure SensorBlock where
  kind : SensorKind
  type : Recording.Text
  sensorId : Recording.Text
  sensorHash : Recording.Text

structure PoseBlock where
  writerMode : PoseWriterMode

structure SensorManifestPointer where
  clock : RegistryRef
  frame : Option RegistryRef

structure PoseManifestPointer where
  fromFrame : RegistryRef
  toFrame : RegistryRef
  clock : RegistryRef
  source : PoseSource
  expectedRateHz : UInt32

structure TimeTransformManifestPointer where
  fromClock : RegistryRef
  toClock : RegistryRef
  source : TimeTransformSource

structure DetectionManifestPointer where
  instanceId : Recording.Text
  detector : RegistryRef
  inputLog : LogRef
  inputSensor : RegistryRef
  clock : RegistryRef
  cadence : DetectionCadence

inductive VariantContent where
  | sensorLog (manifest : SensorManifestPointer)
  | poseLog (manifest : PoseManifestPointer)
  | timeTransformLog (manifest : TimeTransformManifestPointer)
  | detectionLog (manifest : DetectionManifestPointer)

/-- `ResourceEntry` of version 0.2. -/
structure V2ResourceEntry where
  sourcePeerId : Recording.Text
  writerPeerId : Recording.Text
  resourceId : Recording.Text
  state : Recording.Text
  head : Option Head
  extent : Option Extent
  available : Available
  sensor : Option SensorBlock
  pose : Option PoseBlock
  variantContent : VariantContent

def text (value : String) : Json := .string value.toList

def registryRefToJson (ref : RegistryRef) : Json :=
  .object [("peer_id", .string ref.peerId), ("id", .string ref.id), ("hash", .string ref.hash)]

def SensorKind.toJson : SensorKind → Json
  | .camera => text "camera"
  | .rangefinder => text "rangefinder"
  | .rf => text "rf"
  | .audio => text "audio"
  | .jointEncoders => text "joint_encoders"
  | .scalar => text "scalar"

def Head.toJson : Head → Json
  | .rolling retentionNs =>
    .object [("kind", text "rolling"), ("retention_ns", .integer retentionNs.toInt)]
  | .fixed startedAtNs =>
    .object [("kind", text "fixed"), ("started_at_ns", .integer startedAtNs.toInt)]

def Extent.toJson (extent : Extent) : Json :=
  .object [("start_at_ns", .integer extent.startAtNs.toInt),
    ("finish_at_ns", .integer extent.finishAtNs.toInt)]

def Available.toJson (available : Available) : Json :=
  .object [("bytes", .integer available.bytes.toNat),
    ("entries", .integer available.entries.toNat),
    ("duration_ns", .integer available.durationNs.toInt)]

def SensorBlock.toJson (sensor : SensorBlock) : Json :=
  .object [("kind", sensor.kind.toJson), ("type", .string sensor.type),
    ("sensor_id", .string sensor.sensorId), ("sensor_hash", .string sensor.sensorHash)]

def PoseBlock.toJson (pose : PoseBlock) : Json :=
  .object [("writer_mode", match pose.writerMode with
    | .rigid => text "rigid"
    | .movable => text "movable")]

def poseSourceToJson : PoseSource → Json
  | .ros2Tf publishers =>
    .object [("kind", text "ros2_tf"), ("publishers", .array (publishers.map .string))]
  | .manual => .object [("kind", text "manual")]

def timeTransformSourceToJson : TimeTransformSource → Json
  | .localClockRead => .object [("kind", text "local_clock_read")]

def detectionCadenceToJson : DetectionCadence → Json
  | .everyFrame => .object [("kind", text "every_frame")]
  | .periodic periodNs => .object [("kind", text "periodic"), ("period_ns", .integer periodNs)]

def SensorManifestPointer.toJson (manifest : SensorManifestPointer) : Json :=
  .object (("clock", registryRefToJson manifest.clock) ::
    optionalEntry "frame" registryRefToJson manifest.frame)

def PoseManifestPointer.toJson (manifest : PoseManifestPointer) : Json :=
  .object [("from_frame", registryRefToJson manifest.fromFrame),
    ("to_frame", registryRefToJson manifest.toFrame),
    ("clock", registryRefToJson manifest.clock), ("source", poseSourceToJson manifest.source),
    ("expected_rate_hz", .integer manifest.expectedRateHz.toNat)]

def TimeTransformManifestPointer.toJson (manifest : TimeTransformManifestPointer) : Json :=
  .object [("from_clock", registryRefToJson manifest.fromClock),
    ("to_clock", registryRefToJson manifest.toClock),
    ("source", timeTransformSourceToJson manifest.source)]

def DetectionManifestPointer.toJson (manifest : DetectionManifestPointer) : Json :=
  .object [("instance_id", .string manifest.instanceId),
    ("detector", registryRefToJson manifest.detector),
    ("input_log", .object [("source_peer_id", .string manifest.inputLog.sourcePeerId),
      ("resource_id", .string manifest.inputLog.resourceId)]),
    ("input_sensor", registryRefToJson manifest.inputSensor),
    ("clock", registryRefToJson manifest.clock),
    ("cadence", detectionCadenceToJson manifest.cadence)]

/-- `Variant`, the tags of version 0.2. -/
inductive V2Variant where
  | sensorLog | poseLog | timeTransformLog | detectionLog
  deriving DecidableEq

def V2Variant.name : V2Variant → String
  | .sensorLog => "sensor_log"
  | .poseLog => "pose_log"
  | .timeTransformLog => "time_transform_log"
  | .detectionLog => "detection_log"

def VariantContent.variant : VariantContent → V2Variant
  | .sensorLog _ => .sensorLog
  | .poseLog _ => .poseLog
  | .timeTransformLog _ => .timeTransformLog
  | .detectionLog _ => .detectionLog

def VariantContent.manifest : VariantContent → Json
  | .sensorLog manifest => manifest.toJson
  | .poseLog manifest => manifest.toJson
  | .timeTransformLog manifest => manifest.toJson
  | .detectionLog manifest => manifest.toJson

/-- The entries flattened into a row, the tag before the manifest. -/
def VariantContent.entries (content : VariantContent) : List (String × Json) :=
  [("variant", text content.variant.name), ("manifest", content.manifest)]

def V2ResourceEntry.toJson (row : V2ResourceEntry) : Json :=
  .object ([("source_peer_id", .string row.sourcePeerId),
      ("writer_peer_id", .string row.writerPeerId), ("resource_id", .string row.resourceId),
      ("state", .string row.state)] ++
    optionalEntry "head" Head.toJson row.head ++
    optionalEntry "extent" Extent.toJson row.extent ++
    [("available", row.available.toJson)] ++
    optionalEntry "sensor" SensorBlock.toJson row.sensor ++
    optionalEntry "pose" PoseBlock.toJson row.pose ++
    row.variantContent.entries)

inductive ResourceVariant where
  | v2 (variant : V2Variant)
  | messageChannel
  deriving DecidableEq

def ResourceVariant.name : ResourceVariant → String
  | .v2 variant => variant.name
  | .messageChannel => "message_channel"

/-- `MessageChannelResource`, and the wire form with its one tag. -/
structure MessageChannelResource where
  ownerPeerId : PeerId
  resourceId : Recording.Text
  clock : RegistryRef

inductive MessageChannelResourceError where
  | emptyResourceId
  | emptyClockReference
  | invalidClockPeerId

def MessageChannelResourceError.message : MessageChannelResourceError → String
  | .emptyResourceId => "message channel resource_id is empty"
  | .emptyClockReference => "message channel clock RegistryRef contains an empty field"
  | .invalidClockPeerId => "message channel clock peer_id is not a valid PeerId"

def MessageChannelResource.validate (channel : MessageChannelResource) :
    Except MessageChannelResourceError Unit :=
  if channel.resourceId.isEmpty then .error .emptyResourceId
  else if channel.clock.peerId.isEmpty ∨ channel.clock.id.isEmpty ∨
      channel.clock.hash.isEmpty then .error .emptyClockReference
  else if (PeerId.fromStr (String.ofList channel.clock.peerId)).isNone then
    .error .invalidClockPeerId
  else .ok ()

/-- `MessageChannelResourceWire`. -/
def MessageChannelResource.toJson (channel : MessageChannelResource) : Json :=
  .object [("variant", text "message_channel"),
    ("owner_peer_id", .string channel.ownerPeerId.toText.toList),
    ("resource_id", .string channel.resourceId), ("clock", registryRefToJson channel.clock)]

inductive ResourceEntry where
  | v2 (row : V2ResourceEntry)
  | messageChannel (channel : MessageChannelResource)

def ResourceEntry.variant : ResourceEntry → ResourceVariant
  | .v2 row => .v2 row.variantContent.variant
  | .messageChannel _ => .messageChannel

def ResourceEntry.toJson : ResourceEntry → Json
  | .v2 row => row.toJson
  | .messageChannel channel => channel.toJson

/-- `ResourcesProtocolError` of version 0.2; encoding these messages does not fail. -/
inductive V2ResourcesProtocolError where
  | io
  | decode
  | emptyFrame
  | frameTooLarge (actual max : ℕ)

/-- `ResourcesProtocolError` of version 0.3. -/
inductive ResourcesProtocolError where
  | io
  | decode
  | validation (message : String)
  | emptyFrame
  | frameTooLarge (actual max : ℕ)

/-- `ResourcesRequest` of version 0.2. -/
structure V2ResourcesRequest where
  variants : List V2Variant

structure ResourcesRequest where
  variants : List ResourceVariant

/-- `ResourcesResponse` of version 0.2. -/
structure V2ResourcesResponse where
  resources : List V2ResourceEntry

structure ResourcesResponse where
  resources : List ResourceEntry

/-- The filter of a request, skipped when empty. -/
def variantsToJson (names : List String) : Json :=
  .object (if names.isEmpty then [] else [("variants", .array (names.map text))])

def resourcesToJson (rows : List Json) : Json := .object [("resources", .array rows)]

variable (request : ResourcesRequest)

def ResourcesRequest.toJson : Json :=
  variantsToJson (request.variants.map ResourceVariant.name)

def V2ResourcesResponse.toJson (response : V2ResourcesResponse) : Json :=
  resourcesToJson (response.resources.map V2ResourceEntry.toJson)

def ResourcesResponse.toJson (response : ResourcesResponse) : Json :=
  resourcesToJson (response.resources.map ResourceEntry.toJson)

def ResourcesRequest.validate : Except ResourcesProtocolError Unit :=
  if request.variants.Nodup then .ok ()
  else .error (.validation "duplicate resource variant filter")

/-- No variants ask for all. -/
def ResourcesRequest.includes (variant : ResourceVariant) : Bool :=
  request.variants.isEmpty || request.variants.contains variant

def ResourceEntry.validate : ResourceEntry → Except ResourcesProtocolError Unit
  | .v2 _ => .ok ()
  | .messageChannel channel =>
    channel.validate.mapError fun error => .validation error.message

def ResourcesResponse.validate (response : ResourcesResponse) :
    Except ResourcesProtocolError Unit :=
  Checks.all (response.resources.map ResourceEntry.validate)

def ResourcesResponse.filtered (response : ResourcesResponse) (request : ResourcesRequest) :
    ResourcesResponse where
  resources := response.resources.filter fun row => request.includes row.variant

/-- The parser of `serde_json`, its `Value`, and the derived decoders. -/
structure SerdeJson where
  fromSlice : List UInt8 → Option Json
  value : Json → Json
  v2Request : Json → Option V2ResourcesRequest
  request : Json → Option ResourcesRequest
  resources : Json → Option (List Json)
  v2Row : Json → Option V2ResourceEntry
  channel : Json → Option MessageChannelResource

variable (serde : SerdeJson)

def ResourceEntry.deserialize (document : Json) : Option ResourceEntry :=
  let value := serde.value document
  if (value.get "variant").bind Json.asStr = some "message_channel".toList then
    (serde.channel value).map .messageChannel
  else
    (serde.v2Row value).map .v2

def V2ResourcesResponse.deserialize (document : Json) :
    Option V2ResourcesResponse := do
  let rows ← serde.resources document
  return ⟨← rows.mapM serde.v2Row⟩

def ResourcesResponse.deserialize (serde : SerdeJson) (document : Json) :
    Option ResourcesResponse := do
  let rows ← serde.resources document
  return ⟨← rows.mapM (ResourceEntry.deserialize serde)⟩

/-- `MAX_RESOURCES_FRAME_BYTES`, the same in both versions. -/
def maxResourcesFrameBytes : ℕ := 1024 * 1024

/-- The errors of one version's frames. -/
structure FrameErrors (ε : Type) where
  io : ε
  decode : ε
  emptyFrame : ε
  frameTooLarge : ℕ → ℕ → ε

def v2FrameErrors : FrameErrors V2ResourcesProtocolError :=
  ⟨.io, .decode, .emptyFrame, .frameTooLarge⟩

def frameErrors : FrameErrors ResourcesProtocolError := ⟨.io, .decode, .emptyFrame, .frameTooLarge⟩

section Frames

variable {ε α : Type}

/-- `write_json` of an encoded message: the bytes that it writes. -/
def writeJson (errors : FrameErrors ε) (bytes : List UInt8) : Except ε (List UInt8) :=
  if maxResourcesFrameBytes < bytes.length then
    .error (errors.frameTooLarge bytes.length maxResourcesFrameBytes)
  else
    .ok (u32ToBeBytes bytes.length ++ bytes)

/-- `read_json`, with the decoder of the payload. -/
def readJson (errors : FrameErrors ε) (decode : List UInt8 → Option α) (incoming : List UInt8) :
    Read ε α :=
  match readExact errors.io 4 incoming with
  | (.error error, rest) => (.error error, rest)
  | (.ok prefixBytes, rest) =>
    let length := u32FromBeBytes prefixBytes
    if length = 0 then (.error errors.emptyFrame, rest)
    else if maxResourcesFrameBytes < length then
      (.error (errors.frameTooLarge length maxResourcesFrameBytes), rest)
    else
      match readExact errors.io length rest with
      | (.error error, rest) => (.error error, rest)
      | (.ok payload, rest) =>
        match decode payload with
        | none => (.error errors.decode, rest)
        | some value => (.ok value, rest)

/-- A message that is validated after it is read. -/
def validated (read : Read ε α) (validate : α → Except ε Unit) : Read ε α :=
  match read with
  | (.error error, rest) => (.error error, rest)
  | (.ok value, rest) =>
    match validate value with
    | .error error => (.error error, rest)
    | .ok () => (.ok value, rest)

end Frames

def writeV2ResourcesResponse (response : V2ResourcesResponse) :
    Except V2ResourcesProtocolError (List UInt8) :=
  writeJson v2FrameErrors response.toJson.toVec

def readV2ResourcesRequest (incoming : List UInt8) :
    Read V2ResourcesProtocolError V2ResourcesRequest :=
  readJson v2FrameErrors (fun bytes => (serde.fromSlice bytes).bind serde.v2Request) incoming

def readV2ResourcesResponse (incoming : List UInt8) :
    Read V2ResourcesProtocolError V2ResourcesResponse :=
  readJson v2FrameErrors
    (fun bytes => (serde.fromSlice bytes).bind (V2ResourcesResponse.deserialize serde)) incoming

def writeResourcesRequest :
    Except ResourcesProtocolError (List UInt8) := do
  request.validate
  writeJson frameErrors request.toJson.toVec

def writeResourcesResponse (response : ResourcesResponse) :
    Except ResourcesProtocolError (List UInt8) := do
  response.validate
  writeJson frameErrors response.toJson.toVec

def readResourcesRequest (incoming : List UInt8) :
    Read ResourcesProtocolError ResourcesRequest :=
  validated (readJson frameErrors
    (fun bytes => (serde.fromSlice bytes).bind serde.request) incoming) ResourcesRequest.validate

def readResourcesResponse (incoming : List UInt8) :
    Read ResourcesProtocolError ResourcesResponse :=
  validated (readJson frameErrors
    (fun bytes => (serde.fromSlice bytes).bind (ResourcesResponse.deserialize serde)) incoming)
    ResourcesResponse.validate

end AukiSdk.Protocols.Catalog
