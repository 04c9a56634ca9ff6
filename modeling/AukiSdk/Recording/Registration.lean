import AukiSdk.Registry.Store
import AukiSdk.Foundation.FiniteMap
import AukiSdk.Foundation.Run

/-!
# Sessions and their logs

A session keeps one table for each kind of log.
-/

namespace AukiSdk.Recording

open AukiSdk.Foundation AukiSdk.Registry
open Std (ExtTreeMap)

abbrev Text := List Char

structure LogRef where
  sourcePeerId : Text
  resourceId : Text
  deriving DecidableEq

inductive PoseSource where
  | ros2Tf (publishers : List Text)
  | manual
  deriving DecidableEq

inductive PoseWriterMode where
  | rigid
  | movable
  deriving DecidableEq

inductive TimeTransformSource where
  | localClockRead
  deriving DecidableEq

inductive DetectionCadence where
  | everyFrame
  | periodic (periodNs : ℕ)
  deriving DecidableEq

inductive HeadSpec where
  | rolling (retentionNs : ℤ)
  | fixed
  deriving DecidableEq

structure ManifestValidationError where
  field : String
  reason : String
  deriving DecidableEq

/-- `SessionError`, with texts for errors from outside. -/
inductive SessionError where
  | io (detail : Text)
  | invalidId (error : RegistryIdError)
  | registry (detail : Text)
  | manifest (error : ManifestValidationError)
  | log (detail : Text)
  | duplicateLog (sourcePeerId resourceId : Text)
  | mapNotRegistered (peerId mapId mapHash : Text)
  | clockNotRegistered (peerId clockId clockHash : Text)

/-- The fields that every manifest has. -/
structure LogManifest where
  sourcePeerId : Text
  writerPeerId : Text
  appId : Text
  sessionId : Text
  segmentDurationNs : ℤ
  retentionNs : ℤ

structure SensorLogManifest extends LogManifest where
  sensor : RegistryRef
  clock : RegistryRef
  frame : Option RegistryRef

structure PoseLogManifest extends LogManifest where
  fromFrame : RegistryRef
  toFrame : RegistryRef
  clock : RegistryRef
  source : PoseSource
  writerMode : PoseWriterMode
  expectedRateHz : ℕ

structure TimeTransformLogManifest extends LogManifest where
  fromClock : RegistryRef
  toClock : RegistryRef
  source : TimeTransformSource

structure DetectionLogManifest extends LogManifest where
  instanceId : Text
  detector : RegistryRef
  inputLog : LogRef
  inputSensor : RegistryRef
  clock : RegistryRef
  cadence : DetectionCadence

structure MapLogManifest extends LogManifest where
  map : RegistryRef
  clock : RegistryRef

def validateNonEmpty (field : String) (value : Text) : Except ManifestValidationError Unit :=
  Checks.require (value ≠ []) ⟨field, "must not be empty"⟩

def validateDurations (segmentDurationNs retentionNs : ℤ) :
    Except ManifestValidationError Unit :=
  Checks.all
    [Checks.require (0 < segmentDurationNs) ⟨"segment_duration_ns", "must be greater than zero"⟩,
      Checks.require (0 ≤ retentionNs)
        ⟨"retention_ns", "must be greater than or equal to zero"⟩]

def DetectionLogManifest.validate (manifest : DetectionLogManifest) :
    Except ManifestValidationError Unit :=
  Checks.all
    [validateNonEmpty "source_peer_id" manifest.sourcePeerId,
      validateNonEmpty "writer_peer_id" manifest.writerPeerId,
      validateNonEmpty "app_id" manifest.appId,
      validateNonEmpty "session_id" manifest.sessionId,
      validateNonEmpty "instance_id" manifest.instanceId,
      validateNonEmpty "detector.peer_id" manifest.detector.peerId,
      validateNonEmpty "detector.id" manifest.detector.id,
      validateNonEmpty "detector.hash" manifest.detector.hash,
      validateNonEmpty "input_log.source_peer_id" manifest.inputLog.sourcePeerId,
      validateNonEmpty "input_log.resource_id" manifest.inputLog.resourceId,
      validateNonEmpty "input_sensor.peer_id" manifest.inputSensor.peerId,
      validateNonEmpty "input_sensor.id" manifest.inputSensor.id,
      validateNonEmpty "input_sensor.hash" manifest.inputSensor.hash,
      validateNonEmpty "clock.peer_id" manifest.clock.peerId,
      validateNonEmpty "clock.id" manifest.clock.id,
      validateNonEmpty "clock.hash" manifest.clock.hash,
      Checks.require (manifest.cadence ≠ .periodic 0) ⟨"cadence.period_ns", "must be positive"⟩,
      validateDurations manifest.segmentDurationNs manifest.retentionNs]

inductive SensorKind where
  | camera
  | rangefinder
  | rf
  | audio
  | jointEncoders
  | scalar
  deriving DecidableEq

/-- Registry bodies, of which only hashes and the family and `type` are read. -/
structure Bodies where
  Sensor : Type
  Map : Type
  Clock : Type
  sensorKindAndType : Sensor → SensorKind × Text
  sensorHash : Text → Text → Sensor → Text
  mapHash : Text → Text → Map → Text
  clockHash : Text → Text → Text → Clock → Text
  monotonicClock : Clock
  utcClock : Clock

/-- `RegistryStore`: entries are looked up by id, and only valid ids are stored. -/
structure RegistryStore (Body : Type) where
  get : Text → Option Body := fun _ => none
  validateRegistryId_eq_ok : ∀ id body, get id = some body → validateRegistryId id = .ok () := by
    simp

def RegistryStore.insert {Body : Type} (store : RegistryStore Body) (id : Text)
    (hid : validateRegistryId id = .ok ()) (body : Body) : RegistryStore Body where
  get := Function.update store.get id (some body)
  validateRegistryId_eq_ok := by
    intro other found hfound
    by_cases hother : other = id
    · rw [hother]
      exact hid
    · rw [Function.update_of_ne hother] at hfound
      exact store.validateRegistryId_eq_ok other found hfound

/-- The part of `PeerInner` that a session reads. -/
structure PeerInner (bodies : Bodies) where
  peerId : Text
  appId : Text
  storageRoot : Path
  sensors : RegistryStore bodies.Sensor
  maps : RegistryStore bodies.Map

/-- The fields that every log handle has. -/
structure LogHandle where
  resourceId : Text
  logRef : LogRef
  headSpec : HeadSpec
  root : Path

structure SensorLogHandle extends LogHandle where
  manifest : SensorLogManifest

structure PoseLogHandle extends LogHandle where
  manifest : PoseLogManifest
  writerMode : PoseWriterMode

structure TimeTransformLogHandle extends LogHandle where
  manifest : TimeTransformLogManifest

/-- `DetectionLogHandle`, without its writer. -/
structure DetectionLogHandle extends LogHandle where
  manifest : DetectionLogManifest

/-- `MapLogHandle`, without its writer. -/
structure MapLogHandle extends LogHandle where
  manifest : MapLogManifest

/-- `Session`: the peer is shared, the rest is `SessionInner`. -/
structure Session (bodies : Bodies) where
  peer : PeerInner bodies
  sessionId : Text
  clocks : RegistryStore bodies.Clock
  monotonicClock : RegistryRef
  utcClock : RegistryRef
  sensorLogs : ExtTreeMap Text SensorLogHandle := ∅
  poseLogs : ExtTreeMap Text PoseLogHandle := ∅
  timeLogs : ExtTreeMap Text TimeTransformLogHandle := ∅
  detectionLogs : ExtTreeMap Text DetectionLogHandle := ∅
  mapLogs : ExtTreeMap Text MapLogHandle := ∅

/-- `SensorLogSpec`; durations are in nanoseconds. -/
structure SensorLogSpec where
  sensor : RegistryRef
  clock : RegistryRef
  frame : Option RegistryRef
  head : HeadSpec
  segmentDuration : ℕ
  retention : ℕ

structure PoseLogSpec where
  fromFrame : RegistryRef
  toFrame : RegistryRef
  clock : RegistryRef
  source : PoseSource
  writerMode : PoseWriterMode
  expectedRateHz : ℕ
  head : HeadSpec
  segmentDuration : ℕ
  retention : ℕ

structure TimeTransformLogSpec where
  fromClock : RegistryRef
  toClock : RegistryRef
  source : TimeTransformSource
  head : HeadSpec
  segmentDuration : ℕ
  retention : ℕ

structure DetectionLogSpec where
  instanceId : Text
  detector : RegistryRef
  inputLog : LogRef
  inputSensor : RegistryRef
  clock : RegistryRef
  cadence : DetectionCadence
  head : HeadSpec
  segmentDuration : ℕ
  retention : ℕ

structure MapLogSpec where
  map : RegistryRef
  clock : RegistryRef
  head : HeadSpec
  segmentDuration : ℕ
  retention : ℕ

def PoseLogSpec.resourceId (spec : PoseLogSpec) : Text :=
  spec.fromFrame.id ++ "->".toList ++ spec.toFrame.id

def TimeTransformLogSpec.resourceId (spec : TimeTransformLogSpec) : Text :=
  spec.fromClock.id ++ "->".toList ++ spec.toClock.id

section Calls

variable {bodies : Bodies}

/-- `duration.as_nanos().min(i64::MAX as u128) as i64`. -/
def asNanos (duration : ℕ) : ℤ :=
  min duration (2 ^ 63 - 1)

def logRoot (storageRoot : Path) (sessionId peerId resourceId : Text) : Path :=
  (((storageRoot.join sessionId).join "logs".toList).join peerId).join resourceId

/-- Map logs are not kept under the session. -/
def mapLogRoot (storageRoot : Path) (peerId resourceId : Text) : Path :=
  ((storageRoot.join "logs".toList).join peerId).join resourceId

/-- The manifest fields that no specification gives. -/
def Session.manifest (session : Session bodies) (segmentDuration retention : ℕ) : LogManifest where
  sourcePeerId := session.peer.peerId
  writerPeerId := session.peer.peerId
  appId := session.peer.appId
  sessionId := session.sessionId
  segmentDurationNs := asNanos segmentDuration
  retentionNs := asNanos retention

/-- A handle of this peer's own log. -/
def Session.handle (session : Session bodies) (resourceId : Text) (head : HeadSpec)
    (root : Path) : LogHandle where
  resourceId := resourceId
  logRef := ⟨session.peer.peerId, resourceId⟩
  headSpec := head
  root := root

/-- The handle of a log under the session. -/
def Session.sessionHandle (session : Session bodies) (resourceId : Text) (head : HeadSpec) :
    LogHandle :=
  session.handle resourceId head
    (logRoot session.peer.storageRoot session.sessionId session.peer.peerId resourceId)

/-- `register_sensor_log`; `disk` is the outcome of writing the manifest. -/
def registerSensorLog (session : Session bodies) (spec : SensorLogSpec)
    (disk : Except SessionError Unit) : Except SessionError (Session bodies × SensorLogHandle) := do
  let resourceId := spec.sensor.id
  Checks.require (resourceId ∉ session.sensorLogs ∧ resourceId ∉ session.mapLogs)
    (SessionError.duplicateLog session.peer.peerId resourceId)
  Checks.require ((session.peer.sensors.get resourceId).isSome = true)
    (SessionError.duplicateLog session.peer.peerId
      ("sensor not registered: ".toList ++ spec.sensor.id))
  let handle : SensorLogHandle :=
    { toLogHandle := session.sessionHandle resourceId spec.head
      manifest :=
        { toLogManifest := session.manifest spec.segmentDuration spec.retention
          sensor := spec.sensor
          clock := spec.clock
          frame := spec.frame } }
  disk
  .ok ({ session with sensorLogs := session.sensorLogs.insert resourceId handle }, handle)

def registerPoseLog (session : Session bodies) (spec : PoseLogSpec)
    (disk : Except SessionError Unit) : Except SessionError (Session bodies × PoseLogHandle) := do
  let resourceId := spec.resourceId
  Checks.require (resourceId ∉ session.poseLogs ∧ resourceId ∉ session.mapLogs)
    (SessionError.duplicateLog session.peer.peerId resourceId)
  let handle : PoseLogHandle :=
    { toLogHandle := session.sessionHandle resourceId spec.head
      writerMode := spec.writerMode
      manifest :=
        { toLogManifest := session.manifest spec.segmentDuration spec.retention
          fromFrame := spec.fromFrame
          toFrame := spec.toFrame
          clock := spec.clock
          source := spec.source
          writerMode := spec.writerMode
          expectedRateHz := spec.expectedRateHz } }
  disk
  .ok ({ session with poseLogs := session.poseLogs.insert resourceId handle }, handle)

def registerTimeTransformLog (session : Session bodies) (spec : TimeTransformLogSpec)
    (disk : Except SessionError Unit) :
    Except SessionError (Session bodies × TimeTransformLogHandle) := do
  let resourceId := spec.resourceId
  Checks.require (resourceId ∉ session.timeLogs ∧ resourceId ∉ session.mapLogs)
    (SessionError.duplicateLog session.peer.peerId resourceId)
  let handle : TimeTransformLogHandle :=
    { toLogHandle := session.sessionHandle resourceId spec.head
      manifest :=
        { toLogManifest := session.manifest spec.segmentDuration spec.retention
          fromClock := spec.fromClock
          toClock := spec.toClock
          source := spec.source } }
  disk
  .ok ({ session with timeLogs := session.timeLogs.insert resourceId handle }, handle)

/-- `register_detection_log`; `disk` is what became of the writes. -/
def registerDetectionLog (session : Session bodies) (spec : DetectionLogSpec)
    (disk : Except SessionError Unit) :
    Except SessionError (Session bodies × DetectionLogHandle) := do
  let resourceId := spec.instanceId
  Checks.require (resourceId ∉ session.detectionLogs ∧ resourceId ∉ session.mapLogs)
    (SessionError.duplicateLog session.peer.peerId resourceId)
  let handle : DetectionLogHandle :=
    { toLogHandle := session.sessionHandle resourceId spec.head
      manifest :=
        { toLogManifest := session.manifest spec.segmentDuration spec.retention
          instanceId := spec.instanceId
          detector := spec.detector
          inputLog := spec.inputLog
          inputSensor := spec.inputSensor
          clock := spec.clock
          cadence := spec.cadence } }
  handle.manifest.validate.mapError SessionError.manifest
  disk
  .ok ({ session with detectionLogs := session.detectionLogs.insert resourceId handle }, handle)

def Session.containsClockRef (session : Session bodies) (clock : RegistryRef) : Bool :=
  clock.peerId = session.peer.peerId &&
    (session.clocks.get clock.id).any fun body =>
      bodies.clockHash session.peer.peerId session.sessionId clock.id body = clock.hash

/-- The map registry has the exact entry; an entry is stored under its own id. -/
def PeerInner.mapKnown (peer : PeerInner bodies) (map : RegistryRef) : Bool :=
  (peer.maps.get map.id).any fun body =>
    map.peerId = peer.peerId && map.hash = bodies.mapHash peer.peerId map.id body

/-- `register_map_log`; `disk` is the outcome of opening the log. -/
def registerMapLog (session : Session bodies) (spec : MapLogSpec)
    (disk : Except SessionError Unit) : Except SessionError (Session bodies × MapLogHandle) := do
  let resourceId := spec.map.id
  Checks.require (session.peer.mapKnown spec.map = true)
    (SessionError.mapNotRegistered spec.map.peerId spec.map.id spec.map.hash)
  Checks.require (session.containsClockRef spec.clock = true)
    (SessionError.clockNotRegistered spec.clock.peerId spec.clock.id spec.clock.hash)
  Checks.require (resourceId ∉ session.mapLogs ∧ resourceId ∉ session.sensorLogs ∧
      resourceId ∉ session.poseLogs ∧ resourceId ∉ session.timeLogs ∧
      resourceId ∉ session.detectionLogs)
    (SessionError.duplicateLog session.peer.peerId resourceId)
  let handle : MapLogHandle :=
    { toLogHandle := session.handle resourceId spec.head
        (mapLogRoot session.peer.storageRoot session.peer.peerId resourceId)
      manifest :=
        { toLogManifest := session.manifest spec.segmentDuration spec.retention
          map := spec.map
          clock := spec.clock } }
  disk
  .ok ({ session with mapLogs := session.mapLogs.insert resourceId handle }, handle)

variable {session : Session bodies} {disk : Except SessionError Unit} {next : Session bodies}

theorem registerSensorLog_eq_ok {spec : SensorLogSpec} {handle : SensorLogHandle}
    (hreg : registerSensorLog session spec disk = .ok (next, handle)) :
    spec.sensor.id ∉ session.sensorLogs ∧ spec.sensor.id ∉ session.mapLogs ∧
      handle.toLogHandle = session.sessionHandle spec.sensor.id spec.head ∧
      next = { session with sensorLogs := session.sensorLogs.insert spec.sensor.id handle } := by
  rw [registerSensorLog, Checks.require_bind_eq_ok, Checks.require_bind_eq_ok,
    Checks.bind_eq_ok] at hreg
  obtain ⟨⟨hfree, hmap⟩, -, -, -, hn⟩ := hreg
  cases hn
  exact ⟨hfree, hmap, rfl, rfl⟩

theorem registerPoseLog_eq_ok {spec : PoseLogSpec} {handle : PoseLogHandle}
    (hreg : registerPoseLog session spec disk = .ok (next, handle)) :
    spec.resourceId ∉ session.poseLogs ∧ spec.resourceId ∉ session.mapLogs ∧
      handle.toLogHandle = session.sessionHandle spec.resourceId spec.head ∧
      next = { session with poseLogs := session.poseLogs.insert spec.resourceId handle } := by
  rw [registerPoseLog, Checks.require_bind_eq_ok, Checks.bind_eq_ok] at hreg
  obtain ⟨⟨hfree, hmap⟩, -, -, hn⟩ := hreg
  cases hn
  exact ⟨hfree, hmap, rfl, rfl⟩

theorem registerTimeTransformLog_eq_ok {spec : TimeTransformLogSpec}
    {handle : TimeTransformLogHandle}
    (hreg : registerTimeTransformLog session spec disk = .ok (next, handle)) :
    spec.resourceId ∉ session.timeLogs ∧ spec.resourceId ∉ session.mapLogs ∧
      handle.toLogHandle = session.sessionHandle spec.resourceId spec.head ∧
      next = { session with timeLogs := session.timeLogs.insert spec.resourceId handle } := by
  rw [registerTimeTransformLog, Checks.require_bind_eq_ok, Checks.bind_eq_ok] at hreg
  obtain ⟨⟨hfree, hmap⟩, -, -, hn⟩ := hreg
  cases hn
  exact ⟨hfree, hmap, rfl, rfl⟩

theorem registerDetectionLog_eq_ok {spec : DetectionLogSpec} {handle : DetectionLogHandle}
    (hreg : registerDetectionLog session spec disk = .ok (next, handle)) :
    spec.instanceId ∉ session.detectionLogs ∧ spec.instanceId ∉ session.mapLogs ∧
      handle.toLogHandle = session.sessionHandle spec.instanceId spec.head ∧
      handle.manifest.toLogManifest = session.manifest spec.segmentDuration spec.retention ∧
      next = { session with detectionLogs := session.detectionLogs.insert spec.instanceId handle } := by
  rw [registerDetectionLog, Checks.require_bind_eq_ok, Checks.bind_eq_ok] at hreg
  obtain ⟨⟨hfree, hmap⟩, -, -, hn⟩ := hreg
  rw [Checks.bind_eq_ok] at hn
  obtain ⟨-, -, hn⟩ := hn
  cases hn
  exact ⟨hfree, hmap, rfl, rfl, rfl⟩

theorem registerMapLog_eq_ok {spec : MapLogSpec} {handle : MapLogHandle}
    (hreg : registerMapLog session spec disk = .ok (next, handle)) :
    session.peer.mapKnown spec.map = true ∧
      (spec.map.id ∉ session.mapLogs ∧ spec.map.id ∉ session.sensorLogs ∧
        spec.map.id ∉ session.poseLogs ∧ spec.map.id ∉ session.timeLogs ∧
        spec.map.id ∉ session.detectionLogs) ∧
      handle.toLogHandle = session.handle spec.map.id spec.head
        (mapLogRoot session.peer.storageRoot session.peer.peerId spec.map.id) ∧
      handle.manifest.toLogManifest = session.manifest spec.segmentDuration spec.retention ∧
      next = { session with mapLogs := session.mapLogs.insert spec.map.id handle } := by
  rw [registerMapLog, Checks.require_bind_eq_ok, Checks.require_bind_eq_ok,
    Checks.require_bind_eq_ok, Checks.bind_eq_ok] at hreg
  obtain ⟨hkno, -, hfree, -, -, hn⟩ := hreg
  cases hn
  exact ⟨hkno, hfree, rfl, rfl, rfl⟩

/-- A registry entry is stored when its id is valid and it was written. -/
def RegistryStore.register {Body : Type} (store : RegistryStore Body) (id : Text) (body : Body)
    (disk : Except SessionError Unit) : Except SessionError (RegistryStore Body) :=
  match hid : validateRegistryId id with
  | .error error => .error (.invalidId error)
  | .ok () => disk.map fun _ => store.insert id hid body

def registerClock (session : Session bodies) (clockId : Text) (body : bodies.Clock)
    (disk : Except SessionError Unit) : Except SessionError (Session bodies × RegistryRef) := do
  let clocks ← session.clocks.register clockId body disk
  .ok ({ session with clocks },
    ⟨session.peer.peerId, clockId,
      bodies.clockHash session.peer.peerId session.sessionId clockId body⟩)

/-- `register_sensor` of the shared peer. -/
def registerSensor (session : Session bodies) (sensorId : Text) (body : bodies.Sensor)
    (disk : Except SessionError Unit) : Except SessionError (Session bodies × RegistryRef) := do
  let sensors ← session.peer.sensors.register sensorId body disk
  .ok ({ session with peer := { session.peer with sensors } },
    ⟨session.peer.peerId, sensorId, bodies.sensorHash session.peer.peerId sensorId body⟩)

/-- `register_map` of the shared peer. -/
def registerMap (session : Session bodies) (mapId : Text) (body : bodies.Map)
    (disk : Except SessionError Unit) : Except SessionError (Session bodies × RegistryRef) := do
  let maps ← session.peer.maps.register mapId body disk
  .ok ({ session with peer := { session.peer with maps } },
    ⟨session.peer.peerId, mapId, bodies.mapHash session.peer.peerId mapId body⟩)

/-- `set_storage_root` of the shared peer. -/
def setStorageRoot (session : Session bodies) (root : Path) : Session bodies :=
  { session with peer := { session.peer with storageRoot := root } }

/-- The text of a ULID: 26 digits of Crockford's base 32. -/
def isUlid (text : Text) : Bool :=
  text.length = 26 && text.all fun char => char ∈ "0123456789ABCDEFGHJKMNPQRSTVWXYZ".toList

/-- `Session::start` with the drawn ULID and the outcomes of writing the clocks. -/
def Session.start (peer : PeerInner bodies) (sessionId : Text)
    (monotonicDisk utcDisk : Except SessionError Unit) : Except SessionError (Session bodies) := do
  let monotonicId := peer.peerId ++ "/".toList ++ sessionId ++ "/monotonic".toList
  let utcId := peer.peerId ++ "/".toList ++ sessionId ++ "/utc".toList
  let clocks ← RegistryStore.register {} monotonicId bodies.monotonicClock monotonicDisk
  let clocks ← clocks.register utcId bodies.utcClock utcDisk
  .ok
    { peer, sessionId, clocks
      monotonicClock := ⟨peer.peerId, monotonicId,
        bodies.clockHash peer.peerId sessionId monotonicId bodies.monotonicClock⟩
      utcClock := ⟨peer.peerId, utcId,
        bodies.clockHash peer.peerId sessionId utcId bodies.utcClock⟩ }

/-- The calls that change a session or the peer it shares. -/
inductive Action (bodies : Bodies) where
  | registerSensorLog (spec : SensorLogSpec) (disk : Except SessionError Unit)
  | registerPoseLog (spec : PoseLogSpec) (disk : Except SessionError Unit)
  | registerTimeTransformLog (spec : TimeTransformLogSpec) (disk : Except SessionError Unit)
  | registerDetectionLog (spec : DetectionLogSpec) (disk : Except SessionError Unit)
  | registerMapLog (spec : MapLogSpec) (disk : Except SessionError Unit)
  | registerClock (clockId : Text) (body : bodies.Clock) (disk : Except SessionError Unit)
  | registerSensor (sensorId : Text) (body : bodies.Sensor) (disk : Except SessionError Unit)
  | registerMap (mapId : Text) (body : bodies.Map) (disk : Except SessionError Unit)
  | setStorageRoot (root : Path)

/-- The session after a call; a failed call leaves it unchanged. -/
def Session.after {Result : Type} (session : Session bodies)
    (outcome : Except SessionError (Session bodies × Result)) : Session bodies :=
  match outcome with
  | .ok (next, _) => next
  | .error _ => session

def Session.step (session : Session bodies) : Action bodies → Session bodies
  | .registerSensorLog spec disk => session.after (registerSensorLog session spec disk)
  | .registerPoseLog spec disk => session.after (registerPoseLog session spec disk)
  | .registerTimeTransformLog spec disk =>
    session.after (registerTimeTransformLog session spec disk)
  | .registerDetectionLog spec disk => session.after (registerDetectionLog session spec disk)
  | .registerMapLog spec disk => session.after (registerMapLog session spec disk)
  | .registerClock clockId body disk => session.after (registerClock session clockId body disk)
  | .registerSensor sensorId body disk =>
    session.after (registerSensor session sensorId body disk)
  | .registerMap mapId body disk => session.after (registerMap session mapId body disk)
  | .setStorageRoot root => setStorageRoot session root

/-- Every call returns. -/
def Session.run (session : Session bodies) (actions : List (Action bodies)) :
    Option (Session bodies) :=
  runSteps (fun session action => some (session.step action)) session actions

end Calls

end AukiSdk.Recording
