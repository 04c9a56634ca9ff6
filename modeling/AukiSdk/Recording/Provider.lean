import AukiSdk.Recording.LogIdentity
import AukiSdk.Logs.Segment

/-!
# Catalog rows and stream requests

`SessionProtocolProvider` lists the logs of a session and answers stream requests.
-/

namespace AukiSdk.Recording

open AukiSdk.Foundation AukiSdk.Registry List
open AukiSdk.Logs (Entry)

inductive Head where
  | rolling (retentionNs : ℤ)
  | fixed (startedAtNs : ℤ)
  deriving DecidableEq

structure Extent where
  startAtNs : ℤ
  finishAtNs : ℤ

structure Available where
  bytes : ℕ
  entries : ℕ
  durationNs : ℤ

structure SensorBlock where
  kind : SensorKind
  type : Text
  sensorId : Text
  sensorHash : Text

structure PoseBlock where
  writerMode : PoseWriterMode

structure SensorManifestPointer where
  clock : RegistryRef
  frame : Option RegistryRef

structure PoseManifestPointer where
  fromFrame : RegistryRef
  toFrame : RegistryRef
  clock : RegistryRef
  source : PoseSource
  expectedRateHz : ℕ

structure TimeTransformManifestPointer where
  fromClock : RegistryRef
  toClock : RegistryRef
  source : TimeTransformSource

structure DetectionManifestPointer where
  instanceId : Text
  detector : RegistryRef
  inputLog : LogRef
  inputSensor : RegistryRef
  clock : RegistryRef
  cadence : DetectionCadence

inductive VariantContent where
  | sensorLog (manifest : SensorManifestPointer)
  | poseLog (manifest : PoseManifestPointer)
  | timeTransformLog (manifest : TimeTransformManifestPointer)
  | detectionLog (manifest : DetectionManifestPointer)

/-- `v2::ResourceEntry`, which the v3 catalog wraps. -/
structure ResourceEntry where
  sourcePeerId : Text
  writerPeerId : Text
  resourceId : Text
  state : Text
  head : Option Head
  extent : Option Extent
  available : Available
  sensor : Option SensorBlock
  pose : Option PoseBlock
  variantContent : VariantContent

structure MapLogResource where
  sourcePeerId : Text
  writerPeerId : Text
  resourceId : Text
  map : RegistryRef
  clock : RegistryRef

def headFromSpec : HeadSpec → Head
  | .rolling retentionNs => .rolling retentionNs
  | .fixed => .fixed 0

def baseRow (sourcePeerId writerPeerId resourceId : Text) (head : Head)
    (sensor : Option SensorBlock) (pose : Option PoseBlock) (variantContent : VariantContent) :
    ResourceEntry where
  sourcePeerId := sourcePeerId
  writerPeerId := writerPeerId
  resourceId := resourceId
  state := "live".toList
  head := some head
  extent := none
  available := ⟨0, 0, 0⟩
  sensor := sensor
  pose := pose
  variantContent := variantContent

section Provider

variable {bodies : Bodies}

/-- `sensor_log_row`: the sensor must still have the hash registered with the log. -/
def sensorLogRow (peer : PeerInner bodies) (handle : SensorLogHandle) : Option ResourceEntry := do
  let body ← peer.sensors.get handle.manifest.sensor.id
  if peer.peerId ≠ handle.manifest.sensor.peerId ∨
      bodies.sensorHash peer.peerId handle.manifest.sensor.id body ≠ handle.manifest.sensor.hash then
    none
  else
    let (kind, type) := bodies.sensorKindAndType body
    some (baseRow handle.manifest.sourcePeerId handle.manifest.writerPeerId handle.resourceId
      (headFromSpec handle.headSpec)
      (some ⟨kind, type, handle.manifest.sensor.id, handle.manifest.sensor.hash⟩) none
      (.sensorLog ⟨handle.manifest.clock, handle.manifest.frame⟩))

def poseLogRow (handle : PoseLogHandle) : ResourceEntry :=
  baseRow handle.manifest.sourcePeerId handle.manifest.writerPeerId handle.resourceId
    (headFromSpec handle.headSpec) none (some ⟨handle.writerMode⟩)
    (.poseLog ⟨handle.manifest.fromFrame, handle.manifest.toFrame, handle.manifest.clock,
      handle.manifest.source, handle.manifest.expectedRateHz⟩)

def timeTransformLogRow (handle : TimeTransformLogHandle) : ResourceEntry :=
  baseRow handle.manifest.sourcePeerId handle.manifest.writerPeerId handle.resourceId
    (headFromSpec handle.headSpec) none none
    (.timeTransformLog ⟨handle.manifest.fromClock, handle.manifest.toClock,
      handle.manifest.source⟩)

def detectionLogRow (handle : DetectionLogHandle) : ResourceEntry :=
  baseRow handle.manifest.sourcePeerId handle.manifest.writerPeerId handle.resourceId
    (headFromSpec handle.headSpec) none none
    (.detectionLog ⟨handle.manifest.instanceId, handle.manifest.detector,
      handle.manifest.inputLog, handle.manifest.inputSensor, handle.manifest.clock,
      handle.manifest.cadence⟩)

/-- `values` of a table. -/
def tableValues {H : Type} (table : Std.ExtTreeMap Text H) : List H :=
  table.toList.map Prod.snd

def Session.resourceRows (session : Session bodies) : List ResourceEntry :=
  (tableValues session.sensorLogs).filterMap (sensorLogRow session.peer) ++
    (tableValues session.poseLogs).map poseLogRow ++
    (tableValues session.timeLogs).map timeTransformLogRow ++
    (tableValues session.detectionLogs).map detectionLogRow

def mapLogRow (handle : MapLogHandle) : MapLogResource where
  __ := handle.manifest
  resourceId := handle.resourceId

def Session.mapRows (session : Session bodies) : List MapLogResource :=
  (tableValues session.mapLogs).map mapLogRow

inductive ReadFrom where
  | latest
  | fromStart
  | fromTimestamp (start : ℤ)
  deriving DecidableEq

structure StreamRequest where
  sourcePeerId : Text
  resourceId : Text
  readFrom : ReadFrom

structure StreamManifest where
  sensorId : Text := []
  sensorHash : Text := []
  clockId : Text := []
  clockHash : Text := []
  frameId : Text := []
  frameHash : Text := []
  resourceId : Text := []
  payload : Text := []
  fromFrameId : Text := []
  fromFrameHash : Text := []
  toFrameId : Text := []
  toFrameHash : Text := []
  writerMode : Text := []
  expectedRateHz : ℕ := 0
  mapPeerId : Text := []
  mapId : Text := []
  mapHash : Text := []
  clockPeerId : Text := []

/-- `DeclineReason`, as far as this provider gives one. -/
inductive DeclineReason where
  | sensorNotFound
  | other (detail : Text)

/-- The answer to a request; live entries follow the recorded ones. -/
inductive StreamDispatch (MapUpdate DetectionFrame : Type) where
  | acceptMap (manifest : StreamManifest) (history : List (Entry MapUpdate))
  | acceptDetection (manifest : StreamManifest) (history : List (Entry DetectionFrame))
  | decline (reason : DeclineReason)

def sourceMatches (requested actual : Text) : Bool :=
  requested.isEmpty || requested = actual

def timestampMatches (readFrom : ReadFrom) (timestampNs : ℤ) : Bool :=
  match readFrom with
  | .fromTimestamp start => start ≤ timestampNs
  | .latest => true
  | .fromStart => true

/-- The recorded part of both sources; `snapshot` is that of `snapshot_and_subscribe`. -/
def logSource {T : Type} (snapshot : Except Text (List (Entry T))) (readFrom : ReadFrom) :
    Except Text (List (Entry T)) :=
  match readFrom with
  | .latest => .ok []
  | _ => snapshot.map fun entries =>
    entries.filter fun entry => timestampMatches readFrom entry.timestampNs

def mapStreamManifest (handle : MapLogHandle) : StreamManifest where
  resourceId := handle.resourceId
  payload := "map_update".toList
  mapPeerId := handle.manifest.map.peerId
  mapId := handle.manifest.map.id
  mapHash := handle.manifest.map.hash
  clockPeerId := handle.manifest.clock.peerId
  clockId := handle.manifest.clock.id
  clockHash := handle.manifest.clock.hash

def detectionStreamManifest (handle : DetectionLogHandle) : StreamManifest where
  resourceId := handle.resourceId
  payload := "detection".toList
  sensorId := handle.manifest.inputSensor.id
  sensorHash := handle.manifest.inputSensor.hash
  clockPeerId := handle.manifest.clock.peerId
  clockId := handle.manifest.clock.id
  clockHash := handle.manifest.clock.hash

/-- What reading the logs gives at the time of a request. -/
structure LogFiles (MapUpdate DetectionFrame : Type) where
  mapEntries : MapLogHandle → Except Text (List (Entry MapUpdate))
  detectionEntries : DetectionLogHandle → Except Text (List (Entry DetectionFrame))

variable {MapUpdate DetectionFrame : Type}

def Session.dispatchRequest (session : Session bodies)
    (files : LogFiles MapUpdate DetectionFrame) (request : StreamRequest) :
    StreamDispatch MapUpdate DetectionFrame :=
  match (tableValues session.mapLogs).find? fun handle =>
      handle.resourceId = request.resourceId &&
        sourceMatches request.sourcePeerId handle.manifest.sourcePeerId with
  | some handle =>
    match logSource (files.mapEntries handle) request.readFrom with
    | .ok history => .acceptMap (mapStreamManifest handle) history
    | .error detail => .decline (.other detail)
  | none =>
    match (tableValues session.detectionLogs).find? fun handle =>
        handle.resourceId = request.resourceId &&
          sourceMatches request.sourcePeerId handle.manifest.sourcePeerId with
    | some handle =>
      match logSource (files.detectionEntries handle) request.readFrom with
      | .ok history => .acceptDetection (detectionStreamManifest handle) history
      | .error detail => .decline (.other detail)
    | none => .decline .sensorNotFound

/-- A row of a catalog response. -/
inductive Row where
  | resource (row : ResourceEntry)
  | map (row : MapLogResource)

def Row.resourceId : Row → Text
  | .resource row => row.resourceId
  | .map row => row.resourceId

def Row.sourcePeerId : Row → Text
  | .resource row => row.sourcePeerId
  | .map row => row.sourcePeerId

def Session.rows (session : Session bodies) : List Row :=
  session.resourceRows.map .resource ++ session.mapRows.map .map

/-- A request names a row by its resource id and by its source or no source. -/
def StreamRequest.Names (request : StreamRequest) (row : Row) : Prop :=
  request.resourceId = row.resourceId ∧
    sourceMatches request.sourcePeerId row.sourcePeerId = true

/-- A stream is accepted whose manifest agrees with the row. -/
def Row.Answered (row : Row) : StreamDispatch MapUpdate DetectionFrame → Prop
  | .acceptMap manifest _ => ∃ entry, row = .map entry ∧
      manifest.payload = "map_update".toList ∧ manifest.resourceId = entry.resourceId ∧
      (⟨manifest.mapPeerId, manifest.mapId, manifest.mapHash⟩ : RegistryRef) = entry.map ∧
      (⟨manifest.clockPeerId, manifest.clockId, manifest.clockHash⟩ : RegistryRef) = entry.clock
  | .acceptDetection manifest _ => ∃ entry pointer, row = .resource entry ∧
      entry.variantContent = .detectionLog pointer ∧
      manifest.payload = "detection".toList ∧ manifest.resourceId = entry.resourceId ∧
      manifest.sensorId = pointer.inputSensor.id ∧
      manifest.sensorHash = pointer.inputSensor.hash ∧
      (⟨manifest.clockPeerId, manifest.clockId, manifest.clockHash⟩ : RegistryRef) = pointer.clock
  | .decline _ => False

/-- The rows of map and detection logs. -/
def Row.Streamable : Row → Prop
  | .resource row => ∃ pointer, row.variantContent = .detectionLog pointer
  | .map _ => True

/-- The recorded entries of a row can be read. -/
def Session.Readable (session : Session bodies) (files : LogFiles MapUpdate DetectionFrame) :
    Row → Prop
  | .resource row => ∀ handle, session.detectionLogs[row.resourceId]? = some handle →
      ∃ entries, files.detectionEntries handle = .ok entries
  | .map row => ∀ handle, session.mapLogs[row.resourceId]? = some handle →
      ∃ entries, files.mapEntries handle = .ok entries

theorem Row.Answered.streamable {row : Row} {answer : StreamDispatch MapUpdate DetectionFrame}
    (hans : row.Answered answer) : row.Streamable := by
  cases answer with
  | acceptMap manifest history =>
    obtain ⟨entry, rfl, -⟩ := hans
    trivial
  | acceptDetection manifest history =>
    obtain ⟨entry, pointer, rfl, hpoi, -⟩ := hans
    exact ⟨pointer, hpoi⟩
  | decline reason => exact hans.elim

theorem logSource_eq_ok {T : Type} (snapshot : Except Text (List (Entry T))) (readFrom : ReadFrom) :
    (∃ history, logSource snapshot readFrom = .ok history) ↔
      readFrom = .latest ∨ ∃ entries, snapshot = .ok entries := by
  cases readFrom with
  | latest => simp [logSource]
  | fromStart => cases snapshot <;> simp [logSource, Except.map]
  | fromTimestamp start => cases snapshot <;> simp [logSource, Except.map]

/-- Handles are stored under their own ids, and map and detection ids differ. -/
structure Keyed (session : Session bodies) : Prop where
  map : ∀ resourceId (handle : MapLogHandle), session.mapLogs[resourceId]? = some handle →
    handle.resourceId = resourceId ∧ handle.manifest.sourcePeerId = session.peer.peerId
  detection : ∀ resourceId (handle : DetectionLogHandle), session.detectionLogs[resourceId]? = some handle →
    handle.resourceId = resourceId ∧ handle.manifest.sourcePeerId = session.peer.peerId
  apart : ∀ resourceId, resourceId ∈ session.mapLogs → resourceId ∉ session.detectionLogs

/-- What a call does to the two tables that requests are answered from. -/
inductive TableChange (session next : Session bodies) : Prop where
  | kept (hmap : next.mapLogs = session.mapLogs)
      (hdetection : next.detectionLogs = session.detectionLogs)
  | map (handle : MapLogHandle) (hsource : handle.manifest.sourcePeerId = session.peer.peerId)
      (hfree : handle.resourceId ∉ session.detectionLogs)
      (hmap : next.mapLogs = session.mapLogs.insert handle.resourceId handle)
      (hdetection : next.detectionLogs = session.detectionLogs)
  | detection (handle : DetectionLogHandle)
      (hsource : handle.manifest.sourcePeerId = session.peer.peerId)
      (hfree : handle.resourceId ∉ session.mapLogs)
      (hmap : next.mapLogs = session.mapLogs)
      (hdetection : next.detectionLogs =
        session.detectionLogs.insert handle.resourceId handle)

theorem Session.step_peerId (session : Session bodies) (action : Action bodies) :
    (session.step action).peer.peerId = session.peer.peerId := by
  rcases session.step_cases action with hkept | ⟨kind, resourceId, -, hreg⟩
  · exact hkept.peerId
  · rw [hreg.peer]

variable {session : Session bodies}

theorem Session.after_change {Result : Type}
    {outcome : Except SessionError (Session bodies × Result)}
    (hchg : ∀ next result, outcome = .ok (next, result) → TableChange session next) :
    TableChange session (session.after outcome) := by
  rcases session.after_cases outcome with hsm | ⟨next, result, hout, hn⟩
  · rw [hsm]
    exact .kept rfl rfl
  · rw [hn]
    exact hchg next result hout

theorem Session.step_change (session : Session bodies) (action : Action bodies) :
    TableChange session (session.step action) := by
  cases action with
  | registerSensorLog spec disk =>
    apply Session.after_change
    intro next handle hreg
    obtain ⟨-, -, -, rfl⟩ := registerSensorLog_eq_ok hreg
    exact .kept rfl rfl
  | registerPoseLog spec disk =>
    apply Session.after_change
    intro next handle hreg
    obtain ⟨-, -, -, rfl⟩ := registerPoseLog_eq_ok hreg
    exact .kept rfl rfl
  | registerTimeTransformLog spec disk =>
    apply Session.after_change
    intro next handle hreg
    obtain ⟨-, -, -, rfl⟩ := registerTimeTransformLog_eq_ok hreg
    exact .kept rfl rfl
  | registerDetectionLog spec disk =>
    apply Session.after_change
    intro next handle hreg
    obtain ⟨-, hmap, hhdl, hman, rfl⟩ := registerDetectionLog_eq_ok hreg
    have hid : handle.resourceId = spec.instanceId := congrArg LogHandle.resourceId hhdl
    rw [← hid] at hmap ⊢
    exact .detection handle (congrArg LogManifest.sourcePeerId hman) hmap rfl rfl
  | registerMapLog spec disk =>
    apply Session.after_change
    intro next handle hreg
    obtain ⟨-, hfree, hhdl, hman, rfl⟩ := registerMapLog_eq_ok hreg
    have hid : handle.resourceId = spec.map.id := congrArg LogHandle.resourceId hhdl
    rw [← hid] at hfree ⊢
    exact .map handle (congrArg LogManifest.sourcePeerId hman) hfree.2.2.2.2 rfl rfl
  | registerClock clockId body disk =>
    apply Session.after_change
    intro next reference hreg
    obtain ⟨clocks, -, hn⟩ := Checks.bind_eq_ok.mp hreg
    cases hn
    exact .kept rfl rfl
  | registerSensor sensorId body disk =>
    apply Session.after_change
    intro next reference hreg
    obtain ⟨sensors, -, hn⟩ := Checks.bind_eq_ok.mp hreg
    cases hn
    exact .kept rfl rfl
  | registerMap mapId body disk =>
    apply Session.after_change
    intro next reference hreg
    obtain ⟨maps, -, hn⟩ := Checks.bind_eq_ok.mp hreg
    cases hn
    exact .kept rfl rfl
  | setStorageRoot root => exact .kept rfl rfl

theorem Keyed.step (hkey : Keyed session) (action : Action bodies) :
    Keyed (session.step action) := by
  have hpeer := session.step_peerId action
  cases session.step_change action with
  | kept hmap hdet =>
    constructor
    · rw [hmap, hpeer]
      exact hkey.map
    · rw [hdet, hpeer]
      exact hkey.detection
    · rw [hmap, hdet]
      exact hkey.apart
  | map handle hsrc hfree hmap hdet =>
    constructor
    · rw [hmap, hpeer]
      exact FiniteMap.forall_insert hkey.map ⟨rfl, hsrc⟩
    · rw [hdet, hpeer]
      exact hkey.detection
    · rw [hmap, hdet]
      intro resourceId hm
      rcases Std.ExtTreeMap.mem_insert.mp hm with heq | hold
      · rw [← Std.LawfulEqOrd.compare_eq_iff_eq.mp heq]
        exact hfree
      · exact hkey.apart resourceId hold
  | detection handle hsrc hfree hmap hdet =>
    constructor
    · rw [hmap, hpeer]
      exact hkey.map
    · rw [hdet, hpeer]
      exact FiniteMap.forall_insert hkey.detection ⟨rfl, hsrc⟩
    · rw [hmap, hdet]
      intro resourceId hm hins
      rcases Std.ExtTreeMap.mem_insert.mp hins with heq | hold
      · rw [← Std.LawfulEqOrd.compare_eq_iff_eq.mp heq] at hm
        exact hfree hm
      · exact hkey.apart resourceId hm hold

theorem Keyed.of_start {peer : PeerInner bodies} {sessionId : Text}
    {monotonicDisk utcDisk : Except SessionError Unit}
    (hbeg : Session.start peer sessionId monotonicDisk utcDisk = .ok session) :
    Keyed session := by
  obtain ⟨clocks, -, hbeg⟩ := Checks.bind_eq_ok.mp hbeg
  obtain ⟨allClocks, -, hbeg⟩ := Checks.bind_eq_ok.mp hbeg
  cases hbeg
  constructor
  · simp
  · simp
  · simp

theorem Keyed.of_run {last : Session bodies} (hkey : Keyed session)
    {actions : List (Action bodies)} (hrun : session.run actions = some last) : Keyed last := by
  have hgrd : GuardedRun (fun (session : Session bodies) action => some (session.step action))
      session (fun _ _ => True) actions := fun _ _ _ _ _ _ => trivial
  apply invariant_of_guardedRun hkey _ hgrd hrun
  intro state action next hsta _ hn
  cases hn
  exact hsta.step action

variable {request : StreamRequest}

theorem Keyed.find_map (hkey : Keyed session)
    (hsrc : sourceMatches request.sourcePeerId session.peer.peerId = true) :
    ((tableValues session.mapLogs).find? fun handle =>
        handle.resourceId = request.resourceId &&
          sourceMatches request.sourcePeerId handle.manifest.sourcePeerId) =
      session.mapLogs[request.resourceId]? := by
  apply FiniteMap.find?_values fun key handle hhdl => (hkey.map key handle hhdl).1
  intro handle hhdl
  rw [(hkey.map _ handle hhdl).2]
  exact hsrc

theorem Keyed.find_detection (hkey : Keyed session)
    (hsrc : sourceMatches request.sourcePeerId session.peer.peerId = true) :
    ((tableValues session.detectionLogs).find? fun handle =>
        handle.resourceId = request.resourceId &&
          sourceMatches request.sourcePeerId handle.manifest.sourcePeerId) =
      session.detectionLogs[request.resourceId]? := by
  apply FiniteMap.find?_values fun key handle hhdl => (hkey.detection key handle hhdl).1
  intro handle hhdl
  rw [(hkey.detection _ handle hhdl).2]
  exact hsrc

theorem mem_tableValues {H : Type} {table : Std.ExtTreeMap Text H} {handle : H} :
    handle ∈ tableValues table ↔ ∃ resourceId : Text, table[resourceId]? = some handle := by
  simp only [tableValues, mem_map, Prod.exists, exists_eq_right,
    Std.ExtTreeMap.mem_toList_iff_getElem?_eq_some]

theorem Keyed.answered_map (hkey : Keyed session) (files : LogFiles MapUpdate DetectionFrame)
    {row : MapLogResource} (hrow : row ∈ session.mapRows) (hnms : request.Names (.map row)) :
    (Row.map row).Answered (session.dispatchRequest files request) ↔
      request.readFrom = .latest ∨ session.Readable files (.map row) := by
  obtain ⟨handle, hhdl, rfl⟩ := mem_map.mp hrow
  obtain ⟨resourceId, hst⟩ := mem_tableValues.mp hhdl
  obtain ⟨rfl, hsrc⟩ := hkey.map resourceId handle hst
  obtain ⟨hreq, hmat⟩ := hnms
  have hrqs : request.resourceId = handle.resourceId := hreq
  have hpeer : sourceMatches request.sourcePeerId session.peer.peerId = true := by
    rw [← hsrc]
    exact hmat
  have hrea : session.Readable files (.map (mapLogRow handle)) ↔
      ∃ entries, files.mapEntries handle = .ok entries := by
    constructor
    · intro hread
      exact hread handle hst
    · intro hread other ho
      cases hst.symm.trans ho
      exact hread
  rw [hrea, ← logSource_eq_ok, Session.dispatchRequest, hkey.find_map hpeer, hrqs, hst]
  dsimp only
  cases logSource (files.mapEntries handle) request.readFrom with
  | error detail => simp [Row.Answered]
  | ok history => simp [Row.Answered, mapStreamManifest, mapLogRow]

theorem Keyed.answered_detection (hkey : Keyed session)
    (files : LogFiles MapUpdate DetectionFrame) {handle : DetectionLogHandle}
    (hhdl : handle ∈ tableValues session.detectionLogs)
    (hnms : request.Names (.resource (detectionLogRow handle))) :
    (Row.resource (detectionLogRow handle)).Answered (session.dispatchRequest files request) ↔
      request.readFrom = .latest ∨ session.Readable files (.resource (detectionLogRow handle)) := by
  obtain ⟨resourceId, hst⟩ := mem_tableValues.mp hhdl
  obtain ⟨rfl, hsrc⟩ := hkey.detection resourceId handle hst
  obtain ⟨hreq, hmat⟩ := hnms
  have hrqs : request.resourceId = handle.resourceId := hreq
  have hpeer : sourceMatches request.sourcePeerId session.peer.peerId = true := by
    rw [← hsrc]
    exact hmat
  -- The id is not that of a map log, so the request gets past the map logs.
  have hmap : session.mapLogs[handle.resourceId]? = none := by
    apply Std.ExtTreeMap.getElem?_eq_none
    intro hm
    apply hkey.apart handle.resourceId hm
    rw [Std.ExtTreeMap.mem_iff_isSome_getElem?, hst]
    rfl
  have hrea : session.Readable files (.resource (detectionLogRow handle)) ↔
      ∃ entries, files.detectionEntries handle = .ok entries := by
    constructor
    · intro hread
      exact hread handle hst
    · intro hread other ho
      cases hst.symm.trans ho
      exact hread
  rw [hrea, ← logSource_eq_ok, Session.dispatchRequest, hkey.find_map hpeer,
    hkey.find_detection hpeer, hrqs, hmap, hst]
  dsimp only
  cases logSource (files.detectionEntries handle) request.readFrom with
  | error detail => simp [Row.Answered]
  | ok history => simp [Row.Answered, detectionStreamManifest, detectionLogRow, baseRow]

theorem sensorLogRow_variant {peer : PeerInner bodies} {handle : SensorLogHandle}
    {row : ResourceEntry} (hrow : sensorLogRow peer handle = some row) :
    row.variantContent = .sensorLog ⟨handle.manifest.clock, handle.manifest.frame⟩ := by
  obtain ⟨body, -, hbody⟩ := Option.bind_eq_some_iff.mp hrow
  split at hbody
  · cases hbody
  · cases hbody
    rfl

theorem Session.detection_of_streamable {row : ResourceEntry} (hrow : row ∈ session.resourceRows)
    (hstr : (Row.resource row).Streamable) :
    ∃ handle ∈ tableValues session.detectionLogs, row = detectionLogRow handle := by
  obtain ⟨pointer, hpoi⟩ := hstr
  simp only [Session.resourceRows, mem_append, mem_filterMap, mem_map] at hrow
  rcases hrow with ((⟨handle, -, hsen⟩ | ⟨handle, -, rfl⟩) | ⟨handle, -, rfl⟩) |
    ⟨handle, hhdl, rfl⟩
  · rw [sensorLogRow_variant hsen] at hpoi
    cases hpoi
  · cases hpoi
  · cases hpoi
  · exact ⟨handle, hhdl, rfl⟩

theorem Keyed.answered_iff (hkey : Keyed session) (files : LogFiles MapUpdate DetectionFrame)
    {row : Row} (hrow : row ∈ session.rows) (hnms : request.Names row) :
    row.Answered (session.dispatchRequest files request) ↔
      row.Streamable ∧ (request.readFrom = .latest ∨ session.Readable files row) := by
  rw [Session.rows, mem_append, mem_map, mem_map] at hrow
  rcases hrow with ⟨entry, hent, rfl⟩ | ⟨entry, hent, rfl⟩
  · constructor
    · intro hans
      obtain ⟨handle, hhdl, rfl⟩ := Session.detection_of_streamable hent hans.streamable
      exact ⟨hans.streamable, (hkey.answered_detection files hhdl hnms).mp hans⟩
    · rintro ⟨hstr, hread⟩
      obtain ⟨handle, hhdl, rfl⟩ := Session.detection_of_streamable hent hstr
      exact (hkey.answered_detection files hhdl hnms).mpr hread
  · rw [hkey.answered_map files hent hnms]
    exact (and_iff_right trivial).symm

theorem Session.row_of_accepted (session : Session bodies)
    (files : LogFiles MapUpdate DetectionFrame) (request : StreamRequest)
    (hacc : ∀ reason, session.dispatchRequest files request ≠ .decline reason) :
    ∃ row ∈ session.rows, request.Names row ∧
      row.Answered (session.dispatchRequest files request) := by
  revert hacc
  fun_cases Session.dispatchRequest session files request with
  | case1 handle hfind history hsrc =>
    intro _
    have hboth := find?_some hfind
    rw [Bool.and_eq_true, decide_eq_true_iff] at hboth
    refine ⟨.map (mapLogRow handle), ?_, ⟨hboth.1.symm, hboth.2⟩, _, rfl, rfl, rfl, rfl, rfl⟩
    rw [Session.rows, mem_append]
    exact .inr (mem_map_of_mem (mem_map_of_mem (mem_of_find?_eq_some hfind)))
  | case2 handle hfind detail hsrc =>
    intro hacc
    exact absurd rfl (hacc _)
  | case3 hnone handle hfind history hsrc =>
    intro _
    have hboth := find?_some hfind
    rw [Bool.and_eq_true, decide_eq_true_iff] at hboth
    refine ⟨.resource (detectionLogRow handle), ?_, ⟨hboth.1.symm, hboth.2⟩, _, _, rfl, rfl, rfl,
      rfl, rfl, rfl, rfl⟩
    rw [Session.rows, mem_append, Session.resourceRows]
    apply Or.inl
    apply mem_map_of_mem
    rw [mem_append]
    exact .inr (mem_map_of_mem (mem_of_find?_eq_some hfind))
  | case4 hnone handle hfind detail hsrc =>
    intro hacc
    exact absurd rfl (hacc _)
  | case5 hnone hnoD =>
    intro hacc
    exact absurd rfl (hacc _)

/-- A named row is answered exactly for readable map and detection logs. -/
theorem advertised_row_answered_iff (peer : PeerInner bodies) (sessionId : Text)
    (monotonicDisk utcDisk : Except SessionError Unit) (session last : Session bodies)
    (actions : List (Action bodies))
    (hstart : Session.start peer sessionId monotonicDisk utcDisk = .ok session)
    (hrun : session.run actions = some last) (files : LogFiles MapUpdate DetectionFrame) :
    (∀ row ∈ last.rows, ∀ request : StreamRequest, request.Names row →
        (row.Answered (last.dispatchRequest files request) ↔
          row.Streamable ∧ (request.readFrom = .latest ∨ last.Readable files row))) ∧
      ∀ request, (∀ reason, last.dispatchRequest files request ≠ .decline reason) →
        ∃ row ∈ last.rows, request.Names row ∧
          row.Answered (last.dispatchRequest files request) := by
  have hkeyed : Keyed last := (Keyed.of_start hstart).of_run hrun
  constructor
  · intro row hrow request hnames
    exact hkeyed.answered_iff files hrow hnames
  · exact last.row_of_accepted files

end Provider

def sampleSensorSpec (sensorId : String) : SensorLogSpec where
  sensor := sampleReference sensorId
  clock := sampleReference "monotonic"
  frame := none
  head := .rolling 5000
  segmentDuration := 1000
  retention := 5000

def sampleDetectionSpec (instanceId : String) : DetectionLogSpec where
  instanceId := instanceId.toList
  detector := sampleReference "detector"
  inputLog := ⟨"galbot".toList, "camera".toList⟩
  inputSensor := sampleReference "camera"
  clock := sampleReference "monotonic"
  cadence := .everyFrame
  head := .fixed
  segmentDuration := 1000
  retention := 0

def sampleLogs : List (Action sampleBodies) :=
  [.registerSensor "camera".toList () (.ok ()),
    .registerSensorLog (sampleSensorSpec "camera") (.ok ()),
    .registerDetectionLog (sampleDetectionSpec "faces") (.ok ())]

def sampleFiles : LogFiles Unit Unit where
  mapEntries := fun _ => .ok []
  detectionEntries := fun _ => .ok [⟨20, ()⟩]

def sampleRequest (resourceId : String) : StreamRequest where
  sourcePeerId := "galbot".toList
  resourceId := resourceId.toList
  readFrom := .fromStart

theorem advertised_row_answered_iff_sample : ∃ session last,
      Session.start samplePeer sampleUlid (.ok ()) (.ok ()) = .ok session ∧
        session.run sampleLogs = some last ∧ last.rows.length = 2 ∧
        (∀ row ∈ last.rows, ∀ request : StreamRequest, request.Names row →
          (row.Answered (last.dispatchRequest sampleFiles request) ↔
            row.Streamable ∧ (request.readFrom = .latest ∨ last.Readable sampleFiles row))) ∧
        ∀ request, (∀ reason, last.dispatchRequest sampleFiles request ≠ .decline reason) →
          ∃ row ∈ last.rows, request.Names row ∧
            row.Answered (last.dispatchRequest sampleFiles request) := by
  refine ⟨_, _, rfl, rfl, rfl, ?_⟩
  exact advertised_row_answered_iff samplePeer sampleUlid (.ok ()) (.ok ()) _ _ sampleLogs rfl rfl
    sampleFiles

/-- The row of a sensor log is in the catalog, and a request that names it is
declined. -/
theorem sensor_row_declined : ∃ session last row,
      Session.start samplePeer sampleUlid (.ok ()) (.ok ()) = .ok session ∧
        session.run sampleLogs = some last ∧ row ∈ last.rows ∧
        (sampleRequest "camera").Names row ∧
        last.dispatchRequest sampleFiles (sampleRequest "camera") = .decline .sensorNotFound := by
  refine ⟨_, _, _, rfl, rfl, mem_cons_self, ⟨rfl, rfl⟩, rfl⟩

end AukiSdk.Recording
