import AukiSdk.Recording.Registration

/-!
# The identity of a log

A log is found by its kind and its id, but stored under its id alone.
-/

namespace AukiSdk.Recording

open AukiSdk.Foundation AukiSdk.Registry List

variable {bodies : Bodies}

inductive LogKind where
  | sensor
  | pose
  | timeTransform
  | detection
  | map
  deriving DecidableEq

/-- The registered log of a kind with a resource id. -/
def Session.log? (session : Session bodies) : LogKind → Text → Option LogHandle
  | .sensor, resourceId => session.sensorLogs[resourceId]?.map (·.toLogHandle)
  | .pose, resourceId => session.poseLogs[resourceId]?.map (·.toLogHandle)
  | .timeTransform, resourceId => session.timeLogs[resourceId]?.map (·.toLogHandle)
  | .detection, resourceId => session.detectionLogs[resourceId]?.map (·.toLogHandle)
  | .map, resourceId => session.mapLogs[resourceId]?.map (·.toLogHandle)

/-- The log that a call registers. -/
def Action.log? : Action bodies → Option (LogKind × Text)
  | .registerSensorLog spec _ => some (.sensor, spec.sensor.id)
  | .registerPoseLog spec _ => some (.pose, spec.resourceId)
  | .registerTimeTransformLog spec _ => some (.timeTransform, spec.resourceId)
  | .registerDetectionLog spec _ => some (.detection, spec.instanceId)
  | .registerMapLog spec _ => some (.map, spec.map.id)
  | _ => none

/-- The directory that a log gets. -/
def Session.rootOf (session : Session bodies) (kind : LogKind) (resourceId : Text) : Path :=
  if kind = .map then
    mapLogRoot session.peer.storageRoot session.peer.peerId resourceId
  else
    logRoot session.peer.storageRoot session.sessionId session.peer.peerId resourceId

/-- One log was inserted under an id that was free in its tables. -/
structure Registered (session next : Session bodies) (kind : LogKind) (resourceId : Text) :
    Prop where
  free : ∀ other, other = kind ∨ other = .map ∨ kind = .map → session.log? other resourceId = none
  inserted : ∃ head, ∀ other otherId, next.log? other otherId =
    if other = kind ∧ otherId = resourceId then
      some (session.handle resourceId head (session.rootOf kind resourceId))
    else
      session.log? other otherId
  valid : kind = .map → validateRegistryId resourceId = .ok ()
  peer : next.peer = session.peer
  sessionId : next.sessionId = session.sessionId

theorem table_eq_none {H : Type} {table : Std.ExtTreeMap Text H} {resourceId : Text}
    (hfree : resourceId ∉ table) (project : H → LogHandle) :
    table[resourceId]?.map project = none := by
  rw [Option.map_eq_none_iff]
  exact Std.ExtTreeMap.getElem?_eq_none hfree

theorem table_insert {H : Type} (table : Std.ExtTreeMap Text H) (resourceId : Text)
    (handle : H) (project : H → LogHandle) (otherId : Text) :
    (table.insert resourceId handle)[otherId]?.map project =
      if otherId = resourceId then some (project handle) else table[otherId]?.map project := by
  rw [FiniteMap.getElem?_insert]
  split <;> rfl

variable {kind : LogKind} {session next : Session bodies}

theorem Registered.of_insert {resourceId : Text} (hkind : kind ≠ .map)
    (hfree : session.log? kind resourceId = none) (hmap : session.log? .map resourceId = none)
    (head : HeadSpec) (hins : ∀ otherId, next.log? kind otherId =
      if otherId = resourceId then some (session.sessionHandle resourceId head)
      else session.log? kind otherId)
    (hots : ∀ other, other ≠ kind → next.log? other = session.log? other)
    (hpeer : next.peer = session.peer) (hsess : next.sessionId = session.sessionId) :
    Registered session next kind resourceId where
  free := by
    intro other ho
    rcases ho with rfl | rfl | hmpK
    · exact hfree
    · exact hmap
    · exact absurd hmpK hkind
  inserted := by
    use head
    intro other otherId
    by_cases ho : other = kind
    · rw [ho, hins]
      simp only [true_and, Session.sessionHandle, Session.rootOf, if_neg hkind]
    · rw [hots other ho, if_neg fun hboth => ho hboth.1]
  valid := fun hmpK => absurd hmpK hkind
  peer := hpeer
  sessionId := hsess

variable {disk : Except SessionError Unit}

theorem Registered.of_sensor {spec : SensorLogSpec} {handle : SensorLogHandle}
    (hrgs : registerSensorLog session spec disk = .ok (next, handle)) :
    Registered session next .sensor spec.sensor.id := by
  obtain ⟨hfree, hmap, hhdl, rfl⟩ := registerSensorLog_eq_ok hrgs
  have hown : session.log? .sensor spec.sensor.id = none := table_eq_none hfree _
  have hmpL : session.log? .map spec.sensor.id = none := table_eq_none hmap _
  apply Registered.of_insert (by decide) hown hmpL spec.head
  · intro otherId
    rw [← hhdl]
    exact table_insert _ _ _ _ otherId
  · intro other ho
    cases other <;> trivial
  · rfl
  · rfl

theorem Registered.of_pose {spec : PoseLogSpec} {handle : PoseLogHandle}
    (hrgs : registerPoseLog session spec disk = .ok (next, handle)) :
    Registered session next .pose spec.resourceId := by
  obtain ⟨hfree, hmap, hhdl, rfl⟩ := registerPoseLog_eq_ok hrgs
  have hown : session.log? .pose spec.resourceId = none := table_eq_none hfree _
  have hmpL : session.log? .map spec.resourceId = none := table_eq_none hmap _
  apply Registered.of_insert (by decide) hown hmpL spec.head
  · intro otherId
    rw [← hhdl]
    exact table_insert _ _ _ _ otherId
  · intro other ho
    cases other <;> trivial
  · rfl
  · rfl

theorem Registered.of_timeTransform {spec : TimeTransformLogSpec} {handle : TimeTransformLogHandle}
    (hrgs : registerTimeTransformLog session spec disk = .ok (next, handle)) :
    Registered session next .timeTransform spec.resourceId := by
  obtain ⟨hfree, hmap, hhdl, rfl⟩ := registerTimeTransformLog_eq_ok hrgs
  have hown : session.log? .timeTransform spec.resourceId = none := table_eq_none hfree _
  have hmpL : session.log? .map spec.resourceId = none := table_eq_none hmap _
  apply Registered.of_insert (by decide) hown hmpL spec.head
  · intro otherId
    rw [← hhdl]
    exact table_insert _ _ _ _ otherId
  · intro other ho
    cases other <;> trivial
  · rfl
  · rfl

theorem Registered.of_detection {spec : DetectionLogSpec} {handle : DetectionLogHandle}
    (hrgs : registerDetectionLog session spec disk = .ok (next, handle)) :
    Registered session next .detection spec.instanceId := by
  obtain ⟨hfree, hmap, hhdl, -, rfl⟩ := registerDetectionLog_eq_ok hrgs
  have hown : session.log? .detection spec.instanceId = none := table_eq_none hfree _
  have hmpL : session.log? .map spec.instanceId = none := table_eq_none hmap _
  apply Registered.of_insert (by decide) hown hmpL spec.head
  · intro otherId
    rw [← hhdl]
    exact table_insert _ _ _ _ otherId
  · intro other ho
    cases other <;> trivial
  · rfl
  · rfl

theorem Registered.of_map {spec : MapLogSpec} {handle : MapLogHandle}
    (hrgs : registerMapLog session spec disk = .ok (next, handle)) :
    Registered session next .map spec.map.id := by
  obtain ⟨hkno, ⟨hmap, hsen, hpose, htime, hdet⟩, hhdl, -, rfl⟩ := registerMapLog_eq_ok hrgs
  constructor
  · intro other _
    cases other with
    | sensor => exact table_eq_none hsen _
    | pose => exact table_eq_none hpose _
    | timeTransform => exact table_eq_none htime _
    | detection => exact table_eq_none hdet _
    | map => exact table_eq_none hmap _
  · use spec.head
    intro other otherId
    cases other with
    | map =>
      simp only [true_and, Session.rootOf, if_true]
      rw [← hhdl]
      exact table_insert _ _ _ _ otherId
    | _ => rfl
  · intro _
    rw [PeerInner.mapKnown, Option.any_eq_true] at hkno
    obtain ⟨body, hbody, -⟩ := hkno
    exact session.peer.maps.validateRegistryId_eq_ok _ body hbody
  · rfl
  · rfl

/-- No table changes, and only `set_storage_root` moves the storage root. -/
structure Kept (session next : Session bodies) (action : Action bodies) : Prop where
  logs : next.log? = session.log?
  peerId : next.peer.peerId = session.peer.peerId
  sessionId : next.sessionId = session.sessionId
  storageRoot : (∀ root, action ≠ .setStorageRoot root) →
    next.peer.storageRoot = session.peer.storageRoot

theorem Kept.refl (session : Session bodies) (action : Action bodies) :
    Kept session session action :=
  ⟨rfl, rfl, rfl, fun _ => rfl⟩

theorem Session.after_cases {Result : Type} (session : Session bodies)
    (outcome : Except SessionError (Session bodies × Result)) :
    session.after outcome = session ∨
      ∃ next result, outcome = .ok (next, result) ∧ session.after outcome = next := by
  cases outcome with
  | error error => exact .inl rfl
  | ok pair => exact .inr ⟨pair.1, pair.2, rfl, rfl⟩

theorem Session.after_registers {Handle : Type}
    {outcome : Except SessionError (Session bodies × Handle)} (action : Action bodies)
    {resourceId : Text} (hrgs : ∀ {next handle}, outcome = .ok (next, handle) →
      Registered session next kind resourceId) :
    Kept session (session.after outcome) action ∨
      Registered session (session.after outcome) kind resourceId := by
  rcases session.after_cases outcome with hsm | ⟨next, handle, hout, hn⟩
  · rw [hsm]
    exact .inl (.refl session action)
  · rw [hn]
    exact .inr (hrgs hout)

variable {action : Action bodies}

theorem Session.after_keeps {Store : Type} {registration : Except SessionError Store}
    {stored : Store → Session bodies} {result : Store → RegistryRef}
    (hkept : ∀ store, Kept session (stored store) action) :
    Kept session (session.after (do
      let store ← registration
      .ok (stored store, result store))) action := by
  cases registration with
  | error error => exact .refl session action
  | ok store => exact hkept store

theorem Session.step_cases (session : Session bodies) (action : Action bodies) :
    Kept session (session.step action) action ∨
      ∃ kind resourceId, action.log? = some (kind, resourceId) ∧
        Registered session (session.step action) kind resourceId := by
  cases action with
  | registerSensorLog spec disk =>
    apply Or.imp_right (fun hreg => ⟨_, _, rfl, hreg⟩)
    exact Session.after_registers _ Registered.of_sensor
  | registerPoseLog spec disk =>
    apply Or.imp_right (fun hreg => ⟨_, _, rfl, hreg⟩)
    exact Session.after_registers _ Registered.of_pose
  | registerTimeTransformLog spec disk =>
    apply Or.imp_right (fun hreg => ⟨_, _, rfl, hreg⟩)
    exact Session.after_registers _ Registered.of_timeTransform
  | registerDetectionLog spec disk =>
    apply Or.imp_right (fun hreg => ⟨_, _, rfl, hreg⟩)
    exact Session.after_registers _ Registered.of_detection
  | registerMapLog spec disk =>
    apply Or.imp_right (fun hreg => ⟨_, _, rfl, hreg⟩)
    exact Session.after_registers _ Registered.of_map
  | registerClock clockId body disk =>
    exact .inl (Session.after_keeps fun clocks => ⟨rfl, rfl, rfl, fun _ => rfl⟩)
  | registerSensor sensorId body disk =>
    exact .inl (Session.after_keeps fun sensors => ⟨rfl, rfl, rfl, fun _ => rfl⟩)
  | registerMap mapId body disk =>
    exact .inl (Session.after_keeps fun maps => ⟨rfl, rfl, rfl, fun _ => rfl⟩)
  | setStorageRoot root =>
    exact .inl ⟨rfl, rfl, rfl, fun ho => absurd rfl (ho root)⟩

/-- A text that does not start at the root of the file system. -/
def IsRelative (text : Text) : Prop :=
  text.head? ≠ some '/'

theorem Path.join_of_relative (path : Path) {text : Text} (htext : IsRelative text) :
    path.join text = path ++ components text :=
  if_neg htext

variable {id : Text}

theorem isReservedSegment_eq_false (hid : validateRegistryId id = .ok ()) :
    ∀ segment ∈ id.splitOn '/', isReservedSegment segment = false := by
  unfold validateRegistryId at hid
  split at hid
  · cases hid
  · split at hid
    · cases hid
    · split at hid
      · cases hid
      · rename_i hnone
        intro segment hseg
        rw [← Bool.not_eq_true]
        exact find?_eq_none.mp hnone segment hseg

theorem isRelative_of_valid (hid : validateRegistryId id = .ok ()) : IsRelative id := by
  intro hhead
  cases id with
  | nil => cases hhead
  | cons char rest =>
    cases hhead
    -- The text before the first `/` is an empty segment.
    have hseg : [] ∈ ('/' :: rest).splitOn '/' := by
      rw [splitOn_cons_eq_if_modifyHead]
      exact mem_cons_self
    cases isReservedSegment_eq_false hid [] hseg

theorem components_of_valid (hid : validateRegistryId id = .ok ()) :
    components id = id.splitOn '/' := by
  rw [components, filter_eq_self]
  intro segment hseg
  have hresv := isReservedSegment_eq_false hid segment hseg
  simp only [isReservedSegment, Bool.or_eq_false_iff, decide_eq_false_iff_not] at hresv
  simp [hresv.1.1, hresv.1.2]

theorem components_injective_of_valid {otherId : Text} (hid : validateRegistryId id = .ok ())
    (ho : validateRegistryId otherId = .ok ()) (heq : components id = components otherId) :
    id = otherId := by
  rw [components_of_valid hid, components_of_valid ho] at heq
  calc id = ['/'].intercalate (id.splitOn '/') := (intercalate_splitOn '/').symm
    _ = ['/'].intercalate (otherId.splitOn '/') := by rw [heq]
    _ = otherId := intercalate_splitOn '/'

theorem isDirectoryName_of_ulid {sessionId : Text} (hulid : isUlid sessionId = true) :
    IsDirectoryName sessionId := by
  rw [isUlid, Bool.and_eq_true, decide_eq_true_iff, all_eq_true] at hulid
  obtain ⟨hlen, hdig⟩ := hulid
  constructor
  · intro hsl
    have hdig := hdig '/' hsl
    revert hdig
    decide
  · rw [isReservedSegment, Bool.or_eq_false_iff, Bool.or_eq_false_iff]
    simp only [decide_eq_false_iff_not]
    refine ⟨⟨?_, ?_⟩, ?_⟩
    all_goals
      rintro rfl
      cases hlen

theorem ulid_ne_logs {sessionId : Text} (hulid : isUlid sessionId = true) :
    sessionId ≠ "logs".toList := by
  rintro rfl
  revert hulid
  decide

section Roots

variable {storageRoot : Path} {sessionId peerId resourceId otherId : Text}

theorem logRoot_eq (hulid : isUlid sessionId = true) (hpeer : IsRelative peerId)
    (hres : IsRelative resourceId) :
    logRoot storageRoot sessionId peerId resourceId =
      storageRoot ++ [sessionId, "logs".toList] ++ components peerId ++ components resourceId := by
  have hlogs : IsDirectoryName "logs".toList := by decide
  rw [logRoot, Path.join_of_directoryName _ (isDirectoryName_of_ulid hulid),
    Path.join_of_directoryName _ hlogs, Path.join_of_relative _ hpeer,
    Path.join_of_relative _ hres, append_assoc storageRoot]
  rfl

theorem mapLogRoot_eq (hpeer : IsRelative peerId) (hres : IsRelative resourceId) :
    mapLogRoot storageRoot peerId resourceId =
      storageRoot ++ ["logs".toList] ++ components peerId ++ components resourceId := by
  have hlogs : IsDirectoryName "logs".toList := by decide
  rw [mapLogRoot, Path.join_of_directoryName _ hlogs, Path.join_of_relative _ hpeer,
    Path.join_of_relative _ hres]

theorem logRoot_ne_mapLogRoot (hulid : isUlid sessionId = true) (hpeer : IsRelative peerId)
    (hres : IsRelative resourceId) (ho : IsRelative otherId) :
    logRoot storageRoot sessionId peerId resourceId ≠ mapLogRoot storageRoot peerId otherId := by
  rw [logRoot_eq hulid hpeer hres, mapLogRoot_eq hpeer ho]
  simp only [append_assoc]
  intro heq
  have hrest := append_cancel_left heq
  exact ulid_ne_logs hulid (cons_eq_cons.mp hrest).1

end Roots

/-- The log has a resource id that spells another path than those of other logs. -/
structure Distinguishable (session : Session bodies) (action : Action bodies) : Prop where
  storageRoot : ∀ root, action = .setStorageRoot root → root = session.peer.storageRoot
  relative : ∀ kind resourceId, action.log? = some (kind, resourceId) → kind ≠ .map →
    IsRelative resourceId
  spelled : ∀ kind resourceId, action.log? = some (kind, resourceId) → kind ≠ .map →
    ∀ other otherId handle, other ≠ .map → session.log? other otherId = some handle →
      components otherId = components resourceId → other = kind ∧ otherId = resourceId

/-- The logs are where they belong, and their ids are kept apart. -/
structure LogsApart (session : Session bodies) : Prop where
  ulid : isUlid session.sessionId = true
  peerId : IsRelative session.peer.peerId
  handle : ∀ kind resourceId handle, session.log? kind resourceId = some handle →
    handle.logRef = ⟨session.peer.peerId, resourceId⟩ ∧
      handle.root = session.rootOf kind resourceId
  relative : ∀ kind resourceId handle, session.log? kind resourceId = some handle →
    IsRelative resourceId
  mapId : ∀ resourceId handle, session.log? .map resourceId = some handle →
    validateRegistryId resourceId = .ok ()
  spelled : ∀ kind resourceId handle other otherId otherHandle, kind ≠ .map → other ≠ .map →
    session.log? kind resourceId = some handle → session.log? other otherId = some otherHandle →
      components otherId = components resourceId → other = kind ∧ otherId = resourceId
  mapFree : ∀ kind resourceId handle mapHandle, session.log? kind resourceId = some handle →
    session.log? .map resourceId = some mapHandle → kind = .map

theorem Registered.log?_cases {resourceId : Text} (hreg : Registered session next kind resourceId)
    {other : LogKind} {otherId : Text} {handle : LogHandle}
    (hlog : next.log? other otherId = some handle) :
    (other = kind ∧ otherId = resourceId ∧ handle.logRef = ⟨session.peer.peerId, resourceId⟩ ∧
        handle.root = session.rootOf kind resourceId) ∨
      session.log? other otherId = some handle := by
  obtain ⟨head, hins⟩ := hreg.inserted
  rw [hins] at hlog
  split at hlog
  · rename_i hnew
    cases hlog
    exact .inl ⟨hnew.1, hnew.2, rfl, rfl⟩
  · exact .inr hlog

theorem Session.rootOf_congr (hroot : next.peer.storageRoot = session.peer.storageRoot)
    (hpeer : next.peer.peerId = session.peer.peerId) (hsess : next.sessionId = session.sessionId) :
    next.rootOf = session.rootOf := by
  funext kind resourceId
  rw [Session.rootOf, Session.rootOf, hroot, hpeer, hsess]

theorem LogsApart.kept (hapt : LogsApart session) (hkept : Kept session next action)
    (hroot : next.peer.storageRoot = session.peer.storageRoot) : LogsApart next where
  ulid := by
    rw [hkept.sessionId]
    exact hapt.ulid
  peerId := by
    rw [hkept.peerId]
    exact hapt.peerId
  handle := by
    rw [hkept.logs, hkept.peerId, Session.rootOf_congr hroot hkept.peerId hkept.sessionId]
    exact hapt.handle
  relative := by
    rw [hkept.logs]
    exact hapt.relative
  mapId := by
    rw [hkept.logs]
    exact hapt.mapId
  spelled := by
    rw [hkept.logs]
    exact hapt.spelled
  mapFree := by
    rw [hkept.logs]
    exact hapt.mapFree

theorem LogsApart.registered {resourceId : Text} (hapt : LogsApart session)
    (hreg : Registered session next kind resourceId)
    (hrel : kind ≠ .map → IsRelative resourceId)
    (hspe : kind ≠ .map → ∀ other otherId handle, other ≠ .map →
      session.log? other otherId = some handle → components otherId = components resourceId →
        other = kind ∧ otherId = resourceId) : LogsApart next where
  ulid := by
    rw [hreg.sessionId]
    exact hapt.ulid
  peerId := by
    rw [hreg.peer]
    exact hapt.peerId
  handle := by
    intro other otherId handle hlog
    rw [Session.rootOf_congr (congrArg _ hreg.peer) (congrArg _ hreg.peer)
      hreg.sessionId, hreg.peer]
    rcases hreg.log?_cases hlog with ⟨rfl, rfl, hnew⟩ | hold
    · exact hnew
    · exact hapt.handle other otherId handle hold
  relative := by
    intro other otherId handle hlog
    rcases hreg.log?_cases hlog with ⟨rfl, rfl, -⟩ | hold
    · by_cases hmap : other = .map
      · exact isRelative_of_valid (hreg.valid hmap)
      · exact hrel hmap
    · exact hapt.relative other otherId handle hold
  mapId := by
    intro otherId handle hlog
    rcases hreg.log?_cases hlog with ⟨hmap, rfl, -⟩ | hold
    · exact hreg.valid hmap.symm
    · exact hapt.mapId otherId handle hold
  spelled := by
    intro left leftId leftHandle right rightId rightHandle hleft hrgt hlef hrig heq
    rcases hreg.log?_cases hlef with ⟨rfl, rfl, -⟩ | hlft
    · rcases hreg.log?_cases hrig with ⟨rfl, rfl, -⟩ | hrgh
      · exact ⟨rfl, rfl⟩
      · exact hspe hleft right rightId rightHandle hrgt hrgh heq
    · rcases hreg.log?_cases hrig with ⟨rfl, rfl, -⟩ | hrgh
      · have hboth := hspe hrgt left leftId leftHandle hleft hlft heq.symm
        exact ⟨hboth.1.symm, hboth.2.symm⟩
      · exact hapt.spelled left leftId leftHandle right rightId rightHandle hleft hrgt
          hlft hrgh heq
  mapFree := by
    intro other otherId handle mapHandle hlog hmpL
    -- The id of the new log is free in the map table, and everywhere if it is a map log.
    rcases hreg.log?_cases hlog with ⟨rfl, rfl, -⟩ | hold
    · rcases hreg.log?_cases hmpL with ⟨hmap, -⟩ | hmapOld
      · exact hmap.symm
      · rw [hreg.free .map (.inr (.inl rfl))] at hmapOld
        cases hmapOld
    · rcases hreg.log?_cases hmpL with ⟨hmap, rfl, -⟩ | hmapOld
      · rw [hreg.free other (.inr (.inr hmap.symm))] at hold
        cases hold
      · exact hapt.mapFree other otherId handle mapHandle hold hmapOld

theorem LogsApart.step (hapt : LogsApart session) (hgrd : Distinguishable session action) :
    LogsApart (session.step action) := by
  rcases session.step_cases action with hkept | ⟨kind, resourceId, hact, hreg⟩
  · apply hapt.kept hkept
    by_cases hroot : ∃ root, action = .setStorageRoot root
    · obtain ⟨root, rfl⟩ := hroot
      exact hgrd.storageRoot root rfl
    · exact hkept.storageRoot fun root hact => hroot ⟨root, hact⟩
  · exact hapt.registered hreg (hgrd.relative kind resourceId hact)
      (hgrd.spelled kind resourceId hact)

theorem LogsApart.distinct (hapt : LogsApart session) {other : LogKind}
    {resourceId otherId : Text} {handle otherHandle : LogHandle}
    (hlog : session.log? kind resourceId = some handle)
    (ho : session.log? other otherId = some otherHandle)
    (hne : (kind, resourceId) ≠ (other, otherId)) :
    handle.root ≠ otherHandle.root ∧ handle.logRef ≠ otherHandle.logRef := by
  obtain ⟨href, hroot⟩ := hapt.handle kind resourceId handle hlog
  obtain ⟨hotf, hott⟩ := hapt.handle other otherId otherHandle ho
  have hrel := hapt.relative kind resourceId handle hlog
  have hote := hapt.relative other otherId otherHandle ho
  rw [href, hroot, hotf, hott, Session.rootOf, Session.rootOf]
  by_cases hmap : kind = .map
  · subst hmap
    by_cases hotp : other = .map
    · subst hotp
      have hids : resourceId ≠ otherId := fun heq => hne (heq ▸ rfl)
      constructor
      · rw [if_pos rfl, if_pos rfl, mapLogRoot_eq hapt.peerId hrel, mapLogRoot_eq hapt.peerId hote]
        intro heq
        exact hids (components_injective_of_valid (hapt.mapId resourceId handle hlog)
          (hapt.mapId otherId otherHandle ho) (append_cancel_left heq))
      · intro heq
        exact hids (congrArg LogRef.resourceId heq)
    · constructor
      · rw [if_pos rfl, if_neg hotp]
        exact (logRoot_ne_mapLogRoot hapt.ulid hapt.peerId hote hrel).symm
      · intro heq
        have hids : resourceId = otherId := congrArg LogRef.resourceId heq
        subst hids
        exact hotp (hapt.mapFree other resourceId otherHandle handle ho hlog)
  · by_cases hotp : other = .map
    · subst hotp
      constructor
      · rw [if_neg hmap, if_pos rfl]
        exact logRoot_ne_mapLogRoot hapt.ulid hapt.peerId hrel hote
      · intro heq
        have hids : resourceId = otherId := congrArg LogRef.resourceId heq
        subst hids
        exact hmap (hapt.mapFree kind resourceId handle otherHandle hlog ho)
    · have happ : components otherId ≠ components resourceId := by
        intro heq
        obtain ⟨hkin, hids⟩ := hapt.spelled kind resourceId handle other otherId otherHandle
          hmap hotp hlog ho heq
        exact hne (by rw [hkin, hids])
      constructor
      · rw [if_neg hmap, if_neg hotp, logRoot_eq hapt.ulid hapt.peerId hrel,
          logRoot_eq hapt.ulid hapt.peerId hote]
        intro heq
        exact happ (append_cancel_left heq).symm
      · intro heq
        have hids : resourceId = otherId := congrArg LogRef.resourceId heq
        exact happ (by rw [hids])

theorem RegistryStore.valid_of_register {Body : Type} {store next : RegistryStore Body}
    {body : Body} (hrgs : store.register id body disk = .ok next) :
    validateRegistryId id = .ok () := by
  unfold RegistryStore.register at hrgs
  split at hrgs
  · cases hrgs
  · rename_i hid
    exact hid

theorem Session.start_eq_ok {peer : PeerInner bodies} {sessionId : Text}
    {monotonicDisk utcDisk : Except SessionError Unit}
    (hbeg : Session.start peer sessionId monotonicDisk utcDisk = .ok session) :
    session.peer = peer ∧ session.sessionId = sessionId ∧ IsRelative peer.peerId ∧
      ∀ kind resourceId, session.log? kind resourceId = none := by
  rw [Session.start, Checks.bind_eq_ok] at hbeg
  obtain ⟨clocks, hmon, hbeg⟩ := hbeg
  rw [Checks.bind_eq_ok] at hbeg
  obtain ⟨allClocks, -, hbeg⟩ := hbeg
  cases hbeg
  refine ⟨rfl, rfl, ?_, ?_⟩
  · -- The id of the monotonic clock starts with the peer id.
    have hclo := isRelative_of_valid (RegistryStore.valid_of_register hmon)
    intro hhead
    apply hclo
    rw [append_assoc, append_assoc, head?_append, hhead]
    rfl
  · intro kind resourceId
    cases kind <;> simp [Session.log?]

theorem LogsApart.of_start {peer : PeerInner bodies} {sessionId : Text}
    {monotonicDisk utcDisk : Except SessionError Unit} (hulid : isUlid sessionId = true)
    (hbeg : Session.start peer sessionId monotonicDisk utcDisk = .ok session) :
    LogsApart session := by
  obtain ⟨hpeer, hsess, hrel, hnone⟩ := Session.start_eq_ok hbeg
  have habs : ∀ {kind resourceId handle}, session.log? kind resourceId ≠ some handle := by
    intro kind resourceId handle hlog
    rw [hnone] at hlog
    cases hlog
  exact
    { ulid := by rw [hsess]; exact hulid
      peerId := by rw [hpeer]; exact hrel
      handle := fun _ _ _ hlog => absurd hlog habs
      relative := fun _ _ _ hlog => absurd hlog habs
      mapId := fun _ _ hlog => absurd hlog habs
      spelled := fun _ _ _ _ _ _ _ _ hlog => absurd hlog habs
      mapFree := fun _ _ _ _ hlog => absurd hlog habs }

/-- Logs with ids apart have different storage roots and names. -/
theorem registered_logs_distinct (peer : PeerInner bodies) (sessionId : Text)
    (monotonicDisk utcDisk : Except SessionError Unit) (session last : Session bodies)
    (actions : List (Action bodies)) (hulid : isUlid sessionId = true)
    (hstart : Session.start peer sessionId monotonicDisk utcDisk = .ok session)
    (hguard : GuardedRun (fun session action => some (session.step action)) session
      Distinguishable actions)
    (hrun : session.run actions = some last) :
    ∀ kind resourceId handle other otherId otherHandle,
      last.log? kind resourceId = some handle → last.log? other otherId = some otherHandle →
        (kind, resourceId) ≠ (other, otherId) →
          handle.root ≠ otherHandle.root ∧ handle.logRef ≠ otherHandle.logRef := by
  have hapart : LogsApart last := by
    apply invariant_of_guardedRun (LogsApart.of_start hulid hstart) _ hguard hrun
    intro state action next hstate haction hnext
    cases hnext
    exact hstate.step haction
  intro kind resourceId handle other otherId otherHandle hlog hother hne
  exact hapart.distinct hlog hother hne

def sampleHash : Text := "0123456789abcdef0123456789abcdef".toList

def sampleBodies : Bodies where
  Sensor := Unit
  Map := Unit
  Clock := Bool
  sensorKindAndType := fun _ => (.camera, "rgb".toList)
  sensorHash := fun _ _ _ => sampleHash
  mapHash := fun _ _ _ => sampleHash
  clockHash := fun _ _ _ _ => sampleHash
  monotonicClock := true
  utcClock := false

def samplePeer : PeerInner sampleBodies where
  peerId := "galbot".toList
  appId := "galbot-ctrl".toList
  storageRoot := ["/".toList, "data".toList]
  sensors := {}
  maps := {}

def sampleUlid : Text := "01ARZ3NDEKTSV4RRFFQ69G5FAV".toList

def sampleReference (id : String) : RegistryRef := ⟨"galbot".toList, id.toList, sampleHash⟩

def samplePoseSpec (fromId toId : String) : PoseLogSpec where
  fromFrame := sampleReference fromId
  toFrame := sampleReference toId
  clock := sampleReference "monotonic"
  source := .manual
  writerMode := .rigid
  expectedRateHz := 1
  head := .fixed
  segmentDuration := 1000
  retention := 0

def sampleTimeSpec (fromId toId : String) : TimeTransformLogSpec where
  fromClock := sampleReference fromId
  toClock := sampleReference toId
  source := .localClockRead
  head := .fixed
  segmentDuration := 1000
  retention := 0

def sampleActions (fromClock toClock : String) : List (Action sampleBodies) :=
  [.registerPoseLog (samplePoseSpec "base" "camera") (.ok ()),
    .registerTimeTransformLog (sampleTimeSpec fromClock toClock) (.ok ())]

theorem Distinguishable.of_log {resourceId : Text} (hact : action.log? = some (kind, resourceId))
    (hrel : IsRelative resourceId)
    (hspe : ∀ other otherId handle, session.log? other otherId = some handle →
      components otherId ≠ components resourceId) : Distinguishable session action where
  storageRoot := by
    rintro root rfl
    cases hact
  relative := by
    intro found foundId hf _
    cases hact.symm.trans hf
    exact hrel
  spelled := by
    intro found foundId hf _ other otherId handle _ hlog heq
    cases hact.symm.trans hf
    exact absurd heq (hspe other otherId handle hlog)

theorem registered_logs_distinct_sample : ∃ session last,
      Session.start samplePeer sampleUlid (.ok ()) (.ok ()) = .ok session ∧
        session.run (sampleActions "device" "utc") = some last ∧
        (last.log? .pose "base->camera".toList).isSome = true ∧
        (last.log? .timeTransform "device->utc".toList).isSome = true ∧
        ∀ kind resourceId handle other otherId otherHandle,
          last.log? kind resourceId = some handle → last.log? other otherId = some otherHandle →
            (kind, resourceId) ≠ (other, otherId) →
              handle.root ≠ otherHandle.root ∧ handle.logRef ≠ otherHandle.logRef := by
  obtain ⟨session, hstart⟩ :
      ∃ session, Session.start samplePeer sampleUlid (.ok ()) (.ok ()) = .ok session := ⟨_, rfl⟩
  obtain ⟨-, -, -, hnone⟩ := Session.start_eq_ok hstart
  have hguard : GuardedRun (fun session action => some (session.step action)) session
      Distinguishable (sampleActions "device" "utc") := by
    have hfirst : ∀ other otherId handle, session.log? other otherId = some handle → False := by
      intro other otherId handle hlog
      rw [hnone] at hlog
      cases hlog
    apply GuardedRun.cons
    · apply Distinguishable.of_log rfl (by unfold IsRelative; decide)
      intro other otherId handle hlog
      exact (hfirst other otherId handle hlog).elim
    · intro next hnext
      refine GuardedRun.cons ?_ fun last _ => GuardedRun.nil _ last _
      apply Distinguishable.of_log rfl (by unfold IsRelative; decide)
      intro other otherId handle hlog
      cases hnext
      rcases session.step_cases _ with hkept | ⟨kind, resourceId, haction, hregistered⟩
      · rw [hkept.logs] at hlog
        exact (hfirst other otherId handle hlog).elim
      · rcases hregistered.log?_cases hlog with ⟨-, hid, -⟩ | hold
        · cases haction
          rw [hid]
          decide
        · exact (hfirst other otherId handle hold).elim
  refine ⟨session, _, hstart, rfl, ?_, ?_, ?_⟩
  · cases hstart
    rfl
  · cases hstart
    rfl
  · exact registered_logs_distinct samplePeer sampleUlid (.ok ()) (.ok ()) session _ _ (by decide)
      hstart hguard rfl

/-- A pose log and a transform log of the same ids share root and name. -/
theorem registered_logs_collide : ∃ session last handle otherHandle,
      Session.start samplePeer sampleUlid (.ok ()) (.ok ()) = .ok session ∧
        session.run (sampleActions "base" "camera") = some last ∧
        last.log? .pose "base->camera".toList = some handle ∧
        last.log? .timeTransform "base->camera".toList = some otherHandle ∧
        handle.root = otherHandle.root ∧ handle.logRef = otherHandle.logRef := by
  refine ⟨_, _, _, _, rfl, rfl, rfl, rfl, rfl, rfl⟩

end AukiSdk.Recording
