import AukiSdk.Foundation.Run
import Mathlib

/-!
# The live voxel mapper

`VoxelMapperRunner::run` and its worker thread as interleaved steps.
-/

namespace AukiSdk.Mappers

structure TimedSdkSample (Payload : Type) where
  timestampNs : ℤ
  payload : Payload
  deriving DecidableEq

structure VoxelJob (Cloud Pose : Type) where
  timestampNs : ℤ
  pointCloud : Cloud
  pose : Pose
  deriving DecidableEq

structure VoxelWorkerOutput (Update : Type) where
  timestampNs : ℤ
  update : Update
  deriving DecidableEq

inductive VoxelMapperRunError where
  | outOfOrderPointCloud (previous received : ℤ)
  | outOfOrderPose (previous received : ℤ)
  /-- `validate_pose` or `interpolate_pose` refused. -/
  | pose (reason : String)
  | pointCloudInput (reason : String)
  | poseInput (reason : String)
  | sink (reason : String)
  | voxelizer (reason : String)
  | workerStopped
  | workerPanicked
  deriving DecidableEq

/-- The counts of the report. -/
structure VoxelMapperRunReport where
  pointCloudsReceived : ℕ
  posesReceived : ℕ
  posesDroppedForBackpressure : ℕ
  mapUpdatesWritten : ℕ
  pointCloudsWithoutPose : ℕ
  pointCloudsDroppedForBackpressure : ℕ
  pointCloudsDroppedForWorkerBackpressure : ℕ
  deriving DecidableEq

/-- The configuration; the rest is what the runner is given. -/
structure VoxelMapperRunner (Cloud Pose Update Filter : Type) where
  maximumPendingPointClouds : ℕ
  maximumBufferedPoses : ℕ
  /-- `Voxelizer::map_point_cloud` with the layout and the deltas. -/
  mapPointCloud : Cloud → Pose → Except String Update
  /-- `VoxelPersistenceFilter::new`, if there is persistence, and `apply`. -/
  persistence : Option Filter
  filterApply : Filter → ℤ → Update → Filter × Update
  /-- `voxel_chunks.is_empty()`. -/
  isEmpty : Update → Bool
  validatePose : Pose → Except VoxelMapperRunError Unit
  interpolatePose : TimedSdkSample Pose → TimedSdkSample Pose → ℤ →
    Except VoxelMapperRunError Pose

variable {Cloud Pose Update Filter : Type}

variable (runner : VoxelMapperRunner Cloud Pose Update Filter)

/-- The oldest pose leaves a full buffer. -/
def boundPoses (samples : List (TimedSdkSample Pose)) : List (TimedSdkSample Pose) × Bool :=
  if runner.maximumBufferedPoses < samples.length then (samples.drop 1, true)
  else (samples, false)

/-- `PoseBuffer::push`. -/
def pushPose (samples : List (TimedSdkSample Pose)) (sample : TimedSdkSample Pose) :
    Except VoxelMapperRunError (List (TimedSdkSample Pose) × Bool) :=
  match runner.validatePose sample.payload with
  | .error error => .error error
  | .ok () =>
    match samples.getLast? with
    | none => .ok (boundPoses runner (samples ++ [sample]))
    | some last =>
      if sample.timestampNs < last.timestampNs then
        .error (.outOfOrderPose last.timestampNs sample.timestampNs)
      else if sample.timestampNs = last.timestampNs then
        .ok (boundPoses runner (samples.dropLast ++ [sample]))
      else .ok (boundPoses runner (samples ++ [sample]))

inductive PoseResolution (Pose : Type) where
  | ready (pose : Pose)
  | beforeAvailableRange
  | waiting

/-- `PoseBuffer::resolve` drops a pose when the next one is early enough. -/
def advancePoses (timestampNs : ℤ) : List (TimedSdkSample Pose) → List (TimedSdkSample Pose)
  | first :: second :: rest =>
    if second.timestampNs ≤ timestampNs then advancePoses timestampNs (second :: rest)
    else first :: second :: rest
  | samples => samples

/-- The rest of `PoseBuffer::resolve`. -/
def resolvePose (timestampNs : ℤ) :
    List (TimedSdkSample Pose) → Except VoxelMapperRunError (PoseResolution Pose)
  | [] => .ok .waiting
  | before :: rest =>
    if timestampNs < before.timestampNs then .ok .beforeAvailableRange
    else if timestampNs = before.timestampNs then .ok (.ready before.payload)
    else
      match rest with
      | [] => .ok .waiting
      | after :: _ => (runner.interpolatePose before after timestampNs).map .ready

structure LatestVoxelJobState (Cloud Pose : Type) where
  pending : Option (VoxelJob Cloud Pose)
  closed : Bool

/-- `LatestVoxelJobSlot::cancel`. -/
def LatestVoxelJobState.cancelled : LatestVoxelJobState Cloud Pose where
  pending := none
  closed := true

/-- Where `run_voxel_worker` is. -/
inductive WorkerPhase (Cloud Pose Update : Type) where
  | receiving
  | voxelizing (job : VoxelJob Cloud Pose)
  | sending (result : Except String (VoxelWorkerOutput Update))
  /-- A failed result was sent, or the run is gone. -/
  | canceling
  | exited
  | panicked

/-- The worker stops after a failed result. -/
def WorkerPhase.afterSend :
    Except String (VoxelWorkerOutput Update) → WorkerPhase Cloud Pose Update
  | .error _ => .canceling
  | .ok _ => .receiving

/-- Where `run` is. -/
inductive RunPhase (Update : Type) where
  | resolving
  | selecting
  | appending (output : VoxelWorkerOutput Update)
  | joining (result : Except VoxelMapperRunError Unit)
  | returned (result : Except VoxelMapperRunError Unit)
  deriving DecidableEq

/-- What was received, submitted, voxelized and appended, oldest first. -/
structure RunHistory (Cloud Pose Update : Type) where
  points : List (TimedSdkSample Cloud)
  poses : List (TimedSdkSample Pose)
  aligned : List (VoxelJob Cloud Pose)
  /-- With the update that the filter left. -/
  voxelized : List (VoxelJob Cloud Pose × Update)
  appended : List (VoxelWorkerOutput Update)

structure VoxelMapperRun (Cloud Pose Update Filter : Type) where
  report : VoxelMapperRunReport
  poseBuffer : List (TimedSdkSample Pose)
  pending : List (TimedSdkSample Cloud)
  pointsDone : Bool
  posesDone : Bool
  alignmentDone : Bool
  lastPointTimestamp : Option ℤ
  jobs : LatestVoxelJobState Cloud Pose
  /-- The channel, of capacity 1. -/
  updates : List (Except String (VoxelWorkerOutput Update))
  filter : Option Filter
  worker : WorkerPhase Cloud Pose Update
  phase : RunPhase Update
  history : RunHistory Cloud Pose Update

inductive RunLabel (Cloud Pose : Type) where
  /-- One round of `resolve_pending`. -/
  | resolve
  | point (input : Option (Except String (TimedSdkSample Cloud)))
  | pose (input : Option (Except String (TimedSdkSample Pose)))
  | update
  | appendReturned (result : Except String Unit)
  | join
  | workerReceive
  | workerVoxelize
  | workerSend
  | workerCancel
  | workerPanic

namespace VoxelMapperRun

variable (run : VoxelMapperRun Cloud Pose Update Filter)

/-- An error that `?` returns; the guard cancels the worker. -/
def fail (error : VoxelMapperRunError) :
    VoxelMapperRun Cloud Pose Update Filter :=
  { run with jobs := .cancelled, phase := .returned (.error error) }

/-- Cancel the worker and wait for it. -/
def cancelJoin (error : VoxelMapperRunError) :
    VoxelMapperRun Cloud Pose Update Filter :=
  { run with jobs := .cancelled, phase := .joining (.error error) }

def withoutPose (count : ℕ) (pending : List (TimedSdkSample Cloud)) :
    VoxelMapperRun Cloud Pose Update Filter :=
  { run with
    pending := pending
    report := { run.report with
      pointCloudsWithoutPose := run.report.pointCloudsWithoutPose + count } }

def submit (job : VoxelJob Cloud Pose) :
    VoxelMapperRun Cloud Pose Update Filter :=
  if run.jobs.closed = true then run.fail .workerStopped
  else
    { run with
      jobs := { run.jobs with pending := some job }
      report := { run.report with
        pointCloudsDroppedForWorkerBackpressure :=
          run.report.pointCloudsDroppedForWorkerBackpressure +
            if run.jobs.pending.isSome = true then 1 else 0 }
      history := { run.history with aligned := run.history.aligned ++ [job] } }

/-- After `resolve_pending`: the end of the alignment is noticed. -/
def endResolve :
    VoxelMapperRun Cloud Pose Update Filter :=
  if run.alignmentDone = false ∧ run.pointsDone = true ∧
      (run.pending = [] ∨ run.posesDone = true) then
    { run.withoutPose run.pending.length [] with
      jobs := { run.jobs with closed := true }
      alignmentDone := true
      phase := .selecting }
  else { run with phase := .selecting }

variable (runner : VoxelMapperRunner Cloud Pose Update Filter)

/-- One round of `resolve_pending`. -/
def resolve (run : VoxelMapperRun Cloud Pose Update Filter) :
    VoxelMapperRun Cloud Pose Update Filter :=
  match run.pending with
  | [] => run.endResolve
  | pointCloud :: rest =>
    let run := { run with poseBuffer := advancePoses pointCloud.timestampNs run.poseBuffer }
    match resolvePose runner pointCloud.timestampNs run.poseBuffer with
    | .error error => run.fail error
    | .ok .beforeAvailableRange => run.withoutPose 1 rest
    | .ok .waiting => if run.posesDone = true then run.withoutPose 1 rest else run.endResolve
    | .ok (.ready pose) =>
      { run with pending := rest }.submit
        ⟨pointCloud.timestampNs, pointCloud.payload, pose⟩

/-- A point cloud was received. -/
def receivePoint (run : VoxelMapperRun Cloud Pose Update Filter) (sample : TimedSdkSample Cloud) :
    VoxelMapperRun Cloud Pose Update Filter :=
  let received : VoxelMapperRun Cloud Pose Update Filter :=
    { run with
      lastPointTimestamp := some sample.timestampNs
      report := { run.report with pointCloudsReceived := run.report.pointCloudsReceived + 1 }
      pending := run.pending ++ [sample]
      history := { run.history with points := run.history.points ++ [sample] }
      phase := .resolving }
  if runner.maximumPendingPointClouds < received.pending.length then
    { received with
      pending := received.pending.drop 1
      report := { received.report with
        pointCloudsDroppedForBackpressure :=
          received.report.pointCloudsDroppedForBackpressure + 1 } }
  else received

def point (run : VoxelMapperRun Cloud Pose Update Filter) :
    Option (Except String (TimedSdkSample Cloud)) → VoxelMapperRun Cloud Pose Update Filter
  | none => { run with pointsDone := true, phase := .resolving }
  | some (.error error) => run.cancelJoin (.pointCloudInput error)
  | some (.ok sample) =>
    match run.lastPointTimestamp with
    | none => run.receivePoint runner sample
    | some last =>
      if sample.timestampNs < last then
        run.fail (.outOfOrderPointCloud last sample.timestampNs)
      else run.receivePoint runner sample

def pose (run : VoxelMapperRun Cloud Pose Update Filter) :
    Option (Except String (TimedSdkSample Pose)) → VoxelMapperRun Cloud Pose Update Filter
  | none => { run with posesDone := true, phase := .resolving }
  | some (.error error) => run.cancelJoin (.poseInput error)
  | some (.ok sample) =>
    match pushPose runner run.poseBuffer sample with
    | .error error => run.fail error
    | .ok (samples, dropped) =>
      { run with
        poseBuffer := samples
        report := { run.report with
          posesReceived := run.report.posesReceived + 1
          posesDroppedForBackpressure := run.report.posesDroppedForBackpressure +
            if dropped = true then 1 else 0 }
        history := { run.history with poses := run.history.poses ++ [sample] }
        phase := .resolving }

/-- The arm of `updates_rx`; nothing more comes once the worker is gone. -/
def update :
    Option (VoxelMapperRun Cloud Pose Update Filter) :=
  match run.updates with
  | .ok output :: rest => some { run with updates := rest, phase := .appending output }
  | .error error :: rest => some ({ run with updates := rest }.cancelJoin (.voxelizer error))
  | [] =>
    let joining := if run.alignmentDone = true then .ok () else .error .workerStopped
    match run.worker with
    | .exited => some { run with phase := .joining joining }
    | .panicked => some { run with phase := .joining joining }
    | _ => none

/-- The filter, if there is one. -/
def filtered (filter : Option Filter) (timestampNs : ℤ) (update : Update) :
    Option Filter × Update :=
  match filter with
  | none => (none, update)
  | some filter =>
    let applied := runner.filterApply filter timestampNs update
    (some applied.1, applied.2)

/-- The worker maps a point cloud; an empty update is not sent. -/
def voxelize (run : VoxelMapperRun Cloud Pose Update Filter) (job : VoxelJob Cloud Pose) :
    VoxelMapperRun Cloud Pose Update Filter :=
  match runner.mapPointCloud job.pointCloud job.pose with
  | .error error => { run with worker := .sending (.error error) }
  | .ok update =>
    let applied := filtered runner run.filter job.timestampNs update
    { run with
      filter := applied.1
      history := { run.history with
        voxelized := run.history.voxelized ++ [(job, applied.2)] }
      worker :=
        if runner.isEmpty applied.2 = true then .receiving
        else .sending (.ok ⟨job.timestampNs, applied.2⟩) }

/-- `blocking_send` waits for room, and fails once the run has returned. -/
def send (result : Except String (VoxelWorkerOutput Update)) :
    Option (VoxelMapperRun Cloud Pose Update Filter) :=
  match run.phase, run.updates with
  | .returned _, _ => some { run with worker := .canceling }
  | _, [] =>
    some
      { run with
        updates := [result]
        worker := .afterSend result }
  | _, _ :: _ => none

/-- One step of the run or of the worker. -/
def step (run : VoxelMapperRun Cloud Pose Update Filter) (label : RunLabel Cloud Pose) :
    Option (VoxelMapperRun Cloud Pose Update Filter) :=
  match label with
  | .resolve =>
    match run.phase with
    | .resolving => some (run.resolve runner)
    | _ => none
  | .point input =>
    match run.phase with
    | .selecting =>
      if run.pointsDone = false ∧ run.alignmentDone = false then
        some (run.point runner input)
      else none
    | _ => none
  | .pose input =>
    match run.phase with
    | .selecting =>
      if run.posesDone = false ∧ run.alignmentDone = false then some (run.pose runner input)
      else none
    | _ => none
  | .update =>
    match run.phase with
    | .selecting => run.update
    | _ => none
  | .appendReturned result =>
    match run.phase with
    | .appending output =>
      match result with
      | .error error => some (run.cancelJoin (.sink error))
      | .ok () =>
        some
          { run with
            report := { run.report with
              mapUpdatesWritten := run.report.mapUpdatesWritten + 1 }
            history := { run.history with appended := run.history.appended ++ [output] }
            phase := .resolving }
    | _ => none
  | .join =>
    match run.phase, run.worker with
    | .joining result, .exited => some { run with phase := .returned result }
    | .joining _, .panicked => some { run with phase := .returned (.error .workerPanicked) }
    | _, _ => none
  | .workerReceive =>
    match run.worker, run.jobs.pending with
    | .receiving, some job =>
      some { run with jobs := { run.jobs with pending := none }, worker := .voxelizing job }
    | .receiving, none =>
      if run.jobs.closed = true then some { run with worker := .exited } else none
    | _, _ => none
  | .workerVoxelize =>
    match run.worker with
    | .voxelizing job => some (run.voxelize runner job)
    | _ => none
  | .workerSend =>
    match run.worker with
    | .sending result => run.send result
    | _ => none
  | .workerCancel =>
    match run.worker with
    | .canceling => some { run with jobs := .cancelled, worker := .exited }
    | _ => none
  | .workerPanic =>
    match run.worker with
    | .voxelizing _ => some { run with worker := .panicked }
    | _ => none

/-- A run and its worker start. -/
def new (runner : VoxelMapperRunner Cloud Pose Update Filter) :
    VoxelMapperRun Cloud Pose Update Filter where
  report := ⟨0, 0, 0, 0, 0, 0, 0⟩
  poseBuffer := []
  pending := []
  pointsDone := false
  posesDone := false
  alignmentDone := false
  lastPointTimestamp := none
  jobs := ⟨none, false⟩
  updates := []
  filter := runner.persistence
  worker := .receiving
  phase := .resolving
  history := ⟨[], [], [], [], []⟩

end VoxelMapperRun

end AukiSdk.Mappers
